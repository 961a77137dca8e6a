import SP42.Citation.Locate

/-!
When a quote with an ellipsis is located. Each fragment is placed where it first stands behind
the ones before, so that no placement ends earlier; but the first fragment is never placed
anywhere but where it first stands.
-/
namespace SP42.Citation

variable {unicode : Unicode} {quote source text : Text}

/-- A fragment is placed no later than any other placement has it. -/
theorem placeFragment_of_stands {fragment : Text} {placement : Placement} {start : Nat}
    (behind : placement.searchFrom ≤ start) (stands : fragment <+: text.drop start) :
    ∃ next, placeFragment text placement fragment = some next ∧
      next.searchFrom ≤ start + fragment.length := by
  have there : text.drop start =
      (text.drop placement.searchFrom).drop (start - placement.searchFrom) := by
    rw [List.drop_drop, Nat.add_sub_cancel' behind]
  cases found : Search.find fragment (text.drop placement.searchFrom) with
  | none =>
      refine absurd ?_ (Search.find_eq_none.mp found)
      rw [there] at stands
      exact stands.isInfix.trans (List.drop_suffix _ _).isInfix
  | some relative =>
      refine ⟨_, by rw [placeFragment, found]; rfl, ?_⟩
      obtain ⟨-, -, first⟩ := Search.find_eq_some_iff.mp found
      have earliest : relative ≤ start - placement.searchFrom := by
        by_contra later
        exact first _ (Nat.lt_of_not_le later) (there ▸ stands)
      dsimp only
      omega

/-- Where the words have a placement, the search ends no later than it does. -/
theorem placeFragments_of_placed {low stop : Nat} {fragments : List Text} {starts : List Nat}
    (placed : Search.Placed text low fragments starts stop) {placement : Placement}
    (behind : placement.searchFrom ≤ low) :
    ∃ last, fragments.foldlM (placeFragment text) placement = some last ∧
      last.searchFrom ≤ stop := by
  induction placed generalizing placement with
  | nil low => exact ⟨placement, rfl, behind⟩
  | @cons low start stop word words starts after stands rest ih =>
      obtain ⟨next, placed, early⟩ := placeFragment_of_stands (Nat.le_trans behind after) stands
      obtain ⟨last, run, ends⟩ := ih early
      refine ⟨last, ?_, ends⟩
      rw [List.foldlM_cons, placed]
      exact run

/-- The fragments have a placement in the normalized source, in order and without overlap, that
spans no more than the window. -/
def Placeable (unicode : Unicode) (quote source : Text) : Prop :=
  ∃ first starts stop, Search.Placed (normalizeWithMap unicode source).text 0
    (substantialFragments unicode (Text.trim quote)) (first :: starts) stop ∧
    stop ≤ first + maxFragmentSpanChars

/-- Some placement of the fragments ends within the window that begins where the first of them
first stands. -/
def PlaceableFromFirst (unicode : Unicode) (quote source : Text) : Prop :=
  ∃ word others first starts stop,
    substantialFragments unicode (Text.trim quote) = word :: others ∧
    (word <+: (normalizeWithMap unicode source).text.drop first ∧
      ∀ earlier < first, ¬ word <+: (normalizeWithMap unicode source).text.drop earlier) ∧
    Search.Placed (normalizeWithMap unicode source).text 0 (word :: others) starts stop ∧
    stop ≤ first + maxFragmentSpanChars

/-- The first fragment is placed where it first stands, and stays there. -/
theorem placeFragments_first {word : Text} {others : List Text} {last : Placement}
    (run : (word :: others).foldlM (placeFragment text) Placement.start = some last) :
    ∃ first, Search.find word text = some first ∧ last.firstChar = some first ∧
      last.lastEndChar = last.searchFrom := by
  obtain ⟨starts, -, ended, -⟩ := placed_of_run run
  rw [List.foldlM_cons] at run
  obtain ⟨next, step, further⟩ := Option.bind_eq_some_iff.mp run
  obtain ⟨first, found, rfl⟩ := Option.map_eq_some_iff.mp step
  obtain ⟨_, -, -, kept⟩ := placed_of_run further
  refine ⟨first, found, ?_, ended (List.cons_ne_nil _ _)⟩
  rw [kept]
  exact congrArg some (Nat.zero_add first)

theorem offset_of_find {word : Text} (inhabited : word ≠ []) {source : Mapped} {first : Nat}
    (found : Search.find word source.text = some first) : ∃ byte, source.offsets[first]? = some byte := by
  have within := Search.find_add_le found
  have long := List.length_pos_iff.mpr inhabited
  have length : source.offsets.length = source.text.length := by
    rw [Mapped.offsets, Mapped.text, List.length_map, List.length_map]
  exact ⟨_, List.getElem?_eq_getElem (by omega)⟩

/-- The search places the first fragment where it first stands, and ends as early as can be. -/
theorem locateMultiFragment_isSome_iff
    (two : 2 ≤ (substantialFragments unicode (Text.trim quote)).length) :
    (locateMultiFragment unicode (Text.trim quote) (normalizeWithMap unicode source)).isSome = true ↔
      PlaceableFromFirst unicode quote source := by
  obtain ⟨word, others, parts⟩ := List.exists_cons_of_length_pos (Nat.lt_of_lt_of_le Nat.two_pos two)
  rw [Option.isSome_iff_exists, locateMultiFragment, if_neg (Nat.not_lt.mpr two), parts]
  constructor
  · rintro ⟨offset, located⟩
    obtain ⟨last, run, located⟩ := Option.bind_eq_some_iff.mp located
    obtain ⟨first, found, chosen, ended⟩ := placeFragments_first run
    rw [chosen, Option.bind_eq_bind, Option.bind_some, ended] at located
    obtain ⟨starts, placed, -⟩ := placed_of_run run
    obtain ⟨-, stands, earliest⟩ := Search.find_eq_some_iff.mp found
    refine ⟨word, others, first, starts, last.searchFrom, parts, ⟨stands, earliest⟩, placed, ?_⟩
    by_contra far
    rw [if_pos (by omega)] at located
    cases located
  · rintro ⟨_, _, first, starts, stop, same, ⟨stands, earliest⟩, placed, close⟩
    rw [parts] at same
    cases same
    obtain ⟨last, run, ends⟩ := placeFragments_of_placed placed (Nat.le_refl Placement.start.searchFrom)
    obtain ⟨earliest', found, chosen, ended⟩ := placeFragments_first run
    obtain ⟨-, there, before⟩ := Search.find_eq_some_iff.mp found
    have same : earliest' = first := by
      rcases Nat.lt_trichotomy earliest' first with less | same | more
      · exact absurd there (earliest _ less)
      · exact same
      · exact absurd stands (before _ more)
    have inhabited : word ≠ [] := by
      rintro rfl
      have member : [] ∈ substantialFragments unicode (Text.trim quote) := by
        rw [parts]
        exact List.mem_cons_self
      exact absurd (of_decide_eq_true (List.mem_filter.mp member).2) (by decide)
    obtain ⟨byte, mapped⟩ := offset_of_find inhabited found
    refine ⟨byte, ?_⟩
    rw [run, Option.bind_eq_bind, Option.bind_some, chosen, Option.bind_eq_bind, Option.bind_some,
      ended, same, if_neg (by omega), ← same]
    exact mapped

/-- When the quote is located without regard to fragments. -/
def StandsWhole (unicode : Unicode) (quote source : Text) : Prop :=
  Text.trim quote <:+: source ∨
    normalizeForMatch unicode (Text.trim quote) ≠ [] ∧
      normalizeForMatch unicode (Text.trim quote) <:+: (normalizeWithMap unicode source).text

theorem trim_ne_nil (two : 2 ≤ (substantialFragments unicode (Text.trim quote)).length) :
    Text.trim quote ≠ [] := by
  intro empty
  rw [empty] at two
  have few := List.length_filter_le (fun fragment : Text => decide (minFragmentChars ≤ fragment.length))
    ((splitEllipsis []).map (normalizeForMatch unicode))
  have one : (splitEllipsis []).length = 1 := rfl
  rw [List.length_map, one] at few
  exact absurd (Nat.le_trans two few) (by decide)

/-- A quote with two fragments is located exactly if it stands whole, or if some placement ends
within the window that the first fragment opens where it first stands. -/
theorem elided_located_iff (two : 2 ≤ (substantialFragments unicode (Text.trim quote)).length) :
    (locateQuote unicode quote source).isSome = true ↔
      StandsWhole unicode quote source ∨
        normalizeForMatch unicode (Text.trim quote) ≠ [] ∧
          PlaceableFromFirst unicode quote source := by
  rw [locateQuote, if_neg (trim_ne_nil two), StandsWhole]
  cases verbatim : Search.find (Text.trim quote) source with
  | some index =>
      have stands := Search.find_isSome.mp (Option.isSome_of_eq_some verbatim)
      exact iff_of_true rfl (.inl (.inl stands))
  | none =>
      have raw := Search.find_eq_none.mp verbatim
      dsimp only
      by_cases empty : normalizeForMatch unicode (Text.trim quote) = []
      · rw [if_pos empty]
        refine iff_of_false Bool.false_ne_true ?_
        rintro ((stands | ⟨some, -⟩) | ⟨some, -⟩)
        · exact raw stands
        · exact some empty
        · exact some empty
      · rw [if_neg empty]
        cases normal : Search.find (normalizeForMatch unicode (Text.trim quote))
            (normalizeWithMap unicode source).text with
        | some index =>
            obtain ⟨byte, mapped⟩ := offset_of_find empty normal
            have stands := Search.find_isSome.mp (Option.isSome_of_eq_some normal)
            dsimp only
            rw [mapped]
            exact iff_of_true rfl (.inl (.inr ⟨empty, stands⟩))
        | none =>
            have whole := Search.find_eq_none.mp normal
            dsimp only
            rw [locateMultiFragment_isSome_iff two]
            constructor
            · exact fun placed => .inr ⟨empty, placed⟩
            · rintro ((stands | ⟨-, stands⟩) | ⟨-, placed⟩)
              · exact absurd stands raw
              · exact absurd stands whole
              · exact placed

theorem elided_located_near :
    2 ≤ (substantialFragments asciiTables (Text.trim elidedQuote)).length ∧
      (StandsWhole asciiTables elidedQuote elidedSource ∨
        normalizeForMatch asciiTables (Text.trim elidedQuote) ≠ [] ∧
          PlaceableFromFirst asciiTables elidedQuote elidedSource) := by
  have two : 2 ≤ (substantialFragments asciiTables (Text.trim elidedQuote)).length := by
    decide +kernel
  exact ⟨two, (elided_located_iff two).mp (by decide +kernel)⟩

/-- A heading, and the passage far below that begins with the same words. -/
def headedSource : Text :=
  "chapter one ".toList ++ List.replicate 1500 'x' ++ " chapter one and the last page".toList

def headedQuote : Text := "Chapter one ... the last page".toList

/-- The heading takes the first fragment, and the passage is not found. -/
theorem heading_hides_passage :
    2 ≤ (substantialFragments asciiTables (Text.trim headedQuote)).length ∧
      Placeable asciiTables headedQuote headedSource ∧
      (locateQuote asciiTables headedQuote headedSource).isSome = false := by
  have parts : substantialFragments asciiTables (Text.trim headedQuote) =
      ["chapter one".toList, "the last page".toList] := by decide +kernel
  have text : (normalizeWithMap asciiTables headedSource).text = headedSource := by decide +kernel
  refine ⟨by rw [parts]; decide, ⟨1513, [1529], 1542, ?_, by decide⟩, by decide +kernel⟩
  rw [parts, text]
  exact .cons (Nat.zero_le _) (by decide +kernel)
    (.cons (by decide) (by decide +kernel) (.nil _))

end SP42.Citation

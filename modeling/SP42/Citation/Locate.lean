import SP42.Citation.Normalize
import SP42.Lib.Search

/-!
The locator: whether a quote stands in a source, up to artifacts of transcription, and
at which byte. Of a quote with an ellipsis, the fragments that are long enough stand in the
normalized source, in their order and close to each other.
-/
namespace SP42.Citation

def minFragmentChars : Nat := 8

def maxFragmentSpanChars : Nat := 1500

/-- The text after an ellipsis that it begins with: three dots, the character, or a
bracket around either. -/
def afterEllipsis : Text → Option Text
  | '.' :: '.' :: '.' :: rest => some rest
  | '…' :: rest => some rest
  | '[' :: rest =>
      let inner := rest.dropWhile Text.isWhitespace
      let inner := if inner.head? = some '…' then inner.tail else inner
      let inner := (inner.dropWhile Text.isWhitespace).dropWhile (· == '.')
      match inner.dropWhile Text.isWhitespace with
      | ']' :: rest => some rest
      | _ => none
  | _ => none

/-- How many characters the ellipsis takes that a text begins with. -/
def ellipsisLength (text : Text) : Nat :=
  match afterEllipsis text with
  | some rest => text.length - rest.length
  | none => 0

/-- The loop of `Regex::split`, with the characters of a match still to skip and the piece
under way. -/
def splitFrom : Nat → Text → Text → List Text
  | _, piece, [] => [piece]
  | skip + 1, piece, _ :: rest => splitFrom skip piece rest
  | 0, piece, c :: rest =>
      match ellipsisLength (c :: rest) with
      | 0 => splitFrom 0 (piece ++ [c]) rest
      | skip + 1 => piece :: splitFrom skip [] rest

/-- `ELLIPSIS.split`. -/
def splitEllipsis (text : Text) : List Text := splitFrom 0 [] text

/-- How far the fragments of a quote have been placed. -/
structure Placement where
  searchFrom : Nat
  firstChar : Option Nat
  lastEndChar : Nat

def Placement.start : Placement := ⟨0, none, 0⟩

/-- The next fragment, searched after the ones before it. -/
def placeFragment (normalizedSource : Text) (placement : Placement) (fragment : Text) :
    Option Placement :=
  (Search.find fragment (normalizedSource.drop placement.searchFrom)).map fun relative =>
    let startChar := placement.searchFrom + relative
    { searchFrom := startChar + fragment.length
      firstChar := some (placement.firstChar.getD startChar)
      lastEndChar := startChar + fragment.length }

section Locating

variable (unicode : Unicode)

/-- The fragments that take part in a search. -/
def substantialFragments (quote : Text) : List Text :=
  ((splitEllipsis quote).map (normalizeForMatch unicode)).filter
    fun fragment => minFragmentChars ≤ fragment.length

def locateMultiFragment (quote : Text) (source : Mapped) : Option Nat :=
  let fragments := substantialFragments unicode quote
  if fragments.length < 2 then none
  else do
    let placement ← fragments.foldlM (placeFragment source.text) Placement.start
    let first ← placement.firstChar
    if placement.lastEndChar - first > maxFragmentSpanChars then none else source.offsets[first]?

def locateQuote (quote source : Text) : Option Nat :=
  let trimmed := Text.trim quote
  if trimmed = [] then none
  else
    match Search.find trimmed source with
    | some index => some (Bytes.size (source.take index))
    | none =>
        let normalizedQuote := normalizeForMatch unicode trimmed
        if normalizedQuote = [] then none
        else
          let normalizedSource := normalizeWithMap unicode source
          match Search.find normalizedQuote normalizedSource.text with
          | some index => normalizedSource.offsets[index]?
          | none => locateMultiFragment unicode trimmed normalizedSource

end Locating

section Elided

variable (unicode : Unicode) (quote source : Text)

/-- The quote was located, neither as it is nor normalized as a whole. -/
def LocatedElided (offset : Nat) : Prop :=
  locateQuote unicode quote source = some offset ∧ ¬ Text.trim quote <:+: source ∧
    ¬ normalizeForMatch unicode (Text.trim quote) <:+: (normalizeWithMap unicode source).text

/-- The kept fragments of the quote stand in the normalized source in order, without
overlap, none ending more than the span after the first begins, at the byte. -/
def FragmentsStand (keep : Text → Bool) (offset : Nat) : Prop :=
  let fragments := ((splitEllipsis (Text.trim quote)).map (normalizeForMatch unicode)).filter keep
  ∃ first starts stop,
    Search.Placed (normalizeWithMap unicode source).text 0 fragments (first :: starts) stop ∧
    (∀ fragment start, (fragment, start) ∈ fragments.zip (first :: starts) →
      start + fragment.length ≤ first + maxFragmentSpanChars) ∧
    (normalizeWithMap unicode source).offsets[first]? = some offset

/-- The fragments that the locator searches. -/
def isSubstantial (fragment : Text) : Bool := minFragmentChars ≤ fragment.length

/-- The fragments with a letter or a digit. -/
def isWorded (fragment : Text) : Bool := fragment.any unicode.isAlphanumeric

end Elided

variable {unicode : Unicode} {quote source : Text}

/-- One fragment placed after the ones before it. -/
theorem placeFragment_eq {text fragment : Text} {placement next : Placement}
    (step : placeFragment text placement fragment = some next) :
    ∃ start, placement.searchFrom ≤ start ∧ fragment <+: text.drop start ∧
      next = ⟨start + fragment.length, some (placement.firstChar.getD start),
        start + fragment.length⟩ := by
  obtain ⟨relative, found, rfl⟩ := Option.map_eq_some_iff.mp step
  refine ⟨placement.searchFrom + relative, Nat.le_add_right _ _, ?_, rfl⟩
  rw [← List.drop_drop]
  exact Search.prefix_drop_of_find found

/-- The fragments placed so far keep where they stand. -/
theorem placed_of_run {text : Text} {fragments : List Text} {placement last : Placement}
    (run : fragments.foldlM (placeFragment text) placement = some last) :
    ∃ starts, Search.Placed text placement.searchFrom fragments starts last.searchFrom ∧
      (fragments ≠ [] → last.lastEndChar = last.searchFrom) ∧
      last.firstChar = placement.firstChar.or starts.head? := by
  induction fragments generalizing placement with
  | nil =>
      cases run
      exact ⟨[], .nil _, fun inhabited => absurd rfl inhabited, by simp⟩
  | cons fragment rest ih =>
      rw [List.foldlM_cons] at run
      obtain ⟨next, step, further⟩ := Option.bind_eq_some_iff.mp run
      obtain ⟨start, after, stands, rfl⟩ := placeFragment_eq step
      obtain ⟨starts, placed, ended, first⟩ := ih further
      refine ⟨start :: starts, .cons after stands placed, ?_, ?_⟩
      · intro _
        by_cases more : rest = []
        · subst more
          cases further
          rfl
        · exact ended more
      · rw [first]
        cases placement.firstChar <;> rfl

theorem fragmentsStand_of_locateMultiFragment {offset : Nat}
    (located : locateMultiFragment unicode (Text.trim quote) (normalizeWithMap unicode source) =
      some offset) :
    2 ≤ (substantialFragments unicode (Text.trim quote)).length ∧
      FragmentsStand unicode quote source isSubstantial offset := by
  unfold locateMultiFragment at located
  dsimp only at located
  split at located
  · cases located
  · rename_i enough
    obtain ⟨placement, run, located⟩ := Option.bind_eq_some_iff.mp located
    obtain ⟨first, chosen, located⟩ := Option.bind_eq_some_iff.mp located
    split at located
    · cases located
    · rename_i close
      obtain ⟨starts, placed, ended, head⟩ := placed_of_run run
      have inhabited : substantialFragments unicode (Text.trim quote) ≠ [] := by
        intro empty
        simp [empty] at enough
      rw [chosen] at head
      cases starts with
      | nil => cases head
      | cons start starts =>
          cases head
          refine ⟨Nat.not_lt.mp enough, first, starts, placement.searchFrom, placed, ?_, located⟩
          intro fragment at_ member
          have stop := placed.end_le_stop member
          rw [ended inhabited] at close
          omega

theorem locateMultiFragment_of_elided {offset : Nat}
    (elided : LocatedElided unicode quote source offset) :
    locateMultiFragment unicode (Text.trim quote) (normalizeWithMap unicode source) =
      some offset := by
  obtain ⟨located, raw, whole⟩ := elided
  unfold locateQuote at located
  dsimp only at located
  split at located
  · cases located
  · rw [Search.find_eq_none.mpr raw] at located
    dsimp only at located
    split at located
    · cases located
    · rw [Search.find_eq_none.mpr whole] at located
      exact located

/-- Every fragment of at least eight normalized characters stands in the source, and there
are two of them at least. -/
theorem substantial_fragments_stand {offset : Nat}
    (elided : LocatedElided unicode quote source offset) :
    2 ≤ (substantialFragments unicode (Text.trim quote)).length ∧
      FragmentsStand unicode quote source isSubstantial offset :=
  fragmentsStand_of_locateMultiFragment (locateMultiFragment_of_elided elided)

def elidedSource : Text := "The council approved the annual budget on Monday".toList

def elidedQuote : Text := "The council ... never ... approved the annual budget".toList

theorem elided_located : LocatedElided asciiTables elidedQuote elidedSource 0 := by
  have quote : elidedQuote = _ := String.toList_ofList
  have source : elidedSource = _ := String.toList_ofList
  rw [quote, source]
  refine ⟨by decide +kernel, ?_, ?_⟩
  · rw [← Search.find_eq_none]
    decide +kernel
  · rw [← Search.find_eq_none]
    decide +kernel

theorem short_fragment_ignored :
    ∃ offset, LocatedElided asciiTables elidedQuote elidedSource offset ∧
      ¬ FragmentsStand asciiTables elidedQuote elidedSource (isWorded asciiTables) offset := by
  refine ⟨0, elided_located, ?_⟩
  rintro ⟨first, starts, stop, placed, _, _⟩
  have absent : Search.find "never".toList
      (normalizeWithMap asciiTables elidedSource).text = none := by decide +kernel
  exact Search.find_eq_none.mp absent (placed.infix_of_mem (by decide +kernel))

theorem elided_fragments_stand :
    2 ≤ (substantialFragments asciiTables (Text.trim elidedQuote)).length ∧
      FragmentsStand asciiTables elidedQuote elidedSource isSubstantial 0 :=
  substantial_fragments_stand elided_located

end SP42.Citation

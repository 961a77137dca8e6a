import SP42.Citation.Checked
import SP42.Citation.Locate
import SP42.Citation.Units

/-!
Where the locator points: every offset is a character boundary of the source, and a match that
was found in the normalized source begins in the unit that stands there.
-/
namespace SP42.Citation

variable {unicode : Unicode}

section Tokens

/-- The token lies in the text and begins with no space. -/
structure TokenIn (text : Text) (token : SourceToken) : Prop where
  inhabited : token.startChar < token.endChar
  inside : token.endChar ≤ text.length
  solid : ∃ c, text[token.startChar]? = some c ∧ c ≠ ' '

/-- The token under way began before and with no space. -/
def Under (text : Text) (index : Nat) : Option (Nat × Text) → Prop
  | none => True
  | some (start, _) => start < index ∧ ∃ c, text[start]? = some c ∧ c ≠ ' '

/-- Where the next token can begin. -/
def nextStart (index : Nat) : Option (Nat × Text) → Nat
  | none => index
  | some (start, _) => start

/-- The tokens lie in the text, one behind the other. -/
theorem tokenizeFrom_spec {text before rest : Text} {under : Option (Nat × Text)}
    (whole : text = before ++ rest) (state : Under text before.length under) :
    (∀ token ∈ tokenizeFrom unicode before.length under rest,
      TokenIn text token ∧ nextStart before.length under ≤ token.startChar) ∧
    (tokenizeFrom unicode before.length under rest).Pairwise fun a b => a.endChar ≤ b.startChar := by
  induction rest generalizing before under with
  | nil =>
      cases under with
      | none => exact ⟨nofun, .nil⟩
      | some token =>
          obtain ⟨earlier, solid⟩ := state
          rw [List.append_nil] at whole
          refine ⟨?_, List.pairwise_singleton _ _⟩
          intro token member
          rw [List.mem_singleton.mp member, whole]
          exact ⟨⟨earlier, Nat.le_refl _, whole ▸ solid⟩, Nat.le_refl _⟩
  | cons c rest ih =>
      have next : text = (before ++ [c]) ++ rest := by rw [whole]; simp
      have longer : (before ++ [c]).length = before.length + 1 := List.length_append
      have here : text[before.length]? = some c := by rw [whole]; simp
      cases under with
      | none =>
          rw [tokenizeFrom]
          split
          · obtain ⟨each, ordered⟩ := @ih (before ++ [c]) none next trivial
            rw [longer] at each ordered
            exact ⟨fun token member => ⟨(each token member).1, Nat.le_of_succ_le (each token member).2⟩,
              ordered⟩
          · next solid =>
              have begun : Under text (before ++ [c]).length (some (before.length, [c])) :=
                ⟨by omega, c, here, solid⟩
              obtain ⟨each, ordered⟩ := ih next begun
              rw [longer] at each ordered
              exact ⟨each, ordered⟩
      | some token =>
          obtain ⟨start, current⟩ := token
          obtain ⟨earlier, solid⟩ := state
          have inside : before.length ≤ text.length := by rw [whole]; simp
          rw [tokenizeFrom]
          split
          · obtain ⟨each, ordered⟩ := @ih (before ++ [c]) none next trivial
            rw [longer] at each ordered
            constructor
            · intro token member
              rcases List.mem_cons.mp member with rfl | later
              · exact ⟨⟨earlier, inside, solid⟩, Nat.le_refl _⟩
              · obtain ⟨lies, above⟩ := each token later
                have above : before.length + 1 ≤ token.startChar := above
                exact ⟨lies, by dsimp only [nextStart]; omega⟩
            · refine List.pairwise_cons.mpr ⟨?_, ordered⟩
              intro token later
              exact Nat.le_of_succ_le (each token later).2
          · have going : Under text (before ++ [c]).length (some (start, current ++ [c])) :=
              ⟨by omega, solid⟩
            obtain ⟨each, ordered⟩ := ih next going
            rw [longer] at each ordered
            exact ⟨each, ordered⟩

theorem tokenizeSource_spec (text : Text) :
    (∀ token ∈ tokenizeSource unicode text, TokenIn text token) ∧
      (tokenizeSource unicode text).Pairwise fun a b => a.endChar ≤ b.startChar := by
  obtain ⟨each, ordered⟩ := @tokenizeFrom_spec unicode text [] text none rfl trivial
  exact ⟨fun token member => (each token (List.mem_of_mem_filter member)).1,
    ordered.filter _⟩

end Tokens

section Spans

variable {source : Text}

/-- The tokens of a source. -/
abbrev tokensOf (unicode : Unicode) (source : Text) : List SourceToken :=
  tokenizeSource unicode (normalizeWithMap unicode source).text

theorem offset_getElem? {index byte : Nat} :
    (normalizeWithMap unicode source).offsets[index]? = some byte ↔
      ∃ c, (normalizeWithMap unicode source)[index]? = some (c, byte) := by
  rw [Mapped.offsets, List.getElem?_map, Option.map_eq_some_iff]
  constructor
  · rintro ⟨⟨c, _⟩, entry, rfl⟩
    exact ⟨c, entry⟩
  · rintro ⟨c, entry⟩
    exact ⟨_, entry, rfl⟩

theorem text_getElem? {index : Nat} {c : Char} :
    (normalizeWithMap unicode source).text[index]? = some c ↔
      ∃ byte, (normalizeWithMap unicode source)[index]? = some (c, byte) := by
  rw [Mapped.text, List.getElem?_map, Option.map_eq_some_iff]
  constructor
  · rintro ⟨⟨_, byte⟩, entry, rfl⟩
    exact ⟨byte, entry⟩
  · rintro ⟨byte, entry⟩
    exact ⟨_, entry, rfl⟩

/-- A character that is no space stems from the unit at its byte. -/
theorem stems_of_solid {index : Nat} {c : Char}
    (here : (normalizeWithMap unicode source).text[index]? = some c) (solid : c ≠ ' ') :
    ∃ byte, (normalizeWithMap unicode source).offsets[index]? = some byte ∧
      Bytes.Boundary source byte ∧
      StemsFrom unicode source (normalizeWithMap unicode source) index byte := by
  obtain ⟨byte, entry⟩ := text_getElem?.mp here
  refine ⟨byte, offset_getElem?.mpr ⟨c, entry⟩,
    normalizeWithMap_boundary (List.mem_of_getElem? entry), ?_⟩
  rcases (normalizeWithMap_pieces source).entry entry with ⟨space, -⟩ | stems
  · exact absurd space solid
  · exact stems

/-- The end of a span: the byte of the character behind it, or the end of the source. -/
def endByte (unicode : Unicode) (source : Text) (endChar : Nat) : Nat :=
  ((normalizeWithMap unicode source).offsets[endChar]?).getD (Bytes.size source)

theorem endByte_boundary (endChar : Nat) : Bytes.Boundary source (endByte unicode source endChar) := by
  rw [endByte]
  cases there : (normalizeWithMap unicode source).offsets[endChar]? with
  | none => exact Bytes.boundary_size source
  | some byte =>
      obtain ⟨c, entry⟩ := offset_getElem?.mp there
      exact normalizeWithMap_boundary (List.mem_of_getElem? entry)

/-- Bytes of the map are in the order of the characters. -/
theorem le_endByte {startChar endChar byte : Nat} (ordered : startChar < endChar)
    (starts : (normalizeWithMap unicode source).offsets[startChar]? = some byte) :
    byte ≤ endByte unicode source endChar := by
  obtain ⟨c, entry⟩ := offset_getElem?.mp starts
  rw [endByte]
  cases there : (normalizeWithMap unicode source).offsets[endChar]? with
  | none => exact (normalizeWithMap_boundary (List.mem_of_getElem? entry)).le_size
  | some later =>
      obtain ⟨d, other⟩ := offset_getElem?.mp there
      obtain ⟨inside, here⟩ := List.getElem?_eq_some_iff.mp entry
      obtain ⟨within, behind⟩ := List.getElem?_eq_some_iff.mp other
      have sorted := List.pairwise_iff_getElem.mp (@normalizeWithMap_sorted unicode source) startChar
        endChar inside within ordered
      rw [here, behind] at sorted
      exact sorted

/-- The first token of a span begins before the last one ends. -/
theorem starts_before_end {first last : Nat} {a b : SourceToken} (ordered : first ≤ last)
    (here : (tokensOf unicode source)[first]? = some a)
    (there : (tokensOf unicode source)[last]? = some b) : a.startChar < b.endChar := by
  obtain ⟨each, behind⟩ := @tokenizeSource_spec unicode (normalizeWithMap unicode source).text
  rcases Nat.eq_or_lt_of_le ordered with rfl | before
  · rw [here] at there
    cases there
    exact (each a (List.mem_of_getElem? here)).inhabited
  · obtain ⟨inside, same⟩ := List.getElem?_eq_some_iff.mp here
    obtain ⟨within, other⟩ := List.getElem?_eq_some_iff.mp there
    have apart := List.pairwise_iff_getElem.mp behind first last inside within before
    have first := (each a (List.mem_of_getElem? here)).inhabited
    have last := (each b (List.mem_of_getElem? there)).inhabited
    rw [same, other] at apart
    omega

/-- The range of the tokens that the best window matches. -/
theorem bestWindow_range {quoteTokens : List Text} {sourceTokens : List SourceToken}
    {matched first last : Nat}
    (found : bestWindow quoteTokens sourceTokens = some (matched, first, last)) :
    first ≤ last ∧ last < sourceTokens.length ∧
      ∃ token, sourceTokens[first]? = some token ∧ token.cleaned ∈ quoteTokens := by
  obtain ⟨start, window, f, l, examined, aligned, rfl, rfl⟩ := bestWindow_spec found
  obtain ⟨-, -, ordered, inside, token, here, word⟩ := lcsMatch_eq_some aligned
  obtain ⟨same, -⟩ := examined.token (Nat.lt_of_le_of_lt ordered inside)
  exact ⟨Nat.add_le_add_left ordered _, (examined.token inside).2, token, same.trans here, word⟩

/-- The span of a match: it begins in the unit of its first token and ends at a boundary. -/
theorem span_cut {quoteTokens : List Text} {matched first last : Nat}
    (found : bestWindow quoteTokens (tokensOf unicode source) = some (matched, first, last)) :
    ∃ a b byte span, (tokensOf unicode source)[first]? = some a ∧
      (tokensOf unicode source)[last]? = some b ∧ a.cleaned ∈ quoteTokens ∧
      (normalizeWithMap unicode source).offsets[a.startChar]? = some byte ∧
      Bytes.Boundary source byte ∧
      StemsFrom unicode source (normalizeWithMap unicode source) a.startChar byte ∧
      byte ≤ endByte unicode source b.endChar ∧
      Bytes.slice source byte (endByte unicode source b.endChar) = some span := by
  obtain ⟨ordered, inside, a, here, word⟩ := bestWindow_range found
  have there := List.getElem?_eq_getElem inside
  obtain ⟨c, begins, solid⟩ := ((@tokenizeSource_spec unicode
    (normalizeWithMap unicode source).text).1 a (List.mem_of_getElem? here)).solid
  obtain ⟨byte, starts, boundary, stems⟩ := stems_of_solid begins solid
  have low := le_endByte (starts_before_end ordered here there) starts
  obtain ⟨span, cut⟩ := Option.isSome_iff_exists.mp
    (Bytes.slice_of_boundaries boundary (endByte_boundary _) low)
  exact ⟨a, _, byte, span, here, there, word, starts, boundary, stems, low, cut⟩

end Spans

/-- The fuzzy locator never panics, and locates what its model locates. -/
theorem locateQuoteFuzzyRun_eq (quote source : Text) :
    locateQuoteFuzzyRun unicode quote source = orMissing (locateQuoteFuzzy unicode quote source) := by
  rw [locateQuoteFuzzyRun, locateQuoteFuzzy]
  dsimp only
  split
  · rfl
  · rw [normalizeSource_eq, bestWindowRun_eq]
    cases found : bestWindow (tokenizeQuote unicode quote) (tokensOf unicode source) with
    | none => rfl
    | some best =>
        obtain ⟨matched, first, last⟩ := best
        obtain ⟨ordered, inside, -⟩ := bestWindow_range found
        obtain ⟨a, b, byte, span, here, there, -, starts, -, -, -, cut⟩ := span_cut found
        rw [endByte] at cut
        simp only [ok_bind, orMissing_some, Option.bind_eq_bind, Option.bind_some]
        split
        · rfl
        · rw [sliceTokens_eq (Nat.le_succ_of_le ordered) inside, ok_bind, List.drop_take]
          split
          · rfl
          · rw [here, there]
            simp only [orPanic_some, ok_bind, Option.bind_some, starts, orMissing_some, cut]

section Locations

/-- The character of the normalized source at the index stems from the unit at the byte, which is
a character boundary. -/
def PointsTo (unicode : Unicode) (source : Text) (index offset : Nat) : Prop :=
  Bytes.Boundary source offset ∧
    StemsFrom unicode source (normalizeWithMap unicode source) index offset

/-- A word that the locator searches in the normalized source: the quote, or the first of its
fragments. -/
def Searched (unicode : Unicode) (quote word : Text) : Prop :=
  word = normalizeForMatch unicode (Text.trim quote) ∨
    (substantialFragments unicode (Text.trim quote)).head? = some word

theorem solid_of_trim {text rest : Text} {c : Char} (begins : Text.trim text = c :: rest) :
    Text.isWhitespace c = false := by
  obtain ⟨later, whole⟩ : Text.trim text <+: Text.trimStart text := List.rdropWhile_prefix _ _
  have head := List.head?_dropWhile_not Text.isWhitespace text
  rw [begins] at whole
  rw [← Text.trimStart, ← whole] at head
  simpa using head

/-- Where a normalized word stands, its first character points to its unit. -/
theorem points_of_stands {source part word : Text} {index offset : Nat}
    (normalized : word = normalizeForMatch unicode part) (inhabited : word ≠ [])
    (stands : word <+: (normalizeWithMap unicode source).text.drop index)
    (mapped : (normalizeWithMap unicode source).offsets[index]? = some offset) :
    PointsTo unicode source index offset := by
  cases word with
  | nil => exact absurd rfl inhabited
  | cons c rest =>
      obtain ⟨later, whole⟩ := stands
      have here : (normalizeWithMap unicode source).text[index]? = some c := by
        rw [← List.head?_drop, ← whole]
        rfl
      have solid : c ≠ ' ' := by
        rintro rfl
        have visible := solid_of_trim normalized.symm
        revert visible
        decide
      obtain ⟨byte, same, boundary, stems⟩ := stems_of_solid here solid
      rw [mapped] at same
      cases same
      exact ⟨boundary, stems⟩

theorem normalized_of_searched {quote word : Text} (searched : Searched unicode quote word) :
    ∃ part, word = normalizeForMatch unicode part := by
  rcases searched with whole | first
  · exact ⟨_, whole⟩
  · obtain ⟨part, -, same⟩ := List.mem_map.mp (List.mem_of_mem_filter (List.mem_of_head? first))
    exact ⟨part, same.symm⟩

/-- Every fragment that is searched has characters. -/
theorem substantial_ne_nil {quote word : Text} (member : word ∈ substantialFragments unicode quote) :
    word ≠ [] := by
  rintro rfl
  have long := of_decide_eq_true (List.mem_filter.mp member).2
  exact absurd long (by decide)

/-- An offset is where the quote stands verbatim, or where the unit begins that the first
character of the match stems from. -/
theorem locateQuote_offset {quote source : Text} {offset : Nat}
    (located : locateQuote unicode quote source = some offset) :
    Bytes.Boundary source offset ∧
      ((∃ rest, Bytes.sliceFrom source offset = some (Text.trim quote ++ rest)) ∨
        ∃ word index, Searched unicode quote word ∧
          word <+: (normalizeWithMap unicode source).text.drop index ∧
          PointsTo unicode source index offset) := by
  have normalized {word : Text} {index : Nat} (searched : Searched unicode quote word)
      (inhabited : word ≠ []) (stands : word <+: (normalizeWithMap unicode source).text.drop index)
      (mapped : (normalizeWithMap unicode source).offsets[index]? = some offset) :
      Bytes.Boundary source offset ∧
        ((∃ rest, Bytes.sliceFrom source offset = some (Text.trim quote ++ rest)) ∨
          ∃ word index, Searched unicode quote word ∧
            word <+: (normalizeWithMap unicode source).text.drop index ∧
            PointsTo unicode source index offset) := by
    obtain ⟨part, same⟩ := normalized_of_searched searched
    have points := points_of_stands same inhabited stands mapped
    exact ⟨points.1, .inr ⟨word, index, searched, stands, points⟩⟩
  unfold locateQuote at located
  dsimp only at located
  split at located
  · cases located
  · split at located
    · next index found =>
        cases located
        obtain ⟨rest, whole⟩ := Search.append_of_find found
        refine ⟨⟨source.take index, Text.trim quote ++ rest, whole, rfl⟩, .inl ⟨rest, ?_⟩⟩
        exact Bytes.sliceFrom_eq.mpr ⟨source.take index, whole, rfl⟩
    · split at located
      · cases located
      · next inhabited =>
          split at located
          · next index found =>
              exact normalized (.inl rfl) inhabited (Search.prefix_drop_of_find found) located
          · obtain ⟨-, first, starts, stop, placed, -, mapped⟩ :=
              fragmentsStand_of_locateMultiFragment located
            have fragments : substantialFragments unicode (Text.trim quote) =
              ((splitEllipsis (Text.trim quote)).map (normalizeForMatch unicode)).filter
                isSubstantial := rfl
            rw [← fragments] at placed
            cases parts : substantialFragments unicode (Text.trim quote) with
            | nil =>
                rw [parts] at placed
                cases placed
            | cons word others =>
                have member : word ∈ substantialFragments unicode (Text.trim quote) := by
                  rw [parts]
                  exact List.mem_cons_self
                rw [parts] at placed
                cases placed with
                | cons after stands rest =>
                    exact normalized (.inr (congrArg List.head? parts)) (substantial_ne_nil member)
                      stands mapped

/-- A hit begins in the unit of the first token matched, and is a slice of the source. -/
theorem locateQuoteFuzzy_offset {quote source : Text} {hit : FuzzyLocate}
    (located : locateQuoteFuzzy unicode quote source = some hit) :
    (∃ token ∈ tokensOf unicode source, token.cleaned ∈ tokenizeQuote unicode quote ∧
      PointsTo unicode source token.startChar hit.offset) ∧
    ∃ stop span, hit.offset ≤ stop ∧ Bytes.Boundary source stop ∧
      Bytes.slice source hit.offset stop = some span ∧ hit.span = Text.trimEnd span := by
  unfold locateQuoteFuzzy at located
  dsimp only at located
  split at located
  · cases located
  · obtain ⟨⟨matched, first, last⟩, found, located⟩ := Option.bind_eq_some_iff.mp located
    obtain ⟨a, b, byte, span, here, there, word, starts, boundary, stems, low, cut⟩ := span_cut found
    dsimp only at located
    split at located
    · cases located
    · split at located
      · cases located
      · rw [here, there] at located
        simp only [Option.bind_eq_bind, Option.bind_some, starts] at located
        rw [← endByte, cut, Option.bind_some] at located
        cases located
        exact ⟨⟨a, List.mem_of_getElem? here, word, boundary, stems⟩,
          ⟨_, span, low, endByte_boundary _, cut, rfl⟩⟩

variable (unicode)

/-- Neither locator panics; the map has one byte for each character of the normalized text, in
order and each a boundary; an offset is where the quote stands verbatim, or the unit of the first
character matched; and a fuzzy span is a slice between boundaries. -/
theorem located_offsets (quote source : Text) :
    (locateQuoteRun unicode quote source ≠ .error .panic ∧
      locateQuoteFuzzyRun unicode quote source ≠ .error .panic) ∧
    ((normalizeSource unicode source).2.length = (normalizeSource unicode source).1.length ∧
      (normalizeSource unicode source).2.Pairwise (· ≤ ·) ∧
      ∀ byte ∈ (normalizeSource unicode source).2, Bytes.Boundary source byte) ∧
    (∀ offset, locateQuoteRun unicode quote source = .ok offset → Bytes.Boundary source offset ∧
      ((∃ rest, Bytes.sliceFrom source offset = some (Text.trim quote ++ rest)) ∨
        ∃ word index, Searched unicode quote word ∧
          word <+: (normalizeSource unicode source).1.drop index ∧
          PointsTo unicode source index offset)) ∧
    ∀ hit, locateQuoteFuzzyRun unicode quote source = .ok hit →
      (∃ token ∈ tokenizeSource unicode (normalizeSource unicode source).1,
        token.cleaned ∈ tokenizeQuote unicode quote ∧
        PointsTo unicode source token.startChar hit.offset) ∧
      ∃ stop span, hit.offset ≤ stop ∧ Bytes.Boundary source stop ∧
        Bytes.slice source hit.offset stop = some span ∧ hit.span = Text.trimEnd span := by
  rw [locateQuoteRun_eq, locateQuoteFuzzyRun_eq, normalizeSource_eq]
  refine ⟨⟨orMissing_ne_panic _, orMissing_ne_panic _⟩, ⟨?_, ?_, ?_⟩, ?_, ?_⟩
  · dsimp only
    rw [Mapped.offsets, Mapped.text, List.length_map, List.length_map]
  · exact List.pairwise_map.mpr (normalizeWithMap_sorted source)
  · intro byte member
    obtain ⟨entry, inside, same⟩ := List.mem_map.mp member
    exact same ▸ normalizeWithMap_boundary inside
  · intro offset located
    exact locateQuote_offset (orMissing_eq_ok.mp located)
  · intro hit located
    exact locateQuoteFuzzy_offset (orMissing_eq_ok.mp located)

/-- The tables for ASCII text and the combining acute accent. -/
def accentTables : Unicode where
  nfc := id
  toLowercase c := [c.toLower]
  isCombiningMark c := c == '\u0301'
  isAlphanumeric := Char.isAlphanum

/-- A quote that begins with a mark is found verbatim in the middle of a unit. -/
theorem verbatim_inside_unit :
    locateQuoteRun accentTables "\u0301 acute".toList "x\u0301 acute".toList = .ok 1 ∧
      ¬ ∃ unit, UnitAt accentTables "x\u0301 acute".toList 1 unit := by
  refine ⟨by decide +kernel, ?_⟩
  rintro ⟨unit, before, c, rest, whole, size, begins, -⟩
  have cut : "x\u0301 acute".toList = ['x'] ++ "\u0301 acute".toList := by decide
  have one : Bytes.size ['x'] = 1 := by decide
  obtain ⟨rfl, later⟩ := Bytes.cut_unique (whole.symm.trans cut) (size.trans one.symm)
  have mark : c = '\u0301' := by
    have first := congrArg List.head? later
    have known : "\u0301 acute".toList.head? = some '\u0301' := by decide
    rw [known] at first
    exact Option.some.inj first
  rw [mark] at begins
  revert begins
  decide

end Locations

end SP42.Citation

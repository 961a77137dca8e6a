import SP42.Diff.Recognised

/-!
What the hints about additions say of the two texts: only complete constructs were added.
-/
namespace SP42.Diff

open Text (toAsciiLowercase)
open Scan (Inserted)

section Constructs

/-- Characters that no title of a page has. -/
def illegal (c : Char) : Bool := ['#', '<', '>', '[', ']', '{', '}', '|', '\n'].contains c

/-- A citation template, whose name ends behind the opening or goes on with a new word, or a
reference element. -/
def Citation (piece : Text) : Prop :=
  Construct piece ∧ ("\x7b\x7b".toList <+: piece → ∃ opening ∈ templateOpenings, ∃ stop,
    stop ∈ [' ', '_', '\n', '|', '}'] ∧ opening ++ [stop] <+: toAsciiLowercase piece)

/-- A link to a page of a namespace or a wiki, without or with a label. -/
structure TitleLink (named : Text → Prop) (piece : Text) : Prop where
  parts : ∃ space title label, piece = "[[".toList ++ (space ++ ':' :: (title ++ (label ++ "]]".toList))) ∧
    named space ∧ title ≠ [] ∧ (∀ c ∈ title, illegal c = false) ∧
      (label = [] ∨ ∃ text, label = '|' :: text ∧ '[' ∉ text ∧ ']' ∉ text)

def IsCategory (space : Text) : Prop :=
  toAsciiLowercase space ∈ ["category".toList, "catégorie".toList]

/-- Wikilink brackets were put in, and nothing else. -/
def Wrapped (before after : Text) : Prop :=
  ∃ closed, Inserted (· = "]]".toList) before closed ∧ Inserted (· = "[[".toList) closed after

/-- Every hint that is set tells the truth about the two texts. -/
structure Honest (isLanguage : Text → Prop) (before after : Text) (hints : AdditionHints) : Prop where
  link : hints.linkAdditionOnly = true → Wrapped before after
  reference : hints.referenceAdditionOnly = true → Inserted Citation before after
  category : hints.categoryAdditionOnly = true → Inserted (TitleLink IsCategory) before after
  interwiki : hints.interwikiAdditionOnly = true → Inserted (TitleLink isLanguage) before after

/-- Whatever the scanners swallow of the text is complete. -/
structure Complete (isLanguage : Text → Prop) (after : Text) : Prop where
  reference : ∀ piece, .taken piece ∈ Scan.items consumeReference after → Citation piece
  category : ∀ piece, .taken piece ∈ Scan.items (consumeLinkFamily isCategoryLink) after →
    TitleLink IsCategory piece
  interwiki : ∀ piece, .taken piece ∈ Scan.items
    (consumeLinkFamily fun candidate => isInterwikiLink candidate = some true) after →
    TitleLink isLanguage piece

end Constructs

section Honest

/-- A text is what is left of it without a word, with the word inserted. -/
theorem inserted_erase (c : Char) (word text : Text) :
    Inserted (· = c :: word) (Search.erase (c :: word) text) text := by
  induction size : text.length using Nat.strong_induction_on generalizing text with
  | _ n ih =>
      subst size
      cases text with
      | nil => exact .nil
      | cons d text =>
          by_cases here : (c :: word).isPrefixOf (d :: text) = true
          · obtain ⟨rest, whole⟩ := List.isPrefixOf_iff_prefix.mp here
            have starts : (c :: word).isPrefixOf (c :: (word ++ rest)) = true :=
              List.isPrefixOf_iff_prefix.mpr (List.prefix_append (c :: word) rest)
            have erased : Search.erase (c :: word) (c :: word ++ rest) =
                Search.erase (c :: word) rest := by
              rw [List.cons_append, Search.erase, Search.eraseFrom, if_pos starts]
              exact Search.eraseFrom_skip (c :: word) word rest
            have size := congrArg List.length whole
            rw [List.length_append, List.length_cons] at size
            rw [← whole, erased]
            exact .insert rfl (ih rest.length (by omega) rest rfl)
          · have erased : Search.erase (c :: word) (d :: text) = d :: Search.erase (c :: word) text := by
              rw [Search.erase, Search.eraseFrom, if_neg here]
              rfl
            rw [erased]
            exact .keep d (ih text.length (Nat.lt_succ_self _) text rfl)

/-- The link hint needs no condition. -/
theorem link_honest {diff : StructuredDiff} (flagged : (detectLinkAdditionOnly diff).isSome = true) :
    Wrapped (beforeText diff) (afterText diff) := by
  unfold detectLinkAdditionOnly at flagged
  split at flagged
  · cases flagged
  · dsimp only at flagged
    split at flagged
    · next wrapped =>
        rw [← wrapped.2]
        exact ⟨Search.erase "[[".toList (afterText diff), inserted_erase ']' [']'] _,
          inserted_erase '[' ['['] _⟩
    · cases flagged

theorem adds_honest {consume : Text → Option Text} (forward : Scan.Forward consume)
    {Piece : Text → Prop} {before after : Text}
    (complete : ∀ piece, .taken piece ∈ Scan.items consume after → Piece piece)
    (flagged : onlyAdds (Scan.strip consume) before after = true) : Inserted Piece before after := by
  obtain ⟨-, -, removed⟩ := onlyAdds_iff.mp flagged
  rw [← removed]
  exact (Scan.inserted_strip forward after).mono complete

/-- The hints are honest about the texts they are computed from. -/
theorem hints_honest {isLanguage : Text → Prop} {diff : StructuredDiff}
    (complete : Complete isLanguage (afterText diff)) :
    Honest isLanguage (beforeText diff) (afterText diff) (analyzeDiffForScoring diff) := by
  refine ⟨link_honest, ?_, ?_, ?_⟩
  · exact adds_honest consumeReference_forward complete.reference
  · exact adds_honest (consumeLinkFamily_forward _) complete.category
  · exact adds_honest (consumeLinkFamily_forward _) complete.interwiki

theorem diffLines_texts {isAlphanumeric : Char → Bool} {differ : TextDiff}
    (rebuilds : Rebuilds differ.fromLines) {before after : Text} {diff : StructuredDiff}
    (made : diffLines isAlphanumeric differ before after = some diff) :
    beforeText diff = before ∧ afterText diff = after := by
  obtain ⟨segments, highlighted, same⟩ := computeInlineHighlights_returns isAlphanumeric differ
    (collectSegments .lines (differ.fromLines before after)).segments
  rw [collectSegments_changes] at same
  rw [diffLines, highlighted, Option.bind_eq_bind, Option.bind_some] at made
  obtain ⟨hunks, -, made⟩ := Option.bind_eq_some_iff.mp made
  cases made
  obtain ⟨old, new⟩ := rebuilds before after
  exact ⟨(beforeText_eq same).trans old, (afterText_eq same).trans new⟩

theorem diffChars_texts {differ : TextDiff} (rebuilds : Rebuilds differ.fromChars) {before after : Text}
    (oneLine : '\n' ∉ before) (oneLineAfter : '\n' ∉ after) :
    beforeText (diffChars differ before after) = before ∧
      afterText (diffChars differ before after) = after := by
  have same := collectSegments_changes .chars (differ.fromChars before after)
  obtain ⟨old, new⟩ := rebuilds before after
  have kept : ∀ text : Text, '\n' ∉ text → normalizeReconstructedText .chars text = text := by
    intro text outside
    refine List.filter_eq_self.mpr fun c member => decide_eq_true fun newline => ?_
    exact outside (newline ▸ member)
  constructor
  · refine (beforeText_eq same).trans ((congrArg _ old).trans (kept before oneLine))
  · refine (afterText_eq same).trans ((congrArg _ new).trans (kept after oneLineAfter))

end Honest

section Examples

def english (space : Text) : Prop := space = "en".toList

/-- What the scanners keep and take of a page with one reference. -/
theorem sourced_complete : Complete english "Paris<ref>source</ref>".toList := by
  have referenceItems : Scan.items consumeReference "Paris<ref>source</ref>".toList =
      "Paris".toList.map .kept ++ [.taken "<ref>source</ref>".toList] := by decide +kernel
  have categoryItems : Scan.items (consumeLinkFamily isCategoryLink) "Paris<ref>source</ref>".toList =
      "Paris<ref>source</ref>".toList.map .kept := by decide +kernel
  have interwikiItems : Scan.items
      (consumeLinkFamily fun candidate => isInterwikiLink candidate = some true)
      "Paris<ref>source</ref>".toList = "Paris<ref>source</ref>".toList.map .kept := by decide +kernel
  refine ⟨fun piece taken => ?_, fun piece taken => ?_, fun piece taken => ?_⟩
  · rw [referenceItems] at taken
    obtain rfl : piece = "<ref>source</ref>".toList := by simpa using taken
    exact ⟨@construct_plain "source".toList (by decide), fun braces => absurd braces (by decide)⟩
  · rw [categoryItems] at taken
    obtain ⟨c, -, other⟩ := List.mem_map.mp taken
    cases other
  · rw [interwikiItems] at taken
    obtain ⟨c, -, other⟩ := List.mem_map.mp taken
    cases other

/-- A text without an opening keeps its letters. -/
theorem inserted_kept {c : Char} (other : c ∉ ['<', '{']) {before after : Text}
    (inserted : Inserted Construct before (c :: after)) :
    ∃ rest, before = c :: rest ∧ Inserted Construct rest after := by
  generalize whole : c :: after = text at inserted
  cases inserted with
  | nil => cases whole
  | keep d inner =>
      cases whole
      exact ⟨_, rfl, inner⟩
  | insert construct _ =>
      cases construct with
      | reference opens _ _ =>
          obtain ⟨name, attributes, rfl, -⟩ := opens
          cases whole
          exact absurd List.mem_cons_self other
      | template _ _ _ =>
          cases whole
          exact absurd (List.mem_cons_of_mem _ List.mem_cons_self) other

/-- A tag that goes on with a letter is another one. -/
theorem not_construct_named {c : Char} (ink : Text.isWhitespace c = false) (unended : c ≠ '>')
    {piece rest after : Text} (construct : Construct piece)
    (whole : '<' :: 'r' :: 'e' :: 'f' :: c :: after = piece ++ rest) : False := by
  cases construct with
  | reference opens _ _ =>
      obtain ⟨name, attributes, rfl, named, spaced, -⟩ := opens
      have size := congrArg List.length named
      rw [Text.toAsciiLowercase, List.length_map] at size
      obtain ⟨a, b, d, rfl⟩ := List.length_eq_three.mp size
      cases attributes with
      | nil =>
          cases whole
          exact unended rfl
      | cons space attributes =>
          cases whole
          have blank := spaced c rfl
          rw [ink] at blank
          cases blank
  | template _ _ _ => cases whole

end Examples

end SP42.Diff

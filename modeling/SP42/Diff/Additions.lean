import SP42.Diff.Returns
import SP42.Lib.Scan

/-!
The hints that an edit only adds links, references, categories or interwiki links. Each
of them takes the additions out of the text after and compares with the text before.
-/
namespace SP42.Diff

section Consume

/-- A reference tag, up to the first closing tag. -/
def consumeRefTag (value : Text) : Option Text :=
  let lowered := Text.toAsciiLowercase value
  if "<ref".toList.isPrefixOf lowered then
    (Search.find "</ref>".toList lowered).map fun stop => value.drop (stop + "</ref>".length)
  else none

/-- The text behind the braces that bring the depth to zero. -/
def closeBraces : Nat → Text → Option Text
  | depth, '{' :: '{' :: rest => closeBraces (depth + 1) rest
  | depth, '}' :: '}' :: rest => if depth - 1 = 0 then some rest else closeBraces (depth - 1) rest
  | depth, _ :: rest => closeBraces depth rest
  | _, [] => none

def templateOpenings : List Text := ["\x7b\x7bcite", "\x7b\x7bcitation", "\x7b\x7bsfn"].map String.toList

def consumeReferenceTemplate (value : Text) : Option Text :=
  let lowered := Text.toAsciiLowercase value
  if templateOpenings.any fun opening => opening.isPrefixOf lowered then closeBraces 0 value
  else none

def consumeReference (value : Text) : Option Text :=
  (consumeRefTag value).or (consumeReferenceTemplate value)

def removeReferenceConstructs (value : Text) : Text := Scan.strip consumeReference value

def isCategoryLink (candidate : Text) : Bool :=
  let lowered := Text.toAsciiLowercase (Text.trim candidate)
  "[[category:".toList.isPrefixOf lowered || "[[catégorie:".toList.isPrefixOf lowered

/-- A link of the family, up to the first closing brackets. -/
def consumeLinkFamily (predicate : Text → Bool) (value : Text) : Option Text :=
  if "[[".toList.isPrefixOf value then
    (Search.find "]]".toList value).bind fun stop =>
      if predicate (value.take (stop + 2)) then some (value.drop (stop + 2)) else none
  else none

def removeLinkFamily (predicate : Text → Bool) (value : Text) : Text :=
  Scan.strip (consumeLinkFamily predicate) value

end Consume

section Hints

/-- What the three detectors of additions have in common. -/
def onlyAdds (remove : Text → Text) (before after : Text) : Bool :=
  if Text.trim after = [] ∨ before = after then false else remove after = before

def detectReferenceAdditionOnly (before after : Text) : Bool :=
  onlyAdds removeReferenceConstructs before after

def detectCategoryAdditionOnly (before after : Text) : Bool :=
  onlyAdds (removeLinkFamily isCategoryLink) before after

def detectInterwikiAdditionOnly (before after : Text) : Bool :=
  onlyAdds (removeLinkFamily fun candidate => isInterwikiLink candidate = some true) before after

def brackets (text : Text) : Nat := text.countP fun ch => ch == '[' || ch == ']'

def detectLinkAdditionOnly (diff : StructuredDiff) : Option Text :=
  if diff.stats.insertSegments = 0 then none
  else
    let before := beforeText diff
    let after := afterText diff
    let insertedWrapperChars := brackets after - brackets before
    let strippedAfter := Search.erase "]]".toList (Search.erase "[[".toList after)
    if 4 ≤ insertedWrapperChars ∧ strippedAfter = before then
      some ("inserted only wikilink wrapper characters (".toList ++ Text.ofNat insertedWrapperChars ++
        " bracket chars)".toList)
    else none

/-- The hints of a diff that are about additions. -/
structure AdditionHints where
  linkAdditionOnly : Bool
  referenceAdditionOnly : Bool
  categoryAdditionOnly : Bool
  interwikiAdditionOnly : Bool
  deriving DecidableEq

def analyzeDiffForScoring (diff : StructuredDiff) : AdditionHints where
  linkAdditionOnly := (detectLinkAdditionOnly diff).isSome
  referenceAdditionOnly := detectReferenceAdditionOnly (beforeText diff) (afterText diff)
  categoryAdditionOnly := detectCategoryAdditionOnly (beforeText diff) (afterText diff)
  interwikiAdditionOnly := detectInterwikiAdditionOnly (beforeText diff) (afterText diff)

end Hints

section Texts

variable {diff : StructuredDiff} {changes : List Change}

theorem segments_text (segments : List DiffSegment) (kind : DiffSegmentKind) :
    (segments.filter fun segment => segment.kind ≠ kind).flatMap DiffSegment.text =
      textWithout kind (segments.map DiffSegment.change) := by
  unfold textWithout
  rw [List.filter_map, List.flatMap_map]
  rfl

theorem beforeText_eq (same : diff.segments.map DiffSegment.change = changes) :
    beforeText diff = normalizeReconstructedText diff.mode (textWithout .insert changes) := by
  rw [beforeText, segments_text, same]

theorem afterText_eq (same : diff.segments.map DiffSegment.change = changes) :
    afterText diff = normalizeReconstructedText diff.mode (textWithout .delete changes) := by
  rw [afterText, segments_text, same]

/-- Any two texts have a diff. -/
theorem exists_diff (before after : Text) :
    ∃ diff, beforeText diff = before ∧ afterText diff = after := by
  obtain ⟨old, new⟩ := replacing_rebuilds before after
  have same := collectSegments_changes .lines (replacing before after)
  exact ⟨collectSegments .lines (replacing before after), (beforeText_eq same).trans old,
    (afterText_eq same).trans new⟩

end Texts

section Forward

theorem onlyAdds_iff {remove : Text → Text} {before after : Text} :
    onlyAdds remove before after = true ↔
      Text.trim after ≠ [] ∧ before ≠ after ∧ remove after = before := by
  unfold onlyAdds
  split
  · next none =>
      refine iff_of_false Bool.false_ne_true ?_
      rintro ⟨inhabited, different, -⟩
      exact none.elim inhabited different
  · next some =>
      obtain ⟨inhabited, different⟩ := not_or.mp some
      rw [decide_eq_true_iff]
      exact ⟨fun same => ⟨inhabited, different, same⟩, fun found => found.2.2⟩

theorem consumeRefTag_forward : Scan.Forward consumeRefTag := by
  intro text next consumed
  unfold consumeRefTag at consumed
  dsimp only at consumed
  split at consumed
  · obtain ⟨stop, found, rest⟩ := Option.map_eq_some_iff.mp consumed
    refine ⟨text.take (stop + "</ref>".length), ?_, ?_⟩
    · intro nothing
      rcases List.take_eq_nil_iff.mp nothing with short | empty
      · exact absurd short (Nat.succ_ne_zero _)
      · rw [empty] at found
        cases found
    · rw [← rest, List.take_append_drop]
  · cases consumed

theorem closeBraces_forward {depth : Nat} {text next : Text}
    (closed : closeBraces depth text = some next) : ∃ piece, piece ≠ [] ∧ text = piece ++ next := by
  fun_induction closeBraces depth text with
  | case1 depth rest ih =>
      obtain ⟨piece, -, rfl⟩ := ih closed
      exact ⟨'{' :: '{' :: piece, List.cons_ne_nil _ _, rfl⟩
  | case2 depth rest last =>
      cases closed
      exact ⟨['}', '}'], List.cons_ne_nil _ _, rfl⟩
  | case3 depth rest more ih =>
      obtain ⟨piece, -, rfl⟩ := ih closed
      exact ⟨'}' :: '}' :: piece, List.cons_ne_nil _ _, rfl⟩
  | case4 depth c rest _ _ ih =>
      obtain ⟨piece, -, rfl⟩ := ih closed
      exact ⟨c :: piece, List.cons_ne_nil _ _, rfl⟩
  | case5 => cases closed

theorem consumeReferenceTemplate_forward : Scan.Forward consumeReferenceTemplate := by
  intro text next consumed
  unfold consumeReferenceTemplate at consumed
  dsimp only at consumed
  split at consumed
  · exact closeBraces_forward consumed
  · cases consumed

theorem consumeReference_forward : Scan.Forward consumeReference := by
  intro text next consumed
  rcases Option.or_eq_some_iff.mp consumed with tag | ⟨-, template⟩
  · exact consumeRefTag_forward text next tag
  · exact consumeReferenceTemplate_forward text next template

theorem consumeLinkFamily_forward (predicate : Text → Bool) :
    Scan.Forward (consumeLinkFamily predicate) := by
  intro text next consumed
  unfold consumeLinkFamily at consumed
  split at consumed
  · obtain ⟨stop, found, rest⟩ := Option.bind_eq_some_iff.mp consumed
    split at rest
    · cases rest
      refine ⟨text.take (stop + 2), ?_, (List.take_append_drop _ _).symm⟩
      intro nothing
      rcases List.take_eq_nil_iff.mp nothing with short | empty
      · exact absurd short (Nat.succ_ne_zero _)
      · rw [empty] at found
        cases found
    · cases rest
  · cases consumed

end Forward

end SP42.Diff

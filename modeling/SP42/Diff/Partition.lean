import SP42.Diff.Anchors
import SP42.Diff.Returns

/-!
Whether the spans of a highlight partition their text: a stretch between two anchors that
is white space throughout is shown twice, and every other one exactly once.
-/
namespace SP42.Diff

open Total Bytes

/-- What the spans of a segment read, one after the other. -/
def joined (spans : List InlineSpan) : Text := spans.flatMap InlineSpan.text

/-- White space and nothing else, and some of it. -/
def Blank (chunk : Text) : Prop := chunk ≠ [] ∧ ∀ c ∈ chunk, Text.isWhitespace c = true

def BlankRange (text : Text) (range : InlineRange) : Prop :=
  ∃ chunk, Bytes.slice text range.1 range.2 = some chunk ∧ Blank chunk

/-- The stretches of the text that the ranges leave out. -/
abbrev gapsOf (text : Text) (ranges : List InlineRange) : List InlineRange :=
  Ranges.gaps (size text) 0 ranges

section Spans

variable {text : Text} {kind : DiffSegmentKind}

@[simp] theorem joined_nil : joined [] = [] := rfl

@[simp] theorem joined_cons (span : InlineSpan) (spans : List InlineSpan) :
    joined (span :: spans) = span.text ++ joined spans := rfl

@[simp] theorem joined_append (spans others : List InlineSpan) :
    joined (spans ++ others) = joined spans ++ joined others := List.flatMap_append

/-- A condition that fails only where there is nothing to show. -/
theorem spanIf_shows {condition : Prop} [Decidable condition] {before piece after : Text}
    (whole : text = before ++ (piece ++ after)) (needed : ¬ condition → piece = []) :
    Returns (spanIf condition kind text (size before) (size before + size piece)) fun spans =>
      joined spans = piece ∧ (∀ span ∈ spans, span.kind = kind) ∧ (condition → spans ≠ []) := by
  unfold spanIf
  by_cases h : condition
  · have cut : Bytes.slice text (size before) (size before + size piece) = some piece :=
      slice_eq.mpr ⟨before, after, whole, rfl, rfl⟩
    rw [if_pos h, cut]
    exact .pure ⟨by simp, by simp, by simp⟩
  · rw [if_neg h, needed h]
    exact .pure ⟨rfl, nofun, fun met => absurd met h⟩

/-- Around its core, a chunk that is not white space throughout has white space only. -/
theorem solid_core {chunk : Text} (solid : ∃ c ∈ chunk, Text.isWhitespace c = false) :
    ∃ leading core trailing, chunk = leading ++ (core ++ trailing) ∧ core ≠ [] ∧
      Text.trimStart chunk = core ++ trailing ∧ Text.trimEnd chunk = leading ++ core := by
  obtain ⟨c, member, white⟩ := solid
  have front : chunk.takeWhile Text.isWhitespace ++ Text.trimStart chunk = chunk :=
    List.takeWhile_append_dropWhile
  have back : Text.trimEnd chunk ++ chunk.rtakeWhile Text.isWhitespace = chunk :=
    List.rdropWhile_append_rtakeWhile
  have before : c ∉ chunk.takeWhile Text.isWhitespace := fun inside => by
    rw [List.mem_takeWhile_imp inside] at white
    cases white
  have after : c ∉ chunk.rtakeWhile Text.isWhitespace := fun inside => by
    rw [List.mem_rtakeWhile_imp inside] at white
    cases white
  obtain ⟨core, first, second⟩ | ⟨core, first, second⟩ :=
    List.append_eq_append_iff.mp (front.trans back.symm)
  · refine ⟨_, core, _, ?_, ?_, second, first⟩
    · rw [← second, front]
    · rintro rfl
      rw [← back, first, List.append_nil] at member
      exact (List.mem_append.mp member).elim before after
  · rw [← back] at member
    obtain inside | inside := List.mem_append.mp member
    · exact absurd (first ▸ List.mem_append_left core inside) before
    · exact absurd inside after

/-- A chunk of white space is shown twice, any other once. -/
theorem changeSpan_shows {before chunk after : Text} (whole : text = before ++ (chunk ++ after)) :
    Returns (changeSpan text (size before) (size before + size chunk) kind) fun spans =>
      joined spans = (if ∀ c ∈ chunk, Text.isWhitespace c = true then chunk ++ chunk else chunk) ∧
        (∀ span ∈ spans, span.kind = .equal ∨ span.kind = kind) ∧
        ((∀ c ∈ chunk, Text.isWhitespace c = true) ∨ ∃ span ∈ spans, span.kind = kind) := by
  unfold changeSpan
  by_cases empty : chunk = []
  · subst empty
    rw [if_pos (by simp)]
    exact .pure ⟨by simp, nofun, .inl (by simp)⟩
  · have positive := size_pos empty
    have cut : Bytes.slice text (size before) (size before + size chunk) = some chunk :=
      slice_eq.mpr ⟨before, after, whole, rfl, rfl⟩
    rw [if_neg (by omega), cut]
    simp only [Option.bind_eq_bind, Option.bind_some]
    by_cases white : ∀ c ∈ chunk, Text.isWhitespace c = true
    · have front : Text.trimStart chunk = [] := List.dropWhile_eq_nil_iff.mpr white
      have back : Text.trimEnd chunk = [] := List.rdropWhile_eq_nil_iff.mpr white
      rw [front, back, size_nil, Nat.sub_zero, Nat.add_sub_cancel, if_pos white]
      refine (spanIf_shows whole fun none => absurd positive none).bind fun leading first => ?_
      rw [spanIf, if_neg (by omega), Option.bind_some]
      refine (spanIf_shows whole fun none => absurd positive none).bind fun trailing second =>
        .pure ⟨?_, ?_, .inl white⟩
      · simp [first.1, second.1]
      · intro span member
        rw [List.append_nil] at member
        exact .inl ((List.mem_append.mp member).elim (first.2.1 span) (second.2.1 span))
    · have solid : ∃ c ∈ chunk, Text.isWhitespace c = false := by simpa using white
      obtain ⟨leading, core, trailing, rfl, inhabited, front, back⟩ := solid_core solid
      have coreSize := size_pos inhabited
      have leadingSize : size (leading ++ (core ++ trailing)) -
          size (Text.trimStart (leading ++ (core ++ trailing))) = size leading := by
        rw [front, size_append leading]
        omega
      have trailingSize : size (leading ++ (core ++ trailing)) -
          size (Text.trimEnd (leading ++ (core ++ trailing))) = size trailing := by
        rw [back]
        simp only [size_append]
        omega
      have coreStart : size before + size leading = size (before ++ leading) := (size_append _ _).symm
      have coreStop : size before + size (leading ++ (core ++ trailing)) - size trailing =
          size (before ++ leading) + size core := by
        simp only [size_append]
        omega
      have tailStart : size (before ++ leading) + size core = size (before ++ leading ++ core) :=
        (size_append _ _).symm
      have stop : size before + size (leading ++ (core ++ trailing)) =
          size (before ++ leading ++ core) + size trailing := by
        simp only [size_append]
        omega
      rw [leadingSize, trailingSize, coreStop, stop]
      have first := @spanIf_shows text .equal (0 < size leading) _ before leading
        (core ++ trailing ++ after) (by rw [whole]; simp) fun none => by
          by_contra some
          exact none (size_pos some)
      refine first.bind fun leadingSpans first => ?_
      have second := @spanIf_shows text kind
        (size before + size leading < size (before ++ leading) + size core) _ (before ++ leading) core
        (trailing ++ after) (by rw [whole]; simp) fun none => absurd (by omega) none
      rw [coreStart] at second ⊢
      refine second.bind fun coreSpans second => ?_
      have third := @spanIf_shows text .equal (0 < size trailing) _ (before ++ leading ++ core) trailing
        after (by rw [whole]; simp) fun none => by
          by_contra some
          exact none (size_pos some)
      rw [tailStart]
      refine third.bind fun trailingSpans third => .pure ⟨?_, ?_, .inr ?_⟩
      · rw [if_neg white, joined_append, joined_append, first.1, second.1, third.1, List.append_assoc]
      · intro span member
        simp only [List.mem_append] at member
        obtain (inside | inside) | inside := member
        · exact .inl (first.2.1 span inside)
        · exact .inr (second.2.1 span inside)
        · exact .inl (third.2.1 span inside)
      · obtain ⟨span, inside⟩ := List.exists_mem_of_ne_nil _ (second.2.2 (by omega))
        exact ⟨span, by simp [inside], second.2.1 span inside⟩

theorem slice_piece {before piece after : Text} (whole : text = before ++ (piece ++ after)) :
    Bytes.slice text (size before) (size before + size piece) = some piece :=
  slice_eq.mpr ⟨before, after, whole, rfl, rfl⟩

theorem blankRange_iff {before chunk after : Text} (whole : text = before ++ (chunk ++ after)) :
    BlankRange text (size before, size before + size chunk) ↔ Blank chunk := by
  unfold BlankRange
  rw [slice_piece whole]
  simp

/-- What the spans show of the rest of a text with the given gaps. -/
structure Shown (text : Text) (kind : DiffSegmentKind) (rest : Text) (gaps : List InlineRange)
    (spans : List InlineSpan) : Prop where
  kinds : ∀ span ∈ spans, span.kind = .equal ∨ span.kind = kind
  whole : (∀ gap ∈ gaps, ¬ BlankRange text gap) → joined spans = rest
  covers : size rest ≤ size (joined spans)
  longer : (∃ gap ∈ gaps, BlankRange text gap) → size rest < size (joined spans)
  marked : (∀ gap ∈ gaps, ∃ chunk, Bytes.slice text gap.1 gap.2 = some chunk ∧
    ∀ c ∈ chunk, Text.isWhitespace c = true) ∨ ∃ span ∈ spans, span.kind = kind

theorem Shown.chunk {before chunk after : Text} (whole : text = before ++ (chunk ++ after)) :
    Returns (changeSpan text (size before) (size before + size chunk) kind)
      (Shown text kind chunk [(size before, size before + size chunk)]) := by
  refine (changeSpan_shows whole).mono fun spans shows => ?_
  obtain ⟨shown, kinds, marked⟩ := shows
  have blank := @blankRange_iff text before chunk after whole
  refine ⟨kinds, fun solid => ?_, ?_, ?_, ?_⟩
  · have notBlank : ¬ Blank chunk := fun h => solid _ (List.mem_singleton_self _) (blank.mpr h)
    rw [shown]
    split
    · next white =>
        have empty : chunk = [] := by
          by_contra inhabited
          exact notBlank ⟨inhabited, white⟩
        rw [empty]
        rfl
    · rfl
  · rw [shown]
    split
    · rw [size_append]; omega
    · exact le_refl _
  · rintro ⟨gap, member, blanks⟩
    rw [List.mem_singleton.mp member, blank] at blanks
    have positive := size_pos blanks.1
    rw [shown, if_pos blanks.2, size_append]
    omega
  · refine marked.imp_left fun white gap member => ⟨chunk, ?_, white⟩
    rw [List.mem_singleton.mp member]
    exact slice_piece whole

theorem Shown.append {rest later : Text} {gaps gaps' : List InlineRange}
    {spans spans' : List InlineSpan} (first : Shown text kind rest gaps spans)
    (second : Shown text kind later gaps' spans') :
    Shown text kind (rest ++ later) (gaps ++ gaps') (spans ++ spans') where
  kinds span member := (List.mem_append.mp member).elim (first.kinds span) (second.kinds span)
  whole solid := by
    rw [joined_append, first.whole fun gap member => solid gap (List.mem_append_left _ member),
      second.whole fun gap member => solid gap (List.mem_append_right _ member)]
  covers := by
    have := first.covers
    have := second.covers
    rw [joined_append, size_append, size_append]
    omega
  longer := by
    rintro ⟨gap, member, blank⟩
    have := first.covers
    have := second.covers
    rw [joined_append, size_append, size_append]
    obtain early | late := List.mem_append.mp member
    · have := first.longer ⟨gap, early, blank⟩
      omega
    · have := second.longer ⟨gap, late, blank⟩
      omega
  marked := by
    obtain white | ⟨span, member, changed⟩ := first.marked
    · obtain white' | ⟨span, member, changed⟩ := second.marked
      · refine .inl fun gap member => ?_
        exact (List.mem_append.mp member).elim (white gap) (white' gap)
      · exact .inr ⟨span, List.mem_append_right _ member, changed⟩
    · exact .inr ⟨span, List.mem_append_left _ member, changed⟩

/-- An anchor is shown as it is. -/
theorem Shown.anchor {before piece after : Text} (whole : text = before ++ (piece ++ after)) :
    Returns (spanIf (size before < size before + size piece) .equal text (size before)
      (size before + size piece)) (Shown text kind piece []) := by
  refine (spanIf_shows whole fun none => ?_).mono fun spans shows => ?_
  · by_contra inhabited
    have := size_pos inhabited
    omega
  · exact
      { kinds := fun span member => .inl (shows.2.1 span member)
        whole := fun _ => shows.1
        covers := Nat.le_of_eq (congrArg size shows.1.symm)
        longer := by rintro ⟨gap, member, -⟩; cases member
        marked := .inl nofun }

theorem spansFrom_shows {before rest : Text} {ranges : List InlineRange}
    (whole : text = before ++ rest) (ascending : Ranges.Ascending (size before) ranges)
    (held : RangesIn text ranges) :
    Returns (spansFrom text kind (size before) ranges)
      (Shown text kind rest (Ranges.gaps (size text) (size before) ranges)) := by
  induction ranges generalizing before rest with
  | nil =>
      have last := @Shown.chunk text kind before rest [] (by rw [whole, List.append_nil])
      rw [← size_append, ← whole] at last
      exact last
  | cons range ranges ih =>
      obtain ⟨start, stop⟩ := range
      obtain ⟨early, ordered, later⟩ := ascending
      obtain ⟨⟨low, high⟩, others⟩ := List.forall_mem_cons.mp held
      obtain ⟨chunk, after, rfl, rfl⟩ := low.piece whole early
      rw [← List.append_assoc] at whole
      rw [← size_append] at ordered
      obtain ⟨piece, tail, rfl, rfl⟩ := high.piece whole ordered
      have here : text = before ++ (chunk ++ (piece ++ tail)) := by
        rw [whole, List.append_assoc]
      have next : text = before ++ chunk ++ piece ++ tail := by
        rw [whole, List.append_assoc (before ++ chunk)]
      rw [← size_append] at later
      rw [spansFrom]
      refine (Shown.chunk here).bind fun changed first => ?_
      have second := @Shown.anchor text kind (before ++ chunk) piece tail whole
      rw [size_append before] at second
      rw [size_append before]
      refine second.bind fun equal second => ?_
      have third := ih next later others
      rw [size_append, size_append] at third
      refine third.bind fun spans third => .pure ?_
      have all := (first.append second).append third
      rw [List.append_nil, List.append_assoc] at all
      exact all

theorem buildInlineSpans_shows {ranges : List InlineRange} (ascending : Ranges.Ascending 0 ranges)
    (held : RangesIn text ranges) :
    Returns (buildInlineSpansFromEqualRanges text ranges kind)
      (Shown text kind text (gapsOf text ranges)) := by
  have shown := @spansFrom_shows text kind [] text ranges rfl ascending held
  refine shown.bind fun spans shows => .pure ?_
  by_cases none : spans = []
  · -- an empty text has no spans, and one of the changed kind is shown for it
    subst none
    have empty : text = [] := by
      by_contra inhabited
      have := size_pos inhabited
      have := shows.covers
      rw [joined_nil, size_nil] at this
      omega
    rw [if_pos rfl]
    exact
      { kinds := fun span member => .inr (List.mem_singleton.mp member ▸ rfl)
        whole := fun _ => by simp
        covers := by simp
        longer := fun blank => by simpa [empty] using shows.longer blank
        marked := .inr ⟨_, List.mem_singleton_self _, rfl⟩ }
  · rw [if_neg none]
    exact shows

end Spans

section Highlight

variable (isAlphanumeric : Char → Bool) (differ : TextDiff)

/-- The ranges of two texts that count as equal. -/
def equalRanges (before after : Text) : Option (List InlineRange × List InlineRange) := do
  let beforeTokens ← tokenizeInlineAnchors isAlphanumeric before
  let afterTokens ← tokenizeInlineAnchors isAlphanumeric after
  collectEqualAnchorRanges isAlphanumeric before beforeTokens after afterTokens

/-- The texts have anchors, with these ranges. -/
def AnchorPath (before after : Text) (ranges : List InlineRange × List InlineRange) : Prop :=
  equalRanges isAlphanumeric before after = some ranges ∧ ¬ (ranges.1 = [] ∧ ranges.2 = [])

variable {isAlphanumeric} {before after : Text} {ranges : List InlineRange × List InlineRange}

theorem equalRanges_made (h : equalRanges isAlphanumeric before after = some ranges) :
    ∃ beforeTokens afterTokens, tokenizeInlineAnchors isAlphanumeric before = some beforeTokens ∧
      tokenizeInlineAnchors isAlphanumeric after = some afterTokens ∧
      Scanned isAlphanumeric 0 before beforeTokens ∧ Scanned isAlphanumeric 0 after afterTokens ∧
      RangesIn before ranges.1 ∧ RangesIn after ranges.2 ∧
      ∃ anchors, Anchoring beforeTokens afterTokens anchors ranges := by
  obtain ⟨beforeTokens, read, h⟩ := Option.bind_eq_some_iff.mp h
  obtain ⟨afterTokens, read', h⟩ := Option.bind_eq_some_iff.mp h
  have laid := (tokenizeInlineAnchors_returns isAlphanumeric before).of_eq read
  have laid' := (tokenizeInlineAnchors_returns isAlphanumeric after).of_eq read'
  have scanned := (tokenizeInlineAnchors_scanned before).of_eq read
  have scanned' := (tokenizeInlineAnchors_scanned after).of_eq read'
  obtain ⟨inside, inside'⟩ := (collectEqualAnchorRanges_returns laid laid').of_eq h
  exact ⟨beforeTokens, afterTokens, read, read', scanned, scanned', inside, inside',
    collectEqualAnchorRanges_anchoring scanned scanned' h⟩

theorem equalRanges_ascending (h : equalRanges isAlphanumeric before after = some ranges) :
    Ranges.Ascending 0 ranges.1 ∧ Ranges.Ascending 0 ranges.2 := by
  obtain ⟨beforeTokens, afterTokens, -, -, scanned, scanned', -, -, anchors, anchoring⟩ :=
    equalRanges_made h
  rw [anchoring.before, anchoring.after]
  constructor
  · apply mergeTouchingRanges_ascending
    intro range member
    obtain ⟨anchor, listed, rfl⟩ := List.mem_map.mp (List.mem_mergeSort.mp member)
    obtain ⟨phrase, here, -⟩ := anchoring.shares anchor listed
    exact Nat.le_of_lt (scanned.inhabited here)
  · apply mergeTouchingRanges_ascending
    intro range member
    obtain ⟨anchor, listed, rfl⟩ := List.mem_map.mp (List.mem_mergeSort.mp member)
    obtain ⟨phrase, -, there⟩ := anchoring.shares anchor listed
    exact Nat.le_of_lt (scanned'.inhabited there)

/-- On the anchor path both sides are shown by their ranges. -/
theorem computeInlineHighlightPair_shows (path : AnchorPath isAlphanumeric before after ranges) :
    ∃ del ins, computeInlineHighlightPair isAlphanumeric differ before after = some (del, ins) ∧
      Shown before .delete before (gapsOf before ranges.1) del ∧
      Shown after .insert after (gapsOf after ranges.2) ins := by
  obtain ⟨found, some⟩ := path
  obtain ⟨ascending, ascending'⟩ := equalRanges_ascending found
  obtain ⟨-, -, -, -, -, -, inside, inside', -⟩ := equalRanges_made found
  obtain ⟨del, built, shown⟩ := @buildInlineSpans_shows before .delete ranges.1 ascending inside
  obtain ⟨ins, built', shown'⟩ := @buildInlineSpans_shows after .insert ranges.2 ascending' inside'
  obtain ⟨beforeTokens, read, found⟩ := Option.bind_eq_some_iff.mp found
  obtain ⟨afterTokens, read', found⟩ := Option.bind_eq_some_iff.mp found
  refine ⟨del, ins, ?_, shown, shown'⟩
  rw [computeInlineHighlightPair, read, read']
  simp only [Option.bind_eq_bind, Option.bind_some, found]
  rw [if_neg some, built, built']
  rfl

variable (isAlphanumeric before after)

/-- The spans of the anchor path read as the two texts, each of them equal or of its side. -/
def Lossless : Prop :=
  ∀ ranges, AnchorPath isAlphanumeric before after ranges →
    ∃ del ins, computeInlineHighlightPair isAlphanumeric differ before after = some (del, ins) ∧
      joined del = before ∧ joined ins = after ∧
      (∀ span ∈ del, span.kind = .equal ∨ span.kind = .delete) ∧
      ∀ span ∈ ins, span.kind = .equal ∨ span.kind = .insert

/-- No stretch before, between or after the anchors of a text is white space throughout. -/
def SolidGaps : Prop :=
  ∀ ranges, AnchorPath isAlphanumeric before after ranges →
    (∀ gap ∈ gapsOf before ranges.1, ¬ BlankRange before gap) ∧
      ∀ gap ∈ gapsOf after ranges.2, ¬ BlankRange after gap

variable {isAlphanumeric before after}

/-- The gaps decide whether the spans read as the text. -/
theorem Shown.joined_iff {text : Text} {kind : DiffSegmentKind} {gaps : List InlineRange}
    {spans : List InlineSpan} (shown : Shown text kind text gaps spans) :
    joined spans = text ↔ ∀ gap ∈ gaps, ¬ BlankRange text gap := by
  constructor
  · intro same gap member blank
    have longer := shown.longer ⟨gap, member, blank⟩
    rw [same] at longer
    omega
  · exact shown.whole

/-- Highlights are lossless just where no gap is blank. -/
theorem lossless_iff : Lossless isAlphanumeric differ before after ↔
    SolidGaps isAlphanumeric before after := by
  constructor
  · intro lossless ranges path
    obtain ⟨del, ins, built, shown, shown'⟩ := computeInlineHighlightPair_shows differ path
    obtain ⟨del', ins', built', read, read', -⟩ := lossless ranges path
    rw [built] at built'
    cases built'
    exact ⟨shown.joined_iff.mp read, shown'.joined_iff.mp read'⟩
  · intro solid ranges path
    obtain ⟨del, ins, built, shown, shown'⟩ := computeInlineHighlightPair_shows differ path
    obtain ⟨here, there⟩ := solid ranges path
    exact ⟨del, ins, built, shown.joined_iff.mpr here, shown'.joined_iff.mpr there, shown.kinds,
      shown'.kinds⟩

/-- The newline behind the last anchor of a line is shown twice. -/
theorem line_break_doubled : ¬ Lossless Char.isAlphanum ⟨replacing, replacing, replacing⟩
    "Wikipedia\n".toList "Wikipedia!\n".toList := by
  intro lossless
  have path : AnchorPath Char.isAlphanum "Wikipedia\n".toList "Wikipedia!\n".toList
      ([(0, 9)], [(0, 9)]) := ⟨by decide +kernel, by decide⟩
  obtain ⟨del, ins, built, read, -⟩ := lossless _ path
  have shown : computeInlineHighlightPair Char.isAlphanum ⟨replacing, replacing, replacing⟩
      "Wikipedia\n".toList "Wikipedia!\n".toList = some
        ([⟨.equal, "Wikipedia".toList⟩, ⟨.equal, "\n".toList⟩, ⟨.equal, "\n".toList⟩],
          [⟨.equal, "Wikipedia".toList⟩, ⟨.insert, "!".toList⟩, ⟨.equal, "\n".toList⟩]) := by
    decide +kernel
  rw [shown] at built
  cases built
  exact absurd read (by decide)

end Highlight

end SP42.Diff

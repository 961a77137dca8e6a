import Mathlib
import SP42.Diff.Partition

/-!
What a highlight may leave unmarked: anchors share their letters and digits up to the case,
so texts that differ in these have a change that is marked.
-/
namespace SP42.Diff

open Bytes

section Counting

variable {isAlphanumeric : Char → Bool}

/-- How often a letter stands before a position. -/
def countBefore (isAlphanumeric : Char → Bool) (x : Char) (text : Text) (position : Nat) : Int :=
  (((splitAt position text).map fun halves => (letters isAlphanumeric halves.1).count x).getD 0 : Nat)

theorem countBefore_size (x : Char) (before after : Text) :
    countBefore isAlphanumeric x (before ++ after) (size before) =
      ((letters isAlphanumeric before).count x : Nat) := by
  rw [countBefore, splitAt_size]
  rfl

theorem countBefore_slice (x : Char) {text piece : Text} {start stop : Nat}
    (cut : Bytes.slice text start stop = some piece) :
    countBefore isAlphanumeric x text stop - countBefore isAlphanumeric x text start =
      ((letters isAlphanumeric piece).count x : Nat) := by
  obtain ⟨before, after, rfl, rfl, rfl⟩ := slice_eq.mp cut
  rw [countBefore_size, ← List.append_assoc, ← size_append, countBefore_size, letters_append,
    List.count_append]
  omega

/-- Without a mark, the letters of a text are those of its ranges. -/
theorem Shown.count_letters (alphabet : Alphabet isAlphanumeric) {text : Text}
    {kind : DiffSegmentKind} {ranges : List InlineRange} {spans : List InlineSpan}
    (shown : Shown text kind text (gapsOf text ranges) spans)
    (unmarked : ∀ span ∈ spans, span.kind ≠ kind) (x : Char) :
    ((letters isAlphanumeric text).count x : Int) =
      Ranges.growth (countBefore isAlphanumeric x text) ranges := by
  have white : ∀ gap ∈ gapsOf text ranges, ∃ chunk, Bytes.slice text gap.1 gap.2 = some chunk ∧
      ∀ c ∈ chunk, Text.isWhitespace c = true := by
    obtain white | ⟨span, member, changed⟩ := shown.marked
    · exact white
    · exact absurd changed (unmarked span member)
  have flat : Ranges.growth (countBefore isAlphanumeric x text) (gapsOf text ranges) = 0 := by
    apply Ranges.growth_flat
    intro gap member
    obtain ⟨chunk, cut, blank⟩ := white gap member
    have none := alphabet.letters_eq_nil fun c inside => alphabet.white c (blank c inside)
    have grown := @countBefore_slice isAlphanumeric x _ _ _ _ cut
    rw [none, List.count_nil] at grown
    omega
  have whole := @Ranges.growth_gaps (countBefore isAlphanumeric x text) (size text) 0 ranges
  have start := @countBefore_size isAlphanumeric x [] text
  have stop := @countBefore_size isAlphanumeric x text []
  rw [List.append_nil] at stop
  rw [List.nil_append, size_nil] at start
  rw [start, stop, flat] at whole
  simpa [letters, Text.toAsciiLowercase] using whole.symm

theorem merged_growth {total : Nat → Int} {ranges : List InlineRange}
    (apart : ranges.Pairwise Ranges.Apart) (inhabited : ∀ range ∈ ranges, range.1 < range.2) :
    Ranges.growth total (mergeTouchingRanges (ranges.mergeSort rangeLe)) =
      Ranges.growth total ranges := by
  have perm := List.mergeSort_perm ranges rangeLe
  rw [mergeTouchingRanges_growth ((perm.pairwise_iff Ranges.Apart.symm).mpr apart) fun range member =>
    inhabited range (perm.subset member)]
  exact Ranges.growth_perm perm

/-- The letters at an anchor are those of its phrase. -/
theorem Scanned.count_hit (alphabet : Alphabet isAlphanumeric) {text : Text}
    {tokens : List InlineAnchorToken} (h : Scanned isAlphanumeric 0 text tokens) {phrase : Text}
    {hit : InlineNgramHit} (occurs : Occurs tokens phrase hit) (x : Char) :
    countBefore isAlphanumeric x text hit.range.2 - countBefore isAlphanumeric x text hit.range.1 =
      ((letters isAlphanumeric phrase).count x : Nat) := by
  obtain ⟨front, piece, after, whole, -, start, stop, same⟩ := h.occurs occurs
  rw [Nat.zero_add] at start
  have cut : Bytes.slice text hit.start hit.stop = some piece := by
    rw [stop, start]
    exact slice_piece whole
  rw [← same alphabet]
  exact countBefore_slice x cut

end Counting

section Anchors

variable {isAlphanumeric : Char → Bool} {beforeText afterText : Text}
  {beforeTokens afterTokens : List InlineAnchorToken} {anchors : List InlineAnchorCandidate}
  {ranges : List InlineRange × List InlineRange}

/-- The equal ranges of the two sides have the same letters. -/
theorem Anchoring.growth_same (alphabet : Alphabet isAlphanumeric)
    (anchoring : Anchoring beforeTokens afterTokens anchors ranges)
    (scanned : Scanned isAlphanumeric 0 beforeText beforeTokens)
    (scanned' : Scanned isAlphanumeric 0 afterText afterTokens) (x : Char) :
    Ranges.growth (countBefore isAlphanumeric x beforeText) ranges.1 =
      Ranges.growth (countBefore isAlphanumeric x afterText) ranges.2 := by
  rw [anchoring.before, anchoring.after, merged_growth anchoring.beforeApart,
    merged_growth anchoring.afterApart]
  · apply Ranges.growth_paired
    intro anchor member
    obtain ⟨phrase, here, there⟩ := anchoring.shares anchor member
    rw [scanned.count_hit alphabet here, scanned'.count_hit alphabet there]
  · intro range member
    obtain ⟨anchor, listed, rfl⟩ := List.mem_map.mp member
    obtain ⟨phrase, -, there⟩ := anchoring.shares anchor listed
    exact scanned'.inhabited there
  · intro range member
    obtain ⟨anchor, listed, rfl⟩ := List.mem_map.mp member
    obtain ⟨phrase, here, -⟩ := anchoring.shares anchor listed
    exact scanned.inhabited here

/-- The two texts at an anchor have the same letters, in the same order. -/
theorem Shares.letters_same (alphabet : Alphabet isAlphanumeric)
    {candidate : InlineAnchorCandidate} (shares : Shares beforeTokens afterTokens candidate)
    (scanned : Scanned isAlphanumeric 0 beforeText beforeTokens)
    (scanned' : Scanned isAlphanumeric 0 afterText afterTokens) :
    ∃ here there, Bytes.slice beforeText candidate.before.start candidate.before.stop = some here ∧
      Bytes.slice afterText candidate.after.start candidate.after.stop = some there ∧
      letters isAlphanumeric here = letters isAlphanumeric there := by
  obtain ⟨phrase, occurs, occurs'⟩ := shares
  obtain ⟨front, here, after, whole, -, start, stop, same⟩ := scanned.occurs occurs
  obtain ⟨front', there, after', whole', -, start', stop', same'⟩ := scanned'.occurs occurs'
  rw [Nat.zero_add] at start start'
  refine ⟨here, there, ?_, ?_, (same alphabet).trans (same' alphabet).symm⟩
  · rw [stop, start]
    exact slice_piece whole
  · rw [stop', start']
    exact slice_piece whole'

variable (differ : TextDiff)

/-- On the anchor path the equal ranges are merged from pairs of anchors that read as one phrase,
and texts with different letters are not left without a mark. -/
theorem anchors_share_letters (alphabet : Alphabet isAlphanumeric)
    (path : AnchorPath isAlphanumeric beforeText afterText ranges) :
    ∃ beforeTokens afterTokens anchors del ins,
      tokenizeInlineAnchors isAlphanumeric beforeText = some beforeTokens ∧
      tokenizeInlineAnchors isAlphanumeric afterText = some afterTokens ∧
      Anchoring beforeTokens afterTokens anchors ranges ∧
      (∀ anchor ∈ anchors, ∃ here there,
        Bytes.slice beforeText anchor.before.start anchor.before.stop = some here ∧
        Bytes.slice afterText anchor.after.start anchor.after.stop = some there ∧
        letters isAlphanumeric here = letters isAlphanumeric there) ∧
      computeInlineHighlightPair isAlphanumeric differ beforeText afterText = some (del, ins) ∧
      (¬ (letters isAlphanumeric beforeText).Perm (letters isAlphanumeric afterText) →
        ∃ span ∈ del ++ ins, span.kind ≠ .equal) := by
  obtain ⟨beforeTokens, afterTokens, read, read', scanned, scanned', -, -, anchors, anchoring⟩ :=
    equalRanges_made path.1
  obtain ⟨del, ins, built, shown, shown'⟩ := computeInlineHighlightPair_shows differ path
  refine ⟨beforeTokens, afterTokens, anchors, del, ins, read, read', anchoring, ?_, built, ?_⟩
  · intro anchor member
    exact (anchoring.shares anchor member).letters_same alphabet scanned scanned'
  · intro different
    by_contra unmarked
    have equal : ∀ span ∈ del ++ ins, span.kind = .equal := fun span member => by
      by_contra marked
      exact unmarked ⟨span, member, marked⟩
    have deleted : ∀ span ∈ del, span.kind ≠ .delete := fun span member => by
      rw [equal span (List.mem_append_left _ member)]
      decide
    have inserted : ∀ span ∈ ins, span.kind ≠ .insert := fun span member => by
      rw [equal span (List.mem_append_right _ member)]
      decide
    apply different
    rw [List.perm_iff_count]
    intro x
    have here := shown.count_letters alphabet deleted x
    have there := shown'.count_letters alphabet inserted x
    have same := anchoring.growth_same alphabet scanned scanned' x
    omega

end Anchors

theorem alphabet_ascii : Alphabet Char.isAlphanum where
  upper c h := by simp [Char.isAlphanum, Char.isAlpha, h]
  white c h := by
    by_contra letter
    rw [Bool.not_eq_false] at letter
    simp only [Char.isAlphanum, Char.isAlpha, Char.isUpper, Char.isLower, Bool.or_eq_true,
      Bool.and_eq_true, decide_eq_true_eq] at letter
    simp only [Text.isWhitespace, Bool.or_eq_true, Bool.and_eq_true, decide_eq_true_eq,
      beq_iff_eq] at h
    rcases letter with (upper | lower) | digit
    · have low : 65 ≤ c.toNat := upper.1
      have high : c.toNat ≤ 90 := upper.2
      omega
    · have low : 97 ≤ c.toNat := lower.1
      have high : c.toNat ≤ 122 := lower.2
      omega
    · obtain ⟨low, high⟩ : 48 ≤ c.toNat ∧ c.toNat ≤ 57 := Char.isDigit_iff_toNat.mp digit
      omega
  separator := by decide

/-- A word that is added behind an anchor is marked. -/
theorem added_word_marked : ∃ beforeTokens afterTokens anchors del ins,
    tokenizeInlineAnchors Char.isAlphanum "Wikipedia".toList = some beforeTokens ∧
    tokenizeInlineAnchors Char.isAlphanum "Wikipedia is".toList = some afterTokens ∧
    Anchoring beforeTokens afterTokens anchors ([(0, 9)], [(0, 9)]) ∧
    (∀ anchor ∈ anchors, ∃ here there,
      Bytes.slice "Wikipedia".toList anchor.before.start anchor.before.stop = some here ∧
      Bytes.slice "Wikipedia is".toList anchor.after.start anchor.after.stop = some there ∧
      letters Char.isAlphanum here = letters Char.isAlphanum there) ∧
    computeInlineHighlightPair Char.isAlphanum ⟨replacing, replacing, replacing⟩ "Wikipedia".toList
      "Wikipedia is".toList = some (del, ins) ∧
    (¬ (letters Char.isAlphanum "Wikipedia".toList).Perm
        (letters Char.isAlphanum "Wikipedia is".toList) →
      ∃ span ∈ del ++ ins, span.kind ≠ .equal) :=
  anchors_share_letters ⟨replacing, replacing, replacing⟩ alphabet_ascii
    ⟨by decide +kernel, by decide⟩

/-- A capital and a comma that change are left unmarked: every span counts as equal, though the
texts at the anchor differ, and so do the characters that are not white space. -/
theorem capital_unmarked :
    computeInlineHighlightPair Char.isAlphanum ⟨replacing, replacing, replacing⟩
        "Paris, France".toList "paris. France".toList =
      some ([⟨.equal, "Paris, France".toList⟩], [⟨.equal, "paris. France".toList⟩]) ∧
    ¬ ("Paris, France".toList.filter fun c => !Text.isWhitespace c).Perm
      ("paris. France".toList.filter fun c => !Text.isWhitespace c) :=
  ⟨by decide +kernel, by decide +kernel⟩

end SP42.Diff

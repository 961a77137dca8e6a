import Mathlib
import SP42.Diff.Windows
import SP42.Lib.Ranges

/-!
What the anchors of a highlight have in common: tokens are spelled as their text and hold
all of its letters, and an anchor is a run of tokens on either side that reads as the same
phrase.
-/
namespace SP42.Diff

open Total Bytes

section Letters

variable (isAlphanumeric : Char → Bool)

/-- The letters and digits of a text, in lower case. -/
def letters (text : Text) : Text := (Text.toAsciiLowercase text).filter isAlphanumeric

/-- The documented behaviour of `char::is_alphanumeric` that the phrases rest on. -/
structure Alphabet : Prop where
  upper : ∀ c : Char, c.isUpper = true → isAlphanumeric c = true
  white : ∀ c : Char, Text.isWhitespace c = true → isAlphanumeric c = false
  separator : isAlphanumeric '\x1f' = false

variable {isAlphanumeric}

@[simp] theorem letters_append (before after : Text) :
    letters isAlphanumeric (before ++ after) =
      letters isAlphanumeric before ++ letters isAlphanumeric after := by
  simp [letters, Text.toAsciiLowercase]

theorem toLower_of_not_upper {c : Char} (h : c.isUpper = false) : c.toLower = c := by
  unfold Char.toLower
  rw [dif_neg]
  simpa [Char.isUpper] using h

theorem toLower_toLower (c : Char) : c.toLower.toLower = c.toLower := by
  apply toLower_of_not_upper
  unfold Char.toLower
  split
  · next upper =>
      have low : 65 ≤ c.val.toNat := upper.1
      have high : c.val.toNat ≤ 90 := upper.2
      rw [Char.isUpper, decide_eq_false_iff_not]
      rintro ⟨-, last⟩
      have value : (c.val.toNat + 32) % 2 ^ 32 ≤ 90 := last
      omega
  · next other => simpa [Char.isUpper] using other

theorem letters_toAsciiLowercase (text : Text) :
    letters isAlphanumeric (Text.toAsciiLowercase text) = letters isAlphanumeric text := by
  unfold letters Text.toAsciiLowercase
  rw [List.map_map]
  congr 1
  exact List.map_congr_left fun c _ => toLower_toLower c

/-- What is no letter has none in lower case either. -/
theorem Alphabet.letters_eq_nil (alphabet : Alphabet isAlphanumeric) {text : Text}
    (plain : ∀ c ∈ text, isAlphanumeric c = false) : letters isAlphanumeric text = [] := by
  unfold letters Text.toAsciiLowercase
  rw [List.filter_eq_nil_iff]
  intro lowered member
  obtain ⟨c, inside, rfl⟩ := List.mem_map.mp member
  have other := plain c inside
  have lower : c.isUpper = false := by
    cases upper : c.isUpper with
    | false => rfl
    | true => rw [alphabet.upper c upper] at other; cases other
  simp [toLower_of_not_upper lower, other]

end Letters

section Scanned

variable (isAlphanumeric : Char → Bool)

/-- The tokens of a text that begins at `offset`: each is spelled as the text, and no letter
stands outside of them. -/
def Scanned : Nat → Text → List InlineAnchorToken → Prop
  | _, rest, [] => ∀ c ∈ rest, isAlphanumeric c = false
  | offset, rest, token :: tokens => ∃ gap raw later, rest = gap ++ (raw ++ later) ∧
      (∀ c ∈ gap, isAlphanumeric c = false) ∧ raw ≠ [] ∧
      token = ⟨Text.toAsciiLowercase raw, offset + size gap, offset + size gap + size raw⟩ ∧
      Scanned token.stop later tokens

variable {isAlphanumeric}

theorem Scanned.skip {offset : Nat} {c : Char} {rest : Text} {tokens : List InlineAnchorToken}
    (plain : isAlphanumeric c = false) (h : Scanned isAlphanumeric (offset + c.utf8Size) rest tokens) :
    Scanned isAlphanumeric offset (c :: rest) tokens := by
  cases tokens with
  | nil => exact List.forall_mem_cons.mpr ⟨plain, h⟩
  | cons token tokens =>
      obtain ⟨gap, raw, later, rfl, outside, inhabited, rfl, scanned⟩ := h
      refine ⟨c :: gap, raw, later, rfl, List.forall_mem_cons.mpr ⟨plain, outside⟩, inhabited, ?_,
        scanned⟩
      rw [size_cons, Nat.add_assoc offset]

theorem Scanned.token {offset : Nat} {raw later : Text} {tokens : List InlineAnchorToken}
    (inhabited : raw ≠ []) (h : Scanned isAlphanumeric (offset + size raw) later tokens) :
    Scanned isAlphanumeric offset (raw ++ later)
      (⟨Text.toAsciiLowercase raw, offset, offset + size raw⟩ :: tokens) :=
  ⟨[], raw, later, rfl, nofun, inhabited, rfl, h⟩

theorem tokenizeFrom_scanned {text before rest : Text} {fuel : Nat} (whole : text = before ++ rest)
    (enough : size text < fuel + size before) :
    Returns (tokenizeFrom isAlphanumeric text fuel (size before))
      (Scanned isAlphanumeric (size before) rest) := by
  induction fuel generalizing before rest with
  | zero =>
      rw [whole, size_append] at enough
      omega
  | succ fuel ih =>
      rw [tokenizeFrom]
      by_cases inside : size before < size text
      · rw [if_pos inside, sliceFrom_eq.mpr ⟨before, whole, rfl⟩]
        simp only [Option.bind_eq_bind, Option.bind_some]
        refine (consumeMarkup_returns rest).bind fun markup ends => ?_
        cases markup with
        | some length =>
            obtain ⟨positive, raw, later, rfl, rfl⟩ := ends length rfl
            have cut : Bytes.slice (raw ++ later) 0 (size raw) = some raw :=
              slice_eq.mpr ⟨[], later, rfl, rfl, Nat.zero_add _⟩
            have inhabited : raw ≠ [] := by rintro rfl; exact absurd positive (by simp)
            have next := @ih (before ++ raw) later
              (by rw [whole, List.append_assoc]) (by rw [size_append]; omega)
            rw [size_append] at next
            simp only [cut, Option.bind_some]
            exact next.bind fun tokens scanned => .pure (.token inhabited scanned)
        | none =>
            cases rest with
            | nil => exact .pure fun c none_ => absurd none_ List.not_mem_nil
            | cons c rest =>
                have positive := c.utf8Size_pos
                dsimp only
                by_cases letter : isAlphanumeric c = true
                · have tail : text = (before ++ [c]) ++ rest := by
                    rw [whole, List.append_assoc]; rfl
                  have reached : size (before ++ [c]) = size before + c.utf8Size := by simp
                  obtain ⟨word, later, split, read⟩ : ∃ word later, rest = word ++ later ∧
                      rest.takeWhile (continuesWord isAlphanumeric) = word :=
                    ⟨_, _, List.takeWhile_append_dropWhile.symm, rfl⟩
                  have length : size before + c.utf8Size + size word = size before + size (c :: word) := by
                    rw [size_cons, Nat.add_assoc]
                  have cut : Bytes.slice text (size before) (size before + size (c :: word)) =
                      some (c :: word) :=
                    slice_eq.mpr ⟨before, later, by rw [whole, split]; rfl, rfl, rfl⟩
                  have next := @ih (before ++ (c :: word)) later
                    (by rw [whole, split, List.append_assoc]; rfl)
                    (by rw [size_append, size_cons]; omega)
                  rw [size_append] at next
                  rw [if_pos letter, ← reached, sliceFrom_eq.mpr ⟨before ++ [c], tail, rfl⟩, reached]
                  simp only [Option.bind_some, read, length, cut]
                  rw [split]
                  exact next.bind fun tokens scanned => .pure (.token (List.cons_ne_nil _ _) scanned)
                · have next := @ih (before ++ [c]) rest
                    (by rw [whole, List.append_assoc]; rfl) (by simp; omega)
                  rw [if_neg letter]
                  rw [show size (before ++ [c]) = size before + c.utf8Size by simp] at next
                  exact next.mono fun tokens scanned => scanned.skip (Bool.not_eq_true _ ▸ letter)
      · have done : rest = [] := by
          by_contra more
          have := size_pos more
          rw [whole, size_append] at inside
          omega
        rw [if_neg inside, done]
        exact .pure fun c none_ => absurd none_ List.not_mem_nil

theorem tokenizeInlineAnchors_scanned (text : Text) :
    Returns (tokenizeInlineAnchors isAlphanumeric text) (Scanned isAlphanumeric 0 text) :=
  @tokenizeFrom_scanned isAlphanumeric text [] text _ rfl (by simp)

/-- A run of tokens at the front covers a piece of the text that has the phrase's letters, and
no letter stands before it. -/
theorem Scanned.run {offset : Nat} {rest : Text} {first : InlineAnchorToken}
    {window more : List InlineAnchorToken}
    (h : Scanned isAlphanumeric offset rest (first :: window ++ more)) :
    ∃ front piece after last, rest = front ++ (piece ++ after) ∧ piece ≠ [] ∧
      first.start = offset + size front ∧ (first :: window).getLast? = some last ∧
      last.stop = first.start + size piece ∧ (Alphabet isAlphanumeric →
        letters isAlphanumeric front = [] ∧
        letters isAlphanumeric piece = letters isAlphanumeric (phraseOf (first :: window))) := by
  induction window generalizing offset rest first with
  | nil =>
      obtain ⟨gap, raw, later, rfl, outside, inhabited, rfl, -⟩ := h
      refine ⟨gap, raw, later, _, rfl, inhabited, rfl, rfl, rfl, fun alphabet => ?_⟩
      refine ⟨alphabet.letters_eq_nil outside, ?_⟩
      rw [phraseOf, List.map_cons, List.map_nil, Text.join_cons, List.flatMap_nil, List.append_nil]
      exact (letters_toAsciiLowercase raw).symm
  | cons second window ih =>
      obtain ⟨gap, raw, later, rfl, outside, inhabited, rfl, scanned⟩ := h
      obtain ⟨front, piece, after, last, rfl, -, start, final, stop, same⟩ := ih scanned
      refine ⟨gap, raw ++ (front ++ piece), after, last, by simp, by simp [inhabited], rfl, final, ?_,
        fun alphabet => ⟨alphabet.letters_eq_nil outside, ?_⟩⟩
      · rw [stop, start]
        simp only [size_append]
        omega
      · obtain ⟨between, same⟩ := same alphabet
        have mark : letters isAlphanumeric "\x1f".toList = [] :=
          alphabet.letters_eq_nil fun c member => List.mem_singleton.mp member ▸ alphabet.separator
        rw [letters_append, letters_append, between, List.nil_append, same, phraseOf, phraseOf,
          List.map_cons, List.map_cons, List.map_cons, Text.join_cons, Text.join_cons,
          List.flatMap_cons]
        simp only [letters_append, letters_toAsciiLowercase, mark, List.nil_append]

/-- The hit is a run of the tokens that reads as the phrase. -/
def Occurs (tokens : List InlineAnchorToken) (phrase : Text) (hit : InlineNgramHit) : Prop :=
  ∃ first window last, first :: window <:+: tokens ∧ (first :: window).getLast? = some last ∧
    phraseOf (first :: window) = phrase ∧ hit.start = first.start ∧ hit.stop = last.stop

/-- Where a hit stands in the text, and what it reads there. -/
theorem Scanned.occurs {offset : Nat} {rest : Text} {tokens : List InlineAnchorToken}
    (h : Scanned isAlphanumeric offset rest tokens) {phrase : Text} {hit : InlineNgramHit}
    (occurs : Occurs tokens phrase hit) :
    ∃ front piece after, rest = front ++ (piece ++ after) ∧ piece ≠ [] ∧
      hit.start = offset + size front ∧ hit.stop = hit.start + size piece ∧
      (Alphabet isAlphanumeric → letters isAlphanumeric piece = letters isAlphanumeric phrase) := by
  obtain ⟨first, window, last, ⟨earlier, more, rfl⟩, final, rfl, start, stop⟩ := occurs
  rw [start, stop]
  clear start stop
  induction earlier generalizing offset rest with
  | nil =>
      obtain ⟨front, piece, after, last', whole, inhabited, start, final', stop, same⟩ := h.run
      rw [final] at final'
      cases final'
      exact ⟨front, piece, after, whole, inhabited, start, stop, fun alphabet => (same alphabet).2⟩
  | cons token earlier ih =>
      obtain ⟨gap, raw, later, rfl, -, -, rfl, scanned⟩ := h
      obtain ⟨front, piece, after, rfl, inhabited, start, stop, same⟩ := ih scanned
      refine ⟨gap ++ (raw ++ front), piece, after, by simp, inhabited, ?_, stop, same⟩
      rw [start]
      simp only [size_append]
      omega

theorem Scanned.inhabited {offset : Nat} {rest : Text} {tokens : List InlineAnchorToken}
    (h : Scanned isAlphanumeric offset rest tokens) {phrase : Text} {hit : InlineNgramHit}
    (occurs : Occurs tokens phrase hit) : hit.start < hit.stop := by
  obtain ⟨front, piece, after, -, inhabited, -, stop, -⟩ := h.occurs occurs
  have := size_pos inhabited
  omega

end Scanned

/-- Both hits read as one phrase, each in the tokens of its side. -/
def Shares (beforeTokens afterTokens : List InlineAnchorToken) (candidate : InlineAnchorCandidate) :
    Prop :=
  ∃ phrase, Occurs beforeTokens phrase candidate.before ∧ Occurs afterTokens phrase candidate.after

theorem collectOccurrences_occurs (tokens : List InlineAnchorToken) (maxNgram : Nat) :
    Returns (collectOccurrences tokens maxNgram) (Occurrences.Holds (Occurs tokens)) := by
  refine collectOccurrences_holds (fun n positive => collectInlineNgrams_windows positive ?_) maxNgram
  intro window first last index part head final
  cases window with
  | nil => cases head
  | cons token rest =>
      cases head
      exact ⟨first, rest, last, part, final, rfl, rfl, rfl⟩

theorem candidateOf_shares {isAlphanumeric : Char → Bool}
    {beforeTokens afterTokens : List InlineAnchorToken} {beforeOccurrences afterOccurrences : Occurrences}
    {entry : Text × List InlineNgramHit} {candidate : InlineAnchorCandidate}
    (before : Occurrences.Holds (Occurs beforeTokens) beforeOccurrences)
    (after : Occurrences.Holds (Occurs afterTokens) afterOccurrences)
    (listed : entry ∈ beforeOccurrences)
    (h : candidateOf isAlphanumeric afterOccurrences entry = some candidate) :
    Shares beforeTokens afterTokens candidate := by
  obtain ⟨single, member⟩ := candidateOf_hits h
  exact ⟨entry.1, before entry listed _ (single ▸ List.mem_singleton_self _),
    after _ member _ (List.mem_singleton_self _)⟩

/-- The slots that are used are those of the ranges picked so far, which are apart. -/
structure Picked (used : List Bool) (ranges : List InlineRange) : Prop where
  marks : ∀ k, Marked used k ↔ ∃ range ∈ ranges, range.1 ≤ k ∧ k < range.2
  apart : ranges.Pairwise Ranges.Apart
  inhabited : ∀ range ∈ ranges, range.1 < range.2

theorem picked_nothing (length : Nat) : Picked (List.replicate length false) [] where
  marks k := by
    unfold Marked
    rw [List.getElem?_replicate]
    split <;> simp
  apart := .nil
  inhabited := nofun

theorem unmarked_of_unused {used : List Bool} {start stop : Nat}
    (h : rangeIsUsed used (start, stop) = some false) {k : Nat} (low : start ≤ k) (high : k < stop) :
    ¬ Marked used k := by
  obtain ⟨slots, cut, none⟩ := Option.map_eq_some_iff.mp h
  unfold Total.slice at cut
  split at cut
  · cases cut
    intro marked
    have member : true ∈ (used.drop start).take (stop - start) := by
      refine List.mem_of_getElem? (i := k - start) ?_
      rw [List.getElem?_take, if_pos (by omega), List.getElem?_drop,
        show start + (k - start) = k by omega]
      exact marked
    have found := (List.any_eq_true (p := id)).mpr ⟨true, member, rfl⟩
    rw [found] at none
    cases none
  · cases cut

theorem Picked.snoc {used marked : List Bool} {ranges : List InlineRange} {start stop : Nat}
    (held : Picked used ranges) (free : rangeIsUsed used (start, stop) = some false)
    (ordered : start < stop) (marks : markUsed used (start, stop) = some marked) :
    Picked marked (ranges ++ [(start, stop)]) where
  marks k := by
    rw [marked_markUsed marks, held.marks]
    simp only [List.mem_append, List.mem_singleton, or_and_right, exists_or, exists_eq_left]
  apart := by
    refine List.pairwise_append.mpr ⟨held.apart, List.pairwise_singleton _ _, ?_⟩
    rintro ⟨first, last⟩ member range single
    obtain rfl := List.mem_singleton.mp single
    have inhabited := held.inhabited _ member
    by_contra meets
    -- the later of the two starts lies in both ranges
    have low : start ≤ max first start := Nat.le_max_right _ _
    have high : max first start < stop := by
      unfold Ranges.Apart at meets
      dsimp only at meets inhabited
      omega
    refine unmarked_of_unused free low high ((held.marks _).mpr ⟨_, member, Nat.le_max_left _ _, ?_⟩)
    unfold Ranges.Apart at meets
    dsimp only at meets inhabited ⊢
    omega
  inhabited := by
    intro range member
    rcases List.mem_append.mp member with old | new
    · exact held.inhabited range old
    · rw [List.mem_singleton.mp new]
      exact ordered

def InlineNgramHit.range (hit : InlineNgramHit) : InlineRange := (hit.start, hit.stop)

/-- The state of the selection after `anchors` were picked. -/
structure Selecting.Holds (beforeTokens afterTokens : List InlineAnchorToken)
    (anchors : List InlineAnchorCandidate) (state : Selecting) : Prop where
  before : state.beforeRanges = anchors.map fun anchor => anchor.before.range
  after : state.afterRanges = anchors.map fun anchor => anchor.after.range
  beforePicked : Picked state.beforeUsed state.beforeRanges
  afterPicked : Picked state.afterUsed state.afterRanges
  shares : ∀ anchor ∈ anchors, Shares beforeTokens afterTokens anchor

section Selection

variable {beforeTokens afterTokens : List InlineAnchorToken}

/-- A candidate is passed over, or it is picked and its ranges are free. -/
theorem selectCandidate_cases {state state' : Selecting} {candidate : InlineAnchorCandidate}
    (h : selectCandidate state candidate = some state') : state' = state ∨
      rangeIsUsed state.beforeUsed candidate.before.range = some false ∧
      rangeIsUsed state.afterUsed candidate.after.range = some false ∧
      markUsed state.beforeUsed candidate.before.range = some state'.beforeUsed ∧
      markUsed state.afterUsed candidate.after.range = some state'.afterUsed ∧
      state'.beforeRanges = state.beforeRanges ++ [candidate.before.range] ∧
      state'.afterRanges = state.afterRanges ++ [candidate.after.range] := by
  unfold selectCandidate at h
  obtain ⟨taken, before, h⟩ := Option.bind_eq_some_iff.mp h
  cases taken with
  | true => exact .inl (Option.some.inj h).symm
  | false =>
      obtain ⟨taken, after, h⟩ := Option.bind_eq_some_iff.mp h
      cases taken with
      | true => exact .inl (Option.some.inj h).symm
      | false =>
          obtain ⟨beforeUsed, marks, h⟩ := Option.bind_eq_some_iff.mp h
          obtain ⟨afterUsed, marks', h⟩ := Option.bind_eq_some_iff.mp h
          cases h
          exact .inr ⟨before, after, marks, marks', rfl, rfl⟩

theorem Selecting.Holds.step {anchors : List InlineAnchorCandidate} {state state' : Selecting}
    {candidate : InlineAnchorCandidate} (held : state.Holds beforeTokens afterTokens anchors)
    (shares : Shares beforeTokens afterTokens candidate)
    (before : candidate.before.start < candidate.before.stop)
    (after : candidate.after.start < candidate.after.stop)
    (h : selectCandidate state candidate = some state') :
    ∃ anchors, state'.Holds beforeTokens afterTokens anchors := by
  obtain rfl | ⟨free, free', marks, marks', ranges, ranges'⟩ := selectCandidate_cases h
  · exact ⟨anchors, held⟩
  · refine ⟨anchors ++ [candidate], ?_⟩
    exact
      { before := by rw [ranges, held.before, List.map_append]; rfl
        after := by rw [ranges', held.after, List.map_append]; rfl
        beforePicked := ranges ▸ held.beforePicked.snoc free before marks
        afterPicked := ranges' ▸ held.afterPicked.snoc free' after marks'
        shares := by
          intro anchor member
          rcases List.mem_append.mp member with old | new
          · exact held.shares anchor old
          · exact List.mem_singleton.mp new ▸ shares }

/-- What the ranges that count as equal are made of. -/
structure Anchoring (beforeTokens afterTokens : List InlineAnchorToken)
    (anchors : List InlineAnchorCandidate) (ranges : List InlineRange × List InlineRange) : Prop where
  before : ranges.1 =
    mergeTouchingRanges ((anchors.map fun anchor => anchor.before.range).mergeSort rangeLe)
  after : ranges.2 =
    mergeTouchingRanges ((anchors.map fun anchor => anchor.after.range).mergeSort rangeLe)
  beforeApart : (anchors.map fun anchor => anchor.before.range).Pairwise Ranges.Apart
  afterApart : (anchors.map fun anchor => anchor.after.range).Pairwise Ranges.Apart
  shares : ∀ anchor ∈ anchors, Shares beforeTokens afterTokens anchor

/-- The equal ranges are merged from anchors that share their phrases. -/
theorem collectEqualAnchorRanges_anchoring {isAlphanumeric : Char → Bool}
    {beforeText afterText : Text} {ranges : List InlineRange × List InlineRange}
    (scanned : Scanned isAlphanumeric 0 beforeText beforeTokens)
    (scanned' : Scanned isAlphanumeric 0 afterText afterTokens)
    (h : collectEqualAnchorRanges isAlphanumeric beforeText beforeTokens afterText afterTokens =
      some ranges) :
    ∃ anchors, Anchoring beforeTokens afterTokens anchors ranges := by
  unfold collectEqualAnchorRanges at h
  obtain ⟨beforeOccurrences, found, h⟩ := Option.bind_eq_some_iff.mp h
  obtain ⟨afterOccurrences, found', h⟩ := Option.bind_eq_some_iff.mp h
  obtain ⟨selected, loop, h⟩ := Option.bind_eq_some_iff.mp h
  have occurs := (collectOccurrences_occurs beforeTokens _).of_eq found
  have occurs' := (collectOccurrences_occurs afterTokens _).of_eq found'
  have picks := foldlM_keeps (I := fun state : Selecting =>
    ∃ anchors, state.Holds beforeTokens afterTokens anchors) ?_ ⟨[], ?_⟩ loop
  · obtain ⟨anchors, held⟩ := picks
    cases h
    exact ⟨anchors,
      { before := by rw [held.before]
        after := by rw [held.after]
        beforeApart := held.before ▸ held.beforePicked.apart
        afterApart := held.after ▸ held.afterPicked.apart
        shares := held.shares }⟩
  · rintro state state' candidate member ⟨anchors, held⟩ step
    obtain ⟨entry, listed, chosen⟩ := List.mem_filterMap.mp (List.mem_mergeSort.mp member)
    have shares := candidateOf_shares occurs occurs' listed chosen
    obtain ⟨phrase, here, there⟩ := shares
    exact held.step ⟨phrase, here, there⟩ (scanned.inhabited here) (scanned'.inhabited there) step
  · exact
      { before := rfl
        after := rfl
        beforePicked := picked_nothing _
        afterPicked := picked_nothing _
        shares := nofun }

end Selection

section Merging

theorem rangeLe_trans (a b c : InlineRange) (ab : rangeLe a b = true) (bc : rangeLe b c = true) :
    rangeLe a c = true := by
  grind [rangeLe]

theorem rangeLe_total (a b : InlineRange) : (rangeLe a b || rangeLe b a) = true := by
  grind [rangeLe]

theorem le_of_rangeLe {a b : InlineRange} (h : rangeLe a b = true) : a.1 ≤ b.1 := by
  grind [rangeLe]

theorem sorted_ranges (ranges : List InlineRange) :
    (ranges.mergeSort rangeLe).Pairwise fun a b => a.1 ≤ b.1 :=
  (List.pairwise_mergeSort rangeLe_trans rangeLe_total ranges).imp le_of_rangeLe

theorem mergeFrom_ascending {cursor : Nat} {last : InlineRange} {ranges : List InlineRange}
    (early : cursor ≤ last.1) (sorted : (last :: ranges).Pairwise fun a b => a.1 ≤ b.1)
    (ordered : ∀ range ∈ last :: ranges, range.1 ≤ range.2) :
    Ranges.Ascending cursor (mergeFrom last ranges) := by
  induction ranges generalizing cursor last with
  | nil => exact ⟨early, ordered last List.mem_cons_self, trivial⟩
  | cons range rest ih =>
      obtain ⟨start, stop⟩ := range
      obtain ⟨first, later⟩ := List.pairwise_cons.mp sorted
      obtain ⟨here, there⟩ := List.forall_mem_cons.mp ordered
      rw [mergeFrom]
      split
      · refine ih early (List.pairwise_cons.mpr ⟨fun next member => ?_, later.of_cons⟩) ?_
        · exact first next (List.mem_cons_of_mem _ member)
        · exact List.forall_mem_cons.mpr ⟨here.trans (Nat.le_max_left _ _),
            fun next member => there next (List.mem_cons_of_mem _ member)⟩
      · exact ⟨early, here, ih (by dsimp only; omega) later there⟩

theorem mergeTouchingRanges_ascending {ranges : List InlineRange}
    (ordered : ∀ range ∈ ranges, range.1 ≤ range.2) :
    Ranges.Ascending 0 (mergeTouchingRanges ranges) := by
  have sorted := sorted_ranges ranges
  have ordered : ∀ range ∈ ranges.mergeSort rangeLe, range.1 ≤ range.2 := fun range member =>
    ordered range (List.mem_mergeSort.mp member)
  unfold mergeTouchingRanges
  cases h : ranges.mergeSort rangeLe with
  | nil => trivial
  | cons first rest =>
      rw [h] at sorted ordered
      exact mergeFrom_ascending (Nat.zero_le _) sorted ordered

/-- Ranges that follow one another are merged where they touch, and lose nothing. -/
theorem mergeFrom_growth {total : Nat → Int} {last : InlineRange} {ranges : List InlineRange}
    (follows : (last :: ranges).Pairwise fun a b => a.2 ≤ b.1)
    (ordered : ∀ range ∈ last :: ranges, range.1 ≤ range.2) :
    Ranges.growth total (mergeFrom last ranges) = Ranges.growth total (last :: ranges) := by
  induction ranges generalizing last with
  | nil => rfl
  | cons range rest ih =>
      obtain ⟨start, stop⟩ := range
      obtain ⟨first, later⟩ := List.pairwise_cons.mp follows
      obtain ⟨here, there⟩ := List.forall_mem_cons.mp ordered
      have after : last.2 ≤ start := first _ List.mem_cons_self
      have proper : start ≤ stop := there _ List.mem_cons_self
      rw [mergeFrom]
      split
      · have touch : start = last.2 := by omega
        have grown : max last.2 stop = stop := by omega
        rw [grown, @ih (last.1, stop) ?_ ?_]
        · simp only [Ranges.growth_cons, touch]
          omega
        · exact List.pairwise_cons.mpr ⟨(List.pairwise_cons.mp later).1, later.of_cons⟩
        · refine List.forall_mem_cons.mpr ⟨?_, (List.forall_mem_cons.mp there).2⟩
          exact here.trans (after.trans proper)
      · rw [Ranges.growth_cons, ih later there, Ranges.growth_cons last]

theorem mergeTouchingRanges_growth {total : Nat → Int} {ranges : List InlineRange}
    (apart : ranges.Pairwise Ranges.Apart) (inhabited : ∀ range ∈ ranges, range.1 < range.2) :
    Ranges.growth total (mergeTouchingRanges ranges) = Ranges.growth total ranges := by
  have sorted := sorted_ranges ranges
  have perm := List.mergeSort_perm ranges rangeLe
  have apart := (perm.pairwise_iff Ranges.Apart.symm).mpr apart
  have inhabited : ∀ range ∈ ranges.mergeSort rangeLe, range.1 < range.2 := fun range member =>
    inhabited range (perm.subset member)
  have follows := Ranges.follows_of_sorted sorted apart inhabited
  rw [← Ranges.growth_perm perm]
  unfold mergeTouchingRanges
  cases h : ranges.mergeSort rangeLe with
  | nil => rfl
  | cons first rest =>
      rw [h] at follows inhabited
      exact mergeFrom_growth follows fun range member => Nat.le_of_lt (inhabited range member)

end Merging

end SP42.Diff

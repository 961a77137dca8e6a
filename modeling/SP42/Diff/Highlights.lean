import SP42.Diff.Inline

/-!
The inline highlights always return: every position that the tokenizer, the anchors and
the spans work with is a character boundary of its text, and every range is in order.
-/
namespace SP42.Diff

open Total Bytes

theorem utf8Size_toLower (c : Char) : c.toLower.utf8Size = c.utf8Size := by
  unfold Char.toLower
  split
  · rename_i upper
    obtain ⟨low, high⟩ := upper
    have ascii : 'Z'.val ≤ (127 : UInt32) := by decide
    have small : c.utf8Size = 1 := Char.utf8Size_eq_one_iff.mpr (UInt32.le_trans high ascii)
    rw [small, Char.utf8Size_eq_one_iff]
    rw [UInt32.le_iff_toNat_le] at high ⊢
    have last : c.val.toNat ≤ 90 := high
    show (c.val + ('a'.val - 'A'.val)).toNat ≤ 127
    rw [UInt32.toNat_add, show ('a'.val - 'A'.val).toNat = 32 from rfl]
    omega
  · rfl

@[simp] theorem size_toAsciiLowercase (text : Text) :
    size (Text.toAsciiLowercase text) = size text := by
  induction text with
  | nil => rfl
  | cons c rest ih =>
      rw [Text.toAsciiLowercase, List.map_cons, size_cons, size_cons, utf8Size_toLower]
      exact congrArg (c.utf8Size + ·) ih

/-- Lower-casing moves no character boundary. -/
theorem boundary_of_lowercase {text : Text} {position : Nat}
    (h : Boundary (Text.toAsciiLowercase text) position) : Boundary text position := by
  obtain ⟨before, after, whole, rfl⟩ := h
  obtain ⟨front, back, rfl, rfl, rfl⟩ := List.map_eq_append_iff.mp whole
  exact ⟨front, back, rfl, (size_toAsciiLowercase front).symm⟩

/-- A found word begins and ends at a boundary. -/
theorem findBytes_boundary {text word : Text} {position : Nat}
    (h : Text.findBytes text word = some position) : Boundary text (position + size word) := by
  obtain ⟨index, found, rfl⟩ := Option.map_eq_some_iff.mp h
  obtain ⟨after, whole⟩ := Search.append_of_find found
  rw [← size_append]
  exact ⟨text.take index ++ word, after, by rw [List.append_assoc, ← whole], rfl⟩

/-- The end of a construct at the front of a text. -/
def EndsConstruct (rest : Text) (found : Option Nat) : Prop :=
  ∀ stop, found = some stop → 0 < stop ∧ Boundary rest stop

theorem boundary_next {text before rest : Text} {c : Char} (whole : text = before ++ c :: rest) :
    Boundary text (size before + c.utf8Size) :=
  ⟨before ++ [c], rest, by rw [whole, List.append_assoc]; rfl, by simp⟩

theorem boundary_past {text before rest word : Text} (whole : text = before ++ rest)
    (starts : word <+: rest) : Boundary text (size before + size word) := by
  obtain ⟨after, rfl⟩ := starts
  exact ⟨before ++ word, after, by rw [whole, List.append_assoc], size_append before word⟩

theorem balancedFrom_returns {input opening closing : Text} (opens : opening ≠ [])
    (closes : closing ≠ []) {fuel depth cursor : Nat} (enough : size input < fuel + cursor)
    (here : Boundary input cursor) :
    Returns (balancedFrom input opening closing fuel depth cursor) (EndsConstruct input) := by
  have opened := size_pos opens
  have closed := size_pos closes
  induction fuel generalizing depth cursor with
  | zero => have := here.le_size; omega
  | succ fuel ih =>
      rw [balancedFrom]
      by_cases inside : cursor < size input
      · rw [if_pos inside]
        obtain ⟨before, rest, whole, rfl⟩ := here
        rw [sliceFrom_eq.mpr ⟨before, whole, rfl⟩]
        simp only [Option.bind_eq_bind, Option.bind_some]
        by_cases opensHere : opening <+: rest
        · rw [if_pos opensHere]
          exact ih (by omega) (boundary_past whole opensHere)
        · rw [if_neg opensHere]
          by_cases closesHere : closing <+: rest
          · rw [if_pos closesHere]
            by_cases outermost : depth - 1 = 0
            · rw [if_pos outermost]
              refine .pure ?_
              rintro stop ⟨⟩
              exact ⟨by omega, boundary_past whole closesHere⟩
            · rw [if_neg outermost]
              exact ih (by omega) (boundary_past whole closesHere)
          · rw [if_neg closesHere]
            cases rest with
            | nil => exact .pure nofun
            | cons c rest =>
                have := c.utf8Size_pos
                exact ih (by omega) (boundary_next whole)
      · rw [if_neg inside]
        exact .pure nofun

theorem consumeBalancedConstruct_returns {input opening closing : Text} (opens : opening ≠ [])
    (closes : closing ≠ []) :
    Returns (consumeBalancedConstruct input opening closing) (EndsConstruct input) := by
  unfold consumeBalancedConstruct
  split
  · exact balancedFrom_returns opens closes (by omega) (boundary_zero input)
  · exact .pure nofun

theorem consumeRefConstruct_ends (input : Text) :
    EndsConstruct input (consumeRefConstruct input) := by
  intro stop found
  unfold consumeRefConstruct at found
  dsimp only at found
  split at found
  · cases selfClosed : Text.findBytes (Text.toAsciiLowercase input) "/>".toList with
    | some position =>
        rw [selfClosed] at found
        cases found
        exact ⟨by omega, boundary_of_lowercase (findBytes_boundary selfClosed)⟩
    | none =>
        rw [selfClosed] at found
        obtain ⟨position, closed, rfl⟩ := Option.map_eq_some_iff.mp found
        have length : 0 < size "</ref>".toList := by decide
        exact ⟨by omega, boundary_of_lowercase (findBytes_boundary closed)⟩
  · cases found

theorem consumeMarkup_returns (rest : Text) : Returns (consumeMarkup rest) (EndsConstruct rest) := by
  unfold consumeMarkup
  refine (consumeBalancedConstruct_returns (by decide) (by decide)).bind fun link ends => ?_
  cases link with
  | some stop => exact .pure ends
  | none =>
      refine (consumeBalancedConstruct_returns (by decide) (by decide)).bind fun template ends => ?_
      cases template with
      | some stop => exact .pure ends
      | none => exact .pure (consumeRefConstruct_ends rest)

/-- The tokens from a position on: in order, each between two boundaries. -/
def Laid (text : Text) : Nat → List InlineAnchorToken → Prop
  | _, [] => True
  | cursor, token :: rest =>
      cursor ≤ token.start ∧ token.start ≤ token.stop ∧ Boundary text token.start ∧
        Boundary text token.stop ∧ Laid text token.stop rest

section Unicode

variable (isAlphanumeric : Char → Bool)

theorem Laid.mono {text : Text} {tokens : List InlineAnchorToken} {cursor later : Nat}
    (le : cursor ≤ later) (h : Laid text later tokens) : Laid text cursor tokens := by
  cases tokens with
  | nil => trivial
  | cons token rest => exact ⟨le.trans h.1, h.2⟩

theorem boundary_tail {text before tail word after : Text} (whole : text = before ++ tail)
    (split : tail = word ++ after) : Boundary text (size before + size word) :=
  boundary_past whole ⟨after, split.symm⟩

theorem tokenizeFrom_returns {text : Text} {fuel cursor : Nat} (enough : size text < fuel + cursor)
    (here : Boundary text cursor) :
    Returns (tokenizeFrom isAlphanumeric text fuel cursor) (Laid text cursor) := by
  induction fuel generalizing cursor with
  | zero => have := here.le_size; omega
  | succ fuel ih =>
      rw [tokenizeFrom]
      by_cases inside : cursor < size text
      · rw [if_pos inside]
        obtain ⟨before, rest, whole, rfl⟩ := here
        have start : Boundary text (size before) := ⟨before, rest, whole, rfl⟩
        rw [sliceFrom_eq.mpr ⟨before, whole, rfl⟩]
        simp only [Option.bind_eq_bind, Option.bind_some]
        refine (consumeMarkup_returns rest).bind fun markup ends => ?_
        cases markup with
        | some length =>
            obtain ⟨positive, within⟩ := ends length rfl
            have stop : Boundary text (size before + length) := whole ▸ within.add
            refine (returns_of_isSome (slice_of_boundaries (boundary_zero rest) within
              (Nat.zero_le length))).bind fun raw _ => ?_
            refine (ih (by omega) stop).bind fun tokens laid => .pure ?_
            exact ⟨le_refl _, Nat.le_add_right _ _, start, stop, laid⟩
        | none =>
            cases rest with
            | nil => exact .pure trivial
            | cons c rest =>
                have positive := c.utf8Size_pos
                dsimp only
                by_cases letter : isAlphanumeric c = true
                · have whole' : text = (before ++ [c]) ++ rest := by
                    rw [whole, List.append_assoc]; rfl
                  have length : size (before ++ [c]) = size before + c.utf8Size := by simp
                  rw [if_pos letter, ← length, sliceFrom_eq.mpr ⟨before ++ [c], whole', rfl⟩]
                  simp only [Option.bind_some]
                  have stop := boundary_tail whole'
                    (List.takeWhile_append_dropWhile (p := continuesWord isAlphanumeric)).symm
                  refine (returns_of_isSome (slice_of_boundaries start stop (by omega))).bind
                    fun raw _ => ?_
                  refine (ih (by omega) stop).bind fun tokens laid => .pure ?_
                  exact ⟨le_refl _, by dsimp only; omega, start, stop, laid⟩
                · rw [if_neg letter]
                  exact (ih (by omega) (boundary_next whole)).mono fun tokens laid =>
                    laid.mono (Nat.le_add_right _ _)
      · rw [if_neg inside]
        exact .pure trivial

theorem tokenizeInlineAnchors_returns (text : Text) :
    Returns (tokenizeInlineAnchors isAlphanumeric text) (Laid text 0) :=
  tokenizeFrom_returns isAlphanumeric (by omega) (boundary_zero text)

end Unicode

/-- A range of a text between two boundaries. -/
structure Anchored (text : Text) (start stop : Nat) : Prop where
  ordered : start ≤ stop
  low : Boundary text start
  high : Boundary text stop

theorem Laid.anchored {text : Text} {tokens : List InlineAnchorToken} {cursor : Nat}
    (h : Laid text cursor tokens) {token : InlineAnchorToken} (member : token ∈ tokens) :
    cursor ≤ token.start ∧ Anchored text token.start token.stop := by
  induction tokens generalizing cursor with
  | nil => cases member
  | cons first rest ih =>
      obtain ⟨from_, ordered, low, high, later⟩ := h
      rcases List.mem_cons.mp member with rfl | member
      · exact ⟨from_, ordered, low, high⟩
      · obtain ⟨after, anchored⟩ := ih later member
        exact ⟨by omega, anchored⟩

/-- From an earlier token to a later one the range is in order. -/
theorem Laid.span {text : Text} {tokens : List InlineAnchorToken} {cursor : Nat}
    (h : Laid text cursor tokens) {window : List InlineAnchorToken} (part : window.Sublist tokens)
    {first last : InlineAnchorToken} (head : window.head? = some first)
    (end_ : window.getLast? = some last) : Anchored text first.start last.stop := by
  induction part generalizing cursor first with
  | slnil => cases head
  | cons token part ih => exact ih h.2.2.2.2 head end_
  | cons_cons token part ih =>
      cases head
      obtain ⟨from_, ordered, low, high, later⟩ := h
      rename_i window tokens
      cases window with
      | nil => cases end_; exact ⟨ordered, low, high⟩
      | cons second rest =>
          have reached := ih later rfl end_
          have follows := (later.anchored (part.subset List.mem_cons_self)).1
          have := reached.ordered
          exact ⟨by omega, low, reached.high⟩

def InlineNgramHit.AnchoredIn (text : Text) (hit : InlineNgramHit) : Prop :=
  Anchored text hit.start hit.stop

section Anchors

variable {text : Text} {tokens : List InlineAnchorToken}

theorem mem_windows {n : Nat} (positive : 0 < n) {window : List InlineAnchorToken}
    (h : window ∈ windows n tokens) : window <:+: tokens ∧ window ≠ [] := by
  obtain ⟨offset, inRange, rfl⟩ := List.mem_map.mp h
  rw [List.mem_range] at inRange
  refine ⟨(List.take_prefix n _).isInfix.trans (List.drop_suffix offset tokens).isInfix, ?_⟩
  rw [Ne, List.take_eq_nil_iff, List.drop_eq_nil_iff]
  omega

/-- Every phrase comes from a window of tokens. -/
theorem collectInlineNgrams_windows {P : Text × InlineNgramHit → Prop} {n : Nat} (positive : 0 < n)
    (each : ∀ window first last index, window <:+: tokens → window.head? = some first →
      window.getLast? = some last → P (phraseOf window, ⟨index, first.start, last.stop⟩)) :
    Returns (collectInlineNgrams tokens n) fun ngrams => ∀ ngram ∈ ngrams, P ngram := by
  refine mapM_returns fun indexed member => ?_
  obtain ⟨window, index⟩ := indexed
  have drawn : window ∈ windows n tokens := (List.mem_zipIdx' member).2 ▸ List.getElem_mem _
  obtain ⟨part, inhabited⟩ := mem_windows positive drawn
  unfold inlineNgram
  refine (returns_of_isSome (List.isSome_head?.mpr inhabited)).bind fun first head => ?_
  refine (returns_of_isSome (List.getLast?_isSome.mpr inhabited)).bind fun last final => .pure ?_
  exact each window first last index part head final

theorem collectInlineNgrams_returns (laid : Laid text 0 tokens) {n : Nat} (positive : 0 < n) :
    Returns (collectInlineNgrams tokens n) fun ngrams =>
      ∀ ngram ∈ ngrams, ngram.2.AnchoredIn text :=
  collectInlineNgrams_windows positive fun _ _ _ _ part head final =>
    laid.span part.sublist head final

/-- Every occurrence is a range between boundaries. -/
def Occurrences.AnchoredIn (text : Text) (occurrences : Occurrences) : Prop :=
  ∀ entry ∈ occurrences, ∀ hit ∈ entry.2, InlineNgramHit.AnchoredIn text hit

/-- A property of every phrase and each of its hits. -/
def Occurrences.Holds (P : Text → InlineNgramHit → Prop) (occurrences : Occurrences) : Prop :=
  ∀ entry ∈ occurrences, ∀ hit ∈ entry.2, P entry.1 hit

section Holds

variable {P : Text → InlineNgramHit → Prop}

theorem pushHit_holds {phrase : Text} {hit : InlineNgramHit} {occurrences : Occurrences}
    (held : Occurrences.Holds P occurrences) (new : P phrase hit) :
    Occurrences.Holds P (pushHit phrase hit occurrences) := by
  induction occurrences with
  | nil => simpa [pushHit, Occurrences.Holds] using new
  | cons entry rest ih =>
      obtain ⟨known, hits⟩ := entry
      obtain ⟨here, there⟩ := List.forall_mem_cons.mp held
      rw [pushHit]
      split
      · rename_i same
        subst same
        refine List.forall_mem_cons.mpr ⟨fun other member => ?_, there⟩
        rcases List.mem_append.mp member with old | last
        · exact here other old
        · exact List.mem_singleton.mp last ▸ new
      · exact List.forall_mem_cons.mpr ⟨here, ih there⟩

theorem pushHits_holds {ngrams : List (Text × InlineNgramHit)} {occurrences : Occurrences}
    (held : Occurrences.Holds P occurrences) (new : ∀ ngram ∈ ngrams, P ngram.1 ngram.2) :
    Occurrences.Holds P (pushHits occurrences ngrams) := by
  unfold pushHits
  induction ngrams generalizing occurrences with
  | nil => exact held
  | cons ngram ngrams ih =>
      obtain ⟨here, there⟩ := List.forall_mem_cons.mp new
      exact ih (pushHit_holds held here) there

/-- What holds of the phrases of every length holds of all that are collected. -/
theorem collectOccurrences_holds (each : ∀ n, 0 < n → Returns (collectInlineNgrams tokens n)
    fun ngrams => ∀ ngram ∈ ngrams, P ngram.1 ngram.2) (maxNgram : Nat) :
    Returns (collectOccurrences tokens maxNgram) (Occurrences.Holds P) := by
  have collected : Returns (((List.range maxNgram).reverse.map (· + 1)).mapM
      (collectInlineNgrams tokens)) fun all =>
        ∀ ngrams ∈ all, ∀ ngram ∈ ngrams, P ngram.1 ngram.2 := by
    refine mapM_returns fun n member => each n ?_
    obtain ⟨m, -, rfl⟩ := List.mem_map.mp member
    exact Nat.succ_pos m
  refine collected.bind fun all held => .pure ?_
  have run : ∀ occurrences, Occurrences.Holds P occurrences →
      Occurrences.Holds P (all.foldl pushHits occurrences) := by
    induction all with
    | nil => exact fun _ held => held
    | cons ngrams all ih =>
        intro occurrences before
        obtain ⟨here, there⟩ := List.forall_mem_cons.mp held
        exact ih there _ (pushHits_holds before here)
  exact run [] nofun

end Holds

theorem collectOccurrences_returns (laid : Laid text 0 tokens) (maxNgram : Nat) :
    Returns (collectOccurrences tokens maxNgram) (Occurrences.AnchoredIn text) :=
  @collectOccurrences_holds tokens (fun _ hit => hit.AnchoredIn text)
    (fun _ positive => collectInlineNgrams_returns laid positive) maxNgram

/-- A candidate's hits are the only ones of its phrase. -/
theorem candidateOf_hits {isAlphanumeric : Char → Bool} {afterOccurrences : Occurrences}
    {entry : Text × List InlineNgramHit} {candidate : InlineAnchorCandidate}
    (h : candidateOf isAlphanumeric afterOccurrences entry = some candidate) :
    entry.2 = [candidate.before] ∧ (entry.1, [candidate.after]) ∈ afterOccurrences := by
  unfold candidateOf at h
  dsimp only at h
  split at h
  · rename_i beforeHit afterHit single found
    split at h
    · cases h
    · split at h
      · cases h
      · cases h
        refine ⟨single, ?_⟩
        obtain ⟨earlier, later, whole, -⟩ := List.lookup_eq_some_iff.mp found
        rw [whole]
        simp
  · cases h

theorem candidateOf_anchored {isAlphanumeric : Char → Bool} {beforeText afterText : Text}
    {afterOccurrences : Occurrences} {entry : Text × List InlineNgramHit}
    {candidate : InlineAnchorCandidate}
    (before : ∀ hit ∈ entry.2, InlineNgramHit.AnchoredIn beforeText hit)
    (after : Occurrences.AnchoredIn afterText afterOccurrences)
    (h : candidateOf isAlphanumeric afterOccurrences entry = some candidate) :
    candidate.before.AnchoredIn beforeText ∧ candidate.after.AnchoredIn afterText := by
  obtain ⟨single, member⟩ := candidateOf_hits h
  exact ⟨before _ (single ▸ List.mem_singleton_self _),
    after _ member _ (List.mem_singleton_self _)⟩

/-- The ranges between boundaries of a text. -/
def RangesIn (text : Text) (ranges : List InlineRange) : Prop :=
  ∀ range ∈ ranges, Boundary text range.1 ∧ Boundary text range.2

structure Selecting.Within (beforeText afterText : Text) (state : Selecting) : Prop where
  beforeUsed : state.beforeUsed.length = size beforeText
  afterUsed : state.afterUsed.length = size afterText
  beforeRanges : RangesIn beforeText state.beforeRanges
  afterRanges : RangesIn afterText state.afterRanges

theorem rangeIsUsed_returns {used : List Bool} {start stop : Nat} (length : used.length = size text)
    (anchored : Anchored text start stop) :
    Returns (rangeIsUsed used (start, stop)) fun _ => True :=
  (slice_returns anchored.ordered (length ▸ anchored.high.le_size)).map fun _ _ => trivial

theorem markUsed_returns {used : List Bool} {start stop : Nat} (ordered : start ≤ stop)
    (inside : stop ≤ used.length) :
    Returns (markUsed used (start, stop)) fun marked => marked.length = used.length := by
  refine (slice_returns ordered inside).map fun slots value => ?_
  simp only [value, List.length_append, List.length_map, List.length_take, List.length_drop]
  omega

theorem RangesIn.nil : RangesIn text [] := fun _ member => absurd member List.not_mem_nil

theorem RangesIn.snoc {ranges : List InlineRange} {start stop : Nat} (held : RangesIn text ranges)
    (anchored : Anchored text start stop) : RangesIn text (ranges ++ [(start, stop)]) := by
  intro range member
  rcases List.mem_append.mp member with old | new
  · exact held range old
  · rw [List.mem_singleton.mp new]
    exact ⟨anchored.low, anchored.high⟩

theorem selectCandidate_returns {beforeText afterText : Text} {state : Selecting}
    {candidate : InlineAnchorCandidate} (held : state.Within beforeText afterText)
    (before : candidate.before.AnchoredIn beforeText)
    (after : candidate.after.AnchoredIn afterText) :
    Returns (selectCandidate state candidate) (Selecting.Within beforeText afterText) := by
  unfold selectCandidate
  refine (rangeIsUsed_returns held.beforeUsed before).bind fun taken _ => ?_
  cases taken with
  | true => exact .pure held
  | false =>
      refine (rangeIsUsed_returns held.afterUsed after).bind fun taken _ => ?_
      cases taken with
      | true => exact .pure held
      | false =>
          refine (markUsed_returns before.ordered (held.beforeUsed ▸ before.high.le_size)).bind
            fun beforeUsed length => ?_
          refine (markUsed_returns after.ordered (held.afterUsed ▸ after.high.le_size)).bind
            fun afterUsed length' => .pure ?_
          exact
            { beforeUsed := length.trans held.beforeUsed
              afterUsed := length'.trans held.afterUsed
              beforeRanges := held.beforeRanges.snoc before
              afterRanges := held.afterRanges.snoc after }

theorem mergeFrom_within {last : InlineRange} {ranges : List InlineRange}
    (here : Boundary text last.1 ∧ Boundary text last.2) (held : RangesIn text ranges) :
    RangesIn text (mergeFrom last ranges) := by
  induction ranges generalizing last with
  | nil => simpa [mergeFrom, RangesIn] using here
  | cons range rest ih =>
      obtain ⟨start, stop⟩ := range
      obtain ⟨next, later⟩ := List.forall_mem_cons.mp held
      rw [mergeFrom]
      split
      · refine ih ⟨here.1, ?_⟩ later
        rw [Nat.max_def]
        split
        · exact next.2
        · exact here.2
      · exact List.forall_mem_cons.mpr ⟨here, ih next later⟩

theorem mergeTouchingRanges_within {ranges : List InlineRange} (held : RangesIn text ranges) :
    RangesIn text (mergeTouchingRanges ranges) := by
  have sorted : RangesIn text (ranges.mergeSort rangeLe) := fun range member =>
    held range (List.mem_mergeSort.mp member)
  unfold mergeTouchingRanges
  cases h : ranges.mergeSort rangeLe with
  | nil => exact .nil
  | cons first rest =>
      rw [h] at sorted
      obtain ⟨here, later⟩ := List.forall_mem_cons.mp sorted
      exact mergeFrom_within here later

theorem collectEqualAnchorRanges_returns {isAlphanumeric : Char → Bool}
    {beforeText afterText : Text} {beforeTokens afterTokens : List InlineAnchorToken}
    (before : Laid beforeText 0 beforeTokens) (after : Laid afterText 0 afterTokens) :
    Returns (collectEqualAnchorRanges isAlphanumeric beforeText beforeTokens afterText afterTokens)
      fun ranges => RangesIn beforeText ranges.1 ∧ RangesIn afterText ranges.2 := by
  unfold collectEqualAnchorRanges
  refine (collectOccurrences_returns before _).bind fun beforeOccurrences held => ?_
  refine (collectOccurrences_returns after _).bind fun afterOccurrences held' => ?_
  have selected : ∀ state : Selecting, state.Within beforeText afterText →
      ∀ candidate ∈ (beforeOccurrences.filterMap
        (candidateOf isAlphanumeric afterOccurrences)).mergeSort InlineAnchorCandidate.precedes,
          Returns (selectCandidate state candidate) (Selecting.Within beforeText afterText) := by
    intro state within candidate member
    obtain ⟨entry, listed, chosen⟩ := List.mem_filterMap.mp (List.mem_mergeSort.mp member)
    obtain ⟨anchored, anchored'⟩ := candidateOf_anchored (held entry listed) held' chosen
    exact selectCandidate_returns within anchored anchored'
  refine (foldlM_returns selected
    ⟨List.length_replicate, List.length_replicate, .nil, .nil⟩).bind fun final within => .pure ?_
  exact ⟨mergeTouchingRanges_within fun range member =>
      within.beforeRanges range (List.mem_mergeSort.mp member),
    mergeTouchingRanges_within fun range member =>
      within.afterRanges range (List.mem_mergeSort.mp member)⟩

end Anchors

section Spans

variable {text : Text} {kind : DiffSegmentKind}

theorem trimStart_suffix (text : Text) : Text.trimStart text <:+ text :=
  List.dropWhile_suffix _

theorem trimEnd_prefix (text : Text) : Text.trimEnd text <+: text := List.rdropWhile_prefix _ _

/-- The white space at either end of a chunk stops at a boundary. -/
theorem boundary_trimmed {before chunk after : Text} (whole : text = before ++ (chunk ++ after)) :
    Boundary text (size before + (size chunk - size (Text.trimStart chunk))) ∧
      Boundary text (size before + size chunk - (size chunk - size (Text.trimEnd chunk))) := by
  obtain ⟨leading, front⟩ := trimStart_suffix chunk
  obtain ⟨trailing, back⟩ := trimEnd_prefix chunk
  have frontSize : size leading + size (Text.trimStart chunk) = size chunk := by
    rw [← size_append, front]
  have backSize : size (Text.trimEnd chunk) + size trailing = size chunk := by
    rw [← size_append, back]
  constructor
  · refine ⟨before ++ leading, Text.trimStart chunk ++ after, ?_, ?_⟩
    · rw [whole, List.append_assoc, ← List.append_assoc leading, front]
    · rw [size_append]
      omega
  · refine ⟨before ++ Text.trimEnd chunk, trailing ++ after, ?_, ?_⟩
    · rw [whole, List.append_assoc, ← List.append_assoc (Text.trimEnd chunk), back]
    · rw [size_append]
      omega

theorem spanIf_returns {condition : Prop} [Decidable condition] {start stop : Nat}
    (low : Boundary text start) (high : Boundary text stop) (ordered : condition → start ≤ stop) :
    Returns (spanIf condition kind text start stop) fun _ => True := by
  unfold spanIf
  by_cases h : condition
  · rw [if_pos h]
    exact (returns_of_isSome (slice_of_boundaries low high (ordered h))).map fun _ _ => trivial
  · rw [if_neg h]
    exact .pure trivial

theorem changeSpan_returns {start stop : Nat} (low : Boundary text start)
    (high : Boundary text stop) : Returns (changeSpan text start stop kind) fun _ => True := by
  unfold changeSpan
  by_cases empty : stop ≤ start
  · rw [if_pos empty]
    exact .pure trivial
  · rw [if_neg empty]
    refine (returns_of_isSome (slice_of_boundaries low high (by omega))).bind fun chunk cut => ?_
    obtain ⟨before, after, whole, rfl, rfl⟩ := slice_eq.mp cut
    obtain ⟨front, back⟩ := boundary_trimmed whole
    refine (spanIf_returns low front fun _ => Nat.le_add_right _ _).bind fun _ _ => ?_
    refine (spanIf_returns front back Nat.le_of_lt).bind fun _ _ => ?_
    exact (spanIf_returns back high fun _ => Nat.sub_le _ _).bind fun _ _ => .pure trivial

theorem spansFrom_returns {cursor : Nat} {ranges : List InlineRange} (here : Boundary text cursor)
    (held : RangesIn text ranges) :
    Returns (spansFrom text kind cursor ranges) fun _ => True := by
  induction ranges generalizing cursor with
  | nil => exact changeSpan_returns here (boundary_size text)
  | cons range rest ih =>
      obtain ⟨start, stop⟩ := range
      obtain ⟨⟨low, high⟩, later⟩ := List.forall_mem_cons.mp held
      refine (changeSpan_returns here low).bind fun _ _ => ?_
      refine (spanIf_returns low high Nat.le_of_lt).bind fun _ _ => ?_
      exact (ih high later).bind fun _ _ => .pure trivial

theorem buildInlineSpansFromEqualRanges_returns {ranges : List InlineRange}
    (held : RangesIn text ranges) :
    Returns (buildInlineSpansFromEqualRanges text ranges kind) fun _ => True :=
  (spansFrom_returns (boundary_zero text) held).bind fun _ _ => .pure trivial

end Spans

variable (isAlphanumeric : Char → Bool) (differ : TextDiff)

theorem computeInlineHighlightPair_returns (before after : Text) :
    Returns (computeInlineHighlightPair isAlphanumeric differ before after) fun _ => True := by
  unfold computeInlineHighlightPair
  refine (tokenizeInlineAnchors_returns isAlphanumeric before).bind fun tokens laid => ?_
  refine (tokenizeInlineAnchors_returns isAlphanumeric after).bind fun tokens' laid' => ?_
  refine (collectEqualAnchorRanges_returns laid laid').bind fun ranges held => ?_
  obtain ⟨beforeRanges, afterRanges⟩ := ranges
  dsimp only
  split
  · exact .pure trivial
  · refine (buildInlineSpansFromEqualRanges_returns held.1).bind fun _ _ => ?_
    exact (buildInlineSpansFromEqualRanges_returns held.2).bind fun _ _ => .pure trivial

/-- Highlighting returns, and changes neither the kind nor the text of a segment. -/
theorem computeInlineHighlights_returns (segments : List DiffSegment) :
    Returns (computeInlineHighlights isAlphanumeric differ segments) fun highlighted =>
      highlighted.map DiffSegment.change = segments.map DiffSegment.change := by
  fun_induction computeInlineHighlights isAlphanumeric differ segments with
  | case1 first second rest pair ih =>
      refine (computeInlineHighlightPair_returns isAlphanumeric differ first.text second.text).bind
        fun spans _ => ?_
      refine ih.bind fun highlighted same => .pure ?_
      simp only [List.map_cons, same]
      rfl
  | case2 first second rest apart ih =>
      refine ih.bind fun highlighted same => .pure ?_
      rw [List.map_cons, same]
      rfl
  | case3 segments short => exact .pure rfl

end SP42.Diff

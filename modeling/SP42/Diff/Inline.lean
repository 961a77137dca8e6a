import SP42.Diff.Structure

/-!
Word-level highlights of a deleted and an inserted segment: anchors are tokenized,
matched as runs of tokens that occur once on each side, and everything between the
matched ranges is a change. Positions count bytes, every slice can panic, and a loop
whose fuel runs out counts as one.
-/
namespace SP42.Diff

structure InlineAnchorToken where
  normalized : Text
  start : Nat
  stop : Nat
  deriving DecidableEq

/-- A phrase's occurrence: the index of its first token, its start and its end. -/
structure InlineNgramHit where
  index : Nat
  start : Nat
  stop : Nat
  deriving DecidableEq

structure InlineAnchorCandidate where
  tokenCount : Nat
  charCount : Nat
  before : InlineNgramHit
  after : InlineNgramHit
  deriving DecidableEq

abbrev InlineRange := Nat × Nat

/-- The loop of `consume_balanced_construct`. -/
def balancedFrom (input opening closing : Text) : Nat → Nat → Nat → Option (Option Nat)
  | 0, _, _ => none
  | fuel + 1, depth, cursor =>
      if cursor < Bytes.size input then do
        let rest ← Bytes.sliceFrom input cursor
        if opening <+: rest then
          balancedFrom input opening closing fuel (depth + 1) (cursor + Bytes.size opening)
        else if closing <+: rest then
          let cursor := cursor + Bytes.size closing
          if depth - 1 = 0 then return some cursor
          else balancedFrom input opening closing fuel (depth - 1) cursor
        else
          match rest with
          | [] => return none
          | ch :: _ => balancedFrom input opening closing fuel depth (cursor + ch.utf8Size)
      else return none

def consumeBalancedConstruct (input opening closing : Text) : Option (Option Nat) :=
  if opening <+: input then balancedFrom input opening closing (Bytes.size input + 1) 0 0
  else some none

def consumeRefConstruct (input : Text) : Option Nat :=
  let lowered := Text.toAsciiLowercase input
  if "<ref".toList <+: lowered then
    match Text.findBytes lowered "/>".toList with
    | some stop => some (stop + 2)
    | none =>
        (Text.findBytes lowered "</ref>".toList).map fun closeStart =>
          closeStart + Bytes.size "</ref>".toList
  else none

/-- The end of the link, template or reference that the text begins with. -/
def consumeMarkup (rest : Text) : Option (Option Nat) := do
  match ← consumeBalancedConstruct rest "[[".toList "]]".toList with
  | some stop => return some stop
  | none =>
    match ← consumeBalancedConstruct rest "\x7b\x7b".toList "\x7d\x7d".toList with
    | some stop => return some stop
    | none => return consumeRefConstruct rest

section Unicode

variable (isAlphanumeric : Char → Bool)

def continuesWord (next : Char) : Bool :=
  isAlphanumeric next || next == '\x27' || next == '\u2019' || next == '-' || next == '_'

/-- The loop of `tokenize_inline_anchors`. -/
def tokenizeFrom (text : Text) : Nat → Nat → Option (List InlineAnchorToken)
  | 0, _ => none
  | fuel + 1, cursor =>
      if cursor < Bytes.size text then do
        let rest ← Bytes.sliceFrom text cursor
        match ← consumeMarkup rest with
        | some length =>
            let raw ← Bytes.slice rest 0 length
            let tokens ← tokenizeFrom text fuel (cursor + length)
            return ⟨Text.toAsciiLowercase raw, cursor, cursor + length⟩ :: tokens
        | none =>
            match rest with
            | [] => return []
            | ch :: _ =>
                if isAlphanumeric ch then
                  let tail ← Bytes.sliceFrom text (cursor + ch.utf8Size)
                  let word := tail.takeWhile (continuesWord isAlphanumeric)
                  let stop := cursor + ch.utf8Size + Bytes.size word
                  let raw ← Bytes.slice text cursor stop
                  let tokens ← tokenizeFrom text fuel stop
                  return ⟨Text.toAsciiLowercase raw, cursor, stop⟩ :: tokens
                else tokenizeFrom text fuel (cursor + ch.utf8Size)
      else return []

def tokenizeInlineAnchors (text : Text) : Option (List InlineAnchorToken) :=
  tokenizeFrom isAlphanumeric text (Bytes.size text + 1) 0

/-- `[T]::windows`. -/
def windows (n : Nat) (tokens : List InlineAnchorToken) : List (List InlineAnchorToken) :=
  (List.range (tokens.length + 1 - n)).map fun index => (tokens.drop index).take n

def phraseOf (window : List InlineAnchorToken) : Text :=
  Text.join "\x1f".toList (window.map InlineAnchorToken.normalized)

/-- One phrase of `n` tokens, with where it occurs. -/
def inlineNgram (indexed : List InlineAnchorToken × Nat) : Option (Text × InlineNgramHit) := do
  let first ← indexed.1.head?
  let last ← indexed.1.getLast?
  return (phraseOf indexed.1, ⟨indexed.2, first.start, last.stop⟩)

def collectInlineNgrams (tokens : List InlineAnchorToken) (n : Nat) :
    Option (List (Text × InlineNgramHit)) :=
  (windows n tokens).zipIdx.mapM inlineNgram

/-- A map from phrases to their hits, in the order of the first hit. -/
abbrev Occurrences := List (Text × List InlineNgramHit)

/-- `entry(phrase).or_default().push(hit)`. -/
def pushHit (phrase : Text) (hit : InlineNgramHit) : Occurrences → Occurrences
  | [] => [(phrase, [hit])]
  | (known, hits) :: rest =>
      if known = phrase then (known, hits ++ [hit]) :: rest
      else (known, hits) :: pushHit phrase hit rest

def pushHits (occurrences : Occurrences) (ngrams : List (Text × InlineNgramHit)) : Occurrences :=
  ngrams.foldl (fun occurrences ngram => pushHit ngram.1 ngram.2 occurrences) occurrences

/-- All phrases of at most `maxNgram` tokens, the longest first. -/
def collectOccurrences (tokens : List InlineAnchorToken) (maxNgram : Nat) : Option Occurrences := do
  let ngrams ← ((List.range maxNgram).reverse.map (· + 1)).mapM (collectInlineNgrams tokens)
  return ngrams.foldl pushHits []

/-- A phrase that occurs once on each side and is telling enough. The iteration order of the
map does not matter: no two candidates agree in the four numbers that they are sorted by. -/
def candidateOf (afterOccurrences : Occurrences) (entry : Text × List InlineNgramHit) :
    Option InlineAnchorCandidate :=
  let phrase := entry.1
  match entry.2, afterOccurrences.lookup phrase with
  | [before], some [after] =>
      let tokenCount := phrase.count '\x1f' + 1
      let charCount := (phrase.filter (· ≠ '\x1f')).length
      let hasMarkup := Text.contains phrase "[[".toList || Text.contains phrase "\x7b\x7b".toList ||
        Text.contains phrase "<ref".toList
      if tokenCount = 1 ∧ charCount < 4 ∧ hasMarkup = false then none
      else if tokenCount = 1 ∧ charCount < 8 ∧ phrase.all isAlphanumeric then none
      else some ⟨tokenCount, charCount, before, after⟩
  | _, _ => none

/-- More tokens first, then more characters, then the earlier place before and after. -/
def InlineAnchorCandidate.precedes (left right : InlineAnchorCandidate) : Bool :=
  if left.tokenCount ≠ right.tokenCount then right.tokenCount < left.tokenCount
  else if left.charCount ≠ right.charCount then right.charCount < left.charCount
  else if left.before.index ≠ right.before.index then left.before.index < right.before.index
  else left.after.index ≤ right.after.index

def rangeIsUsed (used : List Bool) (range : InlineRange) : Option Bool :=
  (Total.slice used range.1 range.2).map fun slots => slots.any id

def markUsed (used : List Bool) (range : InlineRange) : Option (List Bool) :=
  (Total.slice used range.1 range.2).map fun slots =>
    used.take range.1 ++ slots.map (fun _ => true) ++ used.drop range.2

/-- The state of the loop over the candidates. -/
structure Selecting where
  beforeUsed : List Bool
  afterUsed : List Bool
  beforeRanges : List InlineRange
  afterRanges : List InlineRange

def selectCandidate (state : Selecting) (candidate : InlineAnchorCandidate) : Option Selecting := do
  let before : InlineRange := (candidate.before.start, candidate.before.stop)
  let after : InlineRange := (candidate.after.start, candidate.after.stop)
  if ← rangeIsUsed state.beforeUsed before then return state
  if ← rangeIsUsed state.afterUsed after then return state
  let beforeUsed ← markUsed state.beforeUsed before
  let afterUsed ← markUsed state.afterUsed after
  return ⟨beforeUsed, afterUsed, state.beforeRanges ++ [before], state.afterRanges ++ [after]⟩

def rangeLe (left right : InlineRange) : Bool :=
  if left.1 ≠ right.1 then left.1 < right.1 else left.2 ≤ right.2

/-- The loop of `merge_touching_ranges`, with the last merged range in hand. -/
def mergeFrom (last : InlineRange) : List InlineRange → List InlineRange
  | [] => [last]
  | (start, stop) :: rest =>
      if start ≤ last.2 then mergeFrom (last.1, max last.2 stop) rest
      else last :: mergeFrom (start, stop) rest

def mergeTouchingRanges (ranges : List InlineRange) : List InlineRange :=
  match ranges.mergeSort rangeLe with
  | [] => []
  | first :: rest => mergeFrom first rest

def collectEqualAnchorRanges (beforeText : Text) (beforeTokens : List InlineAnchorToken)
    (afterText : Text) (afterTokens : List InlineAnchorToken) :
    Option (List InlineRange × List InlineRange) := do
  let maxNgram := min (min beforeTokens.length afterTokens.length) 8
  let beforeOccurrences ← collectOccurrences beforeTokens maxNgram
  let afterOccurrences ← collectOccurrences afterTokens maxNgram
  let candidates := beforeOccurrences.filterMap (candidateOf isAlphanumeric afterOccurrences)
  let selected ← (candidates.mergeSort InlineAnchorCandidate.precedes).foldlM selectCandidate
    { beforeUsed := List.replicate (Bytes.size beforeText) false
      afterUsed := List.replicate (Bytes.size afterText) false
      beforeRanges := []
      afterRanges := [] }
  return (mergeTouchingRanges (selected.beforeRanges.mergeSort rangeLe),
    mergeTouchingRanges (selected.afterRanges.mergeSort rangeLe))

end Unicode

/-- A span of the text, sliced only when the condition holds. -/
def spanIf (condition : Prop) [Decidable condition] (kind : DiffSegmentKind) (text : Text)
    (start stop : Nat) : Option (List InlineSpan) :=
  if condition then (Bytes.slice text start stop).map fun piece => [⟨kind, piece⟩] else some []

/-- A chunk that changed, without the white space around it. -/
def changeSpan (text : Text) (start stop : Nat) (changeKind : DiffSegmentKind) :
    Option (List InlineSpan) := do
  if stop ≤ start then return []
  let chunk ← Bytes.slice text start stop
  let leadingWsLen := Bytes.size chunk - Bytes.size (Text.trimStart chunk)
  let trailingWsLen := Bytes.size chunk - Bytes.size (Text.trimEnd chunk)
  let changeStart := start + leadingWsLen
  let changeStop := stop - trailingWsLen
  let leading ← spanIf (0 < leadingWsLen) .equal text start changeStart
  let changed ← spanIf (changeStart < changeStop) changeKind text changeStart changeStop
  let trailing ← spanIf (0 < trailingWsLen) .equal text changeStop stop
  return leading ++ changed ++ trailing

/-- The loop over the equal ranges, up to the end of the text. -/
def spansFrom (text : Text) (changeKind : DiffSegmentKind) (cursor : Nat) :
    List InlineRange → Option (List InlineSpan)
  | [] => changeSpan text cursor (Bytes.size text) changeKind
  | (start, stop) :: rest => do
      let changed ← changeSpan text cursor start changeKind
      let equal ← spanIf (start < stop) .equal text start stop
      let spans ← spansFrom text changeKind stop rest
      return changed ++ equal ++ spans

def buildInlineSpansFromEqualRanges (text : Text) (equalRanges : List InlineRange)
    (changeKind : DiffSegmentKind) : Option (List InlineSpan) := do
  let spans ← spansFrom text changeKind 0 equalRanges
  return if spans = [] then [⟨changeKind, text⟩] else spans

def computeInlineHighlightPairWordDiff (changes : List Change) :
    List InlineSpan × List InlineSpan :=
  (changes.filterMap fun change =>
      if change.tag = .insert then none else some ⟨change.tag, change.text⟩,
    changes.filterMap fun change =>
      if change.tag = .delete then none else some ⟨change.tag, change.text⟩)

section Highlights

variable (isAlphanumeric : Char → Bool) (differ : TextDiff)

def computeInlineHighlightPair (before after : Text) :
    Option (List InlineSpan × List InlineSpan) := do
  let beforeTokens ← tokenizeInlineAnchors isAlphanumeric before
  let afterTokens ← tokenizeInlineAnchors isAlphanumeric after
  let (beforeEqualRanges, afterEqualRanges) ←
    collectEqualAnchorRanges isAlphanumeric before beforeTokens after afterTokens
  if beforeEqualRanges = [] ∧ afterEqualRanges = [] then
    return computeInlineHighlightPairWordDiff (differ.fromWords before after)
  let delSpans ← buildInlineSpansFromEqualRanges before beforeEqualRanges .delete
  let insSpans ← buildInlineSpansFromEqualRanges after afterEqualRanges .insert
  return (delSpans, insSpans)

def computeInlineHighlights : List DiffSegment → Option (List DiffSegment)
  | first :: second :: rest =>
      if first.kind = .delete ∧ second.kind = .insert then do
        let (delSpans, insSpans) ←
          computeInlineHighlightPair isAlphanumeric differ first.text second.text
        let rest ← computeInlineHighlights rest
        return { first with inlineHighlights := delSpans } ::
          { second with inlineHighlights := insSpans } :: rest
      else do
        let rest ← computeInlineHighlights (second :: rest)
        return first :: rest
  | segments => some segments

end Highlights

end SP42.Diff

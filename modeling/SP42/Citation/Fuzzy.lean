import SP42.Citation.Locate
import Mathlib.Data.List.Sort

/-!
The guarded fuzzy match: the tokens of a quote, in order, in a bounded window of the
source. The span is the text of the source itself.
-/
namespace SP42.Citation

def minFuzzyTokens : Nat := 5

def fuzzyThresholdNum : Nat := 17

def fuzzyThresholdDen : Nat := 20

def maxFuzzyWindows : Nat := 50

structure FuzzyLocate where
  offset : Nat
  span : Text
  matchedTokens : Nat
  quoteTokens : Nat
  deriving DecidableEq

/-- A token of the normalized source with the range of its characters. -/
structure SourceToken where
  cleaned : Text
  startChar : Nat
  endChar : Nat
  deriving DecidableEq

def hasDigit (token : Text) : Bool := token.any Char.isDigit

section Matching

/-- A row of the table after the one above it, from the column on whose value in the row
above comes before `up`: the value before is `diag` there and `left` here. -/
def nextRow (word : Text) (diag left : Nat) : List Nat → List SourceToken → List Nat
  | up :: above, token :: window =>
      let value := if word = token.cleaned then diag + 1 else max up left
      value :: nextRow word up value above window
  | _, _ => []

/-- The table of the longest common subsequences, a row for each initial part of the quote. -/
def lcsTable (window : List SourceToken) : List Nat → List Text → List (List Nat)
  | row, [] => [row]
  | row, word :: words => row :: lcsTable window (0 :: nextRow word 0 0 row.tail window) words

def tableAt (table : List (List Nat)) (row col : Nat) : Nat :=
  ((table[row]?).bind fun values => values[col]?).getD 0

/-- The way back through the table, with the first and the last token matched so far. -/
def backtrack (table : List (List Nat)) (quoteTokens : List Text) (window : List SourceToken) :
    Nat → Nat → Option (Nat × Nat) → Option (Nat × Nat)
  | 0, _, range => range
  | _ + 1, 0, range => range
  | row + 1, col + 1, range =>
      if quoteTokens[row]? = (window[col]?).map SourceToken.cleaned ∧
          tableAt table (row + 1) (col + 1) = tableAt table row col + 1 then
        backtrack table quoteTokens window row col (some (col, (range.map Prod.snd).getD col))
      else if tableAt table (row + 1) col ≤ tableAt table row (col + 1) then
        backtrack table quoteTokens window row (col + 1) range
      else backtrack table quoteTokens window (row + 1) col range
  termination_by row col => row + col

/-- How many tokens match in order, and the first and the last token of the window matched. -/
def lcsMatch (quoteTokens : List Text) (window : List SourceToken) : Option (Nat × Nat × Nat) :=
  let table := lcsTable window (List.replicate (window.length + 1) 0) quoteTokens
  let matched := tableAt table quoteTokens.length window.length
  if matched = 0 then none
  else
    (backtrack table quoteTokens window quoteTokens.length window.length none).map
      fun range => (matched, range)

/-- The best window so far, and how many were examined. -/
structure WindowSearch where
  best : Option (Nat × Nat × Nat)
  windows : Nat

/-- One token of the loop over the anchors. Past the cap nothing is examined. -/
def examineWindow (quoteTokens : List Text) (sourceTokens : List SourceToken) (anchors : List Text)
    (search : WindowSearch) (index : Nat) (token : SourceToken) : WindowSearch :=
  if token.cleaned ∉ anchors then search
  else if search.windows + 1 > maxFuzzyWindows then { search with windows := search.windows + 1 }
  else
    let radius := quoteTokens.length + 2
    let windowStart := index - radius
    let windowEnd := min (index + radius + 1) sourceTokens.length
    let window := (sourceTokens.drop windowStart).take (windowEnd - windowStart)
    match lcsMatch quoteTokens window with
    | none => { search with windows := search.windows + 1 }
    | some (matched, first, last) =>
        if search.best.all fun best => best.1 < matched then
          ⟨some (matched, windowStart + first, windowStart + last), search.windows + 1⟩
        else { search with windows := search.windows + 1 }

end Matching

section Fuzzy

variable (unicode : Unicode)

/-- A token without the punctuation around it. -/
def cleanToken (token : Text) : Text := Text.trimMatches (fun c => !unicode.isAlphanumeric c) token

/-- The loop of `tokenize_source`, with the token under way and where it starts. -/
def tokenizeFrom (index : Nat) : Option (Nat × Text) → Text → List SourceToken
  | none, [] => []
  | some (start, current), [] => [⟨cleanToken unicode current, start, index⟩]
  | none, c :: rest =>
      if c = ' ' then tokenizeFrom (index + 1) none rest
      else tokenizeFrom (index + 1) (some (index, [c])) rest
  | some (start, current), c :: rest =>
      if c = ' ' then
        ⟨cleanToken unicode current, start, index⟩ :: tokenizeFrom (index + 1) none rest
      else tokenizeFrom (index + 1) (some (start, current ++ [c])) rest

def tokenizeSource (normalizedSource : Text) : List SourceToken :=
  (tokenizeFrom unicode 0 none normalizedSource).filter fun token => token.cleaned ≠ []

/-- The three longest of the tokens that have a digit or five characters. -/
def anchorTokens (quoteTokens : List Text) : List Text :=
  ((quoteTokens.filter fun token => 5 ≤ token.length || hasDigit token).insertionSort
    fun a b => b.length ≤ a.length).take 3

/-- The tokens of a quote. -/
def tokenizeQuote (quote : Text) : List Text :=
  (((normalizeForMatch unicode (Text.trim quote)).splitOn ' ').map (cleanToken unicode)).filter
    fun token => token ≠ []

/-- The window whose tokens match best: how many, and the first and the last of them. -/
def bestWindow (quoteTokens : List Text) (sourceTokens : List SourceToken) :
    Option (Nat × Nat × Nat) :=
  let anchors := anchorTokens quoteTokens
  if anchors = [] then none
  else
    (sourceTokens.zipIdx.foldl
      (fun search entry => examineWindow quoteTokens sourceTokens anchors search entry.2 entry.1)
      ⟨none, 0⟩).best

def locateQuoteFuzzy (quote source : Text) : Option FuzzyLocate := do
  let quoteTokens := tokenizeQuote unicode quote
  if quoteTokens.length < minFuzzyTokens then none
  else
    let normalizedSource := normalizeWithMap unicode source
    let sourceTokens := tokenizeSource unicode normalizedSource.text
    let (matched, first, last) ← bestWindow quoteTokens sourceTokens
    if matched * fuzzyThresholdDen < quoteTokens.length * fuzzyThresholdNum then none
    else
      let spanTokens := (sourceTokens.take (last + 1)).drop first
      let loadBearing := quoteTokens.filter hasDigit
      if !loadBearing.all fun needed => spanTokens.any fun token => token.cleaned = needed then none
      else
        let firstToken ← sourceTokens[first]?
        let lastToken ← sourceTokens[last]?
        let startByte ← normalizedSource.offsets[firstToken.startChar]?
        let endByte := (normalizedSource.offsets[lastToken.endChar]?).getD (Bytes.size source)
        let span ← Bytes.slice source startByte endByte
        some ⟨startByte, Text.trimEnd span, min matched 0xffffffff,
          min quoteTokens.length 0xffffffff⟩

end Fuzzy

/-- A hit is the source's own text at the offset. -/
theorem locateQuoteFuzzy_span {unicode : Unicode} {quote source : Text} {hit : FuzzyLocate}
    (located : locateQuoteFuzzy unicode quote source = some hit) :
    ∃ rest, Bytes.sliceFrom source hit.offset = some rest ∧ hit.span <+: rest := by
  unfold locateQuoteFuzzy at located
  dsimp only at located
  split at located
  · cases located
  · obtain ⟨⟨matched, first, last⟩, _, located⟩ := Option.bind_eq_some_iff.mp located
    dsimp only at located
    split at located
    · cases located
    · split at located
      · cases located
      · obtain ⟨firstToken, _, located⟩ := Option.bind_eq_some_iff.mp located
        obtain ⟨lastToken, _, located⟩ := Option.bind_eq_some_iff.mp located
        obtain ⟨startByte, _, located⟩ := Option.bind_eq_some_iff.mp located
        obtain ⟨span, cut, located⟩ := Option.bind_eq_some_iff.mp located
        cases located
        obtain ⟨before, after, whole, start, _⟩ := Bytes.slice_eq.mp cut
        refine ⟨span ++ after, Bytes.sliceFrom_eq.mpr ⟨before, whole, start⟩, ?_⟩
        exact (List.rdropWhile_prefix _ _).trans (List.prefix_append _ _)

end SP42.Citation

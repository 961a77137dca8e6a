import SP42.Citation.Alignment

/-!
The locator as the code runs it: bytes and characters apart, the text and its map written
side by side, and a panic wherever an index or a slice is out of range. It never panics, and
what it returns is what the model of the locator returns.
-/
namespace SP42.Citation

/-- Why a locator returns no location. -/
inductive Stop where
  | missing
  | panic
  deriving DecidableEq

/-- The `?` of the source. -/
def orMissing {α : Type} : Option α → Except Stop α
  | some a => .ok a
  | none => .error .missing

/-- An index or a slice. -/
def orPanic {α : Type} : Option α → Except Stop α
  | some a => .ok a
  | none => .error .panic

@[simp] theorem orMissing_some {α : Type} (a : α) : orMissing (some a) = .ok a := rfl

@[simp] theorem orMissing_none {α : Type} : orMissing (none : Option α) = .error .missing := rfl

@[simp] theorem orPanic_some {α : Type} (a : α) : orPanic (some a) = .ok a := rfl

@[simp] theorem ok_bind {α β : Type} (a : α) (f : α → Except Stop β) : (.ok a >>= f) = f a := rfl

@[simp] theorem error_bind {α β : Type} (stop : Stop) (f : α → Except Stop β) :
    (.error stop >>= f) = .error stop := rfl

theorem orMissing_ne_panic {α : Type} (result : Option α) : orMissing result ≠ .error .panic := by
  cases result <;> simp [orMissing]

theorem orMissing_eq_ok {α : Type} {result : Option α} {a : α} :
    orMissing result = .ok a ↔ result = some a := by
  cases result <;> simp [orMissing]

section Normalizer

/-- The variables of `normalize_with_map`. -/
structure NormalizeState where
  text : Text
  map : List Nat
  prevSpace : Bool
  unit : Text
  unitStart : Nat
  byteOffset : Nat

variable (unicode : Unicode)

/-- `flush_unit`: each character is pushed to the text, and the start of its unit to the map. -/
def flushInto (state : NormalizeState) : NormalizeState :=
  if state.unit = [] then state
  else
    (unicode.nfc state.unit).foldl
      (fun state c => (unicode.toLowercase c).foldl
        (fun state low =>
          { state with text := state.text ++ [low], map := state.map ++ [state.unitStart] })
        state)
      state

/-- One character of the source. -/
def normalizeChar (state : NormalizeState) (c : Char) : NormalizeState :=
  let start := state.byteOffset
  let state := { state with byteOffset := start + c.utf8Size }
  if isZeroWidth c then state
  else if Text.isWhitespace c then
    let state := { flushInto unicode state with unit := [] }
    if state.prevSpace then state
    else { state with text := state.text ++ [' '], map := state.map ++ [start], prevSpace := true }
  else
    let state := { state with prevSpace := false }
    if state.unit ≠ [] ∧ unicode.isCombiningMark c then
      { state with unit := state.unit ++ [substitute c] }
    else { flushInto unicode state with unit := [substitute c], unitStart := start }

/-- The text and the map of a source. -/
def normalizeSource (source : Text) : Text × List Nat :=
  let state := flushInto unicode (source.foldl (normalizeChar unicode) ⟨[], [], false, [], 0, 0⟩)
  (state.text, state.map)

variable {unicode}

theorem push_eq (lows : Text) (state : NormalizeState) :
    lows.foldl (fun state low =>
      { state with text := state.text ++ [low], map := state.map ++ [state.unitStart] }) state =
      { state with
        text := state.text ++ lows
        map := state.map ++ lows.map fun _ => state.unitStart } := by
  induction lows generalizing state with
  | nil => simp
  | cons low lows ih =>
      rw [List.foldl_cons, ih]
      simp

theorem flushInto_eq (state : NormalizeState) : flushInto unicode state =
    { state with
      text := state.text ++ (flushUnit unicode state.unit state.unitStart).text
      map := state.map ++ (flushUnit unicode state.unit state.unitStart).offsets } := by
  unfold flushInto flushUnit
  split
  · simp [Mapped.text, Mapped.offsets]
  · generalize unicode.nfc state.unit = chars
    induction chars generalizing state with
    | nil => simp [Mapped.text, Mapped.offsets]
    | cons c chars ih =>
        rw [List.foldl_cons, push_eq, ih]
        · simp [Mapped.text, Mapped.offsets, List.flatMap_cons, Function.comp_def]
        · assumption

/-- The two texts of the loop are those of the one list of the model. -/
theorem normalizeChars_eq (source : Text) (state : NormalizeState) :
    let final := flushInto unicode (source.foldl (normalizeChar unicode) state)
    let mapped :=
      mapChars unicode state.prevSpace state.unit state.unitStart state.byteOffset source
    final.text = state.text ++ mapped.text ∧ final.map = state.map ++ mapped.offsets := by
  induction source generalizing state with
  | nil =>
      dsimp only
      rw [List.foldl_nil, flushInto_eq, mapChars]
      exact ⟨rfl, rfl⟩
  | cons c rest ih =>
      dsimp only at ih ⊢
      rw [List.foldl_cons]
      obtain ⟨text, map⟩ := ih (normalizeChar unicode state c)
      rw [text, map, mapChars, normalizeChar]
      dsimp only
      split
      · exact ⟨rfl, rfl⟩
      · split
        · rw [flushInto_eq]
          dsimp only
          split
          · next already => simp [Mapped.text, Mapped.offsets, already]
          · simp [Mapped.text, Mapped.offsets]
        · split
          · exact ⟨rfl, rfl⟩
          · rw [flushInto_eq]
            simp [Mapped.text, Mapped.offsets]

theorem normalizeSource_eq (source : Text) : normalizeSource unicode source =
    ((normalizeWithMap unicode source).text, (normalizeWithMap unicode source).offsets) := by
  obtain ⟨text, map⟩ := @normalizeChars_eq unicode source ⟨[], [], false, [], 0, 0⟩
  exact Prod.ext text map

end Normalizer

section Locating

/-- `str::find`. -/
def findByte (word text : Text) : Option Nat :=
  (Search.find word text).map fun index => Bytes.size (text.take index)

/-- `text[..byte].chars().count()`. -/
def charsUpTo (text : Text) (byte : Nat) : Except Stop Nat :=
  orPanic ((Bytes.splitAt byte text).map fun halves => halves.1.length)

/-- How far the fragments have been placed; the search goes on at a byte. -/
structure BytePlacement where
  searchFrom : Nat
  firstChar : Option Nat
  lastEndChar : Nat

def placeFragmentRun (normalizedSource : Text) (placement : BytePlacement) (fragment : Text) :
    Except Stop BytePlacement := do
  let behind ← orMissing (Bytes.sliceFrom normalizedSource placement.searchFrom)
  let relative ← orMissing (findByte fragment behind)
  let byteIndex := placement.searchFrom + relative
  let startChar ← charsUpTo normalizedSource byteIndex
  .ok ⟨byteIndex + Bytes.size fragment, some (placement.firstChar.getD startChar),
    startChar + fragment.length⟩

variable (unicode : Unicode)

def locateMultiFragmentRun (quote normalizedSource : Text) (offsetMap : List Nat) :
    Except Stop Nat :=
  let fragments := substantialFragments unicode quote
  if fragments.length < 2 then .error .missing
  else do
    let placement ← fragments.foldlM (placeFragmentRun normalizedSource) ⟨0, none, 0⟩
    let first ← orMissing placement.firstChar
    if placement.lastEndChar - first > maxFragmentSpanChars then .error .missing
    else orMissing offsetMap[first]?

def locateQuoteRun (quote source : Text) : Except Stop Nat :=
  let trimmed := Text.trim quote
  if trimmed = [] then .error .missing
  else
    match findByte trimmed source with
    | some byteIndex => .ok byteIndex
    | none =>
        let normalizedQuote := normalizeForMatch unicode trimmed
        if normalizedQuote = [] then .error .missing
        else
          let (normalizedSource, offsetMap) := normalizeSource unicode source
          match findByte normalizedQuote normalizedSource with
          | some byteIndex => do
              let charIndex ← charsUpTo normalizedSource byteIndex
              orMissing offsetMap[charIndex]?
          | none => locateMultiFragmentRun unicode trimmed normalizedSource offsetMap

variable {unicode}

theorem charsUpTo_size (before after : Text) :
    charsUpTo (before ++ after) (Bytes.size before) = .ok before.length := by
  rw [charsUpTo, Bytes.splitAt_size]
  rfl

theorem charsUpTo_take {text : Text} {index : Nat} (inside : index ≤ text.length) :
    charsUpTo text (Bytes.size (text.take index)) = .ok index := by
  have cut := charsUpTo_size (text.take index) (text.drop index)
  rwa [List.take_append_drop, List.length_take, Nat.min_eq_left inside] at cut

theorem sliceFrom_take (text : Text) (index : Nat) :
    Bytes.sliceFrom text (Bytes.size (text.take index)) = some (text.drop index) := by
  have cut := Bytes.splitAt_size (text.take index) (text.drop index)
  rw [List.take_append_drop] at cut
  rw [Bytes.sliceFrom, cut]
  rfl

theorem size_take_add (text : Text) (index more : Nat) : Bytes.size (text.take (index + more)) =
    Bytes.size (text.take index) + Bytes.size ((text.drop index).take more) := by
  rw [List.take_add, Bytes.size_append]

/-- A placement with its byte. -/
def Placement.toBytes (text : Text) (placement : Placement) : BytePlacement :=
  ⟨Bytes.size (text.take placement.searchFrom), placement.firstChar, placement.lastEndChar⟩

theorem placeFragment_inside {text fragment : Text} {placement next : Placement}
    (inside : placement.searchFrom ≤ text.length)
    (placed : placeFragment text placement fragment = some next) : next.searchFrom ≤ text.length := by
  obtain ⟨relative, found, same⟩ := Option.map_eq_some_iff.mp placed
  cases same
  have within := Search.find_add_le found
  rw [List.length_drop] at within
  dsimp only
  omega

theorem placeFragmentRun_eq {text : Text} {placement : Placement}
    (inside : placement.searchFrom ≤ text.length) (fragment : Text) :
    placeFragmentRun text (placement.toBytes text) fragment =
      orMissing ((placeFragment text placement fragment).map (Placement.toBytes text)) := by
  rw [placeFragmentRun, placeFragment]
  dsimp only [Placement.toBytes]
  rw [sliceFrom_take, orMissing_some, ok_bind, findByte]
  cases found : Search.find fragment (text.drop placement.searchFrom) with
  | none => rfl
  | some relative =>
      have within := Search.find_add_le found
      rw [List.length_drop] at within
      have stands := Search.prefix_drop_of_find found
      rw [List.drop_drop] at stands
      have width : (text.drop (placement.searchFrom + relative)).take fragment.length = fragment :=
        List.prefix_iff_eq_take.mp stands |>.symm
      simp only [Option.map_some, orMissing_some, ok_bind]
      have next := size_take_add text (placement.searchFrom + relative) fragment.length
      rw [width] at next
      rw [← size_take_add, charsUpTo_take (by omega), ok_bind, ← next]
      rfl

theorem placeFragments_eq {text : Text} {placement : Placement}
    (inside : placement.searchFrom ≤ text.length) (fragments : List Text) :
    fragments.foldlM (placeFragmentRun text) (placement.toBytes text) =
      orMissing ((fragments.foldlM (placeFragment text) placement).map (Placement.toBytes text)) := by
  induction fragments generalizing placement with
  | nil => rfl
  | cons fragment fragments ih =>
      rw [List.foldlM_cons, List.foldlM_cons, placeFragmentRun_eq inside]
      cases placed : placeFragment text placement fragment with
      | none => rfl
      | some next => exact ih (placeFragment_inside inside placed)

theorem locateMultiFragmentRun_eq (quote : Text) (source : Mapped) :
    locateMultiFragmentRun unicode quote source.text source.offsets =
      orMissing (locateMultiFragment unicode quote source) := by
  rw [locateMultiFragmentRun, locateMultiFragment]
  split
  · rfl
  · have placed := @placeFragments_eq source.text Placement.start (Nat.zero_le _)
      (substantialFragments unicode quote)
    have start : Placement.start.toBytes source.text = ⟨0, none, 0⟩ := rfl
    rw [start] at placed
    rw [placed]
    cases (substantialFragments unicode quote).foldlM (placeFragment source.text) .start with
    | none => rfl
    | some placement =>
        obtain ⟨searchFrom, firstChar, lastEndChar⟩ := placement
        cases firstChar with
        | none => rfl
        | some first =>
            simp only [Placement.toBytes, Option.map_some, orMissing_some, ok_bind,
              Option.bind_eq_bind, Option.bind_some]
            split <;> rfl

/-- The locator never panics, and locates what its model locates. -/
theorem locateQuoteRun_eq (quote source : Text) :
    locateQuoteRun unicode quote source = orMissing (locateQuote unicode quote source) := by
  rw [locateQuoteRun, locateQuote]
  dsimp only
  split
  · rfl
  · rw [findByte]
    cases Search.find (Text.trim quote) source with
    | some index => rfl
    | none =>
        simp only [Option.map_none, normalizeSource_eq]
        split
        · rfl
        · rw [findByte]
          cases found : Search.find (normalizeForMatch unicode (Text.trim quote))
              (normalizeWithMap unicode source).text with
          | some index =>
              have within := Search.find_add_le found
              simp only [Option.map_some]
              rw [charsUpTo_take (by omega), ok_bind]
          | none => exact locateMultiFragmentRun_eq _ _

end Locating

section Matching

/-- A cell of the table. -/
def cell (table : List (List Nat)) (row col : Nat) : Except Stop Nat :=
  orPanic ((table[row]?).bind fun values => values[col]?)

def backtrackRun (table : List (List Nat)) (quoteTokens : List Text) (window : List SourceToken) :
    Nat → Nat → Option (Nat × Nat) → Except Stop (Option (Nat × Nat))
  | 0, _, range => .ok range
  | _ + 1, 0, range => .ok range
  | row + 1, col + 1, range => do
      let word ← orPanic quoteTokens[row]?
      let token ← orPanic window[col]?
      let here ← cell table (row + 1) (col + 1)
      let diag ← cell table row col
      let up ← cell table row (col + 1)
      let left ← cell table (row + 1) col
      if word = token.cleaned ∧ here = diag + 1 then
        backtrackRun table quoteTokens window row col (some (col, (range.map Prod.snd).getD col))
      else if left ≤ up then backtrackRun table quoteTokens window row (col + 1) range
      else backtrackRun table quoteTokens window (row + 1) col range
  termination_by row col => row + col

def lcsMatchRun (quoteTokens : List Text) (window : List SourceToken) :
    Except Stop (Option (Nat × Nat × Nat)) := do
  let table := alignmentTable quoteTokens window
  let matched ← cell table quoteTokens.length window.length
  if matched = 0 then .ok none
  else do
    let range ← backtrackRun table quoteTokens window quoteTokens.length window.length none
    .ok (range.map fun range => (matched, range))

/-- `&tokens[start..stop]`. -/
def sliceTokens (tokens : List SourceToken) (start stop : Nat) : Except Stop (List SourceToken) :=
  if start ≤ stop ∧ stop ≤ tokens.length then .ok ((tokens.drop start).take (stop - start))
  else .error .panic

def examineWindowRun (quoteTokens : List Text) (sourceTokens : List SourceToken)
    (anchors : List Text) (search : WindowSearch) (entry : SourceToken × Nat) :
    Except Stop WindowSearch :=
  let (token, index) := entry
  if token.cleaned ∉ anchors then .ok search
  else if search.windows + 1 > maxFuzzyWindows then
    .ok { search with windows := search.windows + 1 }
  else do
    let radius := quoteTokens.length + 2
    let windowStart := index - radius
    let windowEnd := min (index + radius + 1) sourceTokens.length
    let window ← sliceTokens sourceTokens windowStart windowEnd
    match ← lcsMatchRun quoteTokens window with
    | none => .ok { search with windows := search.windows + 1 }
    | some (matched, first, last) =>
        if search.best.all fun best => best.1 < matched then
          .ok ⟨some (matched, windowStart + first, windowStart + last), search.windows + 1⟩
        else .ok { search with windows := search.windows + 1 }

def bestWindowRun (quoteTokens : List Text) (sourceTokens : List SourceToken) :
    Except Stop (Option (Nat × Nat × Nat)) :=
  let anchors := anchorTokens quoteTokens
  if anchors = [] then .ok none
  else do
    let search ←
      sourceTokens.zipIdx.foldlM (examineWindowRun quoteTokens sourceTokens anchors) ⟨none, 0⟩
    .ok search.best

def locateQuoteFuzzyRun (unicode : Unicode) (quote source : Text) : Except Stop FuzzyLocate :=
  let quoteTokens := tokenizeQuote unicode quote
  if quoteTokens.length < minFuzzyTokens then .error .missing
  else do
    let (normalizedSource, offsetMap) := normalizeSource unicode source
    let sourceTokens := tokenizeSource unicode normalizedSource
    let best ← bestWindowRun quoteTokens sourceTokens
    let (matched, first, last) ← orMissing best
    if matched * fuzzyThresholdDen < quoteTokens.length * fuzzyThresholdNum then .error .missing
    else do
      let spanTokens ← sliceTokens sourceTokens first (last + 1)
      let loadBearing := quoteTokens.filter hasDigit
      if !loadBearing.all fun needed => spanTokens.any fun token => token.cleaned = needed then
        .error .missing
      else do
        let firstToken ← orPanic sourceTokens[first]?
        let lastToken ← orPanic sourceTokens[last]?
        let startByte ← orMissing offsetMap[firstToken.startChar]?
        let endByte := (offsetMap[lastToken.endChar]?).getD (Bytes.size source)
        let span ← orPanic (Bytes.slice source startByte endByte)
        .ok ⟨startByte, Text.trimEnd span, min matched 0xffffffff, min quoteTokens.length 0xffffffff⟩

section Runs

variable {quoteTokens : List Text} {window : List SourceToken} {row col : Nat}

theorem cell_eq (inRows : row ≤ quoteTokens.length) (inCols : col ≤ window.length) :
    cell (alignmentTable quoteTokens window) row col =
      .ok (tableAt (alignmentTable quoteTokens window) row col) := by
  obtain ⟨values, value, found, here, -⟩ := alignmentTable_cell inRows inCols
  rw [cell, tableAt, found, Option.bind_some, here]
  rfl

/-- A step back reads tokens and cells that are there. -/
theorem backtrackRun_step (inRows : row + 1 ≤ quoteTokens.length) (inCols : col + 1 ≤ window.length)
    (range : Option (Nat × Nat)) :
    let table := alignmentTable quoteTokens window
    backtrackRun table quoteTokens window (row + 1) (col + 1) range =
      if quoteTokens[row]? = (window[col]?).map SourceToken.cleaned ∧
          tableAt table (row + 1) (col + 1) = tableAt table row col + 1 then
        backtrackRun table quoteTokens window row col (some (col, (range.map Prod.snd).getD col))
      else if tableAt table (row + 1) col ≤ tableAt table row (col + 1) then
        backtrackRun table quoteTokens window row (col + 1) range
      else backtrackRun table quoteTokens window (row + 1) col range := by
  dsimp only
  rw [backtrackRun, List.getElem?_eq_getElem inRows, List.getElem?_eq_getElem inCols,
    cell_eq inRows inCols, cell_eq (Nat.le_of_succ_le inRows) (Nat.le_of_succ_le inCols),
    cell_eq (Nat.le_of_succ_le inRows) inCols, cell_eq inRows (Nat.le_of_succ_le inCols)]
  simp only [orPanic_some, ok_bind, Option.map_some, Option.some.injEq]

theorem backtrackRun_eq (inRows : row ≤ quoteTokens.length) (inCols : col ≤ window.length)
    (range : Option (Nat × Nat)) :
    backtrackRun (alignmentTable quoteTokens window) quoteTokens window row col range =
      .ok (backtrack (alignmentTable quoteTokens window) quoteTokens window row col range) := by
  fun_induction backtrack (alignmentTable quoteTokens window) quoteTokens window row col range with
  | case1 col range => rw [backtrackRun]
  | case2 row range => rw [backtrackRun]
  | case3 row col range same ih =>
      rw [backtrackRun_step inRows inCols, if_pos same]
      exact ih (Nat.le_of_succ_le inRows) (Nat.le_of_succ_le inCols)
  | case4 row col range same up ih =>
      rw [backtrackRun_step inRows inCols, if_neg same, if_pos up]
      exact ih (Nat.le_of_succ_le inRows) inCols
  | case5 row col range same up ih =>
      rw [backtrackRun_step inRows inCols, if_neg same, if_neg up]
      exact ih inRows (Nat.le_of_succ_le inCols)

theorem lcsMatchRun_eq (quoteTokens : List Text) (window : List SourceToken) :
    lcsMatchRun quoteTokens window = .ok (lcsMatch quoteTokens window) := by
  rw [lcsMatchRun, lcsMatch, cell_eq (Nat.le_refl _) (Nat.le_refl _), ok_bind,
    backtrackRun_eq (Nat.le_refl _) (Nat.le_refl _), ok_bind]
  split
  · next none => exact congrArg Except.ok (if_pos none).symm
  · next some => exact congrArg Except.ok (if_neg some).symm

theorem sliceTokens_eq {tokens : List SourceToken} {start stop : Nat} (ordered : start ≤ stop)
    (inside : stop ≤ tokens.length) :
    sliceTokens tokens start stop = .ok ((tokens.drop start).take (stop - start)) :=
  if_pos ⟨ordered, inside⟩

theorem examineWindowRun_eq {sourceTokens : List SourceToken} {anchors : List Text}
    {search : WindowSearch} {token : SourceToken} {index : Nat}
    (inside : index < sourceTokens.length) :
    examineWindowRun quoteTokens sourceTokens anchors search (token, index) =
      .ok (examineWindow quoteTokens sourceTokens anchors search index token) := by
  rw [examineWindowRun, examineWindow]
  dsimp only
  split
  · rfl
  · split
    · rfl
    · rw [sliceTokens_eq (by omega) (Nat.min_le_right _ _), ok_bind, lcsMatchRun_eq, ok_bind]
      cases lcsMatch quoteTokens _ with
      | none => rfl
      | some found =>
          dsimp only
          split <;> rfl

/-- Where every step of a fold succeeds, the fold does. -/
theorem foldlM_ok {σ α : Type} {run : σ → α → Except Stop σ} {step : σ → α → σ} {items : List α}
    (each : ∀ state, ∀ item ∈ items, run state item = .ok (step state item)) (state : σ) :
    items.foldlM run state = .ok (items.foldl step state) := by
  induction items generalizing state with
  | nil => rfl
  | cons item items ih =>
      rw [List.foldlM_cons, each state item List.mem_cons_self, ok_bind, List.foldl_cons]
      exact ih (fun state item member => each state item (List.mem_cons_of_mem _ member)) _

theorem bestWindowRun_eq (quoteTokens : List Text) (sourceTokens : List SourceToken) :
    bestWindowRun quoteTokens sourceTokens = .ok (bestWindow quoteTokens sourceTokens) := by
  rw [bestWindowRun, bestWindow]
  split
  · rfl
  · rw [foldlM_ok, ok_bind]
    rintro search ⟨token, index⟩ member
    refine examineWindowRun_eq ?_
    have within := List.snd_lt_of_mem_zipIdx member
    omega

end Runs

end Matching

end SP42.Citation

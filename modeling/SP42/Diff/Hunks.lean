import SP42.Diff.Inline
import SP42.Base.Number

/-!
Hunks of a structured diff: the windows around its changes, with their line spans,
section labels, markers and notes, and the pairing of moved blocks.
-/
namespace SP42.Diff

/-- A heading line's label: as many equals signs before it as after it. -/
def parseSectionHeading (line : Text) : Option (Option Text) :=
  let trimmed := Text.trim line
  if Bytes.size trimmed < 4 then some none
  else
    let leading := (trimmed.takeWhile (· == '=')).length
    let trailing := (trimmed.reverse.takeWhile (· == '=')).length
    if leading < 2 ∨ leading ≠ trailing then some none
    else do
      let stop ← Total.sub (Bytes.size trimmed) trailing
      let inner ← Bytes.slice trimmed leading stop
      let heading := Text.trim inner
      return if heading = [] then none else some heading

def buildSectionIndex (text : Text) : Option (List (Nat × Text)) := do
  let headings ← (Text.lines text).mapM parseSectionHeading
  return headings.zipIdx.filterMap fun (heading, index) => heading.map fun label => (index + 1, label)

def resolveSectionLabel (span : Option DiffLineSpan) (sections : List (Nat × Text)) : Option Text :=
  span.map fun span =>
    match (sections.takeWhile fun entry => entry.1 ≤ span.startLine).getLast? with
    | some (_, label) => label
    | none => "Lead".toList

def collectedText (kind : DiffSegmentKind) (segments : List DiffSegment) : Text :=
  (segments.filter fun segment => segment.kind = kind).flatMap DiffSegment.text

/-- The namespaces that a language prefix is not. -/
def excludedPrefixes : List Text :=
  ["category", "catégorie", "file", "fichier", "image", "template", "modèle", "user",
   "utilisateur", "portal", "help", "aide", "draft", "media", "special", "module", "project",
   "wikipedia"].map String.toList

def isInterwikiLink (candidate : Text) : Option Bool :=
  let lowered := Text.toAsciiLowercase (Text.trim candidate)
  if ¬ ("[[".toList <+: lowered ∧ "]]".toList <:+ lowered) then some false
  else do
    let stop ← Total.sub (Bytes.size lowered) 2
    let inner ← Bytes.slice lowered 2 stop
    if ':' ∉ inner then return false
    let language := inner.takeWhile (· ≠ ':')
    if language = [] ∨ ' ' ∈ language then return false
    if language ∈ excludedPrefixes then return false
    return language.all fun ch => ch.isLower || ch == '-'

def containsInterwikiMarkup (lowered : Text) : Option Bool :=
  let candidates := ((Text.split lowered "[[".toList).drop 1).filterMap fun part =>
    (Text.split part "]]".toList).head?
  candidates.anyM fun candidate => isInterwikiLink ("[[".toList ++ candidate ++ "]]".toList)

def combinedText (segments : List DiffSegment) : Text :=
  collectedText .insert segments ++ '\n' :: collectedText .delete segments

def markerIf (condition : Bool) (marker : DiffMarker) : List DiffMarker :=
  if condition then [marker] else []

def collectHunkMarkers (segments : List DiffSegment) : Option (List DiffMarker) := do
  let combined := combinedText segments
  let lowered := Text.toAsciiLowercase combined
  let mentions (word : String) : Bool := Text.contains lowered word.toList
  let heading ← (Text.lines combined).anyM fun line =>
    (parseSectionHeading line).map Option.isSome
  let interwiki ← containsInterwikiMarkup lowered
  return markerIf (mentions "<ref" || mentions "\x7b\x7bcite" || mentions "\x7b\x7bcitation")
      .references ++
    markerIf (mentions "[[category:" || mentions "[[catégorie:") .category ++
    markerIf (mentions "[[file:" || mentions "[[image:" || mentions "[[fichier:" ||
      mentions "<gallery") .media ++
    markerIf (mentions "\x7b\x7b") .template ++
    markerIf heading .heading ++
    markerIf interwiki .interwiki

def diffMarkerLabel : DiffMarker → Text
  | .references => "references".toList
  | .category => "categories".toList
  | .interwiki => "interwiki".toList
  | .template => "templates".toList
  | .media => "media".toList
  | .heading => "section headings".toList

def buildHunkNotes (kind : DiffHunkKind) (markers : List DiffMarker)
    (before after : Option DiffLineSpan) : List Text :=
  let place :=
    match kind with
    | .modification => ["content changed in place".toList]
    | .addition =>
        (after.map fun span =>
          "new content around line ".toList ++ Text.ofNat span.startLine).toList
    | .removal =>
        (before.map fun span =>
          "content removed around line ".toList ++ Text.ofNat span.startLine).toList
  if markers = [] then place
  else place ++
    ["semantic cues: ".toList ++ Text.join ", ".toList (markers.map diffMarkerLabel)]

def lastLine (span : DiffLineSpan) : Nat := span.startLine + (span.lineCount - 1)

def mergeLineSpans : List DiffLineSpan → Option DiffLineSpan
  | [] => none
  | first :: rest =>
      let startLine := rest.foldl (fun line span => min line span.startLine) first.startLine
      let endLine := rest.foldl (fun line span => max line (lastLine span)) (lastLine first)
      some { startLine := startLine, lineCount := endLine - startLine + 1 }

def classifyHunkKind (segments : List DiffSegment) : DiffHunkKind :=
  let hasInsert := segments.any fun segment => segment.kind = .insert
  let hasDelete := segments.any fun segment => segment.kind = .delete
  match hasInsert, hasDelete with
  | true, false => .addition
  | false, true => .removal
  | true, true | false, false => .modification

/-- A changed segment makes its neighbours visible. -/
def markVisible (contextLines : Nat) (visible : List Bool) (segment : DiffSegment × Nat) :
    Option (List Bool) :=
  if segment.1.kind = .equal then some visible
  else markUsed visible
    (segment.2 - contextLines, min (segment.2 + contextLines + 1) visible.length)

/-- The maximal runs of visible positions; a run that has begun is in hand. -/
def visibleRuns : Nat → Option Nat → List Bool → List (Nat × Nat)
  | _, none, [] => []
  | cursor, some start, [] => [(start, cursor)]
  | cursor, none, false :: rest => visibleRuns (cursor + 1) none rest
  | cursor, none, true :: rest => visibleRuns (cursor + 1) (some cursor) rest
  | cursor, some start, true :: rest => visibleRuns (cursor + 1) (some start) rest
  | cursor, some start, false :: rest => (start, cursor) :: visibleRuns (cursor + 1) none rest

def collectChangedRanges (segments : List DiffSegment) (contextLines : Nat) :
    Option (List (Nat × Nat)) := do
  let visible ← segments.zipIdx.foldlM (markVisible contextLines)
    (List.replicate segments.length false)
  return visibleRuns 0 none visible

section Moves

variable (isAlphanumeric : Char → Bool)

def normalizedWordBag (text : Text) : List Text :=
  ((text.splitOnP fun ch => !isAlphanumeric ch).filter (· ≠ [])).map Text.toAsciiLowercase

def isProbableMoveMatch (left right : Text) : Option Bool :=
  let leftWords := normalizedWordBag isAlphanumeric left
  let rightWords := normalizedWordBag isAlphanumeric right
  if leftWords = [] ∨ rightWords = [] then some false
  else do
    let shared := (leftWords.filter fun word => word ∈ rightWords).length
    let total ← Total.sub (leftWords.length + rightWords.length) shared
    if total = 0 then return true
    return decide (total * 6 ≤ shared * 10)

def normalizedLines (kind : DiffSegmentKind) (segments : List DiffSegment) : List Text :=
  ((((segments.filter fun segment => segment.kind = kind).flatMap fun segment =>
    Text.lines segment.text).map Text.trim).filter (· ≠ [])).map Text.toAsciiLowercase

def normalizedChangeText (hunk : DiffHunk) : Option Text :=
  let read (kind : DiffSegmentKind) : Option Text :=
    let lines := normalizedLines kind hunk.segments
    let joined := Text.join "\n".toList lines
    if lines.length < 2 ∧ joined.length < 80 then none else some joined
  match hunk.kind with
  | .addition => read .insert
  | .removal => read .delete
  | .modification => none

def normalizedHunkSideText (hunk : DiffHunk) (kind : DiffSegmentKind) : Option Text :=
  let joined := Text.join "\n".toList (normalizedLines kind hunk.segments)
  if joined = [] then none else some joined

/-- The first loop: a modification that moves its text to another section. -/
def annotateInPlace (state : List DiffHunk × Nat) (hunk : DiffHunk) :
    Option (List DiffHunk × Nat) := do
  if hunk.kind ≠ .modification ∨ hunk.moveGroup.isSome then return (state.1 ++ [hunk], state.2)
  match normalizedHunkSideText hunk .delete, normalizedHunkSideText hunk .insert with
  | some removed, some inserted =>
      if hunk.sections.before = hunk.sections.after then return (state.1 ++ [hunk], state.2)
      if ← isProbableMoveMatch isAlphanumeric removed inserted then
        return (state.1 ++ [{ hunk with
          moveGroup := some state.2
          notes := hunk.notes ++ ["probable moved block with in-place edits".toList] }], state.2 + 1)
      return (state.1 ++ [hunk], state.2)
  | _, _ => return (state.1 ++ [hunk], state.2)

/-- The state of the second loop. -/
structure Moving where
  hunks : List DiffHunk
  consumed : List Bool
  nextGroup : Nat

/-- The inner loop over the candidates for a target. -/
def moveTarget (state : Moving) (source : Nat) (signature : Text) : List Nat → Option (Option Nat)
  | [] => some none
  | target :: rest => do
      let taken ← state.consumed[target]?
      let hunk ← state.hunks[target]?
      if source = target ∨ taken ∨ hunk.kind ≠ .addition then
        moveTarget state source signature rest
      else
        match normalizedChangeText hunk with
        | none => moveTarget state source signature rest
        | some targetSignature =>
            if ← isProbableMoveMatch isAlphanumeric signature targetSignature then
              return some target
            else moveTarget state source signature rest

def markMoved (hunk : DiffHunk) (group : Nat) (role : DiffMoveRole) : DiffHunk :=
  { hunk with
    moveGroup := some group
    moveRole := some role
    notes := hunk.notes ++ ["probable moved block".toList] }

/-- The outer loop: a removal finds the addition that its text moved to. -/
def pairMove (state : Moving) (source : Nat) : Option Moving := do
  let taken ← state.consumed[source]?
  let hunk ← state.hunks[source]?
  if taken ∨ hunk.kind ≠ .removal then return state
  match normalizedChangeText hunk with
  | none => return state
  | some signature =>
      match ← moveTarget isAlphanumeric state source signature
          (List.range state.hunks.length) with
      | none => return state
      | some target =>
          let targetHunk ← state.hunks[target]?
          return {
            hunks := (state.hunks.set source (markMoved hunk state.nextGroup .source)).set target
              (markMoved targetHunk state.nextGroup .target)
            consumed := (state.consumed.set source true).set target true
            nextGroup := state.nextGroup + 1 }

def annotateMoves (hunks : List DiffHunk) : Option (List DiffHunk) := do
  let (hunks, nextGroup) ← hunks.foldlM (annotateInPlace isAlphanumeric) ([], 1)
  let moved ← (List.range hunks.length).foldlM (pairMove isAlphanumeric)
    { hunks := hunks, consumed := List.replicate hunks.length false, nextGroup := nextGroup }
  return moved.hunks

end Moves

/-- One hunk: the segments of a range, described. -/
def buildHunk (segments : List DiffSegment) (beforeSections afterSections : List (Nat × Text))
    (range : Nat × Nat) : Option DiffHunk := do
  let hunkSegments ← Total.slice segments range.1 range.2
  let changedBefore := mergeLineSpans
    ((hunkSegments.filter fun segment => segment.kind = .delete).filterMap DiffSegment.before)
  let changedAfter := mergeLineSpans
    ((hunkSegments.filter fun segment => segment.kind = .insert).filterMap DiffSegment.after)
  let before := changedBefore.or (mergeLineSpans (hunkSegments.filterMap DiffSegment.before))
  let after := changedAfter.or (mergeLineSpans (hunkSegments.filterMap DiffSegment.after))
  let kind := classifyHunkKind hunkSegments
  let markers ← collectHunkMarkers hunkSegments
  return {
    kind := kind
    before := before
    after := after
    sections :=
      { before := resolveSectionLabel (changedBefore.or before) beforeSections
        after := resolveSectionLabel (changedAfter.or after) afterSections }
    markers := markers
    notes := buildHunkNotes kind markers before after
    moveGroup := none
    moveRole := none
    segments := hunkSegments }

section Diff

variable (isAlphanumeric : Char → Bool) (differ : TextDiff)

def buildDiffHunks (segments : List DiffSegment) (beforeText afterText : Text)
    (contextLines : Nat) : Option (List DiffHunk) := do
  let changedRanges ← collectChangedRanges segments contextLines
  if changedRanges = [] then return []
  let beforeSections ← buildSectionIndex beforeText
  let afterSections ← buildSectionIndex afterText
  let hunks ← changedRanges.mapM (buildHunk segments beforeSections afterSections)
  annotateMoves isAlphanumeric hunks

def diffLines (before after : Text) : Option StructuredDiff := do
  let diff := collectSegments .lines (differ.fromLines before after)
  let segments ← computeInlineHighlights isAlphanumeric differ diff.segments
  let hunks ← buildDiffHunks isAlphanumeric segments before after 3
  return { diff with segments := segments, hunks := hunks }

end Diff

end SP42.Diff

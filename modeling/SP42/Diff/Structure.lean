import SP42.Base.Text
import SP42.Lib.Bytes
import SP42.Lib.Search
import SP42.Lib.Total

/-!
Structured diffs: what the differ returns for two texts, cut into segments. The
third-party differ is a parameter that answers with a list of changes; `none` is a
panic.
-/
namespace SP42

namespace Text

/-- `str::to_ascii_lowercase`. -/
def toAsciiLowercase (text : Text) : Text := text.map Char.toLower

def contains (text word : Text) : Bool := (Search.find word text).isSome

/-- `str::find`, in bytes. -/
def findBytes (text word : Text) : Option Nat :=
  (Search.find word text).map fun position => Bytes.size (text.take position)

def dropCarriageReturn (line : Text) : Text :=
  if line.getLast? = some '\r' then line.dropLast else line

/-- `str::lines`, from a line of which the first characters are known. -/
def linesFrom (line : Text) : Text → List Text
  | [] => if line = [] then [] else [line]
  | '\n' :: rest => dropCarriageReturn line :: linesFrom [] rest
  | c :: rest => linesFrom (line ++ [c]) rest

def lines (text : Text) : List Text := linesFrom [] text

/-- The loop of `str::split`, with the piece in hand and the letters of a found word to skip. -/
def splitFrom (word : Text) : Nat → Text → Text → List Text
  | _, piece, [] => [piece]
  | skip + 1, piece, _ :: rest => splitFrom word skip piece rest
  | 0, piece, c :: rest =>
      if word <+: c :: rest then piece :: splitFrom word (word.length - 1) [] rest
      else splitFrom word 0 (piece ++ [c]) rest

/-- `str::split` at a word. -/
def split (text word : Text) : List Text := splitFrom word 0 [] text

end Text

namespace Diff

inductive DiffMode where
  | lines
  | chars
  deriving DecidableEq, Repr

structure DiffLineSpan where
  startLine : Nat
  lineCount : Nat
  deriving DecidableEq, Repr

inductive DiffSegmentKind where
  | equal
  | insert
  | delete
  deriving DecidableEq, Repr

/-- A span inside a segment that shows which words changed. -/
structure InlineSpan where
  kind : DiffSegmentKind
  text : Text
  deriving DecidableEq

structure DiffSegment where
  kind : DiffSegmentKind
  text : Text
  before : Option DiffLineSpan
  after : Option DiffLineSpan
  inlineHighlights : List InlineSpan
  deriving DecidableEq

inductive DiffHunkKind where
  | modification
  | addition
  | removal
  deriving DecidableEq, Repr

inductive DiffMoveRole where
  | source
  | target
  deriving DecidableEq, Repr

inductive DiffMarker where
  | references
  | category
  | interwiki
  | template
  | media
  | heading
  deriving DecidableEq, Repr

structure DiffSectionContext where
  before : Option Text
  after : Option Text
  deriving DecidableEq

structure DiffHunk where
  kind : DiffHunkKind
  before : Option DiffLineSpan
  after : Option DiffLineSpan
  sections : DiffSectionContext
  markers : List DiffMarker
  notes : List Text
  moveGroup : Option Nat
  moveRole : Option DiffMoveRole
  segments : List DiffSegment
  deriving DecidableEq

structure DiffStats where
  equalSegments : Nat
  insertSegments : Nat
  deleteSegments : Nat
  equalCharCount : Nat
  insertedCharCount : Nat
  deletedCharCount : Nat
  deriving DecidableEq, Repr

def DiffStats.default : DiffStats := ⟨0, 0, 0, 0, 0, 0⟩

structure StructuredDiff where
  mode : DiffMode
  segments : List DiffSegment
  hunks : List DiffHunk
  stats : DiffStats
  deriving DecidableEq

/-- A change of the differ: its tag and its text. -/
structure Change where
  tag : DiffSegmentKind
  text : Text
  deriving DecidableEq

/-- The texts of the changes that are not of one kind, in order. -/
def textWithout (kind : DiffSegmentKind) (changes : List Change) : Text :=
  (changes.filter fun change => change.tag ≠ kind).flatMap Change.text

/-- The differ's answers to two texts, by its unit. -/
structure TextDiff where
  fromLines : Text → Text → List Change
  fromChars : Text → Text → List Change
  fromWords : Text → Text → List Change

/-- What the changes of a differ do to the two texts. -/
def Rebuilds (differ : Text → Text → List Change) : Prop :=
  ∀ before after, textWithout .insert (differ before after) = before ∧
    textWithout .delete (differ before after) = after

def countTextLines (text : Text) : Nat :=
  if text = [] then 0
  else
    let newlineCount := text.count '\n'
    if text.getLast? = some '\n' then newlineCount else newlineCount + 1

def lineSpan (startLine lineCount : Nat) : Option DiffLineSpan :=
  if 0 < lineCount then some { startLine := startLine, lineCount := lineCount } else none

/-- The state of the loop over the changes. -/
structure Collecting where
  segments : List DiffSegment
  stats : DiffStats
  beforeLine : Nat
  afterLine : Nat

def DiffStats.add (stats : DiffStats) (kind : DiffSegmentKind) (characterCount : Nat) : DiffStats :=
  match kind with
  | .equal =>
      { stats with
        equalSegments := stats.equalSegments + 1
        equalCharCount := stats.equalCharCount + characterCount }
  | .insert =>
      { stats with
        insertSegments := stats.insertSegments + 1
        insertedCharCount := stats.insertedCharCount + characterCount }
  | .delete =>
      { stats with
        deleteSegments := stats.deleteSegments + 1
        deletedCharCount := stats.deletedCharCount + characterCount }

def collectChange (mode : DiffMode) (state : Collecting) (change : Change) : Collecting :=
  let stats := state.stats.add change.tag change.text.length
  let segment before after : DiffSegment :=
    { kind := change.tag, text := change.text, before := before, after := after
      inlineHighlights := [] }
  match mode with
  | .chars =>
      { state with segments := state.segments ++ [segment none none], stats := stats }
  | .lines =>
      let lineCount := countTextLines change.text
      match change.tag with
      | .equal =>
          { segments := state.segments ++
              [segment (lineSpan state.beforeLine lineCount) (lineSpan state.afterLine lineCount)]
            stats := stats
            beforeLine := state.beforeLine + lineCount
            afterLine := state.afterLine + lineCount }
      | .delete =>
          { state with
            segments := state.segments ++ [segment (lineSpan state.beforeLine lineCount) none]
            stats := stats
            beforeLine := state.beforeLine + lineCount }
      | .insert =>
          { state with
            segments := state.segments ++ [segment none (lineSpan state.afterLine lineCount)]
            stats := stats
            afterLine := state.afterLine + lineCount }

def collectSegments (mode : DiffMode) (changes : List Change) : StructuredDiff :=
  let final := changes.foldl (collectChange mode)
    { segments := [], stats := .default, beforeLine := 1, afterLine := 1 }
  { mode := mode, segments := final.segments, hunks := [], stats := final.stats }

def diffChars (differ : TextDiff) (before after : Text) : StructuredDiff :=
  collectSegments .chars (differ.fromChars before after)

def normalizeReconstructedText (mode : DiffMode) (text : Text) : Text :=
  match mode with
  | .lines => text
  | .chars => text.filter (· ≠ '\n')

def beforeText (diff : StructuredDiff) : Text :=
  normalizeReconstructedText diff.mode
    ((diff.segments.filter fun segment => segment.kind ≠ .insert).flatMap DiffSegment.text)

def afterText (diff : StructuredDiff) : Text :=
  normalizeReconstructedText diff.mode
    ((diff.segments.filter fun segment => segment.kind ≠ .delete).flatMap DiffSegment.text)

/-- What a segment keeps of its change. -/
def DiffSegment.change (segment : DiffSegment) : Change := ⟨segment.kind, segment.text⟩

theorem collectChange_segments (mode : DiffMode) (state : Collecting) (change : Change) :
    (collectChange mode state change).segments.map DiffSegment.change =
      state.segments.map DiffSegment.change ++ [change] := by
  cases mode with
  | chars => simp [collectChange, DiffSegment.change]
  | lines =>
      obtain ⟨tag, text⟩ := change
      cases tag <;> simp [collectChange, DiffSegment.change]

/-- The segments are the changes, in order. -/
theorem collectSegments_changes (mode : DiffMode) (changes : List Change) :
    (collectSegments mode changes).segments.map DiffSegment.change = changes := by
  have run : ∀ state : Collecting,
      (changes.foldl (collectChange mode) state).segments.map DiffSegment.change =
        state.segments.map DiffSegment.change ++ changes := by
    induction changes with
    | nil => simp
    | cons change changes ih =>
        intro state
        rw [List.foldl_cons, ih, collectChange_segments, List.append_assoc]
        rfl
  exact run _

end Diff

end SP42

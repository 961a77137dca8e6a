import Mathlib.Data.List.Sort
import SP42.Actions.Route
import SP42.Lib.Grouping
import SP42.Live.Query
import SP42.Scoring.Types

/-!
The queue of the patrol page: the filtered edits, grouped where the reviewer asks for it,
and the action request a row makes.
-/
namespace SP42.Patrol

open Scoring (EditorIdentity)
open Live (LiveOperatorQuery)

structure EditEvent where
  contentModel : Option String
  wikiId : Text
  title : Text
  namespaceId : I32
  revId : Nat
  oldRevId : Option Nat
  performer : EditorIdentity
  isBot : FlagState
  isMinor : FlagState
  isNewPage : FlagState
  tags : List Text
  byteDelta : I32
  isPatrolled : FlagState
  deriving DecidableEq

structure QueuedEdit where
  event : EditEvent
  scoreTotal : I32
  deriving DecidableEq

structure PatrolFilterParams where
  query : LiveOperatorQuery
  selectedIndex : Option Nat
  groupEdits : Bool
  deriving DecidableEq

section Filter

def includes (query : LiveOperatorQuery) : EditorIdentity → Bool
  | .registered _ => query.includeRegistered.isEnabled
  | .temporary _ => query.includeTemporary.isEnabled
  | .anonymous _ => query.includeAnonymous.isEnabled

/-- A flag that a filter leaves out unless it is included. -/
def allowed (included flag : FlagState) : Bool := included.isEnabled || !flag.isEnabled

def liveOperatorQueryMatches (item : QueuedEdit) (query : LiveOperatorQuery) : Bool :=
  (query.minScore.all fun least => least.val ≤ item.scoreTotal.val) &&
    includes query item.event.performer &&
    allowed query.includeBots item.event.isBot &&
    allowed query.includeMinor item.event.isMinor &&
    allowed query.includeNewPages item.event.isNewPage &&
    !(query.unpatrolledOnly.isEnabled && item.event.isPatrolled.isEnabled) &&
    (query.namespaces.isEmpty || query.namespaces.contains item.event.namespaceId) &&
    query.tagFilter.all fun tag => item.event.tags.contains tag

def filterEdits (edits : List QueuedEdit) (filters : PatrolFilterParams) : List QueuedEdit :=
  edits.filter fun item => liveOperatorQueryMatches item filters.query

end Filter

section Groups

def performerKey : EditorIdentity → Text
  | .registered username => username
  | .anonymous label => label
  | .temporary label => label

/-- The key under which edits are grouped. -/
def groupKey (item : QueuedEdit) : Text :=
  item.event.title ++ '|' :: performerKey item.event.performer

/-- The revisions behind a merged row, by the revision of the row. A later entry stands
before an earlier one. -/
abbrev GroupRevIds := List (Nat × List Nat)

/-- `i32` arithmetic in a release build. -/
def wrap (z : Int) : I32 :=
  ⟨(z - i32Min) % 2 ^ 32 + i32Min, by unfold i32Min i32Max; omega⟩

def totalDelta (members : List QueuedEdit) : I32 :=
  (members.map fun edit => edit.event.byteDelta).foldl (fun sum delta => wrap (sum.val + delta.val))
    I32.zero

def maxScore (members : List QueuedEdit) : I32 :=
  ((members.map QueuedEdit.scoreTotal).max?).getD I32.zero

def sortedByRev (members : List QueuedEdit) : List QueuedEdit :=
  members.insertionSort fun a b => a.event.revId ≤ b.event.revId

/-- The row of several members: the newest, from the base of the oldest. -/
def mergedRow (oldest newest : QueuedEdit) (members : List QueuedEdit) : QueuedEdit where
  event := { newest.event with
    oldRevId := oldest.event.oldRevId
    byteDelta := totalDelta members }
  scoreTotal := maxScore members

/-- A group as a row, with the revisions of a merged one. -/
def groupRow (members : List QueuedEdit) : Option (QueuedEdit × Option (Nat × List Nat)) :=
  if members.length = 1 then members.head?.map fun single => (single, none)
  else
    let sorted := sortedByRev members
    match sorted.head?, sorted.getLast? with
    | some oldest, some newest =>
        some (mergedRow oldest newest sorted,
          some (newest.event.revId, sorted.map fun edit => edit.event.revId))
    | _, _ => none

def groupEdits (edits : List QueuedEdit) : List QueuedEdit × GroupRevIds :=
  let rows := (Grouping.gather groupKey edits).filterMap fun group => groupRow group.2
  (rows.map Prod.fst, (rows.filterMap Prod.snd).reverse)

/-- The rows before the limit, and what stands behind them. -/
def rowsOf (edits : List QueuedEdit) (filters : PatrolFilterParams) :
    List QueuedEdit × GroupRevIds :=
  let filtered := filterEdits edits filters
  if filters.groupEdits then groupEdits filtered else (filtered, [])

/-- The memo `queue`. -/
def queue (edits : List QueuedEdit) (filters : PatrolFilterParams) : List QueuedEdit :=
  (rowsOf edits filters).1.take filters.query.limit.val

/-- The signal `group_rev_ids`, as the memo sets it. -/
def groupRevIds (edits : List QueuedEdit) (filters : PatrolFilterParams) : GroupRevIds :=
  (rowsOf edits filters).2

def selectedIndex (rows : List QueuedEdit) (selectedRevId : Option Nat) : Nat :=
  (selectedRevId.bind fun rev => rows.findIdx? fun edit => edit.event.revId = rev).getD 0

end Groups

section Requests

open Actions (SessionActionExecutionRequest SessionActionKind)

def actionSummary (reviewNote : Text) : Text :=
  if reviewNote = [] then "SP42".toList else "SP42: ".toList ++ reviewNote

def buildActionRequest (wikiId : Text) (edit : QueuedEdit) (kind : SessionActionKind)
    (reviewNote : Text) (groups : GroupRevIds) : SessionActionExecutionRequest where
  wikiId := wikiId
  kind := kind
  revId := edit.event.revId
  title := some edit.event.title
  targetUser := some (performerKey edit.event.performer)
  undoAfterRevId := edit.event.oldRevId
  summary := some (actionSummary reviewNote)
  selectedText := none
  batchRevIds := groups.lookup edit.event.revId
  replacementText := none
  nodeLocator := none
  concernKind := none
  reason := none

/-- The base of an undo: the old revision, or the number before. -/
def undoBase (event : EditEvent) : Option Nat :=
  event.oldRevId.or (if event.revId = 0 then none else some (event.revId - 1))

def sessionRequest (item : QueuedEdit) (kind : SessionActionKind) (title targetUser : Option Text)
    (undoAfterRevId : Option Nat) (note : Option Text) : SessionActionExecutionRequest where
  wikiId := item.event.wikiId
  kind := kind
  revId := item.event.revId
  title := title
  targetUser := targetUser
  undoAfterRevId := undoAfterRevId
  summary := note
  selectedText := none
  batchRevIds := none
  replacementText := none
  nodeLocator := none
  concernKind := none
  reason := none

def buildSessionActionExecutionRequests (item : QueuedEdit) (note : Option Text) :
    Except Text (List SessionActionExecutionRequest) :=
  match undoBase item.event with
  | none => .error "undo request requires old_rev_id or rev_id > 0".toList
  | some undoAfterRevId =>
      let title := some item.event.title
      let user := some (performerKey item.event.performer)
      .ok
        [sessionRequest item .rollback title user none note,
          sessionRequest item .patrol none none none note,
          sessionRequest item .undo title none (some undoAfterRevId) note]

/-- The revisions a row stands for, as the page takes them. -/
def rowRevs (groups : GroupRevIds) (row : QueuedEdit) : List Nat :=
  (groups.lookup row.event.revId).getD [row.event.revId]

end Requests

end SP42.Patrol

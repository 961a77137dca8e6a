import Mathlib.Logic.Function.Basic
import SP42.Lib.Run
import SP42.Patrol.Queue
import SP42.Scoring.Engine

/-!
The patrol page as a machine. A step is what runs without a break: the handler of an
event, an effect, or the part of a task behind an answer. Tasks that wait for an answer
are listed and go on in any order. The effects on the selected revision run together.
-/
namespace SP42.Patrol

open Actions (SessionActionExecutionRequest SessionActionKind)

/-- Two revisions to compare. -/
structure RevisionPair where
  wikiId : Text
  revId : Nat
  oldRevId : Nat
  deriving DecidableEq

def pairOf (edit : QueuedEdit) : RevisionPair where
  wikiId := edit.event.wikiId
  revId := edit.event.revId
  oldRevId := edit.event.oldRevId.getD 0

inductive ContentDiffReport (Diff Entity : Type) where
  | text (diff : Diff)
  | entity (diff : Entity)

/-- The diffs the server has. -/
structure DiffServer (Diff Entity Media : Type) where
  text : RevisionPair → Option Diff
  entity : RevisionPair → Option Entity
  media : RevisionPair → Option Media
  hasChanges : Media → Bool

section State

variable (Diff Entity Media : Type)

/-- The signals of the revision artifacts. -/
structure Artifacts where
  diffLoading : Bool
  currentDiff : Option Diff
  currentEntityDiff : Option Entity
  diffCache : Nat → Option Diff
  entityDiffCache : Nat → Option Entity
  mediaDiffLoading : Bool
  currentMediaDiff : Option Media
  mediaDiffCache : Nat → Option Media

/-- What is read of a loaded view. -/
structure LoadedView where
  wikiId : Text
  queue : List QueuedEdit
  selectedIndex : Option Nat
  diff : Option Diff
  mediaDiff : Option Media

inductive PageTask where
  | content (pair : RevisionPair)
  | media (pair : RevisionPair)
  | prefetch (wikiId : Text) (items : List QueuedEdit)
  | prefetching (wikiId : Text) (pair : RevisionPair) (items : List QueuedEdit)
  | inlineEdit (revId : Nat)
  | tag (revId : Nat)
  | refetch (pair : RevisionPair)
  | load

/-- A request of an action that waits for its answer, and the press it came from. -/
structure Sent where
  press : Nat
  edit : QueuedEdit
  request : SessionActionExecutionRequest

/-- The signals of the actions. Every setting of the trigger is counted; `notified` is what
the effect has not seen yet, `dispatched` what has not started yet. -/
structure ActionDesk where
  trigger : Option (Nat × SessionActionKind)
  presses : Nat
  notified : Bool
  dispatched : List (Nat × SessionActionKind)
  inFlight : List Sent
  pending : Bool

structure Page where
  allEdits : List QueuedEdit
  filters : PatrolFilterParams
  groupRevIds : GroupRevIds
  selectedRevId : Option Nat
  selectedEdit : Option QueuedEdit
  artifacts : Artifacts Diff Entity Media
  seenRev : Option (Option Nat)
  seenFilters : Option PatrolFilterParams
  hashRev : Option Nat
  selectionOnlyRefetch : Bool
  viewWiki : Option Text
  reviewNote : Text
  skipTrigger : Bool
  desk : ActionDesk
  tasks : List PageTask

inductive PageEvent where
  | clickRow (revId : Nat)
  | arrowUp
  | arrowDown
  | skip
  | skipEffect
  | pressKey (kind : SessionActionKind)
  | pressButton (kind : SessionActionKind)
  | setFilters (filters : PatrolFilterParams)
  | filterEffect
  | setReviewNote (note : Text)
  | inlineEdit
  | tagAction
  | streamEvent (queued : QueuedEdit)
  | renderQueue
  | selectionEffects
  | triggerEffect
  | startAction
  | actionReply (index : Nat) (accepted : Bool)
  | load
  | loadReply (index : Nat) (view : Option (LoadedView Diff Media))
  | taskReply (index : Nat) (ok : Bool)

end State

variable {Diff Entity Media : Type}

section Artifacts

/-- The content diff of a pair: an entity diff where the content is an entity. -/
def DiffServer.content (server : DiffServer Diff Entity Media) (pair : RevisionPair) :
    Option (ContentDiffReport Diff Entity) :=
  match server.entity pair with
  | some diff => some (.entity diff)
  | none => (server.text pair).map .text

namespace Artifacts

def cacheReport (artifacts : Artifacts Diff Entity Media) (revId : Nat) :
    ContentDiffReport Diff Entity → Artifacts Diff Entity Media
  | .text diff =>
      { artifacts with diffCache := Function.update artifacts.diffCache revId (some diff) }
  | .entity diff =>
      { artifacts with
        entityDiffCache := Function.update artifacts.entityDiffCache revId (some diff) }

def applyContentDiff (artifacts : Artifacts Diff Entity Media) (revId : Nat) :
    Option (ContentDiffReport Diff Entity) → Artifacts Diff Entity Media
  | some (.text diff) =>
      { artifacts.cacheReport revId (.text diff) with
        currentDiff := some diff
        currentEntityDiff := none }
  | some (.entity diff) =>
      { artifacts.cacheReport revId (.entity diff) with
        currentEntityDiff := some diff
        currentDiff := none }
  | none => { artifacts with currentDiff := none, currentEntityDiff := none }

def isEntity (edit : QueuedEdit) : Bool :=
  (Scoring.deriveContentModelCapabilities edit.event.contentModel).entityDiff

def cacheInitialArtifacts (view : LoadedView Diff Media) (artifacts : Artifacts Diff Entity Media) :
    Artifacts Diff Entity Media :=
  let selected := view.selectedIndex.bind fun index => view.queue[index]?
  if selected.any isEntity then artifacts
  else
    { artifacts with
      diffCache := match view.diff, selected with
        | some diff, some edit =>
            Function.update artifacts.diffCache edit.event.revId (some diff)
        | _, _ => artifacts.diffCache
      mediaDiffCache := match view.mediaDiff, selected with
        | some media, some edit =>
            Function.update artifacts.mediaDiffCache edit.event.revId (some media)
        | _, _ => artifacts.mediaDiffCache
      currentDiff := view.diff.or artifacts.currentDiff
      currentMediaDiff := view.mediaDiff }

/-- The answer of a media diff. -/
def applyMediaDiff (artifacts : Artifacts Diff Entity Media) (revId : Nat)
    (report : Option Media) : Artifacts Diff Entity Media :=
  { artifacts with
    mediaDiffCache := match report with
      | some media => Function.update artifacts.mediaDiffCache revId (some media)
      | none => artifacts.mediaDiffCache
    currentMediaDiff := report
    mediaDiffLoading := false }

def cached (artifacts : Artifacts Diff Entity Media) (revId : Nat) :
    Option (ContentDiffReport Diff Entity) :=
  match artifacts.diffCache revId with
  | some diff => some (.text diff)
  | none => (artifacts.entityDiffCache revId).map .entity

def setCurrent (artifacts : Artifacts Diff Entity Media) :
    ContentDiffReport Diff Entity → Artifacts Diff Entity Media
  | .text diff => { artifacts with currentDiff := some diff, currentEntityDiff := none }
  | .entity diff => { artifacts with currentEntityDiff := some diff, currentDiff := none }

def forget (artifacts : Artifacts Diff Entity Media) (revId : Nat) :
    Artifacts Diff Entity Media :=
  { artifacts with
    diffCache := Function.update artifacts.diffCache revId none
    entityDiffCache := Function.update artifacts.entityDiffCache revId none }

end Artifacts

/-- The first item without a cached diff and with a base, and what is behind it. -/
def nextPrefetch (artifacts : Artifacts Diff Entity Media) (wikiId : Text) :
    List QueuedEdit → Option PageTask
  | [] => none
  | item :: rest =>
      if (artifacts.cached item.event.revId).isSome then nextPrefetch artifacts wikiId rest
      else
        let oldRevId := item.event.oldRevId.getD 0
        if oldRevId = 0 then nextPrefetch artifacts wikiId rest
        else some (.prefetching wikiId ⟨wikiId, item.event.revId, oldRevId⟩ rest)

end Artifacts

section Steps

namespace Page

def queue (page : Page Diff Entity Media) : List QueuedEdit :=
  Patrol.queue page.allEdits page.filters

/-- Reading the queue brings its memo up to date, which sets the grouping map. -/
def readQueue (page : Page Diff Entity Media) : Page Diff Entity Media :=
  { page with groupRevIds := Patrol.groupRevIds page.allEdits page.filters }

def index (page : Page Diff Entity Media) : Nat := selectedIndex page.queue page.selectedRevId

def select (page : Page Diff Entity Media) (revId : Option Nat) : Page Diff Entity Media :=
  { page with selectedRevId := revId }

/-- Selects a row by its place, where there is one. -/
def selectRow (page : Page Diff Entity Media) (place : Nat) : Page Diff Entity Media :=
  match page.queue[place]? with
  | some row => page.readQueue.select (some row.event.revId)
  | none => page.readQueue

def selectedDiffEffect (page : Page Diff Entity Media) (revId : Nat) : Page Diff Entity Media :=
  let edit := page.queue.find? fun edit => edit.event.revId = revId
  let page := { page.readQueue with selectedEdit := edit, seenRev := some (some revId) }
  match page.artifacts.cached revId with
  | some report => { page with artifacts := page.artifacts.setCurrent report }
  | none =>
      { page with
        artifacts :=
          { page.artifacts with
            diffLoading := true
            currentDiff := none
            currentEntityDiff := none }
        tasks := page.tasks ++ (edit.map fun edit => PageTask.content (pairOf edit)).toList }

def selectedMediaDiffEffect (page : Page Diff Entity Media) (revId : Nat) :
    Page Diff Entity Media :=
  match page.artifacts.mediaDiffCache revId with
  | some media =>
      { page with
        artifacts :=
          { page.artifacts with currentMediaDiff := some media, mediaDiffLoading := false } }
  | none =>
      let waits := (page.selectedEdit.map pairOf).filter fun pair => pair.oldRevId ≠ 0
      { page with
        artifacts :=
          { page.artifacts with currentMediaDiff := none, mediaDiffLoading := waits.isSome }
        tasks := page.tasks ++ (waits.map PageTask.media).toList }

def selectionEffects (page : Page Diff Entity Media) : Page Diff Entity Media :=
  match page.selectedRevId with
  | none =>
      { page with
        seenRev := some none
        artifacts :=
          { page.artifacts with currentMediaDiff := none, mediaDiffLoading := false } }
  | some revId =>
      if page.seenRev = some (some revId) then { page with hashRev := some revId }
      else
        ({ page with hashRev := some revId }.selectedDiffEffect revId).selectedMediaDiffEffect revId

def filterEffect (page : Page Diff Entity Media) : Page Diff Entity Media :=
  if page.seenFilters = some page.filters then page
  else
    { page.readQueue with
      selectedRevId := page.queue.head?.map fun edit => edit.event.revId
      seenFilters := some page.filters }

def skipEffect (page : Page Diff Entity Media) : Page Diff Entity Media :=
  if page.skipTrigger then { page with skipTrigger := false }.selectRow (page.index + 1) else page

def streamEvent (page : Page Diff Entity Media) (queued : QueuedEdit) : Page Diff Entity Media :=
  if page.allEdits.any fun edit => edit.event.revId = queued.event.revId then page
  else { page with allEdits := (queued :: page.allEdits).take 200 }

/-- A task that the selected edit asks for. -/
def spawn (page : Page Diff Entity Media) (task : QueuedEdit → PageTask) : Page Diff Entity Media :=
  match page.selectedEdit with
  | some edit => { page with tasks := page.tasks ++ [task edit] }
  | none => page

def invalidateCurrentDiff (page : Page Diff Entity Media) (revId : Nat) : Page Diff Entity Media :=
  let forgotten := page.artifacts.forget revId
  match page.selectedEdit with
  | some item =>
      { page with
        artifacts := { forgotten with diffLoading := true }
        tasks := page.tasks ++ [.refetch (pairOf item)] }
  | none => { page with artifacts := { forgotten with diffLoading := false } }

def stopLoading (page : Page Diff Entity Media) : Page Diff Entity Media :=
  { page with artifacts := { page.artifacts with diffLoading := false } }

def applyLoadedView (page : Page Diff Entity Media) (view : LoadedView Diff Media) :
    Page Diff Entity Media :=
  let loaded := { page with artifacts := page.artifacts.cacheInitialArtifacts view }
  let chosen :=
    if page.selectionOnlyRefetch then loaded
    else
      { loaded with
        selectedRevId :=
          (page.hashRev.or (view.queue.head?.map fun edit => edit.event.revId)).or
            page.selectedRevId
        allEdits := view.queue }
  { chosen.stopLoading with
    selectionOnlyRefetch := false
    tasks := page.tasks ++ [.prefetch view.wikiId view.queue]
    viewWiki := some view.wikiId }

/-- The first edit with the number leaves the list. -/
def removeTagged (page : Page Diff Entity Media) (revId : Nat) : Page Diff Entity Media :=
  { page with allEdits := page.allEdits.eraseP fun edit => edit.event.revId = revId }

/-- The part of a task behind its answer. -/
def resume (server : DiffServer Diff Entity Media) (page : Page Diff Entity Media) (ok : Bool) :
    PageTask → Page Diff Entity Media
  | .content pair =>
      { page with
        artifacts := page.artifacts.applyContentDiff pair.revId
          (if ok then server.content pair else none) }.stopLoading
  | .media pair =>
      { page with
        artifacts := if ok then page.artifacts.applyMediaDiff pair.revId (server.media pair)
          else { page.artifacts with currentMediaDiff := none, mediaDiffLoading := false } }
  | .prefetch wikiId items =>
      { page with tasks := page.tasks ++ (nextPrefetch page.artifacts wikiId items).toList }
  | .prefetching wikiId pair items =>
      { page with
        artifacts := match server.content pair with
          | some report => if ok then page.artifacts.cacheReport pair.revId report else page.artifacts
          | none => page.artifacts
        tasks := page.tasks ++ [.prefetch wikiId items] }
  | .inlineEdit revId => if ok then page.invalidateCurrentDiff revId else page
  | .tag revId => if ok then (page.removeTagged revId).invalidateCurrentDiff revId else page
  | .refetch pair =>
      if ok then
        { page with
          artifacts := page.artifacts.applyContentDiff pair.revId (server.content pair) }.stopLoading
      else page.stopLoading
  | .load => page

/-- Sets the trigger of the actions. -/
def press (page : Page Diff Entity Media) (kind : SessionActionKind) : Page Diff Entity Media :=
  { page with
    desk :=
      { page.desk with
        trigger := some (page.desk.presses, kind)
        presses := page.desk.presses + 1
        notified := true } }

def triggerEffect (page : Page Diff Entity Media) : Page Diff Entity Media :=
  if page.desk.notified then
    { page with
      desk :=
        { page.desk with
          notified := false
          dispatched := page.desk.dispatched ++ page.desk.trigger.toList } }
  else page

/-- An action ends: nothing is pending and the trigger is cleared. -/
def finishAction (page : Page Diff Entity Media) : Page Diff Entity Media :=
  { page with desk := { page.desk with pending := false, trigger := none, notified := true } }

def startAction (page : Page Diff Entity Media) : Page Diff Entity Media × Option Nat :=
  match page.desk.dispatched with
  | [] => (page, none)
  | (press, kind) :: rest =>
      let page := { page with desk := { page.desk with dispatched := rest, pending := true } }
      match page.viewWiki, page.selectedEdit with
      | some wikiId, some edit =>
          let request := buildActionRequest wikiId edit kind page.reviewNote page.groupRevIds
          ({ page with
            desk := { page.desk with inFlight := page.desk.inFlight ++ [⟨press, edit, request⟩] } },
            some press)
      | _, _ => (page.finishAction, none)

/-- The row behind the acted one, or else the row before it. -/
def nextRev (rows : List QueuedEdit) (actedRev : Nat) : Option Nat :=
  let behind (rows : List QueuedEdit) :=
    (rows.dropWhile fun candidate => candidate.event.revId ≠ actedRev)[1]?
  ((behind rows).or (behind rows.reverse)).map fun candidate => candidate.event.revId

def removeAcceptedEdit (page : Page Diff Entity Media) (edit : QueuedEdit) :
    Page Diff Entity Media :=
  let page := page.readQueue
  let actedRev := edit.event.revId
  let revsToRemove := (page.groupRevIds.lookup actedRev).getD [actedRev]
  { page with
    allEdits := page.allEdits.filter fun candidate => !revsToRemove.contains candidate.event.revId
    selectedRevId := nextRev page.queue actedRev }

def actionReply (page : Page Diff Entity Media) (place : Nat) (accepted : Bool) :
    Page Diff Entity Media :=
  match page.desk.inFlight[place]? with
  | none => page
  | some sent =>
      let answered :=
        { page with desk := { page.desk with inFlight := page.desk.inFlight.eraseIdx place } }
      if accepted then
        finishAction
          { answered.removeAcceptedEdit sent.edit with
            reviewNote := []
            selectionOnlyRefetch := true
            tasks := page.tasks ++ [.load] }
      else answered.finishAction

def loadReply (page : Page Diff Entity Media) (place : Nat)
    (view : Option (LoadedView Diff Media)) : Page Diff Entity Media :=
  match page.tasks[place]? with
  | some .load =>
      let answered := { page with tasks := page.tasks.eraseIdx place }
      match view with
      | some view => answered.applyLoadedView view
      | none => answered.stopLoading
  | _ => page

def taskReply (server : DiffServer Diff Entity Media) (page : Page Diff Entity Media) (place : Nat)
    (ok : Bool) : Page Diff Entity Media :=
  match page.tasks[place]? with
  | some .load => page
  | some task => { page with tasks := page.tasks.eraseIdx place }.resume server ok task
  | none => page

/-- One step of the page, and the press whose request it sends. -/
def step (server : DiffServer Diff Entity Media) (page : Page Diff Entity Media) :
    PageEvent Diff Media → Page Diff Entity Media × Option Nat
  | .clickRow revId => (page.select (some revId), none)
  | .arrowUp => (if 0 < page.index then page.selectRow (page.index - 1) else page.readQueue, none)
  | .arrowDown => (page.selectRow (page.index + 1), none)
  | .skip => ({ page with skipTrigger := true }, none)
  | .skipEffect => (page.skipEffect, none)
  | .pressKey kind => (page.press kind, none)
  | .pressButton kind =>
      (if page.desk.pending ∨ page.queue.length ≤ page.index then page else page.press kind, none)
  | .setFilters filters => ({ page with filters := filters }, none)
  | .filterEffect => (page.filterEffect, none)
  | .setReviewNote note => ({ page with reviewNote := note }, none)
  | .inlineEdit => (page.spawn fun edit => .inlineEdit edit.event.revId, none)
  | .tagAction => (page.spawn fun edit => .tag edit.event.revId, none)
  | .streamEvent queued => (page.streamEvent queued, none)
  | .renderQueue => (page.readQueue, none)
  | .selectionEffects => (page.selectionEffects, none)
  | .triggerEffect => (page.triggerEffect, none)
  | .startAction => page.startAction
  | .actionReply place accepted => (page.actionReply place accepted, none)
  | .load => ({ page.readQueue with tasks := page.tasks ++ [.load] }, none)
  | .loadReply place view => (page.loadReply place view, none)
  | .taskReply place ok => (page.taskReply server place ok, none)

end Page

def Artifacts.initial : Artifacts Diff Entity Media where
  diffLoading := false
  currentDiff := none
  currentEntityDiff := none
  diffCache := fun _ => none
  entityDiffCache := fun _ => none
  mediaDiffLoading := false
  currentMediaDiff := none
  mediaDiffCache := fun _ => none

def defaultFilters : PatrolFilterParams where
  query := Live.LiveOperatorQuery.default
  selectedIndex := none
  groupEdits := false

/-- The page as it is mounted, with the revision that the address names. -/
def Page.initial (hashRev : Option Nat) : Page Diff Entity Media where
  allEdits := []
  filters := defaultFilters
  groupRevIds := []
  selectedRevId := none
  selectedEdit := none
  artifacts := Artifacts.initial
  seenRev := none
  seenFilters := none
  hashRev := hashRev
  selectionOnlyRefetch := false
  viewWiki := none
  reviewNote := []
  skipTrigger := false
  desk :=
    { trigger := none
      presses := 0
      notified := false
      dispatched := []
      inFlight := []
      pending := false }
  tasks := []

end Steps

end SP42.Patrol

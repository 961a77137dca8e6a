import SP42.Patrol.Decisions

/-!
Whose response a load's response is taken for. The page knows of one flag, which an accepted
action sets and a successful response clears; here each load is followed from its request on, and
the flag is told from the events alone.
-/
namespace SP42.Patrol

variable {Diff Entity Media : Type}

/-- Why a load was sent: asked for by the operator or the mounted page, or by an accepted action. -/
inductive LoadOrigin where
  | asked
  | reload
  deriving DecidableEq, Repr

def isLoad : PageTask → Bool
  | .load => true
  | _ => false

/-- The loads that wait before a place. -/
def loadsBefore (tasks : List PageTask) (place : Nat) : Nat := (tasks.take place).countP isLoad

/-- The page with the origins of its loads, in the order of their requests, and whether an action
was accepted since the last successful response. -/
structure Watched (Diff Entity Media : Type) where
  page : Page Diff Entity Media
  origins : List LoadOrigin
  accepted : Bool

namespace Watched

/-- Whether a reply is that to a request of an action, and accepts it. -/
def accepts (watched : Watched Diff Entity Media) (place : Nat) (accepted : Bool) : Bool :=
  accepted && (watched.page.desk.inFlight[place]?).isSome

/-- The origin of the load that waits at a place. -/
def originAt (watched : Watched Diff Entity Media) (place : Nat) : Option LoadOrigin :=
  match watched.page.tasks[place]? with
  | some .load => watched.origins[loadsBefore watched.page.tasks place]?
  | _ => none

def nextOrigins (watched : Watched Diff Entity Media) : PageEvent Diff Media → List LoadOrigin
  | .load => watched.origins ++ [.asked]
  | .actionReply place accepted =>
      if watched.accepts place accepted then watched.origins ++ [.reload] else watched.origins
  | .loadReply place _ =>
      match watched.page.tasks[place]? with
      | some .load => watched.origins.eraseIdx (loadsBefore watched.page.tasks place)
      | _ => watched.origins
  | _ => watched.origins

def nextAccepted (watched : Watched Diff Entity Media) : PageEvent Diff Media → Bool
  | .actionReply place accepted => watched.accepts place accepted || watched.accepted
  | .loadReply place (some _) =>
      match watched.page.tasks[place]? with
      | some .load => false
      | _ => watched.accepted
  | _ => watched.accepted

def step (server : DiffServer Diff Entity Media) (watched : Watched Diff Entity Media)
    (event : PageEvent Diff Media) : Watched Diff Entity Media × Option Nat :=
  ({ page := (watched.page.step server event).1
     origins := watched.nextOrigins event
     accepted := watched.nextAccepted event }, (watched.page.step server event).2)

def initial (hashRev : Option Nat) : Watched Diff Entity Media :=
  ⟨Page.initial hashRev, [], false⟩

end Watched

/-- The page shows what a view brings: its queue, and as selected the revision that the address
names or else the first of the queue. -/
def Shows (page : Page Diff Entity Media) (hashRev : Option Nat) (view : LoadedView Diff Media) :
    Prop :=
  page.allEdits = view.queue ∧
    ∀ revId, hashRev.or (view.queue.head?.map fun edit => edit.event.revId) = some revId →
      page.selectedRevId = some revId

/-- A successful response to a load that was asked for is shown, and a response to a reload leaves
the queue and the selection alone. -/
def Respects (server : DiffServer Diff Entity Media) (watched : Watched Diff Entity Media) :
    PageEvent Diff Media → Prop
  | .loadReply place view =>
      let next := (watched.page.step server (.loadReply place view)).1
      (watched.originAt place = some .asked → ∀ loaded, view = some loaded →
          Shows next watched.page.hashRev loaded) ∧
        (watched.originAt place = some .reload →
          next.allEdits = watched.page.allEdits ∧ next.selectedRevId = watched.page.selectedRevId)
  | _ => True

/-- A successful response is to a reload just when an action was accepted since the last
successful response, or there is nothing in it to show. -/
def InTurn (watched : Watched Diff Entity Media) : PageEvent Diff Media → Prop
  | .loadReply place (some view) => ∀ origin, watched.originAt place = some origin →
      (watched.accepted = true ↔ origin = .reload) ∨ Shows watched.page watched.page.hashRev view
  | _ => True

section Quiet

/-- A step that neither sends nor answers a load, nor touches the flag. -/
structure Quiet (page next : Page Diff Entity Media) : Prop where
  loads : next.tasks.countP isLoad = page.tasks.countP isLoad
  flag : next.selectionOnlyRefetch = page.selectionOnlyRefetch

variable {page next last : Page Diff Entity Media}

theorem quiet_refl (page : Page Diff Entity Media) : Quiet page page := ⟨rfl, rfl⟩

theorem Quiet.trans (first : Quiet page next) (second : Quiet next last) : Quiet page last :=
  ⟨second.loads.trans first.loads, second.flag.trans first.flag⟩

/-- Tasks that are no loads may be added. -/
theorem quiet_added {added : List PageTask} (tasks : next.tasks = page.tasks ++ added)
    (others : ∀ task ∈ added, isLoad task = false)
    (flag : next.selectionOnlyRefetch = page.selectionOnlyRefetch) : Quiet page next := by
  have none : added.countP isLoad = 0 := by
    rw [List.countP_eq_zero]
    intro task member
    rw [others task member]
    exact Bool.false_ne_true
  refine ⟨?_, flag⟩
  rw [tasks, List.countP_append, none, Nat.add_zero]

theorem quiet_selectRow (page : Page Diff Entity Media) (place : Nat) :
    Quiet page (page.selectRow place) := by
  unfold Page.selectRow
  split
  · exact ⟨rfl, rfl⟩
  · exact ⟨rfl, rfl⟩

theorem quiet_skipEffect (page : Page Diff Entity Media) : Quiet page page.skipEffect := by
  unfold Page.skipEffect
  split
  · have row := quiet_selectRow { page with skipTrigger := false } (page.index + 1)
    exact ⟨row.loads, row.flag⟩
  · exact quiet_refl page

theorem quiet_filterEffect (page : Page Diff Entity Media) : Quiet page page.filterEffect := by
  unfold Page.filterEffect
  split
  · exact quiet_refl page
  · exact ⟨rfl, rfl⟩

theorem quiet_streamEvent (page : Page Diff Entity Media) (queued : QueuedEdit) :
    Quiet page (page.streamEvent queued) := by
  unfold Page.streamEvent
  split
  · exact quiet_refl page
  · exact ⟨rfl, rfl⟩

theorem quiet_spawn (page : Page Diff Entity Media) {task : QueuedEdit → PageTask}
    (other : ∀ edit, isLoad (task edit) = false) : Quiet page (page.spawn task) := by
  unfold Page.spawn
  split
  · refine quiet_added rfl ?_ rfl
    intro added member
    rw [List.mem_singleton.mp member]
    exact other _
  · exact quiet_refl page

theorem quiet_selectedDiffEffect (page : Page Diff Entity Media) (revId : Nat) :
    Quiet page (page.selectedDiffEffect revId) := by
  unfold Page.selectedDiffEffect
  dsimp only
  split
  · exact ⟨rfl, rfl⟩
  · refine quiet_added rfl ?_ rfl
    intro added member
    obtain ⟨edit, -, rfl⟩ := Option.map_eq_some_iff.mp (Option.mem_toList.mp member)
    rfl

theorem quiet_selectedMediaDiffEffect (page : Page Diff Entity Media) (revId : Nat) :
    Quiet page (page.selectedMediaDiffEffect revId) := by
  unfold Page.selectedMediaDiffEffect
  split
  · exact ⟨rfl, rfl⟩
  · refine quiet_added rfl ?_ rfl
    intro added member
    obtain ⟨pair, -, rfl⟩ := Option.map_eq_some_iff.mp (Option.mem_toList.mp member)
    rfl

theorem quiet_selectionEffects (page : Page Diff Entity Media) :
    Quiet page page.selectionEffects := by
  unfold Page.selectionEffects
  split
  · exact ⟨rfl, rfl⟩
  · rename_i revId _
    split
    · exact ⟨rfl, rfl⟩
    · have first := quiet_selectedDiffEffect { page with hashRev := some revId } revId
      have second := quiet_selectedMediaDiffEffect
        ({ page with hashRev := some revId }.selectedDiffEffect revId) revId
      have both := first.trans second
      exact ⟨both.loads, both.flag⟩

theorem quiet_invalidate (page : Page Diff Entity Media) (revId : Nat) :
    Quiet page (page.invalidateCurrentDiff revId) := by
  unfold Page.invalidateCurrentDiff
  dsimp only
  split
  · refine quiet_added rfl ?_ rfl
    intro added member
    rw [List.mem_singleton.mp member]
    rfl
  · exact ⟨rfl, rfl⟩

theorem nextPrefetch_not_load {artifacts : Artifacts Diff Entity Media} {wikiId : Text}
    {items : List QueuedEdit} {task : PageTask}
    (next : nextPrefetch artifacts wikiId items = some task) : isLoad task = false := by
  induction items with
  | nil => cases next
  | cons item rest ih =>
      rw [nextPrefetch] at next
      split at next
      · exact ih next
      · dsimp only at next
        split at next
        · exact ih next
        · cases next
          rfl

theorem quiet_resume (server : DiffServer Diff Entity Media) (page : Page Diff Entity Media)
    (ok : Bool) (task : PageTask) : Quiet page (page.resume server ok task) := by
  cases task with
  | content pair => exact ⟨rfl, rfl⟩
  | media pair => exact ⟨rfl, rfl⟩
  | prefetch wikiId items =>
      refine quiet_added rfl ?_ rfl
      intro added member
      exact nextPrefetch_not_load (Option.mem_toList.mp member)
  | prefetching wikiId pair items =>
      refine quiet_added rfl ?_ rfl
      intro added member
      rw [List.mem_singleton.mp member]
      rfl
  | refetch pair =>
      rw [Page.resume]
      split
      · exact ⟨rfl, rfl⟩
      · exact ⟨rfl, rfl⟩
  | inlineEdit revId =>
      rw [Page.resume]
      split
      · exact quiet_invalidate page revId
      · exact quiet_refl page
  | tag revId =>
      rw [Page.resume]
      split
      · have removed := quiet_invalidate (page.removeTagged revId) revId
        exact ⟨removed.loads, removed.flag⟩
      · exact quiet_refl page
  | load => exact quiet_refl page

theorem quiet_startAction (page : Page Diff Entity Media) : Quiet page page.startAction.1 := by
  unfold Page.startAction
  split
  · exact quiet_refl page
  · dsimp only
    split
    · exact ⟨rfl, rfl⟩
    · exact ⟨rfl, rfl⟩

theorem quiet_triggerEffect (page : Page Diff Entity Media) : Quiet page page.triggerEffect := by
  unfold Page.triggerEffect
  split
  · exact ⟨rfl, rfl⟩
  · exact quiet_refl page

end Quiet

section Tracking

/-- The loads that wait, around one of the tasks. -/
theorem countP_eraseIdx {tasks : List PageTask} {place : Nat} {task : PageTask}
    (found : tasks[place]? = some task) :
    tasks.countP isLoad = (tasks.eraseIdx place).countP isLoad + [task].countP isLoad ∧
      loadsBefore tasks place + [task].countP isLoad ≤ tasks.countP isLoad := by
  obtain ⟨inside, rfl⟩ := List.getElem?_eq_some_iff.mp found
  have whole : tasks.countP isLoad = (tasks.take place).countP isLoad +
      ([tasks[place]].countP isLoad + (tasks.drop (place + 1)).countP isLoad) := by
    rw [← List.countP_append, List.singleton_append, ← List.drop_eq_getElem_cons inside,
      ← List.countP_append, List.take_append_drop]
  rw [List.eraseIdx_eq_take_drop_succ, List.countP_append, loadsBefore]
  omega

/-- Every load that waits has its origin, and the flag is what the events say. -/
structure Tracked (watched : Watched Diff Entity Media) : Prop where
  loads : watched.origins.length = watched.page.tasks.countP isLoad
  flag : watched.page.selectionOnlyRefetch = watched.accepted

variable {watched : Watched Diff Entity Media}

theorem tracked_initial (hashRev : Option Nat) :
    Tracked (Watched.initial hashRev : Watched Diff Entity Media) := ⟨rfl, rfl⟩

theorem Tracked.quiet (tracked : Tracked watched) {next : Page Diff Entity Media}
    (quiet : Quiet watched.page next) : Tracked ⟨next, watched.origins, watched.accepted⟩ :=
  ⟨tracked.loads.trans quiet.loads.symm, quiet.flag.trans tracked.flag⟩

/-- A load that waits has an origin. -/
theorem Tracked.originAt (tracked : Tracked watched) {place : Nat}
    (waits : watched.page.tasks[place]? = some .load) :
    ∃ origin, watched.originAt place = some origin := by
  have inside : loadsBefore watched.page.tasks place < watched.origins.length := by
    rw [tracked.loads]
    exact (countP_eraseIdx waits).2
  unfold Watched.originAt
  rw [waits]
  exact ⟨_, List.getElem?_eq_getElem inside⟩

theorem originAt_load {place : Nat} {origin : LoadOrigin}
    (known : watched.originAt place = some origin) :
    watched.page.tasks[place]? = some .load := by
  unfold Watched.originAt at known
  split at known
  · assumption
  · cases known

theorem tracked_loadReply (tracked : Tracked watched) (server : DiffServer Diff Entity Media)
    (place : Nat) (view : Option (LoadedView Diff Media)) :
    Tracked (watched.step server (.loadReply place view)).1 := by
  by_cases waits : watched.page.tasks[place]? = some .load
  · obtain ⟨loads, before⟩ := countP_eraseIdx waits
    have inside : loadsBefore watched.page.tasks place < watched.origins.length := by
      rw [tracked.loads]
      exact before
    have erased : (watched.origins.eraseIdx (loadsBefore watched.page.tasks place)).length =
        (watched.page.tasks.eraseIdx place).countP isLoad := by
      rw [List.length_eraseIdx_of_lt inside, tracked.loads, loads]
      rfl
    have origins : watched.nextOrigins (.loadReply place view) =
        watched.origins.eraseIdx (loadsBefore watched.page.tasks place) := by
      rw [Watched.nextOrigins, waits]
    unfold Watched.step
    rw [origins, Page.step, Page.loadReply, waits]
    cases view with
    | none => exact ⟨erased, tracked.flag⟩
    | some view =>
        have answered : watched.nextAccepted (.loadReply place (some view)) = false := by
          rw [Watched.nextAccepted, waits]
        rw [answered]
        refine ⟨?_, rfl⟩
        unfold Page.applyLoadedView
        dsimp only
        rw [List.countP_append]
        exact erased
  · have same : watched.page.loadReply place view = watched.page := by
      unfold Page.loadReply
      split
      · exact absurd ‹_› waits
      · rfl
    have origins : watched.nextOrigins (.loadReply place view) = watched.origins := by
      rw [Watched.nextOrigins]
      split
      · exact absurd ‹_› waits
      · rfl
    have accepted : watched.nextAccepted (.loadReply place view) = watched.accepted := by
      cases view with
      | none => rfl
      | some view =>
          rw [Watched.nextAccepted]
          split
          · exact absurd ‹_› waits
          · rfl
    unfold Watched.step
    rw [origins, accepted, Page.step, same]
    exact tracked

theorem tracked_actionReply (tracked : Tracked watched) (server : DiffServer Diff Entity Media)
    (place : Nat) (accepted : Bool) :
    Tracked (watched.step server (.actionReply place accepted)).1 := by
  unfold Watched.step Watched.nextOrigins Watched.nextAccepted Watched.accepts Page.step
    Page.actionReply
  dsimp only
  cases watched.page.desk.inFlight[place]? with
  | none =>
      rw [Option.isSome_none, Bool.and_false, if_neg Bool.false_ne_true]
      exact ⟨tracked.loads, tracked.flag⟩
  | some sent =>
      rw [Option.isSome_some, Bool.and_true]
      cases accepted with
      | false => exact ⟨tracked.loads, tracked.flag⟩
      | true =>
          refine ⟨?_, rfl⟩
          rw [if_pos rfl, List.length_append, tracked.loads]
          change watched.page.tasks.countP isLoad + 1 =
            (watched.page.tasks ++ [PageTask.load]).countP isLoad
          rw [List.countP_append]
          rfl

theorem tracked_taskReply (tracked : Tracked watched) (server : DiffServer Diff Entity Media)
    (place : Nat) (ok : Bool) : Tracked (watched.step server (.taskReply place ok)).1 := by
  refine tracked.quiet ?_
  unfold Page.step Page.taskReply
  dsimp only
  split
  · exact quiet_refl _
  · rename_i task other found
    have single : [task].countP isLoad = 0 := by
      cases task with
      | load => exact absurd rfl other
      | _ => rfl
    have erased : Quiet watched.page
        { watched.page with tasks := watched.page.tasks.eraseIdx place } := by
      refine ⟨?_, rfl⟩
      have counted := (countP_eraseIdx found).1
      rw [single] at counted
      exact counted.symm
    exact erased.trans (quiet_resume server _ ok task)
  · exact quiet_refl _

/-- Every step keeps track of the loads and of the flag. -/
theorem tracked_step (server : DiffServer Diff Entity Media) (event : PageEvent Diff Media)
    (tracked : Tracked watched) : Tracked (watched.step server event).1 := by
  cases event with
  | clickRow revId => exact tracked.quiet ⟨rfl, rfl⟩
  | arrowUp =>
      refine tracked.quiet ?_
      unfold Page.step
      dsimp only
      split
      · exact quiet_selectRow _ _
      · exact ⟨rfl, rfl⟩
  | arrowDown => exact tracked.quiet (quiet_selectRow _ _)
  | skip => exact tracked.quiet ⟨rfl, rfl⟩
  | skipEffect => exact tracked.quiet (quiet_skipEffect _)
  | pressKey kind => exact tracked.quiet ⟨rfl, rfl⟩
  | pressButton kind =>
      refine tracked.quiet ?_
      unfold Page.step
      dsimp only
      split
      · exact quiet_refl _
      · exact ⟨rfl, rfl⟩
  | setFilters filters => exact tracked.quiet ⟨rfl, rfl⟩
  | filterEffect => exact tracked.quiet (quiet_filterEffect _)
  | setReviewNote note => exact tracked.quiet ⟨rfl, rfl⟩
  | inlineEdit => exact tracked.quiet (quiet_spawn _ fun _ => rfl)
  | tagAction => exact tracked.quiet (quiet_spawn _ fun _ => rfl)
  | streamEvent queued => exact tracked.quiet (quiet_streamEvent _ queued)
  | renderQueue => exact tracked.quiet ⟨rfl, rfl⟩
  | selectionEffects => exact tracked.quiet (quiet_selectionEffects _)
  | triggerEffect => exact tracked.quiet (quiet_triggerEffect _)
  | startAction => exact tracked.quiet (quiet_startAction _)
  | actionReply place accepted => exact tracked_actionReply tracked server place accepted
  | load =>
      refine ⟨?_, tracked.flag⟩
      unfold Watched.step Watched.nextOrigins
      dsimp only
      rw [List.length_append, tracked.loads]
      change watched.page.tasks.countP isLoad + 1 =
        (watched.page.tasks ++ [PageTask.load]).countP isLoad
      rw [List.countP_append]
      rfl
  | loadReply place view => exact tracked_loadReply tracked server place view
  | taskReply place ok => exact tracked_taskReply tracked server place ok

end Tracking

section Runs

variable {watched : Watched Diff Entity Media}

/-- What a successful response does to the queue and the selection. -/
theorem loadReply_view {place : Nat} {view : LoadedView Diff Media}
    (waits : watched.page.tasks[place]? = some .load) (server : DiffServer Diff Entity Media) :
    let next := (watched.page.step server (.loadReply place (some view))).1
    (watched.page.selectionOnlyRefetch = true →
      next.allEdits = watched.page.allEdits ∧ next.selectedRevId = watched.page.selectedRevId) ∧
    (watched.page.selectionOnlyRefetch = false →
      next.allEdits = view.queue ∧ next.selectedRevId =
        (watched.page.hashRev.or (view.queue.head?.map fun edit => edit.event.revId)).or
          watched.page.selectedRevId) := by
  intro next
  have applied : next = Page.applyLoadedView
      { watched.page with tasks := watched.page.tasks.eraseIdx place } view := by
    unfold next
    rw [Page.step, Page.loadReply, waits]
  constructor
  · intro flag
    rw [applied, Page.applyLoadedView]
    dsimp only
    rw [if_pos flag]
    exact ⟨rfl, rfl⟩
  · intro flag
    rw [applied, Page.applyLoadedView]
    dsimp only
    rw [if_neg (by rw [flag]; exact Bool.false_ne_true)]
    exact ⟨rfl, rfl⟩

/-- A step respects the origin of its response just when the response is in turn. -/
theorem respects_iff (tracked : Tracked watched) (server : DiffServer Diff Entity Media)
    (event : PageEvent Diff Media) : Respects server watched event ↔ InTurn watched event := by
  cases event with
  | loadReply place view =>
      cases view with
      | none =>
          refine iff_of_true ⟨by nofun, fun known => ?_⟩ trivial
          rw [Page.step, Page.loadReply, originAt_load known]
          exact ⟨rfl, rfl⟩
      | some view =>
          by_cases waits : watched.page.tasks[place]? = some .load
          · obtain ⟨origin, known⟩ := tracked.originAt waits
            obtain ⟨kept, replaced⟩ := loadReply_view waits server
            rw [tracked.flag] at kept replaced
            unfold Respects InTurn
            dsimp only
            rw [known]
            cases accepted : watched.accepted with
            | true =>
                obtain ⟨edits, selected⟩ := kept accepted
                cases origin with
                | reload =>
                    refine iff_of_true ⟨by nofun, fun _ => ⟨edits, selected⟩⟩ ?_
                    rintro origin same
                    cases same
                    exact .inl (iff_of_true rfl rfl)
                | asked =>
                    constructor
                    · rintro ⟨shown, -⟩ origin same
                      cases same
                      have shows' := shown rfl view rfl
                      unfold Shows at shows' ⊢
                      rw [edits, selected] at shows'
                      exact .inr shows'
                    · intro inTurn
                      refine ⟨fun _ loaded same => ?_, by nofun⟩
                      cases same
                      rcases inTurn .asked rfl with wrong | shown
                      · exact absurd (wrong.mp rfl) (by decide)
                      · unfold Shows at shown ⊢
                        rw [edits, selected]
                        exact shown
            | false =>
                obtain ⟨edits, selected⟩ := replaced accepted
                cases origin with
                | asked =>
                    refine iff_of_true ⟨fun _ loaded same => ?_, by nofun⟩ ?_
                    · cases same
                      refine ⟨edits, fun revId target => ?_⟩
                      rw [selected, target]
                      rfl
                    · rintro origin same
                      cases same
                      exact .inl (iff_of_false (by decide) (by decide))
                | reload =>
                    constructor
                    · rintro ⟨-, kept⟩ origin same
                      cases same
                      obtain ⟨sameEdits, sameRev⟩ := kept rfl
                      refine .inr ⟨sameEdits.symm.trans edits, fun revId target => ?_⟩
                      rw [← sameRev, selected, target]
                      rfl
                    · intro inTurn
                      refine ⟨by nofun, fun _ => ?_⟩
                      rcases inTurn .reload rfl with wrong | ⟨queue, target⟩
                      · exact absurd (wrong.mpr rfl) (by decide)
                      · refine ⟨edits.trans queue.symm, ?_⟩
                        rw [selected]
                        cases named : watched.page.hashRev.or
                            (view.queue.head?.map fun edit => edit.event.revId) with
                        | none => rfl
                        | some revId => exact (target revId named).symm
          · have unknown : watched.originAt place = none := by
              cases known : watched.originAt place with
              | none => rfl
              | some origin => exact absurd (originAt_load known) waits
            unfold Respects InTurn
            dsimp only
            rw [unknown]
            exact iff_of_true ⟨by nofun, by nofun⟩ (by nofun)
  | _ => exact Iff.rfl

/-- In a run every response is shown or not as it was asked for, just when every successful
response is in turn. -/
theorem respects_run_iff (server : DiffServer Diff Entity Media) (hashRev : Option Nat)
    (events : List (PageEvent Diff Media)) :
    Run.Along (Watched.step server) (Respects server) (Watched.initial hashRev) events ↔
      Run.Along (Watched.step server) InTurn (Watched.initial hashRev) events := by
  generalize start : Watched.initial hashRev = watched
  have tracked : Tracked watched := start ▸ tracked_initial hashRev
  clear start
  induction events generalizing watched with
  | nil => exact Iff.rfl
  | cons event events ih =>
      exact and_congr (respects_iff tracked server event) (ih _ (tracked_step server event tracked))

/-- The reload after an accepted action fails, and the operator asks again. -/
def failedReload : List (PageEvent RevisionPair Empty) :=
  [.load, .loadReply 0 (some twoRows), .selectionEffects, .pressKey .patrol, .triggerEffect,
    .startAction, .actionReply 0 true, .loadReply 3 none, .load]

theorem retry_swallowed :
    ¬ Run.Along (Watched.step namingServer) (Respects namingServer) (Watched.initial none)
      (failedReload ++ [.loadReply 3 (some twoRows)]) := by
  intro respects
  obtain ⟨shown, -⟩ := Run.along_at respects
  obtain ⟨queue, -⟩ := shown (by decide) twoRows rfl
  revert queue
  decide

end Runs

end SP42.Patrol

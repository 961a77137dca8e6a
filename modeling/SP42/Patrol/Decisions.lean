import SP42.Patrol.Screen

/-!
The requests of the actions and what an accepted one takes out of the queue, over every
run of the patrol page.
-/
namespace SP42.Patrol

open Actions (SessionActionExecutionRequest SessionActionKind)

variable {Diff Entity Media : Type}

section Promise

/-- The revisions named in a request. -/
def named (request : SessionActionExecutionRequest) : List Nat :=
  request.revId :: request.batchRevIds.getD []

/-- The page's own list of what an accepted action on the edit is about. -/
def revsToRemove (page : Page Diff Entity Media) (edit : QueuedEdit) : List Nat :=
  ((groupRevIds page.allEdits page.filters).lookup edit.event.revId).getD [edit.event.revId]

/-- An accepted answer takes out just the edits whose revision the request named. -/
def TakesOut (page : Page Diff Entity Media) : PageEvent Diff Media → Prop
  | .actionReply place true => ∀ sent, page.desk.inFlight[place]? = some sent →
      (page.actionReply place true).allEdits =
        page.allEdits.filter fun edit => !(named sent.request).contains edit.event.revId
  | _ => True

def OneInFlight (page : Page Diff Entity Media) : Prop := page.desk.inFlight.length ≤ 1

/-- One decision, one request: none beside another, none twice, and nothing else leaves. -/
structure Decided (server : DiffServer Diff Entity Media) (hashRev : Option Nat)
    (events : List (PageEvent Diff Media)) : Prop where
  steps : Run.Along (Page.step server)
    (fun page event => OneInFlight (page.step server event).1 ∧ TakesOut page event)
    (Page.initial hashRev) events
  once : ((Run.trace (Page.step server) (Page.initial hashRev) events).filterMap Prod.snd).Nodup

/-- A request is sent while none waits, and an accepted answer finds the row as it was sent. -/
def Calm (page : Page Diff Entity Media) : PageEvent Diff Media → Prop
  | .startAction => page.desk.dispatched ≠ [] → page.viewWiki.isSome = true →
      page.selectedEdit.isSome = true → page.desk.inFlight = []
  | .actionReply place true => ∀ sent, page.desk.inFlight[place]? = some sent →
      ∀ edit ∈ page.allEdits,
        edit.event.revId ∈ revsToRemove page sent.edit ↔ edit.event.revId ∈ named sent.request
  | _ => True

end Promise

section Desk

variable (page : Page Diff Entity Media)

theorem selectRow_desk (place : Nat) : (page.selectRow place).desk = page.desk := by
  unfold Page.selectRow
  split <;> rfl

theorem skipEffect_desk : page.skipEffect.desk = page.desk := by
  unfold Page.skipEffect
  split
  · exact selectRow_desk { page with skipTrigger := false } _
  · rfl

theorem filterEffect_desk : page.filterEffect.desk = page.desk := by
  unfold Page.filterEffect
  split <;> rfl

theorem spawn_desk (task : QueuedEdit → PageTask) : (page.spawn task).desk = page.desk := by
  unfold Page.spawn
  split <;> rfl

theorem streamEvent_desk (queued : QueuedEdit) : (page.streamEvent queued).desk = page.desk := by
  unfold Page.streamEvent
  split <;> rfl

theorem selectionEffects_desk : page.selectionEffects.desk = page.desk := by
  unfold Page.selectionEffects Page.selectedMediaDiffEffect Page.selectedDiffEffect
  split
  · rfl
  · split
    · rfl
    · dsimp only
      split <;> split <;> rfl

theorem invalidate_desk (revId : Nat) : (page.invalidateCurrentDiff revId).desk = page.desk := by
  unfold Page.invalidateCurrentDiff
  dsimp only
  split <;> rfl

theorem resume_desk (server : DiffServer Diff Entity Media) (ok : Bool) (task : PageTask) :
    (page.resume server ok task).desk = page.desk := by
  cases task with
  | inlineEdit revId =>
      cases ok with
      | false => rfl
      | true => exact invalidate_desk page revId
  | tag revId =>
      cases ok with
      | false => rfl
      | true => exact invalidate_desk (page.removeTagged revId) revId
  | refetch pair => cases ok <;> rfl
  | _ => rfl

theorem taskReply_desk (server : DiffServer Diff Entity Media) (place : Nat) (ok : Bool) :
    (page.taskReply server place ok).desk = page.desk := by
  unfold Page.taskReply
  split
  · rfl
  · exact resume_desk { page with tasks := page.tasks.eraseIdx place } server ok _
  · rfl

theorem applyLoadedView_desk (view : LoadedView Diff Media) :
    (page.applyLoadedView view).desk = page.desk := by
  unfold Page.applyLoadedView
  dsimp only
  split <;> rfl

theorem loadReply_desk (place : Nat) (view : Option (LoadedView Diff Media)) :
    (page.loadReply place view).desk = page.desk := by
  unfold Page.loadReply
  split
  · cases view with
    | none => rfl
    | some view => exact applyLoadedView_desk { page with tasks := page.tasks.eraseIdx place } view
  · rfl

/-- The event neither starts an action nor answers one. -/
def Aside (event : PageEvent Diff Media) : Prop :=
  event ≠ .startAction ∧ ∀ place accepted, event ≠ .actionReply place accepted

/-- What a step does to the desk of the actions. -/
inductive DeskStep (server : DiffServer Diff Entity Media) (page : Page Diff Entity Media) :
    PageEvent Diff Media → Prop where
  | still {event} (aside : Aside event) (quiet : (page.step server event).2 = none)
      (desk : (page.step server event).1.desk = page.desk) : DeskStep server page event
  | press {event} (kind : SessionActionKind) (aside : Aside event)
      (quiet : (page.step server event).2 = none)
      (desk : (page.step server event).1 = page.press kind) : DeskStep server page event
  | trigger : DeskStep server page .triggerEffect
  | start : DeskStep server page .startAction
  | reply (place : Nat) (accepted : Bool) : DeskStep server page (.actionReply place accepted)

theorem step_desk (server : DiffServer Diff Entity Media) (event : PageEvent Diff Media) :
    DeskStep server page event := by
  cases event with
  | triggerEffect => exact .trigger
  | startAction => exact .start
  | actionReply place accepted => exact .reply place accepted
  | pressKey kind => exact .press kind ⟨nofun, nofun⟩ rfl rfl
  | pressButton kind =>
      by_cases off : page.desk.pending ∨ page.queue.length ≤ page.index
      · exact .still ⟨nofun, nofun⟩ rfl (congrArg Page.desk (if_pos off))
      · exact .press kind ⟨nofun, nofun⟩ rfl (if_neg off)
  | arrowUp =>
      refine .still ⟨nofun, nofun⟩ rfl ?_
      unfold Page.step
      dsimp only
      split
      · exact selectRow_desk page _
      · rfl
  | arrowDown => exact .still ⟨nofun, nofun⟩ rfl (selectRow_desk page _)
  | skipEffect => exact .still ⟨nofun, nofun⟩ rfl (skipEffect_desk page)
  | filterEffect => exact .still ⟨nofun, nofun⟩ rfl (filterEffect_desk page)
  | inlineEdit => exact .still ⟨nofun, nofun⟩ rfl (spawn_desk page _)
  | tagAction => exact .still ⟨nofun, nofun⟩ rfl (spawn_desk page _)
  | streamEvent queued => exact .still ⟨nofun, nofun⟩ rfl (streamEvent_desk page queued)
  | selectionEffects => exact .still ⟨nofun, nofun⟩ rfl (selectionEffects_desk page)
  | loadReply place view => exact .still ⟨nofun, nofun⟩ rfl (loadReply_desk page place view)
  | taskReply place ok => exact .still ⟨nofun, nofun⟩ rfl (taskReply_desk page server place ok)
  | clickRow _ | skip | setFilters _ | setReviewNote _ | renderQueue | load =>
      exact .still ⟨nofun, nofun⟩ rfl rfl

end Desk

section Answers

variable {page : Page Diff Entity Media}

theorem accepted_edits {place : Nat} {sent : Sent} (found : page.desk.inFlight[place]? = some sent) :
    (page.actionReply place true).allEdits =
      page.allEdits.filter fun edit => !(revsToRemove page sent.edit).contains edit.event.revId := by
  unfold Page.actionReply
  rw [found]
  rfl

theorem takesOut_iff (place : Nat) :
    TakesOut page (.actionReply place true : PageEvent Diff Media) ↔
      Calm page (.actionReply place true : PageEvent Diff Media) := by
  refine forall_congr' fun sent => forall_congr' fun found => ?_
  rw [accepted_edits found]
  constructor
  · intro same edit listed
    have kept := congrArg (edit ∈ ·) same
    simpa [listed, not_iff_not] using kept
  · intro same
    refine List.filter_congr fun edit listed => ?_
    rw [Bool.not_inj_iff, Bool.eq_iff_iff, List.contains_iff_mem, List.contains_iff_mem]
    exact same edit listed

theorem reply_oneInFlight (one : OneInFlight page) (place : Nat) (accepted : Bool) :
    OneInFlight (page.actionReply place accepted) := by
  have fewer : (page.desk.inFlight.eraseIdx place).length ≤ 1 :=
    le_trans (List.length_eraseIdx_le _ _) one
  unfold Page.actionReply
  split
  · exact one
  · cases accepted with
    | false => exact fewer
    | true => exact fewer

theorem start_oneInFlight_iff (one : OneInFlight page) :
    OneInFlight page.startAction.1 ↔ Calm page (.startAction : PageEvent Diff Media) := by
  unfold Page.startAction Calm
  split
  · next none_left => exact iff_of_true one fun some_left => absurd none_left some_left
  · next press kind rest waiting =>
      have some_left : page.desk.dispatched ≠ [] := by
        rw [waiting]
        exact List.cons_ne_nil _ _
      dsimp only
      split
      · next wikiId edit view selected =>
          unfold OneInFlight
          dsimp only
          rw [List.length_append, List.length_singleton]
          constructor
          · intro short _ _ _
            exact List.eq_nil_of_length_eq_zero (by omega)
          · intro calm
            have empty := calm some_left (by rw [view]; rfl) (by rw [selected]; rfl)
            rw [empty]
            exact le_refl 1
      · next blocked =>
          refine iff_of_true one fun _ view selected => ?_
          obtain ⟨wikiId, view⟩ := Option.isSome_iff_exists.mp view
          obtain ⟨edit, selected⟩ := Option.isSome_iff_exists.mp selected
          exact absurd selected (blocked wikiId edit view)

theorem aside_iff {event : PageEvent Diff Media} (aside : Aside event) :
    TakesOut page event ∧ Calm page event := by
  obtain ⟨noStart, noReply⟩ := aside
  cases event with
  | startAction => exact absurd rfl noStart
  | actionReply place accepted => exact absurd rfl (noReply place accepted)
  | _ => exact ⟨trivial, trivial⟩

theorem triggerEffect_inFlight : page.triggerEffect.desk.inFlight = page.desk.inFlight := by
  unfold Page.triggerEffect
  split <;> rfl

/-- A step keeps to one request and takes out what was named just where it is calm. -/
theorem calm_step_iff (server : DiffServer Diff Entity Media) (event : PageEvent Diff Media)
    (one : OneInFlight page) :
    OneInFlight (page.step server event).1 ∧ TakesOut page event ↔ Calm page event := by
  cases step_desk page server event with
  | still aside quiet desk =>
      obtain ⟨takes, calm⟩ := @aside_iff _ _ _ page _ aside
      have next : OneInFlight (page.step server event).1 := by
        unfold OneInFlight
        rw [desk]
        exact one
      exact iff_of_true ⟨next, takes⟩ calm
  | press kind aside quiet desk =>
      obtain ⟨takes, calm⟩ := @aside_iff _ _ _ page _ aside
      have next : OneInFlight (page.step server event).1 := by
        unfold OneInFlight
        rw [desk]
        exact one
      exact iff_of_true ⟨next, takes⟩ calm
  | trigger =>
      have next : OneInFlight page.triggerEffect := by
        unfold OneInFlight
        rw [triggerEffect_inFlight]
        exact one
      exact iff_of_true ⟨next, trivial⟩ trivial
  | start => exact (and_iff_left trivial).trans (start_oneInFlight_iff one)
  | reply place accepted =>
      have next := reply_oneInFlight one place accepted
      cases accepted with
      | false => exact iff_of_true ⟨next, trivial⟩ trivial
      | true => exact (and_iff_right next).trans (takesOut_iff place)

end Answers

section Presses

/-- The presses that can still send a request, in the order they would. -/
def waiting (desk : ActionDesk) : List Nat :=
  desk.dispatched.map Prod.fst ++ if desk.notified then desk.trigger.toList.map Prod.fst else []

/-- The presses that sent a request and those that still can are different, and not to come. -/
structure Fresh (sent : List Nat) (desk : ActionDesk) : Prop where
  nodup : (sent ++ waiting desk).Nodup
  past : ∀ press ∈ sent ++ waiting desk, press < desk.presses

variable {sent : List Nat} {desk : ActionDesk}

theorem Fresh.sublist (fresh : Fresh sent desk) {sent' : List Nat} {desk' : ActionDesk}
    (fewer : List.Sublist (sent' ++ waiting desk') (sent ++ waiting desk))
    (presses : desk'.presses = desk.presses) : Fresh sent' desk' where
  nodup := fresh.nodup.sublist fewer
  past := by
    intro press member
    rw [presses]
    exact fresh.past press (fewer.subset member)

theorem Fresh.press (fresh : Fresh sent desk) (kind : SessionActionKind) :
    Fresh sent
      { desk with
        trigger := some (desk.presses, kind)
        presses := desk.presses + 1
        notified := true } := by
  have kept : List.Sublist (sent ++ desk.dispatched.map Prod.fst) (sent ++ waiting desk) :=
    (List.Sublist.refl sent).append (List.sublist_append_left _ _)
  have next : ∀ trigger notified, waiting
      { desk with trigger := some (desk.presses, kind), presses := trigger, notified := notified } =
        desk.dispatched.map Prod.fst ++ if notified then [desk.presses] else [] :=
    fun _ _ => rfl
  constructor
  · rw [next, ← List.append_assoc]
    refine List.Nodup.append (fresh.nodup.sublist kept) (List.nodup_singleton _) ?_
    intro press old new
    have before := fresh.past press (kept.subset old)
    rw [List.mem_singleton.mp new] at before
    exact lt_irrefl _ before
  · rw [next, ← List.append_assoc]
    intro press member
    rcases List.mem_append.mp member with old | new
    · exact Nat.lt_succ_of_lt (fresh.past press (kept.subset old))
    · rw [List.mem_singleton.mp new]
      exact Nat.lt_succ_self _

/-- An action that ends leaves what was dispatched. -/
theorem Fresh.finish (fresh : Fresh sent desk) (inFlight : List Sent) :
    Fresh sent
      { desk with inFlight := inFlight, pending := false, trigger := none, notified := true } := by
  refine fresh.sublist ?_ rfl
  have left : waiting
      { desk with inFlight := inFlight, pending := false, trigger := none, notified := true } =
        desk.dispatched.map Prod.fst := List.append_nil _
  rw [left]
  exact (List.Sublist.refl sent).append (List.sublist_append_left _ _)

theorem Fresh.trigger {page : Page Diff Entity Media} (fresh : Fresh sent page.desk) :
    Fresh sent page.triggerEffect.desk := by
  unfold Page.triggerEffect
  split
  · next notified =>
      refine fresh.sublist ?_ rfl
      unfold waiting
      dsimp only
      rw [if_pos notified, if_neg Bool.false_ne_true, List.append_nil, List.map_append]
  · exact fresh

theorem Fresh.start {page : Page Diff Entity Media} (fresh : Fresh sent page.desk) :
    Fresh (sent ++ page.startAction.2.toList) page.startAction.1.desk := by
  unfold Page.startAction
  split
  · rw [Option.toList_none, List.append_nil]
    exact fresh
  · next press kind rest dispatched =>
      have before : waiting page.desk =
          press :: waiting { page.desk with dispatched := rest, pending := true } := by
        unfold waiting
        rw [dispatched]
        rfl
      dsimp only
      split
      · refine fresh.sublist ?_ rfl
        rw [before, List.append_assoc]
        exact List.Sublist.refl _
      · rw [Option.toList_none, List.append_nil]
        have blocked : Fresh sent { page.desk with dispatched := rest, pending := true } := by
          refine fresh.sublist ?_ rfl
          rw [before]
          exact (List.Sublist.refl sent).append (List.sublist_cons_self _ _)
        exact blocked.finish _

theorem Fresh.reply {page : Page Diff Entity Media} (fresh : Fresh sent page.desk) (place : Nat)
    (accepted : Bool) : Fresh sent (page.actionReply place accepted).desk := by
  unfold Page.actionReply
  split
  · exact fresh
  · cases accepted with
    | false => exact fresh.finish _
    | true => exact fresh.finish _

theorem fresh_step (server : DiffServer Diff Entity Media) (page : Page Diff Entity Media)
    (event : PageEvent Diff Media) (fresh : Fresh sent page.desk) :
    Fresh (sent ++ (page.step server event).2.toList) (page.step server event).1.desk := by
  cases step_desk page server event with
  | still aside quiet desk =>
      rw [quiet, desk, Option.toList_none, List.append_nil]
      exact fresh
  | press kind aside quiet desk =>
      rw [quiet, desk, Option.toList_none, List.append_nil]
      exact fresh.press kind
  | trigger => exact (List.append_nil sent).symm ▸ fresh.trigger
  | start => exact fresh.start
  | reply place accepted => exact (List.append_nil sent).symm ▸ fresh.reply place accepted

/-- No press sends a second request, in any run. -/
theorem presses_once (server : DiffServer Diff Entity Media) (hashRev : Option Nat)
    (events : List (PageEvent Diff Media)) :
    ((Run.trace (Page.step server) (Page.initial hashRev) events).filterMap Prod.snd).Nodup := by
  have start : Fresh [] (Page.initial hashRev : Page Diff Entity Media).desk :=
    ⟨List.nodup_nil, fun _ member => nomatch member⟩
  have fresh := @Run.history_invariant _ _ _ (Page.step server)
    (fun past page => Fresh (past.filterMap Prod.snd) page.desk)
    (by
      intro past page event fresh
      rw [List.filterMap_append]
      have next := fresh_step server page event fresh
      cases answer : (page.step server event).2 with
      | none => simpa [answer] using next
      | some press => simpa [answer] using next)
    [] _ start events
  exact fresh.nodup.sublist (List.sublist_append_left _ _)

end Presses

section Runs

/-- One decision is one request, and only what it names leaves, just in the calm runs. -/
theorem decided_iff (server : DiffServer Diff Entity Media) (hashRev : Option Nat)
    (events : List (PageEvent Diff Media)) :
    Decided server hashRev events ↔
      Run.Along (Page.step server) Calm (Page.initial hashRev) events := by
  have one : OneInFlight (Page.initial hashRev : Page Diff Entity Media) := Nat.zero_le 1
  have steps := Run.along_promise_iff
    (fun _ event one => calm_step_iff server event one) one events
  constructor
  · intro decided
    exact steps.mp decided.steps
  · intro calm
    exact ⟨steps.mpr calm, presses_once server hashRev events⟩

/-- A key is pressed again before the first request is answered. -/
def pressedTwice : List (PageEvent RevisionPair Empty) :=
  [.load, .loadReply 0 (some twoRows), .selectionEffects, .pressKey .patrol, .triggerEffect,
    .startAction, .pressKey .patrol, .triggerEffect]

theorem two_in_flight : ¬ Decided namingServer none (pressedTwice ++ [.startAction]) := by
  intro decided
  obtain ⟨one, -⟩ := Run.along_at decided.steps
  revert one
  unfold OneInFlight
  decide

end Runs

end SP42.Patrol

import SP42.Patrol.Page

/-!
Which diff is on the screen, over every run of the patrol page.
-/
namespace SP42.Patrol

variable {Diff Entity Media : Type}

section Promise

/-- What the pane holds, loading or not: an entity diff stands before a text diff. -/
def Artifacts.held (artifacts : Artifacts Diff Entity Media) :
    Option (ContentDiffReport Diff Entity) :=
  match artifacts.currentEntityDiff with
  | some diff => some (.entity diff)
  | none => artifacts.currentDiff.map .text

def DiffServer.IsDiffOf (server : DiffServer Diff Entity Media) (pair : RevisionPair) :
    ContentDiffReport Diff Entity → Prop
  | .text diff => server.text pair = some diff
  | .entity diff => server.entity pair = some diff

/-- What there is of a report is the server's diff of the edit. -/
def Belongs (server : DiffServer Diff Entity Media) (edit : Option QueuedEdit)
    (report : Option (ContentDiffReport Diff Entity)) : Prop :=
  ∀ diff, report = some diff → ∃ selected, edit = some selected ∧
    server.IsDiffOf (pairOf selected) diff

/-- What there is of a media diff with changes is the server's one of the edit. -/
def MediaBelongs (server : DiffServer Diff Entity Media) (edit : Option QueuedEdit)
    (report : Option Media) : Prop :=
  ∀ media, report = some media → server.hasChanges media = true →
    ∃ selected, edit = some selected ∧ server.media (pairOf selected) = some media

/-- The diffs on the screen are those of the selected edit. -/
structure Right (server : DiffServer Diff Entity Media) (page : Page Diff Entity Media) : Prop where
  diff : page.artifacts.diffLoading = false →
    Belongs server page.selectedEdit page.artifacts.held
  media : page.artifacts.mediaDiffLoading = false →
    MediaBelongs server page.selectedEdit page.artifacts.currentMediaDiff

end Promise

section Condition

/-- What a selected row brings from the caches is its own. -/
def FitsSelection (server : DiffServer Diff Entity Media) (page : Page Diff Entity Media)
    (revId : Nat) : Prop :=
  let edit := page.queue.find? fun edit => edit.event.revId = revId
  (page.artifacts.diffLoading = false → Belongs server edit (page.artifacts.cached revId)) ∧
    MediaBelongs server edit (page.artifacts.mediaDiffCache revId)

/-- What a loaded view leaves on the screen is of the selected edit. -/
def FitsView (server : DiffServer Diff Entity Media) (page : Page Diff Entity Media)
    (view : LoadedView Diff Media) : Prop :=
  let artifacts := page.artifacts
  if (view.selectedIndex.bind fun index => view.queue[index]?).any Artifacts.isEntity then
    Belongs server page.selectedEdit artifacts.held
  else
    Belongs server page.selectedEdit
        (match artifacts.currentEntityDiff with
          | some diff => some (.entity diff)
          | none => (view.diff.or artifacts.currentDiff).map .text) ∧
      (artifacts.mediaDiffLoading = false → MediaBelongs server page.selectedEdit view.mediaDiff)

def FitsReply (server : DiffServer Diff Entity Media) (page : Page Diff Entity Media) :
    Option (LoadedView Diff Media) → Prop
  | some view => FitsView server page view
  | none => Belongs server page.selectedEdit page.artifacts.held

/-- What the answer of a task brings to the screen is of the edit that is selected by then. -/
def FitsTask (server : DiffServer Diff Entity Media) (page : Page Diff Entity Media) (ok : Bool) :
    PageTask → Prop
  | .content pair => ok = true → Belongs server page.selectedEdit (server.content pair)
  | .refetch pair =>
      Belongs server page.selectedEdit (if ok then server.content pair else page.artifacts.held)
  | .media pair => ok = true → MediaBelongs server page.selectedEdit (server.media pair)
  | .inlineEdit _ => ok = true → page.selectedEdit = none → page.artifacts.held = none
  | .tag _ => ok = true → page.selectedEdit = none → page.artifacts.held = none
  | .prefetch _ _ => True
  | .prefetching _ _ _ => True
  | .load => True

/-- A step that brings nothing to the screen but what is of the selected edit. -/
def Fits (server : DiffServer Diff Entity Media) (page : Page Diff Entity Media) :
    PageEvent Diff Media → Prop
  | .selectionEffects =>
      ∀ revId, page.selectedRevId = some revId → page.seenRev ≠ some (some revId) →
        FitsSelection server page revId
  | .loadReply place view =>
      page.tasks[place]? = some .load → FitsReply server page view
  | .taskReply place ok => ∀ task, page.tasks[place]? = some task → FitsTask server page ok task
  | _ => True

end Condition

section Frames

variable {page next : Page Diff Entity Media}

/-- A step that leaves the artifacts and the selected edit alone. -/
structure Keeps (page next : Page Diff Entity Media) : Prop where
  artifacts : next.artifacts = page.artifacts
  edit : next.selectedEdit = page.selectedEdit

theorem keeps_refl (page : Page Diff Entity Media) : Keeps page page := ⟨rfl, rfl⟩

theorem keeps_selectRow (page : Page Diff Entity Media) (place : Nat) :
    Keeps page (page.selectRow place) := by
  unfold Page.selectRow
  split
  · exact ⟨rfl, rfl⟩
  · exact ⟨rfl, rfl⟩

theorem keeps_skipEffect (page : Page Diff Entity Media) : Keeps page page.skipEffect := by
  unfold Page.skipEffect
  split
  · have row := keeps_selectRow { page with skipTrigger := false } (page.index + 1)
    exact ⟨row.artifacts, row.edit⟩
  · exact keeps_refl page

theorem keeps_filterEffect (page : Page Diff Entity Media) : Keeps page page.filterEffect := by
  unfold Page.filterEffect
  split
  · exact keeps_refl page
  · exact ⟨rfl, rfl⟩

theorem keeps_spawn (page : Page Diff Entity Media) (task : QueuedEdit → PageTask) :
    Keeps page (page.spawn task) := by
  unfold Page.spawn
  split
  · exact ⟨rfl, rfl⟩
  · exact keeps_refl page

theorem keeps_streamEvent (page : Page Diff Entity Media) (queued : QueuedEdit) :
    Keeps page (page.streamEvent queued) := by
  unfold Page.streamEvent
  split
  · exact keeps_refl page
  · exact ⟨rfl, rfl⟩

theorem keeps_triggerEffect (page : Page Diff Entity Media) : Keeps page page.triggerEffect := by
  unfold Page.triggerEffect
  split
  · exact ⟨rfl, rfl⟩
  · exact keeps_refl page

theorem keeps_startAction (page : Page Diff Entity Media) : Keeps page page.startAction.1 := by
  unfold Page.startAction
  split
  · exact keeps_refl page
  · dsimp only
    split
    · exact ⟨rfl, rfl⟩
    · exact ⟨rfl, rfl⟩

theorem keeps_actionReply (page : Page Diff Entity Media) (place : Nat) (accepted : Bool) :
    Keeps page (page.actionReply place accepted) := by
  unfold Page.actionReply
  split
  · exact keeps_refl page
  · dsimp only
    split
    · exact ⟨rfl, rfl⟩
    · exact ⟨rfl, rfl⟩

end Frames

section Steps

variable {server : DiffServer Diff Entity Media} {page next : Page Diff Entity Media}

theorem Keeps.right (keeps : Keeps page next) (right : Right server page) : Right server next := by
  constructor
  · rw [keeps.artifacts, keeps.edit]
    exact right.diff
  · rw [keeps.artifacts, keeps.edit]
    exact right.media

theorem belongs_none (edit : Option QueuedEdit) : Belongs server edit none := nofun

theorem mediaBelongs_none (edit : Option QueuedEdit) : MediaBelongs server edit none := nofun

theorem belongs_nothing (report : Option (ContentDiffReport Diff Entity)) :
    Belongs server none report ↔ report = none := by
  constructor
  · intro belongs
    cases report with
    | none => rfl
    | some diff =>
        obtain ⟨selected, impossible, -⟩ := belongs diff rfl
        cases impossible
  · rintro rfl
    exact belongs_none none

namespace Artifacts

variable (artifacts : Artifacts Diff Entity Media)

theorem held_setCurrent (report : ContentDiffReport Diff Entity) :
    (artifacts.setCurrent report).held = some report := by
  cases report <;> rfl

theorem held_applyContentDiff (revId : Nat) (report : Option (ContentDiffReport Diff Entity)) :
    (artifacts.applyContentDiff revId report).held = report := by
  cases report with
  | none => rfl
  | some report => cases report <;> rfl

theorem applyContentDiff_media (revId : Nat) (report : Option (ContentDiffReport Diff Entity)) :
    (artifacts.applyContentDiff revId report).mediaDiffLoading = artifacts.mediaDiffLoading ∧
      (artifacts.applyContentDiff revId report).currentMediaDiff = artifacts.currentMediaDiff := by
  cases report with
  | none => exact ⟨rfl, rfl⟩
  | some report => cases report <;> exact ⟨rfl, rfl⟩

theorem setCurrent_media (report : ContentDiffReport Diff Entity) :
    (artifacts.setCurrent report).diffLoading = artifacts.diffLoading ∧
      (artifacts.setCurrent report).mediaDiffCache = artifacts.mediaDiffCache := by
  cases report <;> exact ⟨rfl, rfl⟩

end Artifacts

/-- Only the diff can go wrong where the media stay as they are. -/
theorem right_diff_iff (right : Right server page) (next : Page Diff Entity Media)
    (edit : next.selectedEdit = page.selectedEdit)
    (loading : next.artifacts.mediaDiffLoading = page.artifacts.mediaDiffLoading)
    (media : next.artifacts.currentMediaDiff = page.artifacts.currentMediaDiff) :
    Right server next ↔ (next.artifacts.diffLoading = false →
      Belongs server page.selectedEdit next.artifacts.held) := by
  rw [← edit]
  constructor
  · exact fun good => good.diff
  · intro diff
    refine ⟨diff, ?_⟩
    rw [loading, media, edit]
    exact right.media

/-- Only the media can go wrong where the diff stays as it is. -/
theorem right_media_iff (right : Right server page) (next : Page Diff Entity Media)
    (edit : next.selectedEdit = page.selectedEdit)
    (loading : next.artifacts.diffLoading = page.artifacts.diffLoading)
    (held : next.artifacts.held = page.artifacts.held) :
    Right server next ↔ (next.artifacts.mediaDiffLoading = false →
      MediaBelongs server page.selectedEdit next.artifacts.currentMediaDiff) := by
  rw [← edit]
  constructor
  · exact fun good => good.media
  · intro media
    refine ⟨?_, media⟩
    rw [loading, held, edit]
    exact right.diff

theorem right_stopLoading_iff (right : Right server page) :
    Right server page.stopLoading ↔ Belongs server page.selectedEdit page.artifacts.held :=
  (right_diff_iff right page.stopLoading rfl rfl rfl).trans (forall_prop_of_true rfl)

theorem right_applied_iff (right : Right server page) (revId : Nat)
    (report : Option (ContentDiffReport Diff Entity)) :
    Right server
        { page with artifacts := page.artifacts.applyContentDiff revId report }.stopLoading ↔
      Belongs server page.selectedEdit report := by
  obtain ⟨loading, media⟩ := page.artifacts.applyContentDiff_media revId report
  have reduced := right_diff_iff right
    { page with artifacts := page.artifacts.applyContentDiff revId report }.stopLoading
    rfl loading media
  refine reduced.trans ((forall_prop_of_true rfl).trans ?_)
  show Belongs server page.selectedEdit (page.artifacts.applyContentDiff revId report).held ↔ _
  rw [Artifacts.held_applyContentDiff]

theorem right_invalidate_iff (right : Right server page) (revId : Nat) :
    Right server (page.invalidateCurrentDiff revId) ↔
      (page.selectedEdit = none → page.artifacts.held = none) := by
  unfold Page.invalidateCurrentDiff
  dsimp only
  have media := right.media
  cases selected : page.selectedEdit with
  | some item =>
      refine iff_of_true ⟨fun loaded => ?_, ?_⟩ (fun none => ?_)
      · cases loaded
      · rw [selected] at media
        exact media
      · cases none
  | none =>
      refine Iff.trans ?_ (forall_prop_of_true rfl).symm
      rw [← @belongs_nothing _ _ _ server]
      constructor
      · exact fun good => good.diff rfl
      · refine fun belongs => ⟨fun _ => belongs, ?_⟩
        rw [selected] at media
        exact media

theorem right_resume_iff (right : Right server page) (ok : Bool) (task : PageTask) :
    Right server (page.resume server ok task) ↔ FitsTask server page ok task := by
  cases task with
  | content pair =>
      refine (right_applied_iff right pair.revId _).trans ?_
      cases ok with
      | false => exact iff_of_true (belongs_none _) (fun done => nomatch done)
      | true =>
          show Belongs server page.selectedEdit (server.content pair) ↔
            (true = true → Belongs server page.selectedEdit (server.content pair))
          exact ⟨fun belongs _ => belongs, fun belongs => belongs rfl⟩
  | media pair =>
      have reduced := right_media_iff right (page.resume server ok (.media pair))
      cases ok with
      | false =>
          refine iff_of_true ((reduced rfl rfl rfl).mpr fun _ => ?_) (fun done => nomatch done)
          exact mediaBelongs_none _
      | true =>
          refine (reduced rfl rfl rfl).trans ((forall_prop_of_true rfl).trans ?_)
          show MediaBelongs server page.selectedEdit (server.media pair) ↔
            (true = true → MediaBelongs server page.selectedEdit (server.media pair))
          exact ⟨fun belongs _ => belongs, fun belongs => belongs rfl⟩
  | prefetch wikiId items =>
      refine iff_of_true ?_ trivial
      exact @Keeps.right _ _ _ server page _ ⟨rfl, rfl⟩ right
  | prefetching wikiId pair items =>
      refine iff_of_true ?_ trivial
      unfold Page.resume
      dsimp only
      cases server.content pair with
      | none => exact @Keeps.right _ _ _ server page _ ⟨rfl, rfl⟩ right
      | some report =>
          cases ok with
          | false => exact @Keeps.right _ _ _ server page _ ⟨rfl, rfl⟩ right
          | true => cases report <;> exact ⟨right.diff, right.media⟩
  | inlineEdit revId =>
      cases ok with
      | false => exact iff_of_true right (fun done => nomatch done)
      | true =>
          show _ ↔ (true = true → page.selectedEdit = none → page.artifacts.held = none)
          refine (right_invalidate_iff right revId).trans ?_
          exact ⟨fun nothing _ => nothing, fun nothing => nothing rfl⟩
  | tag revId =>
      cases ok with
      | false => exact iff_of_true right (fun done => nomatch done)
      | true =>
          have removed : Right server (page.removeTagged revId) :=
            @Keeps.right _ _ _ server page _ ⟨rfl, rfl⟩ right
          show _ ↔ (true = true → page.selectedEdit = none → page.artifacts.held = none)
          refine (right_invalidate_iff removed revId).trans ?_
          exact ⟨fun nothing _ => nothing, fun nothing => nothing rfl⟩
  | refetch pair =>
      cases ok with
      | false => exact right_stopLoading_iff right
      | true => exact right_applied_iff right pair.revId (server.content pair)
  | load => exact iff_of_true right trivial

theorem right_taskReply_iff (right : Right server page) (place : Nat) (ok : Bool) :
    Right server (page.taskReply server place ok) ↔
      ∀ task, page.tasks[place]? = some task → FitsTask server page ok task := by
  unfold Page.taskReply
  cases found : page.tasks[place]? with
  | none => exact iff_of_true right nofun
  | some task =>
      have answered : Right server { page with tasks := page.tasks.eraseIdx place } :=
        @Keeps.right _ _ _ server page _ ⟨rfl, rfl⟩ right
      have resumed := right_resume_iff answered ok task
      simp only [Option.some.injEq, forall_eq']
      cases task with
      | load => exact iff_of_true right trivial
      | _ => exact resumed

/-- The media effect brings the cached report to the screen, or nothing yet. -/
theorem right_selectedMedia_iff (page : Page Diff Entity Media) (revId : Nat) :
    Right server (page.selectedMediaDiffEffect revId) ↔
      (page.artifacts.diffLoading = false →
        Belongs server page.selectedEdit page.artifacts.held) ∧
        MediaBelongs server page.selectedEdit (page.artifacts.mediaDiffCache revId) := by
  unfold Page.selectedMediaDiffEffect
  cases page.artifacts.mediaDiffCache revId with
  | none => exact ⟨fun good => ⟨good.diff, mediaBelongs_none _⟩,
      fun good => ⟨good.1, fun _ => mediaBelongs_none _⟩⟩
  | some media => exact ⟨fun good => ⟨good.diff, good.media rfl⟩,
      fun good => ⟨good.1, fun _ => good.2⟩⟩

theorem selectedDiffEffect_edit (page : Page Diff Entity Media) (revId : Nat) :
    (page.selectedDiffEffect revId).selectedEdit =
      page.queue.find? fun edit => edit.event.revId = revId := by
  unfold Page.selectedDiffEffect
  dsimp only
  split <;> rfl

theorem selectedDiffEffect_media (page : Page Diff Entity Media) (revId : Nat) :
    (page.selectedDiffEffect revId).artifacts.mediaDiffCache = page.artifacts.mediaDiffCache := by
  unfold Page.selectedDiffEffect
  dsimp only
  split
  · exact (page.artifacts.setCurrent_media _).2
  · rfl

theorem selectedDiffEffect_held (page : Page Diff Entity Media) (revId : Nat)
    (edit : Option QueuedEdit) :
    ((page.selectedDiffEffect revId).artifacts.diffLoading = false →
        Belongs server edit (page.selectedDiffEffect revId).artifacts.held) ↔
      (page.artifacts.diffLoading = false → Belongs server edit (page.artifacts.cached revId)) := by
  unfold Page.selectedDiffEffect
  dsimp only [Page.readQueue]
  cases found : page.artifacts.cached revId with
  | none => exact iff_of_true (fun loaded => nomatch loaded) fun _ => belongs_none edit
  | some report =>
      dsimp only
      rw [(page.artifacts.setCurrent_media report).1, Artifacts.held_setCurrent]

/-- The effects bring the cached diffs of a newly selected row to the screen. -/
theorem right_selected_iff (revId : Nat) :
    Right server
        (({ page with hashRev := some revId }.selectedDiffEffect revId).selectedMediaDiffEffect
          revId) ↔
      FitsSelection server page revId := by
  rw [right_selectedMedia_iff, selectedDiffEffect_edit, selectedDiffEffect_media,
    selectedDiffEffect_held]
  exact Iff.rfl

theorem right_selectionEffects_iff (right : Right server page) :
    Right server page.selectionEffects ↔
      ∀ revId, page.selectedRevId = some revId → page.seenRev ≠ some (some revId) →
        FitsSelection server page revId := by
  cases selected : page.selectedRevId with
  | none =>
      refine iff_of_true ?_ nofun
      unfold Page.selectionEffects
      rw [selected]
      exact ⟨right.diff, fun _ => mediaBelongs_none _⟩
  | some revId =>
      have effects : page.selectionEffects =
          if page.seenRev = some (some revId) then { page with hashRev := some revId }
          else ({ page with hashRev := some revId }.selectedDiffEffect revId).selectedMediaDiffEffect
            revId := by
        unfold Page.selectionEffects
        rw [selected]
      rw [effects]
      simp only [Option.some.injEq, forall_eq']
      by_cases seen : page.seenRev = some (some revId)
      · rw [if_pos seen]
        refine iff_of_true ?_ fun new => absurd seen new
        exact @Keeps.right _ _ _ server page _ ⟨rfl, rfl⟩ right
      · rw [if_neg seen, right_selected_iff revId]
        exact ⟨fun fits _ => fits, fun fits => fits seen⟩

/-- A loaded view first changes what the pane holds, then shows it. -/
theorem right_loaded_iff (right : Right server page) (view : LoadedView Diff Media) :
    Right server (page.applyLoadedView view) ↔ FitsView server page view := by
  have edit : (page.applyLoadedView view).selectedEdit = page.selectedEdit := by
    unfold Page.applyLoadedView
    dsimp only
    split <;> rfl
  have artifacts : (page.applyLoadedView view).artifacts =
      { page.artifacts.cacheInitialArtifacts view with diffLoading := false } := by
    unfold Page.applyLoadedView
    dsimp only
    split <;> rfl
  unfold FitsView
  dsimp only
  split
  · next entity =>
      have same : page.artifacts.cacheInitialArtifacts view = page.artifacts := by
        unfold Artifacts.cacheInitialArtifacts
        exact if_pos entity
      rw [same] at artifacts
      refine (right_diff_iff right _ edit (by rw [artifacts]) (by rw [artifacts])).trans ?_
      rw [artifacts]
      exact forall_prop_of_true rfl
  · next text =>
      have held : ({ page.artifacts.cacheInitialArtifacts view with
            diffLoading := false } : Artifacts Diff Entity Media).held =
          (match page.artifacts.currentEntityDiff with
            | some diff => some (.entity diff)
            | none => (view.diff.or page.artifacts.currentDiff).map .text) := by
        unfold Artifacts.cacheInitialArtifacts
        dsimp only
        rw [if_neg text]
        rfl
      have media : (page.artifacts.cacheInitialArtifacts view).currentMediaDiff = view.mediaDiff ∧
          (page.artifacts.cacheInitialArtifacts view).mediaDiffLoading =
            page.artifacts.mediaDiffLoading := by
        unfold Artifacts.cacheInitialArtifacts
        dsimp only
        rw [if_neg text]
        exact ⟨rfl, rfl⟩
      constructor
      · rintro ⟨diff, shown⟩
        rw [artifacts, edit] at diff shown
        rw [held] at diff
        dsimp only at shown
        rw [media.1, media.2] at shown
        exact ⟨diff rfl, shown⟩
      · rintro ⟨diff, shown⟩
        refine ⟨fun _ => ?_, ?_⟩
        · rw [artifacts, edit, held]
          exact diff
        · rw [artifacts, edit]
          dsimp only
          rw [media.1, media.2]
          exact shown

theorem right_loadReply_iff (right : Right server page) (place : Nat)
    (view : Option (LoadedView Diff Media)) :
    Right server (page.loadReply place view) ↔
      (page.tasks[place]? = some .load → FitsReply server page view) := by
  have answered : Right server { page with tasks := page.tasks.eraseIdx place } :=
    @Keeps.right _ _ _ server page _ ⟨rfl, rfl⟩ right
  by_cases found : page.tasks[place]? = some .load
  · have replied : page.loadReply place view =
        match view with
        | some view => { page with tasks := page.tasks.eraseIdx place }.applyLoadedView view
        | none => { page with tasks := page.tasks.eraseIdx place }.stopLoading := by
      unfold Page.loadReply
      cases view <;> simp only [found]
    rw [replied, forall_prop_of_true found]
    cases view with
    | none => exact right_stopLoading_iff answered
    | some view => exact right_loaded_iff answered view
  · have same : page.loadReply place view = page := by
      unfold Page.loadReply
      split
      · next load => exact absurd load found
      · rfl
    rw [same]
    exact iff_of_true right fun load => absurd load found

/-- From a page whose diffs are right, a step leads to one just where it fits. -/
theorem right_step_iff (right : Right server page) (event : PageEvent Diff Media) :
    Right server (page.step server event).1 ↔ Fits server page event := by
  cases event with
  | selectionEffects => exact right_selectionEffects_iff right
  | loadReply place view => exact right_loadReply_iff right place view
  | taskReply place ok => exact right_taskReply_iff right place ok
  | arrowUp =>
      refine iff_of_true ?_ trivial
      unfold Page.step
      dsimp only
      split
      · exact (keeps_selectRow page _).right right
      · exact @Keeps.right _ _ _ server page _ ⟨rfl, rfl⟩ right
  | arrowDown => exact iff_of_true ((keeps_selectRow page _).right right) trivial
  | skipEffect => exact iff_of_true ((keeps_skipEffect page).right right) trivial
  | pressButton kind =>
      refine iff_of_true ?_ trivial
      unfold Page.step
      dsimp only
      split
      · exact right
      · exact @Keeps.right _ _ _ server page _ ⟨rfl, rfl⟩ right
  | filterEffect => exact iff_of_true ((keeps_filterEffect page).right right) trivial
  | inlineEdit => exact iff_of_true ((keeps_spawn page _).right right) trivial
  | tagAction => exact iff_of_true ((keeps_spawn page _).right right) trivial
  | streamEvent queued => exact iff_of_true ((keeps_streamEvent page queued).right right) trivial
  | triggerEffect => exact iff_of_true ((keeps_triggerEffect page).right right) trivial
  | startAction => exact iff_of_true ((keeps_startAction page).right right) trivial
  | actionReply place accepted =>
      exact iff_of_true ((keeps_actionReply page place accepted).right right) trivial
  | clickRow _ | skip | pressKey _ | setFilters _ | setReviewNote _ | renderQueue | load =>
      exact iff_of_true (@Keeps.right _ _ _ server page _ ⟨rfl, rfl⟩ right) trivial

/-- In every run the diffs on the screen are those of the selected edit after every step just
where no step brings another one to it. -/
theorem diff_on_screen_iff (server : DiffServer Diff Entity Media) (hashRev : Option Nat)
    (events : List (PageEvent Diff Media)) :
    Run.Along (Page.step server) (fun page event => Right server (page.step server event).1)
        (Page.initial hashRev) events ↔
      Run.Along (Page.step server) (Fits server) (Page.initial hashRev) events :=
  @Run.along_iff _ _ _ (Page.step server) (Right server) (Fits server)
    (fun _ event right => right_step_iff right event) _
    ⟨fun _ => belongs_none _, fun _ => mediaBelongs_none _⟩ events

end Steps

section Examples

/-- A server whose diffs name the pair they are of. -/
def namingServer : DiffServer RevisionPair Empty Empty where
  text pair := some pair
  entity _ := none
  media _ := none
  hasChanges _ := false

/-- An edit of an unregistered user. -/
def rowEdit (revId : Nat) (title user : Char) : QueuedEdit where
  event :=
    { contentModel := none
      wikiId := "frwiki".toList
      title := [title]
      namespaceId := I32.zero
      revId := revId
      oldRevId := some (revId - 1)
      performer := .anonymous [user]
      isBot := .disabled
      isMinor := .disabled
      isNewPage := .disabled
      tags := []
      byteDelta := I32.zero
      isPatrolled := .disabled }
  scoreTotal := I32.zero

def twoRows : LoadedView RevisionPair Empty where
  wikiId := "frwiki".toList
  queue := [rowEdit 10 'P' 'A', rowEdit 20 'Q' 'B']
  selectedIndex := none
  diff := none
  mediaDiff := none

/-- Both rows are selected before an answer arrives; that of the first one comes last. -/
def lateReply : List (PageEvent RevisionPair Empty) :=
  [.load, .loadReply 0 (some twoRows), .selectionEffects, .clickRow 20, .selectionEffects,
    .taskReply 3 true]

theorem late_reply_shown :
    ¬ Run.Along (Page.step namingServer)
      (fun page event => Right namingServer (page.step namingServer event).1)
      (Page.initial none) (lateReply ++ [.taskReply 1 true]) := by
  intro right
  obtain ⟨selected, same, diff⟩ := (Run.along_at right).diff rfl (.text (pairOf (rowEdit 10 'P' 'A'))) rfl
  have other : some (rowEdit 20 'Q' 'B') = some selected := same
  cases other
  revert diff
  unfold DiffServer.IsDiffOf namingServer
  decide

end Examples

end SP42.Patrol

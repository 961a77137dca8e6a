import SP42.Patrol.Rows

/-!
When the requests and the diff of a row cover just the edits the row stands for.
-/
namespace SP42.Patrol

open Actions (SessionActionExecutionRequest patrolRevIds)

section Promise

variable (history : History)

/-- The revisions that leave the page with an undo. -/
def undone (request : SessionActionExecutionRequest) : List Nat :=
  (history.between (request.title.getD []) (request.undoAfterRevId.getD 0) request.revId).map
    Revision.revId

/-- The revisions a diff of the row shows. -/
def shown (row : QueuedEdit) : List Nat :=
  (history.between row.event.title (row.event.oldRevId.getD 0) row.event.revId).map Revision.revId

/-- A row stands for its edits in all it is used for. -/
structure Stands (groups : GroupRevIds) (row : QueuedEdit) : Prop where
  undoes : ∀ wikiId reviewNote rev,
    rev ∈ undone history (buildActionRequest wikiId row .undo reviewNote groups) ↔
      rev ∈ rowRevs groups row
  marks : ∀ wikiId reviewNote rev,
    rev ∈ patrolRevIds (buildActionRequest wikiId row .patrol reviewNote groups) ↔
      rev ∈ rowRevs groups row
  shows : ∀ rev, rev ∈ shown history row ↔ rev ∈ rowRevs groups row
  delta : row.event.byteDelta.val =
    history.sizeAt row.event.title row.event.revId -
      history.sizeAt row.event.title (row.event.oldRevId.getD 0)
  own : ∀ revision ∈
    history.between row.event.title (row.event.oldRevId.getD 0) row.event.revId,
    revision.user = performerKey row.event.performer

/-- The tokenless requests of one edit act on this edit. -/
def RequestsStand (edit : QueuedEdit) : Prop :=
  ∀ note requests, buildSessionActionExecutionRequests edit note = .ok requests →
    ∀ request ∈ requests, patrolRevIds request = [edit.event.revId] ∧
      (request.kind = .undo → ∀ rev, rev ∈ undone history request ↔ rev = edit.event.revId)

/-- Every row of the queue stands for edits of the filtered list, and each of these has
exactly one row. -/
structure RowsStand (filters : PatrolFilterParams) (edits : List QueuedEdit) : Prop where
  once : ∀ edit ∈ filterEdits edits filters,
    (queue edits filters).countP
      (fun row => edit.event.revId ∈ rowRevs (groupRevIds edits filters) row) = 1
  within : ∀ row ∈ queue edits filters, ∀ rev ∈ rowRevs (groupRevIds edits filters) row,
    ∃ edit ∈ filterEdits edits filters, edit.event.revId = rev
  stands : ∀ row ∈ queue edits filters, Stands history (groupRevIds edits filters) row
  requests : ∀ edit ∈ edits, RequestsStand history edit

/-- Edits of one title and performer are a run of the page's history, with nothing else
between them. -/
def Consecutive (filtered : List QueuedEdit) : Prop :=
  ∀ a ∈ filtered, ∀ b ∈ filtered, groupKey a = groupKey b →
    a.event.title = b.event.title ∧
      ∀ revision ∈ history.page a.event.title,
        a.event.revId < revision.revId → revision.revId < b.event.revId →
          ∃ edit ∈ filtered, edit.event.revId = revision.revId ∧ groupKey edit = groupKey a

/-- The number of rows before the limit. -/
def rowCount (filtered : List QueuedEdit) (grouping : Bool) : Nat :=
  if grouping then (filtered.map groupKey).dedup.length else filtered.length

end Promise

section Single

variable {history : History}

theorem between_of_takes {edit : QueuedEdit} {revision : Revision}
    (takes : Takes history edit revision) (other : Revision) :
    other ∈ history.between edit.event.title (edit.event.oldRevId.getD 0) edit.event.revId ↔
      other = revision := by
  rw [takes.title, takes.base, takes.rev]
  exact History.mem_between_parent takes.listed other

/-- The number before serves as a base where the old revision is not known. -/
theorem between_undoBase {edit : QueuedEdit} {revision : Revision} {base : Nat}
    (takes : Takes history edit revision) (found : undoBase edit.event = some base)
    (other : Revision) :
    other ∈ history.between edit.event.title base edit.event.revId ↔ other = revision := by
  unfold undoBase at found
  cases old : edit.event.oldRevId with
  | some known =>
      rw [old, Option.some_or] at found
      cases found
      have whole := between_of_takes takes other
      rw [old] at whole
      exact whole
  | none =>
      rw [old, Option.none_or] at found
      split at found
      · cases found
      · cases found
        rw [takes.title, takes.rev, History.mem_between]
        constructor
        · rintro ⟨member, above, low⟩
          exact History.unique (History.mem_page.mp member).1 takes.listed (by omega)
        · rintro rfl
          have positive := history.numbered other takes.listed
          exact ⟨History.mem_page.mpr ⟨takes.listed, rfl⟩, by omega, le_refl _⟩

theorem requests_stand {edit : QueuedEdit} {revision : Revision}
    (takes : Takes history edit revision) : RequestsStand history edit := by
  intro note requests built request member
  unfold buildSessionActionExecutionRequests at built
  cases found : undoBase edit.event with
  | none =>
      rw [found] at built
      cases built
  | some base =>
      rw [found] at built
      cases built
      simp only [List.mem_cons, List.not_mem_nil, or_false] at member
      rcases member with rfl | rfl | rfl
      · exact ⟨rfl, nofun⟩
      · exact ⟨rfl, nofun⟩
      · refine ⟨rfl, fun _ rev => ?_⟩
        simp only [undone, sessionRequest, Option.getD_some, List.mem_map,
          between_undoBase takes found, exists_eq_left]
        rw [takes.rev]
        exact eq_comm

end Single

section Runs

variable {history : History}

/-- The members of a group are a run of one page. -/
def Run (history : History) (group : List QueuedEdit) : Prop :=
  ∀ a ∈ group, ∀ b ∈ group, a.event.title = b.event.title ∧
    ∀ revision ∈ history.page a.event.title,
      a.event.revId < revision.revId → revision.revId < b.event.revId →
        ∃ edit ∈ group, edit.event.revId = revision.revId

/-- Within a run the parent of a member is the member before. -/
theorem parent_of_adjacent {title : Text} {first second : Revision}
    (before : first ∈ history.page title) (after : second ∈ history.page title)
    (below : first.revId < second.revId)
    (nothing : ∀ revision ∈ history.page title, first.revId < revision.revId →
      ¬ revision.revId < second.revId) : history.parentId second = first.revId := by
  have same := (History.mem_page.mp after).2
  have low := History.le_parentId (same ▸ before) below
  have high := History.parentId_lt (History.mem_page.mp after).1
  have positive := history.numbered first (History.mem_page.mp before).1
  obtain ⟨parent, member, known⟩ := History.parent_mem (show 0 < history.parentId second by omega)
  have free := nothing parent (same ▸ member)
  omega

/-- Along a run the sizes add up to the change of the page. -/
theorem sum_of_run {title : Text} {sorted : List QueuedEdit}
    (ascending : sorted.Pairwise fun a b => a.event.revId < b.event.revId)
    (taken : ∀ edit ∈ sorted, ∃ revision, Takes history edit revision ∧ revision.title = title)
    (closed : ∀ a ∈ sorted, ∀ b ∈ sorted, ∀ revision ∈ history.page title,
      a.event.revId < revision.revId → revision.revId < b.event.revId →
        ∃ edit ∈ sorted, edit.event.revId = revision.revId)
    {oldest newest : QueuedEdit} (first : sorted.head? = some oldest)
    (last : sorted.getLast? = some newest) :
    (sorted.map fun edit => edit.event.byteDelta.val).sum =
      history.sizeAt title newest.event.revId -
        history.sizeAt title (oldest.event.oldRevId.getD 0) := by
  induction sorted generalizing oldest with
  | nil => cases first
  | cons edit rest ih =>
      cases first
      obtain ⟨revision, takes, rfl⟩ := taken edit List.mem_cons_self
      have size := History.sizeAt_self takes.listed
      cases rest with
      | nil =>
          cases last
          simp [takes.delta, takes.base, takes.rev, size]
      | cons next others =>
          obtain ⟨above, ascends⟩ := List.pairwise_cons.mp ascending
          obtain ⟨following, follows, same⟩ :=
            taken next (List.mem_cons_of_mem _ List.mem_cons_self)
          have adjacent : history.parentId following = revision.revId := by
            refine parent_of_adjacent (History.mem_page.mpr ⟨takes.listed, rfl⟩)
              (History.mem_page.mpr ⟨follows.listed, same⟩) ?_ ?_
            · rw [← takes.rev, ← follows.rev]
              exact above next List.mem_cons_self
            · intro other member after before
              rw [← takes.rev] at after
              rw [← follows.rev] at before
              obtain ⟨found, inside, known⟩ := closed edit List.mem_cons_self next
                (List.mem_cons_of_mem _ List.mem_cons_self) other member after before
              rcases List.mem_cons.mp inside with rfl | inside
              · omega
              · rcases List.mem_cons.mp inside with rfl | inside
                · omega
                · have later := (List.pairwise_cons.mp ascends).1 found inside
                  omega
          have tail := ih ascends
            (fun other member => taken other (List.mem_cons_of_mem _ member))
            (by
              intro a inA b inB other member after before
              obtain ⟨found, inside, known⟩ := closed a (List.mem_cons_of_mem _ inA) b
                (List.mem_cons_of_mem _ inB) other member after before
              rcases List.mem_cons.mp inside with rfl | inside
              · have earlier := above a inA
                omega
              · exact ⟨found, inside, known⟩)
            rfl (by rwa [List.getLast?_cons_cons] at last)
          rw [List.map_cons, List.sum_cons, tail, follows.base, adjacent, size, takes.delta,
            takes.base]
          omega

end Runs

section Rows

variable {history : History} {group sorted : List QueuedEdit} {oldest newest row : QueuedEdit}
  {entry : Option (Nat × List Nat)}

/-- The revision of a member, on the page of the row. -/
theorem taken_in_run (merges : Merges group sorted oldest newest row entry)
    (each : ∀ edit ∈ group, ∃ revision, Takes history edit revision) (run : Run history group)
    {edit : QueuedEdit} (inside : edit ∈ group) :
    ∃ revision, Takes history edit revision ∧ revision.title = row.event.title := by
  obtain ⟨revision, takes⟩ := each edit inside
  refine ⟨revision, takes, ?_⟩
  rw [merges.title, ← (run edit inside newest merges.newest_mem).1]
  exact takes.title.symm

/-- What lies behind the base of the row and up to its revision is what the members stand for. -/
theorem span_of_run (merges : Merges group sorted oldest newest row entry)
    (each : ∀ edit ∈ group, ∃ revision, Takes history edit revision) (run : Run history group)
    (revision : Revision) :
    revision ∈ history.between row.event.title (row.event.oldRevId.getD 0) row.event.revId ↔
      ∃ edit ∈ group, Takes history edit revision := by
  obtain ⟨first, takesFirst, titled⟩ := taken_in_run merges each run merges.oldest_mem
  rw [History.mem_between, merges.base, takesFirst.base, merges.rev]
  constructor
  · rintro ⟨inPage, above, low⟩
    have high : oldest.event.revId ≤ revision.revId := by
      rw [takesFirst.rev]
      by_contra below
      have bounded := History.le_parentId (titled.symm ▸ inPage) (Nat.lt_of_not_le below)
      omega
    have inRun : ∃ edit ∈ group, edit.event.revId = revision.revId := by
      rcases high.eq_or_lt with same | after
      · exact ⟨oldest, merges.oldest_mem, same⟩
      · rcases low.eq_or_lt with same | before
        · exact ⟨newest, merges.newest_mem, same.symm⟩
        · have between := (run oldest merges.oldest_mem newest merges.newest_mem).2
          refine between revision ?_ after before
          rw [takesFirst.title, titled]
          exact inPage
    obtain ⟨edit, inside, same⟩ := inRun
    obtain ⟨other, takes⟩ := each edit inside
    have equal := History.unique takes.listed (History.mem_page.mp inPage).1
      (takes.rev.symm.trans same)
    exact ⟨edit, inside, equal ▸ takes⟩
  · rintro ⟨edit, inside, takes⟩
    obtain ⟨other, takesOther, same⟩ := taken_in_run merges each run inside
    have equal := History.unique takes.listed takesOther.listed
      (takes.rev.symm.trans takesOther.rev)
    refine ⟨History.mem_page.mpr ⟨takes.listed, equal ▸ same⟩, ?_, ?_⟩
    · have low := merges.oldest_le inside
      rw [takesFirst.rev, takes.rev] at low
      exact lt_of_lt_of_le (History.parentId_lt takesFirst.listed) low
    · rw [← takes.rev]
      exact merges.le_newest inside

theorem delta_of_run (merges : Merges group sorted oldest newest row entry)
    (each : ∀ edit ∈ group, ∃ revision, Takes history edit revision) (run : Run history group) :
    row.event.byteDelta.val =
      history.sizeAt row.event.title row.event.revId -
        history.sizeAt row.event.title (row.event.oldRevId.getD 0) := by
  have total := @sum_of_run history row.event.title sorted merges.ascending
    (fun edit inside => taken_in_run merges each run (merges.perm.subset inside))
    (by
      intro a first b second revision inPage after before
      obtain ⟨known, takes, titled⟩ := taken_in_run merges each run (merges.perm.subset first)
      have between := (run a (merges.perm.subset first) b (merges.perm.subset second)).2
      obtain ⟨edit, inside, same⟩ := between revision
        (by
          rw [takes.title, titled]
          exact inPage) after before
      exact ⟨edit, merges.perm.symm.subset inside, same⟩)
    oldest newest merges.first merges.last
  have high := history.sizeAt_range row.event.title newest.event.revId
  have low := history.sizeAt_range row.event.title (oldest.event.oldRevId.getD 0)
  rw [merges.delta, totalDelta_eq, total, merges.rev, merges.base]
  refine wrap_of_range ?_
  unfold i32Max at high low
  unfold i32Min i32Max
  omega

variable {filtered : List QueuedEdit} {groups : List (List QueuedEdit)}

theorem Groups.patrolRevIds_eq (parts : Groups filtered groups)
    (once : (filtered.map fun edit => edit.event.revId).Nodup) {pair : Pair}
    (listed : pair ∈ groups.filterMap groupRow) (wikiId reviewNote : Text)
    (kind : Actions.SessionActionKind) :
    patrolRevIds (buildActionRequest wikiId pair.1 kind reviewNote
      (mapOf (groups.filterMap groupRow))) = stand pair := by
  obtain ⟨group, member, made⟩ := List.mem_filterMap.mp listed
  have inside := parts.rev_mem_stand listed
  unfold patrolRevIds buildActionRequest
  dsimp only
  rw [parts.lookup once listed]
  unfold stand at inside ⊢
  cases entry : pair.2 with
  | none => rfl
  | some known =>
      rw [entry] at inside
      dsimp only [Option.map_some, Option.getD_some] at inside ⊢
      cases revs : known.2 with
      | nil =>
          rw [revs] at inside
          cases inside
      | cons first rest => rfl

/-- A row of a run stands for its edits. -/
theorem stands_of_run (parts : Groups filtered groups) (taken : Taken history filtered)
    {group : List QueuedEdit} (member : group ∈ groups) {pair : Pair}
    (made : groupRow group = some pair) (run : Run history group) :
    Stands history (mapOf (groups.filterMap groupRow)) pair.1 := by
  obtain ⟨sorted, oldest, newest, merges⟩ := parts.merges member made
  have listed : pair ∈ groups.filterMap groupRow := List.mem_filterMap.mpr ⟨group, member, made⟩
  have each : ∀ edit ∈ group, ∃ revision, Takes history edit revision := fun edit inside =>
    taken.each edit (parts.within group member edit inside)
  have span := span_of_run merges each run
  have revs := parts.rowRevs_eq taken.once listed
  have shows (rev : Nat) : rev ∈ shown history pair.1 ↔
      rev ∈ rowRevs (mapOf (groups.filterMap groupRow)) pair.1 := by
    rw [revs, parts.mem_stand member made, shown, List.mem_map]
    constructor
    · rintro ⟨revision, inside, same⟩
      obtain ⟨edit, held, takes⟩ := (span revision).mp inside
      exact ⟨edit, held, takes.rev.trans same⟩
    · rintro ⟨edit, held, same⟩
      obtain ⟨revision, takes⟩ := each edit held
      exact ⟨revision, (span revision).mpr ⟨edit, held, takes⟩, takes.rev.symm.trans same⟩
  refine
    { undoes := fun wikiId reviewNote rev => shows rev
      marks := fun wikiId reviewNote rev => ?_
      shows := shows
      delta := delta_of_run merges each run
      own := fun revision inside => ?_ }
  · rw [parts.patrolRevIds_eq taken.once listed, revs]
  · obtain ⟨edit, held, takes⟩ := (span revision).mp inside
    have alike := parts.alike group member edit held newest merges.newest_mem
    have same := (run edit held newest merges.newest_mem).1
    unfold groupKey at alike
    rw [same] at alike
    rw [← takes.user, merges.performer]
    exact (List.cons.inj (List.append_cancel_left alike)).2

/-- A row whose diff shows just its edits is made from a run. -/
theorem run_of_shows (parts : Groups filtered groups) (taken : Taken history filtered)
    {group : List QueuedEdit} (member : group ∈ groups) {pair : Pair}
    (made : groupRow group = some pair)
    (shows : ∀ rev, rev ∈ shown history pair.1 ↔
      rev ∈ rowRevs (mapOf (groups.filterMap groupRow)) pair.1) : Run history group := by
  obtain ⟨sorted, oldest, newest, merges⟩ := parts.merges member made
  have listed : pair ∈ groups.filterMap groupRow := List.mem_filterMap.mpr ⟨group, member, made⟩
  have each : ∀ edit ∈ group, ∃ revision, Takes history edit revision := fun edit inside =>
    taken.each edit (parts.within group member edit inside)
  have stood (rev : Nat) : rev ∈ shown history pair.1 ↔ ∃ edit ∈ group, edit.event.revId = rev := by
    rw [shows, parts.rowRevs_eq taken.once listed, parts.mem_stand member made]
  have titled {edit : QueuedEdit} (inside : edit ∈ group) :
      edit.event.title = pair.1.event.title := by
    obtain ⟨revision, takes⟩ := each edit inside
    obtain ⟨other, held, same⟩ := List.mem_map.mp ((stood _).mpr ⟨edit, inside, rfl⟩)
    obtain ⟨inPage, -⟩ := History.mem_between.mp held
    have equal := History.unique (History.mem_page.mp inPage).1 takes.listed
      (same.trans takes.rev)
    rw [takes.title, ← equal]
    exact (History.mem_page.mp inPage).2
  intro a first b second
  refine ⟨(titled first).trans (titled second).symm, fun revision inPage after before => ?_⟩
  refine (stood revision.revId).mp (List.mem_map.mpr ⟨revision, ?_, rfl⟩)
  obtain ⟨oldestRevision, takes⟩ := each oldest merges.oldest_mem
  rw [History.mem_between, ← titled first, merges.base, takes.base, merges.rev]
  have low := merges.oldest_le first
  have high := merges.le_newest second
  have base := History.parentId_lt takes.listed
  rw [← takes.rev] at base
  exact ⟨inPage, by omega, by omega⟩

end Rows

section Whole

variable {history : History} {filtered : List QueuedEdit}

theorem groupsOf_length (filtered : List QueuedEdit) (grouping : Bool) :
    (groupsOf filtered grouping).length = rowCount filtered grouping := by
  cases grouping with
  | true => exact (List.length_map _).trans (Grouping.length_gather groupKey filtered)
  | false => exact List.length_map _

/-- Every group is a run just where grouped edits are consecutive. -/
theorem runs_iff (taken : Taken history filtered) (grouping : Bool) :
    (∀ group ∈ groupsOf filtered grouping, Run history group) ↔
      (grouping = true → Consecutive history filtered) := by
  have parts := groups_groupsOf taken.once grouping
  cases grouping with
  | false =>
      refine ⟨fun _ => nofun, fun _ group member => ?_⟩
      obtain ⟨edit, -, rfl⟩ := List.mem_map.mp member
      intro a first b second
      rw [List.mem_singleton.mp first, List.mem_singleton.mp second]
      exact ⟨rfl, fun revision _ after before => absurd after before.not_gt⟩
  | true =>
      have spec := Grouping.gathered_gather groupKey filtered
      have same_group {group : List QueuedEdit} (member : group ∈ groupsOf filtered true)
          {a edit : QueuedEdit} (inside : a ∈ group) :
          edit ∈ group ↔ edit ∈ filtered ∧ groupKey edit = groupKey a := by
        obtain ⟨pair, known, rfl⟩ := List.mem_map.mp member
        rw [spec.members pair known] at inside ⊢
        have key := of_decide_eq_true (List.mem_filter.mp inside).2
        simp [key]
      constructor
      · intro runs _ a first b second same
        obtain ⟨group, member, held⟩ := parts.covering.covers a first
        have joined := (same_group member held).mpr ⟨second, same.symm⟩
        obtain ⟨titled, between⟩ := runs group member a held b joined
        refine ⟨titled, fun revision inPage after before => ?_⟩
        obtain ⟨edit, inside, known⟩ := between revision inPage after before
        obtain ⟨listed, key⟩ := (same_group member held).mp inside
        exact ⟨edit, listed, known, key⟩
      · intro consecutive group member a first b second
        have alike := parts.alike group member a first b second
        obtain ⟨titled, between⟩ := consecutive rfl a (parts.within group member a first) b
          (parts.within group member b second) alike
        refine ⟨titled, fun revision inPage after before => ?_⟩
        obtain ⟨edit, listed, known, key⟩ := between revision inPage after before
        exact ⟨edit, (same_group member first).mpr ⟨listed, key⟩, known⟩

theorem Taken.filter {edits : List QueuedEdit} (taken : Taken history edits)
    (filters : PatrolFilterParams) : Taken history (filterEdits edits filters) where
  once := taken.once.sublist (List.filter_sublist.map _)
  each edit member := taken.each edit (List.mem_of_mem_filter member)

theorem queue_eq (edits : List QueuedEdit) (filters : PatrolFilterParams) :
    queue edits filters =
      (((groupsOf (filterEdits edits filters) filters.groupEdits).filterMap groupRow).map
        Prod.fst).take filters.query.limit.val := by
  rw [queue, rowsOf_eq]

theorem groupRevIds_eq (edits : List QueuedEdit) (filters : PatrolFilterParams) :
    groupRevIds edits filters =
      mapOf ((groupsOf (filterEdits edits filters) filters.groupEdits).filterMap groupRow) := by
  rw [groupRevIds, rowsOf_eq]
  rfl

/-- The rows of the queue stand for just the edits they act on if and only if the rows fit
the limit and, where edits are grouped, those of one title and performer are consecutive. -/
theorem rows_stand_iff (history : History) (filters : PatrolFilterParams)
    (edits : List QueuedEdit) (taken : Taken history edits) :
    RowsStand history filters edits ↔
      rowCount (filterEdits edits filters) filters.groupEdits ≤ filters.query.limit.val ∧
        (filters.groupEdits = true → Consecutive history (filterEdits edits filters)) := by
  have kept := taken.filter filters
  have parts := groups_groupsOf kept.once filters.groupEdits
  have covering := parts.rows_cover kept.once
  have length := parts.length_rows
  rw [groupsOf_length] at length
  have fits := covering.once_in_take_iff filters.query.limit.val
  rw [length] at fits
  rw [← fits, ← runs_iff kept filters.groupEdits]
  constructor
  · intro stand
    have once := stand.once
    rw [queue_eq, groupRevIds_eq] at once
    refine ⟨once, fun group member => ?_⟩
    obtain ⟨edit, -, held⟩ := parts.covering.inhabited group member
    obtain ⟨row, entry, made, -⟩ :=
      groupRow_merges (List.ne_nil_of_mem held) (parts.once group member)
    have listed := List.mem_map_of_mem (f := Prod.fst) (List.mem_filterMap.mpr ⟨group, member, made⟩)
    have stands := stand.stands row
    rw [queue_eq, groupRevIds_eq, List.take_of_length_le (length.trans_le (fits.mp once))] at stands
    exact run_of_shows parts kept member made (stands listed).shows
  · rintro ⟨once, runs⟩
    refine
      { once := by
          rw [queue_eq, groupRevIds_eq]
          exact once
        within := fun row member => ?_
        stands := fun row member => ?_
        requests := fun edit member =>
          (taken.each edit member).elim fun _ takes => requests_stand takes }
    all_goals
      rw [queue_eq] at member
      obtain ⟨pair, listed, rfl⟩ := List.mem_map.mp (List.mem_of_mem_take member)
      obtain ⟨group, inside, made⟩ := List.mem_filterMap.mp listed
      rw [groupRevIds_eq]
    · intro rev named
      rw [parts.rowRevs_eq kept.once listed, parts.mem_stand inside made] at named
      obtain ⟨edit, held, same⟩ := named
      exact ⟨edit, parts.within group inside edit held, same⟩
    · exact stands_of_run parts kept inside made (runs group inside)

end Whole

section Examples

def grouping : PatrolFilterParams where
  query := Live.LiveOperatorQuery.default
  selectedIndex := none
  groupEdits := true

/-- An edit of an unregistered user on the page `P`. -/
def pageEdit (revId oldRevId : Nat) (user : Char) (byteDelta : I32) : QueuedEdit where
  event :=
    { contentModel := none
      wikiId := "frwiki".toList
      title := ['P']
      namespaceId := I32.zero
      revId := revId
      oldRevId := some oldRevId
      performer := .anonymous [user]
      isBot := .disabled
      isMinor := .disabled
      isNewPage := .disabled
      tags := []
      byteDelta := byteDelta
      isPatrolled := .disabled }
  scoreTotal := I32.zero

def pageRevision (revId : Nat) (user : Char) (size : Nat) : Revision where
  revId := revId
  title := ['P']
  user := [user]
  size := size

/-- A page with two edits of `A` behind its creation. -/
def pairHistory : History where
  revisions := [pageRevision 1 'X' 10, pageRevision 2 'A' 15, pageRevision 3 'A' 12]
  ascending := by decide
  numbered := by decide
  sized := by decide

def pairEdits : List QueuedEdit :=
  [pageEdit 3 2 'A' ⟨-3, by decide⟩, pageEdit 2 1 'A' ⟨5, by decide⟩]

theorem pair_taken : Taken pairHistory pairEdits where
  once := by decide
  each := by
    intro edit member
    simp only [pairEdits, List.mem_cons, List.not_mem_nil, or_false] at member
    rcases member with rfl | rfl
    · exact ⟨pageRevision 3 'A' 12, by decide, rfl, rfl, rfl, by decide, by decide⟩
    · exact ⟨pageRevision 2 'A' 15, by decide, rfl, rfl, rfl, by decide, by decide⟩

theorem pair_stands : RowsStand pairHistory grouping pairEdits := by
  refine (rows_stand_iff pairHistory grouping pairEdits pair_taken).mpr ⟨by decide, fun _ => ?_⟩
  unfold Consecutive
  decide

/-- The same with an edit of `B` between those of `A`. -/
def mixedHistory : History where
  revisions :=
    [pageRevision 1 'X' 10, pageRevision 2 'A' 15, pageRevision 3 'B' 20, pageRevision 4 'A' 12]
  ascending := by decide
  numbered := by decide
  sized := by decide

def mixedEdits : List QueuedEdit :=
  [pageEdit 4 3 'A' ⟨-8, by decide⟩, pageEdit 3 2 'B' ⟨5, by decide⟩,
    pageEdit 2 1 'A' ⟨5, by decide⟩]

theorem mixed_taken : Taken mixedHistory mixedEdits where
  once := by decide
  each := by
    intro edit member
    simp only [mixedEdits, List.mem_cons, List.not_mem_nil, or_false] at member
    rcases member with rfl | rfl | rfl
    · exact ⟨pageRevision 4 'A' 12, by decide, rfl, rfl, rfl, by decide, by decide⟩
    · exact ⟨pageRevision 3 'B' 20, by decide, rfl, rfl, rfl, by decide, by decide⟩
    · exact ⟨pageRevision 2 'A' 15, by decide, rfl, rfl, rfl, by decide, by decide⟩

/-- An undo of the row of `A` takes the edit of `B` with it. -/
theorem undo_takes_another :
    Taken mixedHistory mixedEdits ∧
      (∃ row ∈ queue mixedEdits grouping, row.event.performer = .anonymous ['A'] ∧
        3 ∈ undone mixedHistory (buildActionRequest "frwiki".toList row .undo []
          (groupRevIds mixedEdits grouping))) ∧
      ¬ RowsStand mixedHistory grouping mixedEdits := by
  refine ⟨mixed_taken, by decide, fun stand => ?_⟩
  have row : ∃ row ∈ queue mixedEdits grouping, row.event.performer = .anonymous ['A'] ∧
      pageRevision 3 'B' 20 ∈ mixedHistory.between row.event.title
        (row.event.oldRevId.getD 0) row.event.revId := by decide
  obtain ⟨row, shown, performer, inside⟩ := row
  have own := (stand.stands row shown).own _ inside
  rw [performer] at own
  revert own
  decide

end Examples

end SP42.Patrol

import SP42.Patrol.Queue

/-!
The revisions of a wiki, and what an edit of the queue takes from them.
-/
namespace SP42.Patrol

structure Revision where
  revId : Nat
  title : Text
  user : Text
  size : Nat
  deriving DecidableEq

/-- The revisions of a wiki by their numbers. Those of one title are the chain of a page. -/
structure History where
  revisions : List Revision
  ascending : revisions.Pairwise fun a b => a.revId < b.revId
  numbered : ∀ revision ∈ revisions, 0 < revision.revId
  sized : ∀ revision ∈ revisions, (revision.size : Int) ≤ i32Max

namespace History

variable (history : History)

def page (title : Text) : List Revision :=
  history.revisions.filter fun revision => revision.title = title

/-- The revisions of a page after `base`, up to `rev`. -/
def between (title : Text) (base rev : Nat) : List Revision :=
  (history.page title).filter fun revision => base < revision.revId ∧ revision.revId ≤ rev

/-- The page as it stands after the number `rev`. -/
def standing (title : Text) (rev : Nat) : Option Revision :=
  ((history.page title).filter fun revision => revision.revId ≤ rev).getLast?

def sizeAt (title : Text) (rev : Nat) : Int :=
  ((history.standing title rev).map Revision.size).getD 0

/-- The number of the revision before, or zero for the first of its page. -/
def parentId (revision : Revision) : Nat :=
  ((history.standing revision.title (revision.revId - 1)).map Revision.revId).getD 0

variable {history}

theorem mem_page {title : Text} {revision : Revision} :
    revision ∈ history.page title ↔ revision ∈ history.revisions ∧ revision.title = title := by
  simp [page]

theorem mem_between {title : Text} {base rev : Nat} {revision : Revision} :
    revision ∈ history.between title base rev ↔
      revision ∈ history.page title ∧ base < revision.revId ∧ revision.revId ≤ rev := by
  simp [between]

theorem page_ascending (title : Text) :
    (history.page title).Pairwise fun a b => a.revId < b.revId :=
  history.ascending.filter _

/-- A number belongs to one revision. -/
theorem unique {a b : Revision} (first : a ∈ history.revisions) (second : b ∈ history.revisions)
    (same : a.revId = b.revId) : a = b := by
  have nodup : (history.revisions.map Revision.revId).Nodup :=
    List.pairwise_map.mpr (history.ascending.imp fun below => below.ne)
  exact List.inj_on_of_nodup_map nodup first second same

theorem last_of_ascending {revisions : List Revision}
    (ascending : revisions.Pairwise fun a b => a.revId < b.revId) {last : Revision}
    (ends : revisions.getLast? = some last) :
    ∀ revision ∈ revisions, revision.revId ≤ last.revId := by
  obtain ⟨front, rfl⟩ := List.getLast?_eq_some_iff.mp ends
  intro revision member
  rcases List.mem_append.mp member with before | here
  · exact ((List.pairwise_append.mp ascending).2.2 revision before last (List.mem_singleton_self _)).le
  · rw [List.mem_singleton.mp here]

theorem standing_eq_some {title : Text} {rev : Nat} {last : Revision}
    (stands : history.standing title rev = some last) :
    last ∈ history.page title ∧ last.revId ≤ rev ∧
      ∀ revision ∈ history.page title, revision.revId ≤ rev → revision.revId ≤ last.revId := by
  have member := List.mem_of_getLast? stands
  obtain ⟨known, low⟩ := List.mem_filter.mp member
  refine ⟨known, of_decide_eq_true low, fun revision inside below => ?_⟩
  refine last_of_ascending ((page_ascending title).filter _) stands revision ?_
  exact List.mem_filter.mpr ⟨inside, decide_eq_true below⟩

theorem exists_standing {title : Text} {rev : Nat} {revision : Revision}
    (member : revision ∈ history.page title) (below : revision.revId ≤ rev) :
    ∃ last, history.standing title rev = some last := by
  unfold standing
  refine Option.ne_none_iff_exists'.mp fun none => ?_
  have empty := List.getLast?_eq_none_iff.mp none
  have outside := List.filter_eq_nil_iff.mp empty revision member
  exact outside (decide_eq_true below)

theorem standing_of_mem {title : Text} {revision : Revision}
    (member : revision ∈ history.page title) :
    history.standing title revision.revId = some revision := by
  obtain ⟨last, stands⟩ := exists_standing member (le_refl revision.revId)
  obtain ⟨known, low, top⟩ := standing_eq_some stands
  have same := le_antisymm low (top revision member (le_refl _))
  rw [stands, unique (mem_page.mp known).1 (mem_page.mp member).1 same]

theorem sizeAt_self {revision : Revision} (listed : revision ∈ history.revisions) :
    history.sizeAt revision.title revision.revId = revision.size := by
  have member := mem_page.mpr ⟨listed, rfl⟩
  rw [sizeAt, standing_of_mem member]
  rfl

theorem parentId_lt {revision : Revision} (listed : revision ∈ history.revisions) :
    history.parentId revision < revision.revId := by
  have positive := history.numbered revision listed
  unfold parentId
  cases stands : history.standing revision.title (revision.revId - 1) with
  | none => exact positive
  | some last =>
      obtain ⟨-, low, -⟩ := standing_eq_some stands
      simp only [Option.map_some, Option.getD_some]
      omega

/-- No revision of the page lies between a revision and its parent. -/
theorem le_parentId {revision earlier : Revision} (member : earlier ∈ history.page revision.title)
    (below : earlier.revId < revision.revId) : earlier.revId ≤ history.parentId revision := by
  have low : earlier.revId ≤ revision.revId - 1 := by omega
  obtain ⟨last, stands⟩ := exists_standing member low
  rw [parentId, stands]
  exact (standing_eq_some stands).2.2 earlier member low

/-- The parent is a revision of the page, where there is one. -/
theorem parent_mem {revision : Revision} (some : 0 < history.parentId revision) :
    ∃ parent ∈ history.page revision.title, parent.revId = history.parentId revision := by
  unfold parentId at some ⊢
  cases stands : history.standing revision.title (revision.revId - 1) with
  | none =>
      rw [stands] at some
      cases some
  | some last => exact ⟨last, (standing_eq_some stands).1, rfl⟩

theorem mem_between_parent {revision : Revision} (listed : revision ∈ history.revisions)
    (other : Revision) :
    other ∈ history.between revision.title (history.parentId revision) revision.revId ↔
      other = revision := by
  rw [mem_between]
  constructor
  · rintro ⟨member, above, low⟩
    refine unique (mem_page.mp member).1 listed (le_antisymm low ?_)
    by_contra below
    have bounded := le_parentId member (Nat.lt_of_not_le below)
    omega
  · rintro rfl
    exact ⟨mem_page.mpr ⟨listed, rfl⟩, parentId_lt listed, le_refl _⟩

theorem sizeAt_range (history : History) (title : Text) (rev : Nat) :
    0 ≤ history.sizeAt title rev ∧ history.sizeAt title rev ≤ i32Max := by
  unfold sizeAt
  cases stands : history.standing title rev with
  | none => exact ⟨le_refl _, by decide⟩
  | some last =>
      have member := (mem_page.mp (standing_eq_some stands).1).1
      exact ⟨Int.natCast_nonneg _, history.sized last member⟩

end History

/-- An edit of the queue as it is read from one revision. -/
structure Takes (history : History) (edit : QueuedEdit) (revision : Revision) : Prop where
  listed : revision ∈ history.revisions
  rev : edit.event.revId = revision.revId
  title : edit.event.title = revision.title
  user : performerKey edit.event.performer = revision.user
  base : edit.event.oldRevId.getD 0 = history.parentId revision
  delta : edit.event.byteDelta.val =
    revision.size - history.sizeAt revision.title (history.parentId revision)

/-- Queued edits that are taken from a history, each once. -/
structure Taken (history : History) (edits : List QueuedEdit) : Prop where
  once : (edits.map fun edit => edit.event.revId).Nodup
  each : ∀ edit ∈ edits, ∃ revision, Takes history edit revision

end SP42.Patrol

/-!
What a row of the queue stands for, and when its requests act on just these edits.
-/
namespace SP42.Patrol

open Grouping (Covering)

section Deltas

theorem wrap_of_range {z : Int} (range : i32Min ≤ z ∧ z ≤ i32Max) : (wrap z).val = z := by
  unfold wrap
  unfold i32Min i32Max at *
  dsimp only
  omega

theorem wrap_wrap_add (a b : Int) : wrap ((wrap a).val + b) = wrap (a + b) := by
  apply Subtype.ext
  unfold wrap
  dsimp only
  unfold i32Min
  omega

theorem foldl_wrap (deltas : List I32) (start : Int) :
    deltas.foldl (fun sum delta => wrap (sum.val + delta.val)) (wrap start) =
      wrap (start + (deltas.map Subtype.val).sum) := by
  induction deltas generalizing start with
  | nil => simp
  | cons delta rest ih =>
      rw [List.foldl_cons, wrap_wrap_add, ih, List.map_cons, List.sum_cons, add_assoc]

theorem totalDelta_eq (members : List QueuedEdit) :
    totalDelta members = wrap ((members.map fun edit => edit.event.byteDelta.val).sum) := by
  have zero : I32.zero = wrap 0 := by decide
  rw [totalDelta, zero, foldl_wrap, zero_add, List.map_map]
  rfl

theorem totalDelta_singleton (edit : QueuedEdit) : totalDelta [edit] = edit.event.byteDelta := by
  apply Subtype.ext
  rw [totalDelta_eq]
  simpa using wrap_of_range edit.event.byteDelta.property

end Deltas

section Merging

/-- How a group becomes a row: its members by number, the newest from the base of the oldest. -/
structure Merges (members sorted : List QueuedEdit) (oldest newest row : QueuedEdit)
    (entry : Option (Nat × List Nat)) : Prop where
  perm : sorted.Perm members
  ascending : sorted.Pairwise fun a b => a.event.revId < b.event.revId
  first : sorted.head? = some oldest
  last : sorted.getLast? = some newest
  rev : row.event.revId = newest.event.revId
  title : row.event.title = newest.event.title
  performer : row.event.performer = newest.event.performer
  base : row.event.oldRevId = oldest.event.oldRevId
  delta : row.event.byteDelta = totalDelta sorted
  key : ∀ known ∈ entry, known.1 = row.event.revId
  revs : (entry.map Prod.snd).getD [row.event.revId] = sorted.map fun edit => edit.event.revId

theorem sortedByRev_perm (members : List QueuedEdit) : (sortedByRev members).Perm members :=
  List.perm_insertionSort _ members

theorem sortedByRev_ascending {members : List QueuedEdit}
    (once : (members.map fun edit => edit.event.revId).Nodup) :
    (sortedByRev members).Pairwise fun a b => a.event.revId < b.event.revId := by
  have total : IsTotal QueuedEdit fun a b => a.event.revId ≤ b.event.revId :=
    ⟨fun a b => Nat.le_total _ _⟩
  have order : IsTrans QueuedEdit fun a b => a.event.revId ≤ b.event.revId :=
    ⟨fun a b c => Nat.le_trans⟩
  have sorted : (sortedByRev members).Pairwise fun a b => a.event.revId ≤ b.event.revId :=
    List.pairwise_insertionSort _ members
  have apart : ((sortedByRev members).map fun edit => edit.event.revId).Nodup :=
    ((sortedByRev_perm members).map _).nodup_iff.mpr once
  exact (sorted.and (List.pairwise_map.mp apart)).imp fun both => lt_of_le_of_ne both.1 both.2

theorem merges_single (edit : QueuedEdit) : Merges [edit] [edit] edit edit edit none where
  perm := List.Perm.refl _
  ascending := List.pairwise_singleton _ _
  first := rfl
  last := rfl
  rev := rfl
  title := rfl
  performer := rfl
  base := rfl
  delta := (totalDelta_singleton edit).symm
  key := nofun
  revs := rfl

/-- Every group that is not empty becomes a row. -/
theorem groupRow_merges {members : List QueuedEdit} (inhabited : members ≠ [])
    (once : (members.map fun edit => edit.event.revId).Nodup) :
    ∃ row entry, groupRow members = some (row, entry) ∧
      ∃ sorted oldest newest, Merges members sorted oldest newest row entry := by
  by_cases single : members.length = 1
  · obtain ⟨edit, rfl⟩ := List.length_eq_one_iff.mp single
    exact ⟨edit, none, by simp [groupRow], [edit], edit, edit, merges_single edit⟩
  · have perm := sortedByRev_perm members
    have some : sortedByRev members ≠ [] := fun empty =>
      inhabited (List.nil_perm.mp (empty ▸ perm))
    obtain ⟨oldest, first⟩ := Option.ne_none_iff_exists'.mp (mt List.head?_eq_none_iff.mp some)
    obtain ⟨newest, last⟩ := Option.ne_none_iff_exists'.mp (mt List.getLast?_eq_none_iff.mp some)
    refine ⟨_, _, by simp only [groupRow, if_neg single, first, last]; rfl,
      sortedByRev members, oldest, newest, ?_⟩
    exact
      { perm := perm
        ascending := sortedByRev_ascending once
        first := first
        last := last
        rev := rfl
        title := rfl
        performer := rfl
        base := rfl
        delta := rfl
        key := by
          intro known same
          cases same
          rfl
        revs := rfl }

variable {members sorted : List QueuedEdit} {oldest newest row : QueuedEdit}
  {entry : Option (Nat × List Nat)}

namespace Merges

theorem oldest_mem (merges : Merges members sorted oldest newest row entry) : oldest ∈ members :=
  merges.perm.subset (List.mem_of_head? merges.first)

theorem newest_mem (merges : Merges members sorted oldest newest row entry) : newest ∈ members :=
  merges.perm.subset (List.mem_of_getLast? merges.last)

theorem le_newest (merges : Merges members sorted oldest newest row entry) {edit : QueuedEdit}
    (member : edit ∈ members) : edit.event.revId ≤ newest.event.revId := by
  obtain ⟨front, whole⟩ := List.getLast?_eq_some_iff.mp merges.last
  have inside := merges.perm.symm.subset member
  have ascending := merges.ascending
  rw [whole] at inside ascending
  rcases List.mem_append.mp inside with before | here
  · have below := (List.pairwise_append.mp ascending).2.2
    exact (below edit before newest (List.mem_singleton_self _)).le
  · rw [List.mem_singleton.mp here]

theorem oldest_le (merges : Merges members sorted oldest newest row entry) {edit : QueuedEdit}
    (member : edit ∈ members) : oldest.event.revId ≤ edit.event.revId := by
  obtain ⟨rest, whole⟩ := List.head?_eq_some_iff.mp merges.first
  have inside := merges.perm.symm.subset member
  have ascending := merges.ascending
  rw [whole] at inside ascending
  rcases List.mem_cons.mp inside with here | after
  · rw [here]
  · exact ((List.pairwise_cons.mp ascending).1 edit after).le

theorem mem_revs (merges : Merges members sorted oldest newest row entry) (rev : Nat) :
    rev ∈ (entry.map Prod.snd).getD [row.event.revId] ↔
      ∃ edit ∈ members, edit.event.revId = rev := by
  rw [merges.revs, List.mem_map]
  exact exists_congr fun edit => and_congr_left fun _ => merges.perm.mem_iff

end Merges

end Merging

section Groups

variable {filtered : List QueuedEdit} {groups : List (List QueuedEdit)}

/-- A partition of the filtered edits into groups of one key. -/
structure Groups (filtered : List QueuedEdit) (groups : List (List QueuedEdit)) : Prop where
  covering : Covering (fun group edit => edit ∈ group) filtered groups
  within : ∀ group ∈ groups, ∀ edit ∈ group, edit ∈ filtered
  once : ∀ group ∈ groups, (group.map fun edit => edit.event.revId).Nodup
  alike : ∀ group ∈ groups, ∀ a ∈ group, ∀ b ∈ group, groupKey a = groupKey b

/-- The groups behind the rows. -/
def groupsOf (filtered : List QueuedEdit) (grouping : Bool) : List (List QueuedEdit) :=
  if grouping then (Grouping.gather groupKey filtered).map Prod.snd
  else filtered.map fun edit => [edit]

theorem groups_gather (once : (filtered.map fun edit => edit.event.revId).Nodup) :
    Groups filtered ((Grouping.gather groupKey filtered).map Prod.snd) := by
  have spec := Grouping.gathered_gather groupKey filtered
  have known {group : Text × List QueuedEdit} (member : group ∈ Grouping.gather groupKey filtered)
      (edit : QueuedEdit) : edit ∈ group.2 ↔ edit ∈ filtered ∧ groupKey edit = group.1 := by
    rw [spec.members group member]
    simp
  refine ⟨⟨?_, fun edit member => ?_, fun group member => ?_⟩, fun group member edit inside => ?_,
    fun group member => ?_, fun group member a first b second => ?_⟩
  · rw [List.pairwise_map]
    have apart := List.pairwise_map.mp spec.nodup
    refine apart.imp_of_mem fun {first second} left right differ edit _ held other => differ ?_
    exact (((known left edit).mp held).2).symm.trans ((known right edit).mp other).2
  · obtain ⟨group, inside, same⟩ := List.mem_map.mp
      ((spec.keys (groupKey edit)).mpr (List.mem_map_of_mem member))
    exact ⟨group.2, List.mem_map_of_mem inside, (known inside edit).mpr ⟨member, same.symm⟩⟩
  · obtain ⟨pair, inside, rfl⟩ := List.mem_map.mp member
    obtain ⟨edit, listed, same⟩ := List.mem_map.mp
      ((spec.keys pair.1).mp (List.mem_map_of_mem inside))
    exact ⟨edit, listed, (known inside edit).mpr ⟨listed, same⟩⟩
  · obtain ⟨pair, known', rfl⟩ := List.mem_map.mp member
    exact ((known known' edit).mp inside).1
  · obtain ⟨pair, inside, rfl⟩ := List.mem_map.mp member
    rw [spec.members pair inside]
    exact once.sublist (List.filter_sublist.map _)
  · obtain ⟨pair, inside, rfl⟩ := List.mem_map.mp member
    exact ((known inside a).mp first).2.trans ((known inside b).mp second).2.symm

theorem groups_single (once : (filtered.map fun edit => edit.event.revId).Nodup) :
    Groups filtered (filtered.map fun edit => [edit]) := by
  refine ⟨⟨?_, fun edit member => ?_, fun group member => ?_⟩, fun group member edit inside => ?_,
    fun group member => ?_, fun group member a first b second => ?_⟩
  · rw [List.pairwise_map]
    refine (List.Nodup.of_map _ once).imp fun differ edit _ first second => differ ?_
    rw [← List.mem_singleton.mp first, List.mem_singleton.mp second]
  · exact ⟨[edit], List.mem_map_of_mem member, List.mem_singleton_self _⟩
  · obtain ⟨edit, inside, rfl⟩ := List.mem_map.mp member
    exact ⟨edit, inside, List.mem_singleton_self _⟩
  · obtain ⟨other, known, rfl⟩ := List.mem_map.mp member
    rw [List.mem_singleton.mp inside]
    exact known
  · obtain ⟨edit, inside, rfl⟩ := List.mem_map.mp member
    exact List.nodup_singleton _
  · obtain ⟨edit, inside, rfl⟩ := List.mem_map.mp member
    rw [List.mem_singleton.mp first, List.mem_singleton.mp second]

theorem groups_groupsOf (once : (filtered.map fun edit => edit.event.revId).Nodup)
    (grouping : Bool) : Groups filtered (groupsOf filtered grouping) := by
  cases grouping with
  | true => exact groups_gather once
  | false => exact groups_single once

/-- In both modes the rows are made from the groups. -/
theorem rowsOf_eq (edits : List QueuedEdit) (filters : PatrolFilterParams) :
    rowsOf edits filters =
      (((groupsOf (filterEdits edits filters) filters.groupEdits).filterMap groupRow).map Prod.fst,
        (((groupsOf (filterEdits edits filters) filters.groupEdits).filterMap groupRow).filterMap
          Prod.snd).reverse) := by
  unfold rowsOf groupsOf
  cases filters.groupEdits with
  | true =>
      simp only [if_true, groupEdits, List.filterMap_map]
      rfl
  | false =>
      have single : ((filterEdits edits filters).map fun edit => [edit]).filterMap groupRow =
          (filterEdits edits filters).map fun edit => (edit, none) := by
        rw [List.filterMap_map, ← List.filterMap_eq_map]
        rfl
      rw [if_neg Bool.false_ne_true, if_neg Bool.false_ne_true, single]
      simp [List.filterMap_map, Function.comp_def]

end Groups

section Pairs

abbrev Pair := QueuedEdit × Option (Nat × List Nat)

/-- The revisions of a row with its own entry. -/
def stand (pair : Pair) : List Nat := (pair.2.map Prod.snd).getD [pair.1.event.revId]

def mapOf (pairs : List Pair) : GroupRevIds := (pairs.filterMap Prod.snd).reverse

variable {filtered : List QueuedEdit} {groups : List (List QueuedEdit)}

theorem Groups.merges (parts : Groups filtered groups) {group : List QueuedEdit}
    (member : group ∈ groups) {pair : Pair} (made : groupRow group = some pair) :
    ∃ sorted oldest newest, Merges group sorted oldest newest pair.1 pair.2 := by
  obtain ⟨edit, -, inside⟩ := parts.covering.inhabited group member
  obtain ⟨row, entry, same, merges⟩ :=
    groupRow_merges (List.ne_nil_of_mem inside) (parts.once group member)
  cases made.symm.trans same
  exact merges

theorem Groups.mem_stand (parts : Groups filtered groups) {group : List QueuedEdit}
    (member : group ∈ groups) {pair : Pair} (made : groupRow group = some pair) (rev : Nat) :
    rev ∈ stand pair ↔ ∃ edit ∈ group, edit.event.revId = rev := by
  obtain ⟨sorted, oldest, newest, merges⟩ := parts.merges member made
  exact merges.mem_revs rev

/-- A number among the filtered edits belongs to one edit. -/
theorem edit_unique (once : (filtered.map fun edit => edit.event.revId).Nodup) {a b : QueuedEdit}
    (first : a ∈ filtered) (second : b ∈ filtered) (same : a.event.revId = b.event.revId) :
    a = b := List.inj_on_of_nodup_map once first second same

theorem Groups.stands_apart (parts : Groups filtered groups)
    (once : (filtered.map fun edit => edit.event.revId).Nodup) :
    (groups.filterMap groupRow).Pairwise fun a b => ∀ rev ∈ stand a, rev ∉ stand b := by
  rw [List.pairwise_filterMap]
  refine parts.covering.apart.imp_of_mem ?_
  intro first second left right apart a madeA b madeB rev inA inB
  obtain ⟨edit, held, here⟩ := (parts.mem_stand left madeA rev).mp inA
  obtain ⟨other, holds, there⟩ := (parts.mem_stand right madeB rev).mp inB
  have known := parts.within first left edit held
  have same := edit_unique once (parts.within second right other holds) known
    (there.trans here.symm)
  exact apart edit known held (same ▸ holds)

theorem Groups.rev_mem_stand (parts : Groups filtered groups) {pair : Pair}
    (member : pair ∈ groups.filterMap groupRow) : pair.1.event.revId ∈ stand pair := by
  obtain ⟨group, inside, made⟩ := List.mem_filterMap.mp member
  obtain ⟨sorted, oldest, newest, merges⟩ := parts.merges inside made
  exact (merges.mem_revs _).mpr ⟨newest, merges.newest_mem, merges.rev.symm⟩

theorem Groups.pair_unique (parts : Groups filtered groups)
    (once : (filtered.map fun edit => edit.event.revId).Nodup) {a b : Pair}
    (first : a ∈ groups.filterMap groupRow) (second : b ∈ groups.filterMap groupRow)
    (same : a.1.event.revId = b.1.event.revId) : a = b := by
  have nodup : ((groups.filterMap groupRow).map fun pair => pair.1.event.revId).Nodup := by
    refine List.pairwise_map.mpr ((parts.stands_apart once).imp_of_mem ?_)
    intro x y left right apart equal
    exact apart _ (parts.rev_mem_stand left) (equal ▸ parts.rev_mem_stand right)
  exact List.inj_on_of_nodup_map nodup first second same

theorem lookup_of_unique {entries : GroupRevIds} {key : Nat} {revs : List Nat}
    (member : (key, revs) ∈ entries) (only : ∀ entry ∈ entries, entry.1 = key → entry.2 = revs) :
    entries.lookup key = some revs := by
  cases found : entries.lookup key with
  | none =>
      have absent := List.lookup_eq_none_iff.mp found (key, revs) member
      simp at absent
  | some other =>
      obtain ⟨before, after, whole, -⟩ := List.lookup_eq_some_iff.mp found
      have inside : (key, other) ∈ entries := by
        rw [whole]
        exact List.mem_append_right _ List.mem_cons_self
      exact congrArg some (only _ inside rfl)

/-- The page looks up the entry a row was made with. -/
theorem Groups.lookup (parts : Groups filtered groups)
    (once : (filtered.map fun edit => edit.event.revId).Nodup) {pair : Pair}
    (member : pair ∈ groups.filterMap groupRow) :
    (mapOf (groups.filterMap groupRow)).lookup pair.1.event.revId = pair.2.map Prod.snd := by
  have own {known : Nat × List Nat} (inside : known ∈ mapOf (groups.filterMap groupRow))
      (same : known.1 = pair.1.event.revId) : pair.2 = some known := by
    obtain ⟨other, listed, entry⟩ := List.mem_filterMap.mp (List.mem_reverse.mp inside)
    obtain ⟨group, there, made⟩ := List.mem_filterMap.mp listed
    obtain ⟨sorted, oldest, newest, merges⟩ := parts.merges there made
    have equal := parts.pair_unique once listed member ((merges.key known entry).symm.trans same)
    exact equal ▸ entry
  cases entry : pair.2 with
  | none =>
      refine List.lookup_eq_none_iff.mpr fun known inside => bne_iff_ne.mpr fun same => ?_
      rw [own inside same.symm] at entry
      cases entry
  | some known =>
      have inside : known ∈ mapOf (groups.filterMap groupRow) :=
        List.mem_reverse.mpr (List.mem_filterMap.mpr ⟨pair, member, entry⟩)
      obtain ⟨group, there, made⟩ := List.mem_filterMap.mp member
      obtain ⟨sorted, oldest, newest, merges⟩ := parts.merges there made
      have key := merges.key known entry
      refine lookup_of_unique (key ▸ inside) fun other listed same => ?_
      have equal := own listed same
      rw [entry] at equal
      exact congrArg Prod.snd (Option.some.inj equal).symm

theorem Groups.rowRevs_eq (parts : Groups filtered groups)
    (once : (filtered.map fun edit => edit.event.revId).Nodup) {pair : Pair}
    (member : pair ∈ groups.filterMap groupRow) :
    rowRevs (mapOf (groups.filterMap groupRow)) pair.1 = stand pair := by
  rw [rowRevs, parts.lookup once member]
  rfl

/-- Each filtered edit is in a row, and rows share no edit. -/
theorem Groups.rows_cover (parts : Groups filtered groups)
    (once : (filtered.map fun edit => edit.event.revId).Nodup) :
    Covering
      (fun row edit => edit.event.revId ∈ rowRevs (mapOf (groups.filterMap groupRow)) row)
      filtered ((groups.filterMap groupRow).map Prod.fst) where
  apart := by
    rw [List.pairwise_map]
    refine (parts.stands_apart once).imp_of_mem fun {a b} left right apart edit _ held => ?_
    rw [parts.rowRevs_eq once left] at held
    rw [parts.rowRevs_eq once right]
    exact apart _ held
  covers := by
    intro edit member
    obtain ⟨group, inside, held⟩ := parts.covering.covers edit member
    obtain ⟨row, entry, made, -⟩ :=
      groupRow_merges (List.ne_nil_of_mem held) (parts.once group inside)
    have listed := List.mem_filterMap.mpr ⟨group, inside, made⟩
    refine ⟨row, List.mem_map.mpr ⟨(row, entry), listed, rfl⟩, ?_⟩
    rw [parts.rowRevs_eq once listed]
    exact (parts.mem_stand inside made _).mpr ⟨edit, held, rfl⟩
  inhabited := by
    intro row member
    obtain ⟨pair, listed, rfl⟩ := List.mem_map.mp member
    obtain ⟨group, inside, made⟩ := List.mem_filterMap.mp listed
    obtain ⟨edit, known, held⟩ := parts.covering.inhabited group inside
    refine ⟨edit, known, ?_⟩
    rw [parts.rowRevs_eq once listed]
    exact (parts.mem_stand inside made _).mpr ⟨edit, held, rfl⟩

theorem Groups.length_rows (parts : Groups filtered groups) :
    ((groups.filterMap groupRow).map Prod.fst).length = groups.length := by
  rw [List.length_map, List.filterMap_length_eq_length]
  intro group member
  obtain ⟨edit, -, held⟩ := parts.covering.inhabited group member
  obtain ⟨row, entry, made, -⟩ :=
    groupRow_merges (List.ne_nil_of_mem held) (parts.once group member)
  rw [made]
  rfl

end Pairs

end SP42.Patrol

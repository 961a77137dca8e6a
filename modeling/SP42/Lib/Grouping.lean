import Mathlib.Data.List.Dedup
import Mathlib.Data.List.Induction
import Mathlib.Data.List.Nodup
import Mathlib.Tactic.Common

/-!
Grouping the items of a list by a key. A group is opened by its first item and later items
with the same key are added behind it.
-/
namespace Grouping

variable {κ α : Type} [DecidableEq κ]

/-- Adds one item to the group of its key, or opens the group. -/
def place (key : κ) (item : α) : List (κ × List α) → List (κ × List α)
  | [] => [(key, [item])]
  | (known, members) :: rest =>
      if known = key then (known, members ++ [item]) :: rest
      else (known, members) :: place key item rest

def gather (key : α → κ) (items : List α) : List (κ × List α) :=
  items.foldl (fun groups item => place (key item) item groups) []

variable {key : α → κ}

theorem keys_place (k : κ) (item : α) (groups : List (κ × List α)) :
    (place k item groups).map Prod.fst =
      if k ∈ groups.map Prod.fst then groups.map Prod.fst else groups.map Prod.fst ++ [k] := by
  induction groups with
  | nil => simp [place]
  | cons group rest ih =>
      obtain ⟨known, members⟩ := group
      by_cases same : known = k
      · simp [place, same]
      · have other : k ≠ known := fun h => same h.symm
        simp only [place, if_neg same, List.map_cons, ih, List.mem_cons, other, false_or]
        split <;> rfl

/-- The groups of what came before stand for it: one group a key, with its items in order. -/
structure Gathered (key : α → κ) (items : List α) (groups : List (κ × List α)) : Prop where
  nodup : (groups.map Prod.fst).Nodup
  keys : ∀ k, k ∈ groups.map Prod.fst ↔ k ∈ items.map key
  members : ∀ group ∈ groups, group.2 = items.filter fun item => key item = group.1

theorem mem_place {k : κ} {item : α} {groups : List (κ × List α)}
    (nodup : (groups.map Prod.fst).Nodup) {group : κ × List α}
    (member : group ∈ place k item groups) :
    (group ∈ groups ∧ group.1 ≠ k) ∨
      (group.1 = k ∧ ((∃ members, (k, members) ∈ groups ∧ group.2 = members ++ [item]) ∨
        (k ∉ groups.map Prod.fst ∧ group.2 = [item]))) := by
  induction groups with
  | nil =>
      obtain rfl := List.mem_singleton.mp member
      exact .inr ⟨rfl, .inr ⟨List.not_mem_nil, rfl⟩⟩
  | cons first rest ih =>
      obtain ⟨known, members⟩ := first
      obtain ⟨fresh, others⟩ := List.nodup_cons.mp nodup
      unfold place at member
      split at member
      · next same =>
          subst same
          rcases List.mem_cons.mp member with here | there
          · subst here
            exact .inr ⟨rfl, .inl ⟨members, List.mem_cons_self, rfl⟩⟩
          · refine .inl ⟨List.mem_cons_of_mem _ there, fun same => fresh ?_⟩
            exact List.mem_map.mpr ⟨group, there, same⟩
      · next other =>
          rcases List.mem_cons.mp member with here | there
          · subst here
            exact .inl ⟨List.mem_cons_self, other⟩
          · rcases ih others there with ⟨old, differs⟩ | ⟨same, how⟩
            · exact .inl ⟨List.mem_cons_of_mem _ old, differs⟩
            · refine .inr ⟨same, ?_⟩
              rcases how with ⟨before, old, grown⟩ | ⟨absent, opened⟩
              · exact .inl ⟨before, List.mem_cons_of_mem _ old, grown⟩
              · refine .inr ⟨fun known => ?_, opened⟩
                rcases List.mem_cons.mp known with here | later
                · exact other here.symm
                · exact absent later

theorem Gathered.place {items : List α} {groups : List (κ × List α)}
    (before : Gathered key items groups) (item : α) :
    Gathered key (items ++ [item]) (place (key item) item groups) := by
  refine ⟨?_, fun k => ?_, fun group member => ?_⟩
  · rw [keys_place]
    split
    · exact before.nodup
    · next absent => exact List.nodup_append'.mpr ⟨before.nodup, List.nodup_singleton _, by simpa using absent⟩
  · rw [keys_place]
    have known := before.keys k
    have own := before.keys (key item)
    split
    · next present => grind
    · grind
  · rw [List.filter_append]
    rcases mem_place before.nodup member with ⟨old, differs⟩ | ⟨same, how⟩
    · have other : key item ≠ group.1 := fun h => differs h.symm
      rw [before.members group old]
      simp [other]
    · rcases how with ⟨members, old, grown⟩ | ⟨absent, opened⟩
      · have known : members = items.filter fun x => key x = key item := before.members _ old
        rw [grown, known, same]
        simp
      · have none : items.filter (fun x => key x = group.1) = [] := by
          rw [List.filter_eq_nil_iff]
          intro x inside
          have outside := mt (before.keys (key item)).mpr absent
          rw [same, decide_eq_true_eq]
          exact fun equal => outside (equal ▸ List.mem_map_of_mem inside)
        rw [none, opened, same]
        simp

theorem gathered_gather (key : α → κ) (items : List α) : Gathered key items (gather key items) := by
  induction items using List.reverseRecOn with
  | nil => exact ⟨List.nodup_nil, fun _ => Iff.rfl, fun _ member => nomatch member⟩
  | append_singleton items item ih =>
      have step : gather key (items ++ [item]) = place (key item) item (gather key items) := by
        simp [gather]
      rw [step]
      exact ih.place item

/-- There are as many groups as keys. -/
theorem length_gather (key : α → κ) (items : List α) :
    (gather key items).length = (items.map key).dedup.length := by
  have spec := gathered_gather key items
  have same : ((gather key items).map Prod.fst).Perm (items.map key).dedup := by
    rw [List.perm_ext_iff_of_nodup spec.nodup (List.nodup_dedup _)]
    intro k
    rw [spec.keys, List.mem_dedup]
  rw [← same.length_eq, List.length_map]

section Covering

variable {ρ : Type} {holds : ρ → α → Prop} {items : List α} {rows : List ρ}

/-- Rows that hold every item, none of them empty and no two with an item in common. -/
structure Covering (holds : ρ → α → Prop) (items : List α) (rows : List ρ) : Prop where
  apart : rows.Pairwise fun first second => ∀ item ∈ items, holds first item → ¬ holds second item
  covers : ∀ item ∈ items, ∃ row ∈ rows, holds row item
  inhabited : ∀ row ∈ rows, ∃ item ∈ items, holds row item

variable [∀ row item, Decidable (holds row item)]

theorem countP_le_one {item : α}
    (apart : rows.Pairwise fun first second => holds first item → ¬ holds second item) :
    rows.countP (fun row => holds row item) ≤ 1 := by
  induction rows with
  | nil => exact Nat.zero_le 1
  | cons row rest ih =>
      obtain ⟨first, others⟩ := List.pairwise_cons.mp apart
      by_cases here : holds row item
      · have none : rest.countP (fun row => holds row item) = 0 := by
          rw [List.countP_eq_zero]
          intro other member
          simpa using first other member here
        simp [here, none]
      · simpa [List.countP_cons, here] using ih others

/-- Each item is in exactly one of the first rows just where these are all of them. -/
theorem Covering.once_in_take_iff (covering : Covering holds items rows) (n : Nat) :
    (∀ item ∈ items, (rows.take n).countP (fun row => holds row item) = 1) ↔
      rows.length ≤ n := by
  constructor
  · intro once
    by_contra more
    have inside : n < rows.length := Nat.lt_of_not_le more
    obtain ⟨item, member, held⟩ := covering.inhabited rows[n] (List.getElem_mem inside)
    have positive : 0 < (rows.take n).countP (fun row => holds row item) := by
      rw [once item member]
      exact Nat.one_pos
    obtain ⟨early, shown, holdsEarly⟩ := List.countP_pos_iff.mp positive
    have split := covering.apart
    rw [← List.take_append_drop n rows, List.pairwise_append] at split
    have later : rows[n] ∈ rows.drop n := by
      rw [List.drop_eq_getElem_cons inside]
      exact List.mem_cons_self
    exact split.2.2 early shown _ later item member (of_decide_eq_true holdsEarly) held
  · intro fits item member
    rw [List.take_of_length_le fits]
    have most := countP_le_one (covering.apart.imp fun apart => apart item member)
    obtain ⟨row, known, held⟩ := covering.covers item member
    have some : 0 < rows.countP (fun row => holds row item) :=
      List.countP_pos_iff.mpr ⟨row, known, decide_eq_true held⟩
    omega

end Covering

end Grouping

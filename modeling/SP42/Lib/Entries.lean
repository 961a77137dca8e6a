import Mathlib.Data.List.Nodup

/-!
Maps held as the list of their entries, each key once, and the changes between two of them.
-/
namespace SP42.Entries

variable {κ α β γ : Type}

/-- Each key has one entry. -/
def Unique (entries : List (κ × α)) : Prop := (entries.map Prod.fst).Nodup

/-- The entries whose value can be read, under their keys. -/
def pick (read : κ → α → Option β) (entries : List (κ × α)) : List (κ × β) :=
  entries.filterMap fun entry => (read entry.1 entry.2).map fun value => (entry.1, value)

theorem keys_pick (read : κ → α → Option β) (entries : List (κ × α)) :
    ((pick read entries).map Prod.fst).Sublist (entries.map Prod.fst) := by
  induction entries with
  | nil => exact List.Sublist.slnil
  | cons entry rest ih =>
      unfold pick
      cases value : read entry.1 entry.2 with
      | none => simpa [pick, value] using ih.cons entry.1
      | some value => simpa [pick, value] using ih.cons_cons entry.1

theorem Unique.pick {entries : List (κ × α)} (unique : Unique entries)
    (read : κ → α → Option β) : Unique (pick read entries) :=
  unique.sublist (keys_pick read entries)

section Lookup

variable [BEq κ] [LawfulBEq κ]

theorem lookup_of_mem {entries : List (κ × α)} (unique : Unique entries) {key : κ} {value : α}
    (held : (key, value) ∈ entries) : entries.lookup key = some value := by
  induction entries with
  | nil => cases held
  | cons entry rest ih =>
      obtain ⟨other, found⟩ := entry
      obtain ⟨fresh, uniqueRest⟩ := List.nodup_cons.mp unique
      rcases List.mem_cons.mp held with same | later
      · cases same
        exact List.lookup_cons_self
      · have ne : key ≠ other := by
          rintro rfl
          exact fresh (List.mem_map.mpr ⟨_, later, rfl⟩)
        rw [List.lookup_cons, beq_false_of_ne ne]
        exact ih uniqueRest later

theorem mem_of_lookup {entries : List (κ × α)} {key : κ} {value : α}
    (found : entries.lookup key = some value) : (key, value) ∈ entries := by
  obtain ⟨before, after, rfl, -⟩ := List.lookup_eq_some_iff.mp found
  exact List.mem_append_right _ List.mem_cons_self

theorem lookup_pick {entries : List (κ × α)} (unique : Unique entries)
    (read : κ → α → Option β) (key : κ) :
    (pick read entries).lookup key = (entries.lookup key).bind (read key) := by
  induction entries with
  | nil => rfl
  | cons entry rest ih =>
      obtain ⟨other, held⟩ := entry
      obtain ⟨fresh, uniqueRest⟩ := List.nodup_cons.mp unique
      have tail := ih uniqueRest
      by_cases same : key = other
      · subst same
        have absent : rest.lookup key = none := by
          refine List.lookup_eq_none_iff.mpr fun entry member => ?_
          rw [bne_iff_ne]
          rintro rfl
          exact fresh (List.mem_map.mpr ⟨_, member, rfl⟩)
        rw [absent] at tail
        cases value : read key held with
        | none => simpa [Entries.pick, value] using tail
        | some value => simp [Entries.pick, value]
      · rw [List.lookup_cons, beq_false_of_ne same, ← tail]
        cases value : read other held with
        | none => simp [Entries.pick, value]
        | some value => simp [Entries.pick, value, List.lookup_cons, beq_false_of_ne same]

section Changes

variable [DecidableEq α]

/-- One change for each key of either map whose value differs. -/
def changes (change : κ → Option α → Option α → γ) (before after : List (κ × α)) : List γ :=
  (before.filterMap fun entry =>
    if after.lookup entry.1 = some entry.2 then none
    else some (change entry.1 (some entry.2) (after.lookup entry.1))) ++
  after.filterMap fun entry =>
    if (before.lookup entry.1).isSome then none
    else some (change entry.1 none (some entry.2))

/-- No change is listed exactly when the maps agree on every key. -/
theorem changes_nil_iff (change : κ → Option α → Option α → γ) {before after : List (κ × α)}
    (uniqueBefore : Unique before) (uniqueAfter : Unique after) :
    changes change before after = [] ↔ ∀ key, before.lookup key = after.lookup key := by
  unfold changes
  rw [List.append_eq_nil_iff, List.filterMap_eq_nil_iff, List.filterMap_eq_nil_iff]
  constructor
  · rintro ⟨kept, known⟩ key
    cases found : before.lookup key with
    | some value =>
        have same := kept (key, value) (mem_of_lookup found)
        by_contra differs
        rw [if_neg fun equal => differs equal.symm] at same
        cases same
    | none =>
        cases added : after.lookup key with
        | none => rfl
        | some value =>
            have shown := known (key, value) (mem_of_lookup added)
            simp [found] at shown
  · intro agree
    refine ⟨fun entry held => if_pos ?_, fun entry held => if_pos ?_⟩
    · rw [← agree, lookup_of_mem uniqueBefore held]
    · rw [agree, lookup_of_mem uniqueAfter held]
      rfl

/-- A key whose value differs between two maps, with its value in each. -/
inductive Differs (before after : List (κ × α)) : κ → Option α → Option α → Prop
  | held {key : κ} {value : α} (member : (key, value) ∈ before)
      (differs : after.lookup key ≠ some value) :
      Differs before after key (some value) (after.lookup key)
  | fresh {key : κ} {value : α} (member : (key, value) ∈ after)
      (absent : before.lookup key = none) : Differs before after key none (some value)

omit [LawfulBEq κ] in
theorem mem_changes_iff {change : κ → Option α → Option α → γ} {before after : List (κ × α)}
    {listed : γ} : listed ∈ changes change before after ↔
      ∃ key old new, Differs before after key old new ∧ change key old new = listed := by
  unfold changes
  rw [List.mem_append, List.mem_filterMap, List.mem_filterMap]
  constructor
  · rintro (⟨⟨key, value⟩, member, made⟩ | ⟨⟨key, value⟩, member, made⟩)
    · split at made
      · cases made
      · next differs => exact ⟨key, _, _, .held member differs, Option.some.inj made⟩
    · split at made
      · cases made
      · next absent =>
          exact ⟨key, _, _, .fresh member (Option.not_isSome_iff_eq_none.mp absent),
            Option.some.inj made⟩
  · rintro ⟨key, old, new, differs, rfl⟩
    cases differs with
    | held member differs => exact .inl ⟨_, member, if_neg differs⟩
    | fresh member absent =>
        refine .inr ⟨_, member, if_neg ?_⟩
        rw [absent]
        exact Bool.false_ne_true

end Changes

end Lookup

end SP42.Entries

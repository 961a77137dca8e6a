import Mathlib.Data.List.Nodup

/-!
Lists of records that are found by a key. A write goes to the first record with the key, in its
place, and keeps the key; so the list of the keys never changes.
-/
namespace Slots

variable {α κ : Type} [DecidableEq κ] {key : α → κ} {k : κ} {write : α → α} {items result : List α}

/-- The list with the first record of the key rewritten, if it has one. -/
def rewriteFirst (key : α → κ) (k : κ) (write : α → α) : List α → Option (List α)
  | [] => none
  | held :: rest =>
      if key held = k then some (write held :: rest)
      else (rewriteFirst key k write rest).map (held :: ·)

theorem rewriteFirst_eq_none_iff : rewriteFirst key k write items = none ↔ k ∉ items.map key := by
  induction items with
  | nil => exact iff_of_true rfl List.not_mem_nil
  | cons held rest ih =>
      rw [rewriteFirst, List.map_cons, List.mem_cons, not_or]
      split
      · next here => exact iff_of_false nofun fun absent => absent.1 here.symm
      · next other =>
          rw [Option.map_eq_none_iff, ih]
          exact ⟨fun absent => ⟨fun same => other same.symm, absent⟩, And.right⟩

/-- One record is rewritten, and all the others stay as they are. -/
theorem rewriteFirst_eq_some (written : rewriteFirst key k write items = some result) :
    ∃ before held after, items = before ++ held :: after ∧ key held = k ∧ k ∉ before.map key ∧
      result = before ++ write held :: after := by
  induction items generalizing result with
  | nil => cases written
  | cons held rest ih =>
      rw [rewriteFirst] at written
      split at written
      · next here =>
          exact ⟨[], held, rest, rfl, here, List.not_mem_nil, (Option.some.inj written).symm⟩
      · next other =>
          obtain ⟨tail, later, rfl⟩ := Option.map_eq_some_iff.mp written
          obtain ⟨before, slot, after, rfl, same, absent, rfl⟩ := ih later
          refine ⟨held :: before, slot, after, rfl, same, ?_, rfl⟩
          rw [List.map_cons, List.mem_cons, not_or]
          exact ⟨fun first => other first.symm, absent⟩

/-- A write that keeps the key keeps the keys of the list. -/
theorem keys_rewriteFirst (keeps : ∀ held, key (write held) = key held)
    (written : rewriteFirst key k write items = some result) : result.map key = items.map key := by
  obtain ⟨before, held, after, rfl, -, -, rfl⟩ := rewriteFirst_eq_some written
  rw [List.map_append, List.map_append, List.map_cons, List.map_cons, keeps]

/-- Where the keys are distinct, no record but the rewritten one has the key. -/
theorem not_mem_around {before after : List α} {held : α} (same : key held = k)
    (distinct : ((before ++ held :: after).map key).Nodup) :
    k ∉ before.map key ∧ k ∉ after.map key := by
  subst same
  rw [List.map_append, List.map_cons, List.nodup_middle, List.nodup_cons, List.mem_append,
    not_or] at distinct
  exact distinct.1

end Slots

import Mathlib.Data.List.Induction
import Mathlib.Tactic.Common

/-!
A register that the last writer wins until somebody pins it: a pin forces the
value, and a write against the pinned value is ignored. Whatever the order of
the writes, the register ends with its last pin, or else with its last write.
-/
namespace Register

variable {α : Type*} [DecidableEq α]

inductive Write (α : Type*) where
  | set (value : α)
  | pin (value : α)

structure Cell (α : Type*) where
  value : Option α
  pinned : Option α

def Cell.write (cell : Cell α) : Write α → Cell α
  | .set value =>
    if cell.pinned.all fun winner => decide (winner = value) then { cell with value := some value }
    else cell
  | .pin value => ⟨some value, some value⟩

def settle (writes : List (Write α)) : Cell α := writes.foldl Cell.write ⟨none, none⟩

def Write.pinned : Write α → Option α
  | .pin value => some value
  | .set _ => none

def Write.wanted : Write α → Option α
  | .set value => some value
  | .pin _ => none

theorem settle_append (writes : List (Write α)) (last : Write α) :
    settle (writes ++ [last]) = (settle writes).write last := by
  rw [settle, List.foldl_append]
  rfl

omit [DecidableEq α] in
theorem getLast?_filterMap_append {β : Type*} (f : β → Option α) (xs : List β) (x : β) :
    ((xs ++ [x]).filterMap f).getLast? = (f x).or (xs.filterMap f).getLast? := by
  rw [List.filterMap_append]
  cases h : f x with
  | none => simp [h]
  | some a => simp [h]

omit [DecidableEq α] in
/-- The last result of a partial function comes from the last item it is defined on. -/
theorem last_filterMap {β : Type*} (f : β → Option α) (items : List β) :
    (items.filterMap f).getLast? = (items.filter fun b => (f b).isSome).getLast?.bind f := by
  induction items using List.reverseRecOn with
  | nil => rfl
  | append_singleton items last ih =>
      rw [getLast?_filterMap_append, List.filter_append, ih]
      cases h : f last with
      | none => simp [h]
      | some a => simp [h]

/-- The register ends with its last pin, or else with its last write. -/
theorem settle_eq (writes : List (Write α)) :
    (settle writes).pinned = (writes.filterMap Write.pinned).getLast? ∧
      (settle writes).value = (writes.filterMap Write.pinned).getLast?.or
        (writes.filterMap Write.wanted).getLast? := by
  induction writes using List.reverseRecOn with
  | nil => exact ⟨rfl, rfl⟩
  | append_singleton writes last ih =>
      obtain ⟨pinned, value⟩ := ih
      rw [settle_append, getLast?_filterMap_append, getLast?_filterMap_append]
      cases last with
      | pin winner => exact ⟨rfl, rfl⟩
      | set wanted =>
          cases held : (writes.filterMap Write.pinned).getLast? with
          | none =>
              rw [held] at pinned value
              simp [Cell.write, Write.pinned, Write.wanted, pinned]
          | some winner =>
              rw [held] at pinned value
              by_cases same : winner = wanted <;>
                simp_all [Cell.write, Write.pinned, Write.wanted]

end Register

import Mathlib.Data.List.Dedup
import Mathlib.Data.List.DropRight
import Mathlib.Tactic.Common

/-!
Keys by their last use. A list in which each use moves its key behind all others, and which then
loses what is too much at its front, holds the keys that were used last.
-/
namespace Recency

variable {α : Type*}

theorem rtake_append_of_le {front back : List α} {size : Nat} (fits : size ≤ back.length) :
    (front ++ back).rtake size = back.rtake size := by
  rw [List.rtake_eq_reverse_take_reverse, List.rtake_eq_reverse_take_reverse, List.reverse_append,
    List.take_append_of_le_length (by simpa using fits)]

theorem rtake_of_length_le {order : List α} {size : Nat} (fits : order.length ≤ size) :
    order.rtake size = order := by
  rw [List.rtake, Nat.sub_eq_zero_of_le fits, List.drop_zero]

theorem length_rtake (order : List α) (size : Nat) :
    (order.rtake size).length = min size order.length := by
  rw [List.rtake, List.length_drop]
  omega

variable [DecidableEq α]

/-- The key goes behind all others. -/
def touch (key : α) (order : List α) : List α := order.filter (· ≠ key) ++ [key]

theorem touch_of_notMem {key : α} {order : List α} (fresh : key ∉ order) :
    touch key order = order ++ [key] := by
  have whole : order.filter (· ≠ key) = order := by
    refine List.filter_eq_self.mpr fun other member => decide_eq_true ?_
    rintro rfl
    exact fresh member
  rw [touch, whole]

@[simp] theorem mem_touch {key other : α} {order : List α} :
    other ∈ touch key order ↔ other = key ∨ other ∈ order := by
  rw [touch, List.mem_append, List.mem_filter, decide_eq_true_iff, List.mem_singleton]
  by_cases same : other = key
  · exact iff_of_true (.inr same) (.inl same)
  · simp [same]

theorem touch_nodup {key : α} {order : List α} (once : order.Nodup) : (touch key order).Nodup := by
  refine List.nodup_append.mpr ⟨once.filter _, List.nodup_singleton key, ?_⟩
  intro other member last final
  rw [List.mem_singleton.mp final]
  exact of_decide_eq_true (List.mem_filter.mp member).2

theorem length_touch {key : α} {order : List α} (once : order.Nodup) (held : key ∈ order) :
    (touch key order).length = order.length := by
  have rest : order.filter (· ≠ key) = order.erase key := by
    rw [once.erase_eq_filter]
    exact List.filter_congr fun other _ => by rw [bne, beq_eq_decide, decide_not]
  rw [touch, rest, List.length_append, List.length_erase_of_mem held, List.length_singleton]
  have := List.length_pos_of_mem held
  omega

/-- One more use. -/
theorem dedup_concat (uses : List α) (key : α) : (uses ++ [key]).dedup = touch key uses.dedup := by
  induction uses with
  | nil => rfl
  | cons other uses ih =>
      by_cases later : other ∈ uses
      · rw [List.cons_append, List.dedup_cons_of_mem (List.mem_append_left _ later),
          List.dedup_cons_of_mem later, ih]
      · rw [List.dedup_cons_of_notMem later]
        by_cases same : other = key
        · subst same
          rw [List.cons_append, List.dedup_cons_of_mem (List.mem_append_right _ List.mem_cons_self),
            ih, touch, touch, List.filter_cons_of_neg (by simp)]
        · have fresh : other ∉ uses ++ [key] := by simp [later, same]
          rw [List.cons_append, List.dedup_cons_of_notMem fresh, ih, touch, touch,
            List.filter_cons_of_pos (by simp [same]), List.cons_append]

/-- What was used last is found among what was used last before. -/
theorem rtake_touch {key : α} {order : List α} (once : order.Nodup) (size : Nat) :
    (touch key order).rtake size = (touch key (order.rtake size)).rtake size := by
  by_cases short : order.length ≤ size
  · rw [rtake_of_length_le short]
  · have split := List.take_append_drop (order.length - size) order
    have full : (order.rtake size).length = size := by
      rw [length_rtake]
      omega
    have touched : touch key order = (order.take (order.length - size)).filter (· ≠ key) ++
        touch key (order.rtake size) := by
      conv_lhs => rw [← split]
      rw [touch, List.filter_append, List.append_assoc]
      rfl
    rw [touched]
    refine rtake_append_of_le ?_
    have kept : (order.rtake size).Nodup := once.sublist (List.drop_sublist _ _)
    by_cases held : key ∈ order.rtake size
    · rw [length_touch kept held, full]
    · rw [touch_of_notMem held, List.length_append, full]
      omega

/-- At most one key is too much after a use, and it is the first. -/
theorem rtake_touch_tail {key : α} {order : List α} {size : Nat} (fits : order.length ≤ size)
    (full : size < (touch key order).length) :
    (touch key order).rtake size = (touch key order).tail ∧
      (touch key order).length = size + 1 := by
  have bound : (touch key order).length ≤ order.length + 1 := by
    rw [touch, List.length_append, List.length_singleton]
    have := List.length_filter_le (· ≠ key) order
    omega
  have exact_ : (touch key order).length = size + 1 := by omega
  refine ⟨?_, exact_⟩
  rw [List.rtake, exact_, Nat.add_sub_cancel_left, List.drop_one]

end Recency

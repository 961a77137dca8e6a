import Mathlib.Algebra.Order.Ring.Unbundled.Rat
import SP42.Base.Number

/-!
Arithmetic of `i32` values, saturating or checked: `none` is a panic. A finite `f32`
is the rational it denotes.
-/
namespace SP42

/-- The values of an `f32`; the sign of zero is not kept. -/
inductive F32 where
  | nan
  | infinite (negative : Bool)
  | finite (value : Rat)
  deriving DecidableEq

namespace I32

/-- The value of the type that is nearest to `z`. -/
def saturate (z : Int) : I32 :=
  ⟨max i32Min (min i32Max z), by unfold i32Min i32Max; omega⟩

def saturatingAdd (a b : I32) : I32 := saturate (a.val + b.val)

def saturatingSub (a b : I32) : I32 := saturate (a.val - b.val)

def zero : I32 := ⟨0, by decide⟩

/-- `-a`, which overflows at the minimum. -/
def neg (a : I32) : Option I32 := if a.val = i32Min then none else some (saturate (-a.val))

/-- `i32::abs`, which overflows at the minimum. -/
def abs (a : I32) : Option I32 := if a.val < 0 then neg a else some a

/-- `Ord::clamp`, which asserts that the bounds are in order. -/
def clamp (a low high : I32) : Option I32 :=
  if high.val < low.val then none
  else if a.val < low.val then some low
  else if high.val < a.val then some high
  else some a

theorem saturate_val (a : I32) : saturate a.val = a := by
  apply Subtype.ext
  have bounds := a.property
  simp only [saturate]
  omega

@[simp] theorem saturatingAdd_zero (a : I32) : saturatingAdd a zero = a := by
  rw [saturatingAdd, show zero.val = 0 from rfl, Int.add_zero, saturate_val]

theorem neg_of_nonneg {a : I32} (h : 0 ≤ a.val) : ∃ b, neg a = some b ∧ b.val = -a.val := by
  have bounds := a.property
  have low : a.val ≠ i32Min := by unfold i32Min; omega
  refine ⟨saturate (-a.val), if_neg low, ?_⟩
  simp only [saturate]
  unfold i32Min i32Max at *
  omega

/-- Only the minimum has no absolute value, and that is never below zero. -/
theorem abs_eq_some (a : I32) (h : a.val ≠ i32Min) :
    ∃ b, abs a = some b ∧ 0 ≤ b.val := by
  by_cases negative : a.val < 0
  · refine ⟨saturate (-a.val), by rw [abs, if_pos negative, neg, if_neg h], ?_⟩
    simp only [saturate]
    unfold i32Min i32Max
    omega
  · exact ⟨a, if_neg negative, by omega⟩

theorem abs_min {a : I32} (h : a.val = i32Min) : abs a = none := by
  rw [abs, if_pos (by rw [h]; decide), neg, if_pos h]

theorem clamp_val {a low high b : I32} (h : clamp a low high = some b) :
    low.val ≤ b.val ∧ b.val ≤ high.val ∧ b.val = max low.val (min high.val a.val) := by
  unfold clamp at h
  split at h
  · cases h
  · split at h
    · cases h; omega
    · split at h
      · cases h; omega
      · cases h; omega

theorem clamp_isSome {a low high : I32} (h : low.val ≤ high.val) : (clamp a low high).isSome := by
  unfold clamp
  rw [if_neg (by omega)]
  split
  · rfl
  · split <;> rfl

/-- Between a bound and its opposite there is zero. -/
theorem clamp_zero {bound low a : I32} (opposite : neg bound = some low)
    (h : clamp zero low bound = some a) : a = zero := by
  have value : low.val = -bound.val := by
    unfold neg at opposite
    split at opposite
    · cases opposite
    · have bounds := bound.property
      rw [← Option.some.inj opposite]
      simp only [saturate]
      unfold i32Min i32Max at *
      omega
  have origin : zero.val = 0 := rfl
  unfold clamp at h
  split at h
  · cases h
  · rw [if_neg (by omega), if_neg (by omega)] at h
    exact (Option.some.inj h).symm

end I32

/-- `i64`, with its range. -/
abbrev I64 := { z : Int // i64Min ≤ z ∧ z ≤ i64Max }

namespace I64

/-- The value of the type that is nearest to `z`. -/
def saturate (z : Int) : I64 :=
  ⟨max i64Min (min i64Max z), by unfold i64Min i64Max; omega⟩

def saturatingAdd (a b : I64) : I64 := saturate (a.val + b.val)

def saturatingSub (a b : I64) : I64 := saturate (a.val - b.val)

/-- `a + b`, which overflows outside the range. -/
def add (a b : I64) : Option I64 :=
  if h : i64Min ≤ a.val + b.val ∧ a.val + b.val ≤ i64Max then some ⟨a.val + b.val, h⟩ else none

/-- A sum with an amount that is not negative can only be cut short. -/
theorem saturatingAdd_le {a b : I64} (h : 0 ≤ b.val) : (saturatingAdd a b).val ≤ a.val + b.val := by
  have bounds := a.property
  simp only [saturatingAdd, saturate]
  omega

end I64

/-- Rounding to the nearest integer, halves to the even one, as numbers are written. -/
def roundHalfEven (q : Rat) : Int :=
  let below := q.floor
  let rest := q - below
  if rest < 1 / 2 then below
  else if 1 / 2 < rest then below + 1
  else if below % 2 = 0 then below else below + 1

end SP42

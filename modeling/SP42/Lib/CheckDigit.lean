import Mathlib.Tactic.Common

/-!
Check digits. The digits of a number are added up with weights, and one more digit of weight one
makes the sum divisible by the modulus; no other digit below the modulus does.
-/
namespace CheckDigit

/-- The sum of the values, each with the weight of its position; the first position is given. -/
def weighted (weight : Nat → Nat) : Nat → List Nat → Nat
  | _, [] => 0
  | position, value :: rest => weight position * value + weighted weight (position + 1) rest

/-- What is missing to the next multiple of the modulus. -/
def check (modulus sum : Nat) : Nat := (modulus - sum % modulus) % modulus

section Sums

variable {weight : Nat → Nat}

theorem weighted_append (position : Nat) (front back : List Nat) :
    weighted weight position (front ++ back) =
      weighted weight position front + weighted weight (position + front.length) back := by
  induction front generalizing position with
  | nil => exact (Nat.zero_add _).symm
  | cons value front ih =>
      have behind : position + (front.length + 1) = position + 1 + front.length := by omega
      rw [List.cons_append, weighted, weighted, ih, List.length_cons, behind,
        Nat.add_assoc (weight position * value)]

theorem weighted_concat {front : List Nat} {value : Nat} (one : weight front.length = 1) :
    weighted weight 0 (front ++ [value]) = weighted weight 0 front + value := by
  rw [weighted_append, Nat.zero_add, weighted, one, Nat.one_mul]
  rfl

end Sums

section Checks

variable {modulus sum value : Nat}

theorem check_lt (positive : 0 < modulus) : check modulus sum < modulus := Nat.mod_lt _ positive

/-- The check digit completes the sum, and it alone does. -/
theorem add_mod_eq_zero_iff (small : value < modulus) :
    (sum + value) % modulus = 0 ↔ value = check modulus sum := by
  have rest := Nat.mod_lt sum (Nat.zero_lt_of_lt small)
  have reduced : (sum + value) % modulus = (sum % modulus + value) % modulus :=
    (Nat.mod_add_mod sum modulus value).symm
  rw [reduced, check]
  generalize sum % modulus = r at rest ⊢
  rcases Nat.eq_zero_or_pos r with zero | positive
  · rw [zero, Nat.zero_add, Nat.sub_zero, Nat.mod_self, Nat.mod_eq_of_lt small]
  · rw [Nat.mod_eq_of_lt (Nat.sub_lt (Nat.zero_lt_of_lt small) positive)]
    constructor
    · intro divides
      rcases Nat.lt_or_ge (r + value) modulus with below | above
      · rw [Nat.mod_eq_of_lt below] at divides
        omega
      · rw [Nat.mod_eq_sub_mod above, Nat.mod_eq_of_lt (by omega)] at divides
        omega
    · intro completes
      have whole : r + value = modulus := by omega
      rw [whole, Nat.mod_self]

end Checks

end CheckDigit

import Mathlib.Data.Int.Basic
import Mathlib.Tactic.Common

/-!
Fixed-width arithmetic as the code uses it, and the flag that the shared types use in place of
a boolean. Identifiers and instants are plain `Nat` and `Int` values; only the saturating
operations look at the width.
-/
namespace SP42

def u32Max : Nat := 0xffffffff
def u64Max : Nat := 0xffffffffffffffff
def i32Min : Int := -0x80000000
def i32Max : Int := 0x7fffffff
def i64Min : Int := -0x8000000000000000
def i64Max : Int := 0x7fffffffffffffff

/-- `i64::saturating_sub`. -/
def i64SaturatingSub (a b : Int) : Int := max i64Min (min i64Max (a - b))

/-- `i32::saturating_add`. -/
def i32SaturatingAdd (a b : Int) : Int := max i32Min (min i32Max (a + b))

/-- `u32::saturating_add(1)` and `u64::saturating_add(1)`, by the type's maximum. -/
def saturatingSucc (limit n : Nat) : Nat := min limit (n + 1)

/-- A threshold inside the type's range does not notice the saturation. -/
theorem le_i64SaturatingSub {a b c : Int} (low : i64Min < c) (high : c ≤ i64Max) :
    c ≤ i64SaturatingSub a b ↔ c ≤ a - b := by
  unfold i64SaturatingSub
  omega

inductive FlagState where
  | disabled
  | enabled
  deriving DecidableEq, Repr

def FlagState.isEnabled : FlagState → Bool
  | .enabled => true
  | .disabled => false

def FlagState.ofBool (value : Bool) : FlagState := if value then .enabled else .disabled

@[simp] theorem FlagState.isEnabled_ofBool (value : Bool) : (ofBool value).isEnabled = value := by
  cases value <;> rfl

@[simp] theorem FlagState.ofBool_isEnabled (flag : FlagState) : ofBool flag.isEnabled = flag := by
  cases flag <;> rfl

end SP42

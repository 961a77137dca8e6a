import SP42.Base.Machine
import SP42.Base.Text

/-!
Numerals: how the standard library writes integers and how `str::parse` reads them.
-/
namespace SP42

/-- `i32`, with its range. -/
abbrev I32 := { z : Int // i32Min ≤ z ∧ z ≤ i32Max }

def u16Max : Nat := 0xffff

/-- `u16`, with its range. -/
abbrev U16 := { n : Nat // n ≤ u16Max }

namespace Text

/-- `ToString` of an unsigned integer. -/
def ofNat (n : Nat) : Text := Nat.toDigits 10 n

/-- `ToString` of a signed integer. -/
def ofInt : Int → Text
  | .ofNat n => ofNat n
  | .negSucc n => '-' :: ofNat (n + 1)

/-- A nonempty run of decimal digits. -/
def parseDigits (text : Text) : Option Nat :=
  if text ≠ [] ∧ text.all Char.isDigit then some (Nat.ofDigitChars 10 text 0) else none

/-- `str::parse::<u16>`: an optional plus, digits, and the range check. -/
def parseU16 (text : Text) : Option U16 :=
  let digits := match text with
    | '+' :: rest => rest
    | _ => text
  (parseDigits digits).bind fun n => if h : n ≤ u16Max then some ⟨n, h⟩ else none

/-- `str::parse::<u64>`. -/
def parseU64 (text : Text) : Option Nat :=
  let digits := match text with
    | '+' :: rest => rest
    | _ => text
  (parseDigits digits).filter (· ≤ u64Max)

/-- An optional sign and digits. -/
def parseSigned : Text → Option Int
  | '-' :: rest => (parseDigits rest).map fun n => -(n : Int)
  | '+' :: rest => (parseDigits rest).map fun n => (n : Int)
  | text => (parseDigits text).map fun n => (n : Int)

/-- `str::parse::<i32>`: a signed numeral in range. -/
def parseI32 (text : Text) : Option I32 :=
  (parseSigned text).bind fun z => if h : i32Min ≤ z ∧ z ≤ i32Max then some ⟨z, h⟩ else none

theorem isWhitespace_of_isDigit {c : Char} (h : c.isDigit = true) : isWhitespace c = false := by
  obtain ⟨low, high⟩ : 48 ≤ c.toNat ∧ c.toNat ≤ 57 := Char.isDigit_iff_toNat.mp h
  simp only [isWhitespace, Bool.or_eq_false_iff, Bool.and_eq_false_iff, decide_eq_false_iff_not,
    beq_eq_false_iff_ne]
  omega

theorem isDigit_of_mem_ofNat {n : Nat} {c : Char} (h : c ∈ ofNat n) : c.isDigit = true :=
  Nat.isDigit_of_mem_toDigits (by decide) (by decide) h

theorem ofNat_ne_nil (n : Nat) : ofNat n ≠ [] := by
  intro h
  have written : (Nat.repr n).toList = [] := by rw [Nat.repr, String.toList_ofList]; exact h
  exact Nat.repr_ne_empty (String.toList_inj.mp (written.trans String.toList_empty.symm))

theorem parseDigits_ofNat (n : Nat) : parseDigits (ofNat n) = some n := by
  have digits : (ofNat n).all Char.isDigit = true :=
    List.all_eq_true.mpr fun c hc => isDigit_of_mem_ofNat hc
  unfold parseDigits
  rw [if_pos ⟨ofNat_ne_nil n, digits⟩, ofNat, Nat.ofDigitChars_ten_toDigits]

theorem ofNat_head (n : Nat) : ∃ c rest, ofNat n = c :: rest ∧ c.isDigit = true := by
  cases h : ofNat n with
  | nil => exact absurd h (ofNat_ne_nil n)
  | cons c rest => exact ⟨c, rest, rfl, isDigit_of_mem_ofNat (h ▸ List.mem_cons_self)⟩

theorem parseU64_ofNat {n : Nat} (small : n ≤ u64Max) : parseU64 (ofNat n) = some n := by
  have read := parseDigits_ofNat n
  obtain ⟨c, rest, written, digit⟩ := ofNat_head n
  have unsigned : c ≠ '+' := by
    rintro rfl
    exact absurd digit (by decide)
  rw [written] at read ⊢
  unfold parseU64
  split
  · next plus => exact absurd (List.cons.inj plus).1 unsigned
  · dsimp only
    rw [read, Option.filter_some, if_pos (decide_eq_true small)]

theorem parseU16_ofNat (n : U16) : parseU16 (ofNat n.val) = some n := by
  have read := parseDigits_ofNat n.val
  obtain ⟨c, rest, written, digit⟩ := ofNat_head n.val
  have unsigned : c ≠ '+' := by rintro rfl; revert digit; decide
  rw [written] at read ⊢
  unfold parseU16
  split
  · rename_i found; exact absurd (List.cons.inj found).1 unsigned
  · simp only [read, Option.bind_some]
    exact dif_pos n.property

theorem parseSigned_ofInt (z : Int) : parseSigned (ofInt z) = some z := by
  cases z with
  | ofNat n =>
      have read := parseDigits_ofNat n
      obtain ⟨c, rest, written, digit⟩ := ofNat_head n
      have positive : c ≠ '-' := by rintro rfl; revert digit; decide
      have unsigned : c ≠ '+' := by rintro rfl; revert digit; decide
      simp only [ofInt]
      rw [written] at read ⊢
      unfold parseSigned
      split
      · rename_i found; exact absurd (List.cons.inj found).1 positive
      · rename_i found; exact absurd (List.cons.inj found).1 unsigned
      · simp [read]
  | negSucc n =>
      rw [ofInt, parseSigned, parseDigits_ofNat]
      rfl

theorem parseI32_ofInt (z : I32) : parseI32 (ofInt z.val) = some z := by
  rw [parseI32, parseSigned_ofInt, Option.bind_some]
  exact dif_pos z.property

theorem mem_ofInt {z : Int} {c : Char} (h : c ∈ ofInt z) : c.isDigit = true ∨ c = '-' := by
  cases z with
  | ofNat n => exact .inl (isDigit_of_mem_ofNat h)
  | negSucc n =>
      rcases List.mem_cons.mp h with rfl | h
      · exact .inr rfl
      · exact .inl (isDigit_of_mem_ofNat h)

/-- A numeral has no white space around it. -/
theorem trim_ofInt (z : Int) : trim (ofInt z) = ofInt z := by
  have solid : ∀ c ∈ ofInt z, isWhitespace c = false := by
    intro c hc
    rcases mem_ofInt hc with digit | rfl
    · exact isWhitespace_of_isDigit digit
    · decide
  refine trim_of_solid solid

end Text

end SP42

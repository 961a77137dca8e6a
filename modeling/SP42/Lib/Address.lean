import Mathlib.Data.List.TakeWhile
import Mathlib.Tactic.Common

/-!
The written form of an address of the network: four decimal parts with dots, or eight groups of
hexadecimal digits with colons, where one run of zero groups may be left out and four parts may
stand for the last two groups.
-/
namespace SP42
namespace Address

section Readers

variable {α β : Type}

/-- A reader takes a value from the front of a text and gives it with what is left. -/
abbrev Reader (α : Type) := List Char → Option (α × List Char)

/-- The value of a digit or letter; the radix stands for no value. -/
def digitValue (radix : Nat) (c : Char) : Nat :=
  if '0' ≤ c ∧ c ≤ '9' then c.toNat - '0'.toNat
  else if 'a' ≤ c ∧ c ≤ 'z' then c.toNat - 'a'.toNat + 10
  else if 'A' ≤ c ∧ c ≤ 'Z' then c.toNat - 'A'.toNat + 10
  else radix

def toDigit (radix : Nat) (c : Char) : Option Nat :=
  if digitValue radix c < radix then some (digitValue radix c) else none

/-- Every digit in front, at most `width` of them. -/
def readNumber (radix width limit : Nat) (zeroPrefix : Bool) : Reader Nat := fun input =>
  let digits := input.takeWhile fun c => (toDigit radix c).isSome
  let value := (digits.filterMap (toDigit radix)).foldl (fun value digit => value * radix + digit) 0
  if digits = [] ∨ width < digits.length then none
  else if zeroPrefix = false ∧ digits.head? = some '0' ∧ 1 < digits.length then none
  else if limit < value then none
  else some (value, input.dropWhile fun c => (toDigit radix c).isSome)

/-- A value behind a mark, that the first one goes without. -/
def readSeparated (mark : Char) (first : Bool) (read : Reader α) : Reader α := fun input =>
  if first then read input
  else
    match input with
    | c :: rest => if c = mark then read rest else none
    | [] => none

def readSeries (mark : Char) (read : Reader α) : Nat → Bool → Reader (List α)
  | 0, _, input => some ([], input)
  | count + 1, first, input =>
      match readSeparated mark first read input with
      | none => none
      | some (value, rest) =>
          match readSeries mark read count false rest with
          | none => none
          | some (values, rest) => some (value :: values, rest)

end Readers

inductive IpAddr where
  | v4 (parts : List Nat)
  | v6 (groups : List Nat)
  deriving DecidableEq, Repr

/-- No part has a leading zero, which would make it octal. -/
def readPart : Reader Nat := readNumber 10 3 255 false

def readGroup : Reader Nat := readNumber 16 4 65535 true

def readIpv4 : Reader (List Nat) := readSeries '.' readPart 4 true

/-- Four parts as two groups. -/
def groupsOf : List Nat → List Nat
  | one :: two :: rest => (one * 256 + two) :: groupsOf rest
  | _ => []

/-- As many groups as there are, with whether four parts end them, for which two places must be
left. -/
def readGroups : Nat → Bool → List Char → List Nat × Bool × List Char
  | 0, _, input => ([], false, input)
  | left + 1, first, input =>
      match if left = 0 then none else readSeparated ':' first readIpv4 input with
      | some (parts, rest) => (groupsOf parts, true, rest)
      | none =>
          match readSeparated ':' first readGroup input with
          | some (group, rest) =>
              let (groups, embedded, rest) := readGroups left false rest
              (group :: groups, embedded, rest)
          | none => ([], false, input)

/-- The groups, or those before and behind the zero groups that `::` leaves out. -/
def readIpv6 : Reader (List Nat) := fun input =>
  let (head, embedded, rest) := readGroups 8 true input
  if head.length = 8 then some (head, rest)
  else if embedded then none
  else
    match rest with
    | ':' :: ':' :: rest =>
        let (tail, _, rest) := readGroups (7 - head.length) true rest
        some (head ++ List.replicate (8 - (head.length + tail.length)) 0 ++ tail, rest)
    | _ => none

def readIpAddr : Reader IpAddr := fun input =>
  match readIpv4 input with
  | some (parts, rest) => some (.v4 parts, rest)
  | none => (readIpv6 input).map fun (groups, rest) => (.v6 groups, rest)

/-- The whole text is one address. -/
def parse (text : List Char) : Option IpAddr :=
  match readIpAddr text with
  | some (address, []) => some address
  | _ => none

example : parse "192.0.2.1".toList = some (.v4 [192, 0, 2, 1]) := by decide
example : parse "2001:db8::1".toList = some (.v6 [8193, 3512, 0, 0, 0, 0, 0, 1]) := by decide
example : parse "::ffff:192.0.2.1".toList = some (.v6 [0, 0, 0, 0, 0, 65535, 49152, 513]) := by
  decide
example : parse "192.0.02.1".toList = none := by decide

section Consumed

/-- What is left of an input when only certain characters were taken from its front. -/
def Consumes (P : Char → Prop) (input rest : List Char) : Prop :=
  ∃ taken, input = taken ++ rest ∧ ∀ c ∈ taken, P c

variable {P : Char → Prop} {input middle rest : List Char} {α : Type}

theorem consumes_refl (P : Char → Prop) (input : List Char) : Consumes P input input :=
  ⟨[], rfl, by nofun⟩

theorem Consumes.trans (first : Consumes P input middle) (second : Consumes P middle rest) :
    Consumes P input rest := by
  obtain ⟨front, rfl, inFront⟩ := first
  obtain ⟨back, rfl, inBack⟩ := second
  refine ⟨front ++ back, (List.append_assoc front back rest).symm, ?_⟩
  intro c member
  rcases List.mem_append.mp member with before | behind
  · exact inFront c before
  · exact inBack c behind

theorem Consumes.cons {c : Char} (taken : P c) (others : Consumes P input rest) :
    Consumes P (c :: input) rest := by
  obtain ⟨front, rfl, inFront⟩ := others
  refine ⟨c :: front, rfl, ?_⟩
  intro d member
  rcases List.mem_cons.mp member with rfl | member
  · exact taken
  · exact inFront d member

theorem Consumes.mono {Q : Char → Prop} (weaker : ∀ c, P c → Q c)
    (consumes : Consumes P input rest) : Consumes Q input rest := by
  obtain ⟨taken, split, all⟩ := consumes
  exact ⟨taken, split, fun c member => weaker c (all c member)⟩

/-- A reader that takes only certain characters. -/
def Takes (P : Char → Prop) (read : Reader α) : Prop :=
  ∀ {input value rest}, read input = some (value, rest) → Consumes P input rest

theorem readNumber_takes (radix width limit : Nat) (zeroPrefix : Bool) :
    Takes (fun c => (toDigit radix c).isSome = true) (readNumber radix width limit zeroPrefix) := by
  intro input value rest read
  unfold readNumber at read
  dsimp only at read
  split_ifs at read
  cases read
  refine ⟨_, List.takeWhile_append_dropWhile.symm, ?_⟩
  intro c member
  exact @List.mem_takeWhile_imp _ (fun c => (toDigit radix c).isSome) _ c member

theorem readSeparated_takes {read : Reader α} {mark : Char} (separator : P mark)
    (takes : Takes P read) (first : Bool) : Takes P (readSeparated mark first read) := by
  intro input value rest done
  unfold readSeparated at done
  split at done
  · exact takes done
  · split at done
    · split at done
      · rename_i same
        exact (takes done).cons (same ▸ separator)
      · cases done
    · cases done

theorem readSeries_takes {read : Reader α} {mark : Char} (separator : P mark)
    (takes : Takes P read) (count : Nat) (first : Bool) :
    Takes P (readSeries mark read count first) := by
  intro input values rest done
  induction count generalizing first input values with
  | zero =>
      cases done
      exact consumes_refl P _
  | succ count ih =>
      unfold readSeries at done
      split at done
      · cases done
      · rename_i one
        split at done
        · cases done
        · rename_i more
          cases done
          exact (readSeparated_takes separator takes first one).trans (ih false more)

end Consumed

section Characters

def IsIpv4Char (c : Char) : Prop := (toDigit 10 c).isSome = true ∨ c = '.'

def IsAddressChar (c : Char) : Prop := (toDigit 16 c).isSome = true ∨ c = '.' ∨ c = ':'

theorem toDigit_isSome {radix : Nat} {c : Char} :
    (toDigit radix c).isSome = true ↔ digitValue radix c < radix := by
  unfold toDigit
  split
  · exact iff_of_true rfl ‹_›
  · exact iff_of_false Bool.false_ne_true ‹_›

theorem isDigit_of_toDigit {c : Char} (digit : (toDigit 10 c).isSome = true) :
    c.isDigit = true := by
  have small := toDigit_isSome.mp digit
  unfold digitValue at small
  split_ifs at small with decimal
  · exact Bool.and_eq_true_iff.mpr ⟨decide_eq_true decimal.1, decide_eq_true decimal.2⟩
  · omega
  · omega
  · omega

theorem toDigit_of_isDigit {radix : Nat} (wide : 10 ≤ radix) {c : Char}
    (decimal : c.isDigit = true) : (toDigit radix c).isSome = true := by
  obtain ⟨low, high⟩ := Bool.and_eq_true_iff.mp decimal
  have range : '0' ≤ c ∧ c ≤ '9' := ⟨of_decide_eq_true low, of_decide_eq_true high⟩
  have bound : c.toNat ≤ 57 := range.2
  rw [toDigit_isSome, digitValue, if_pos range]
  change c.toNat - 48 < radix
  omega

theorem IsIpv4Char.isAddressChar {c : Char} (part : IsIpv4Char c) : IsAddressChar c := by
  rcases part with digit | dot
  · exact .inl (toDigit_of_isDigit (by decide) (isDigit_of_toDigit digit))
  · exact .inr (.inl dot)

theorem readIpv4_takes : Takes IsIpv4Char readIpv4 :=
  readSeries_takes (.inr rfl)
    (fun read => (readNumber_takes 10 3 255 false read).mono fun _ => .inl) 4 true

theorem readGroup_takes : Takes IsAddressChar readGroup := fun read =>
  (readNumber_takes 16 4 65535 true read).mono fun _ => .inl

theorem readGroups_consumes (left : Nat) (first : Bool) (input : List Char) :
    Consumes IsAddressChar input (readGroups left first input).2.2 := by
  have colon : IsAddressChar ':' := .inr (.inr rfl)
  induction left generalizing first input with
  | zero => exact consumes_refl _ input
  | succ left ih =>
      unfold readGroups
      split
      · rename_i embedded
        split at embedded
        · cases embedded
        · exact readSeparated_takes colon
            (fun read => (readIpv4_takes read).mono fun _ => IsIpv4Char.isAddressChar) first
            embedded
      · split
        · rename_i one
          exact (readSeparated_takes colon readGroup_takes first one).trans (ih false _)
        · exact consumes_refl _ input

theorem readIpv6_takes : Takes IsAddressChar readIpv6 := by
  intro input groups rest read
  have front := readGroups_consumes 8 true input
  unfold readIpv6 at read
  generalize readGroups 8 true input = outcome at read front
  obtain ⟨head, embedded, middle⟩ := outcome
  dsimp only at read front
  split_ifs at read
  · cases read
    exact front
  · split at read
    · rename_i behind
      cases read
      have colon : IsAddressChar ':' := .inr (.inr rfl)
      exact front.trans (((readGroups_consumes _ true behind).cons colon).cons colon)
    · cases read

/-- The whole text is read as four parts or as groups. -/
theorem parse_cases {text : List Char} {address : IpAddr} (read : parse text = some address) :
    (∃ parts, address = .v4 parts ∧ readIpv4 text = some (parts, [])) ∨
      ∃ groups, address = .v6 groups ∧ readIpv6 text = some (groups, []) := by
  unfold parse readIpAddr at read
  cases four : readIpv4 text with
  | some outcome =>
      obtain ⟨parts, rest⟩ := outcome
      rw [four] at read
      cases rest with
      | cons c rest => cases read
      | nil =>
          cases read
          exact .inl ⟨parts, rfl, rfl⟩
  | none =>
      rw [four] at read
      cases six : readIpv6 text with
      | none =>
          rw [six] at read
          cases read
      | some outcome =>
          obtain ⟨groups, rest⟩ := outcome
          rw [six] at read
          cases rest with
          | cons c rest => cases read
          | nil =>
              cases read
              exact .inr ⟨groups, rfl, rfl⟩

theorem Consumes.whole {P : Char → Prop} {text : List Char} (all : Consumes P text []) :
    ∀ c ∈ text, P c := by
  obtain ⟨taken, rfl, inTaken⟩ := all
  rw [List.append_nil]
  exact inTaken

/-- An address has no other characters than its digits, dots and colons. -/
theorem parse_chars {text : List Char} {address : IpAddr} (read : parse text = some address) :
    ∀ c ∈ text, IsAddressChar c := by
  rcases parse_cases read with ⟨parts, -, four⟩ | ⟨groups, -, six⟩
  · exact ((readIpv4_takes four).mono fun _ => IsIpv4Char.isAddressChar).whole
  · exact (readIpv6_takes six).whole

end Characters

end Address
end SP42

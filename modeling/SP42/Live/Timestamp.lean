import Mathlib.Tactic.IntervalCases
import SP42.Base.Number
import SP42.Lib.Bytes
import SP42.Lib.Calendar

/-!
The two parsers of timestamps, of the event stream and of the recent changes. Both check the
layout, read the fields, and count the days; they differ in how they read a fraction.
-/
namespace SP42.Live

/-- The layout up to the fraction; a `#` stands for a digit. -/
def rfc3339Layout : Text := "####-##-##T##:##:##".toList

/-- The text behind a layout that it begins with. -/
def stripLayout : Text → Text → Option Text
  | [], rest => some rest
  | mark :: marks, c :: rest =>
      if (if mark = '#' then c.isDigit else c == mark) then stripLayout marks rest else none
  | _ :: _, [] => none

/-- Every byte of the layout is ASCII, so that where it matches, bytes are characters. -/
def hasRfc3339UtcLayout (value : Text) : Bool :=
  match stripLayout rfc3339Layout value with
  | none => false
  | some tail =>
      let rest := tail.dropLast
      decide (tail.getLast? = some 'Z') &&
        (decide (rest = []) || decide (rest.head? = some '.') && rest.tail.all Char.isDigit)

/-- The part of the value between two bytes, where all of it is ASCII. -/
def part (value : Text) (start stop : Nat) : Text := (value.take stop).drop start

/-- `str::parse::<u32>`: an optional plus, digits, and the range check. -/
def parseU32 (text : Text) : Option Nat :=
  let digits := match text with
    | '+' :: rest => rest
    | _ => text
  (Text.parseDigits digits).filter (· ≤ u32Max)

/-- `str::parse::<i64>`. -/
def parseI64 (text : Text) : Option Int :=
  (Text.parseSigned text).filter fun z => i64Min ≤ z ∧ z ≤ i64Max

def isLeapYear (year : Int) : Bool :=
  (year.tmod 4 == 0 && year.tmod 100 != 0) || year.tmod 400 == 0

def daysInMonth (year : Int) (month : Nat) : Option Nat :=
  if month ∈ [1, 3, 5, 7, 8, 10, 12] then some 31
  else if month ∈ [4, 6, 9, 11] then some 30
  else if month = 2 then some (if isLeapYear year then 29 else 28)
  else none

def isValidUtcDate (year : Int) (month day : Nat) : Bool :=
  match daysInMonth year month with
  | none => false
  | some maxDay => decide (1 ≤ day ∧ day ≤ maxDay)

/-- The divisions truncate; on a year of four digits nothing overflows. -/
def daysFromCivil (year : Int) (month day : Nat) : Int :=
  let adjustedYear := year - if month ≤ 2 then 1 else 0
  let era := (if 0 ≤ adjustedYear then adjustedYear else adjustedYear - 399).tdiv 400
  let yearOfEra := adjustedYear - era * 400
  let dayOfYear := (153 * ((month : Int) + if 2 < month then -3 else 9) + 2).tdiv 5 + day - 1
  let dayOfEra := yearOfEra * 365 + yearOfEra.tdiv 4 - yearOfEra.tdiv 100 + dayOfYear
  era * 146097 + dayOfEra - 719468

/-- What `parse_fractional_nanos` and `parse_fractional_millis` have in common: `width` digits are
read, scaled up where there are fewer, in an integer type with a limit. -/
def parseFractional (limit width : Nat) (segment : Text) : Option Nat :=
  match segment with
  | [] => some 0
  | '.' :: fractional =>
      if fractional = [] ∨ fractional.all Char.isDigit = false then none
      else
        let digits := Nat.ofDigitChars 10 (fractional.take width) 0
        let scale := width - min fractional.length width
        some (min limit (digits * min limit (10 ^ scale)))
  | _ => none

def parseFractionalNanos (segment : Text) : Option Nat := parseFractional u32Max 9 segment

def parseFractionalMillis (segment : Text) : Option Nat := parseFractional i64Max.toNat 3 segment

/-- `i64::saturating_mul` and `i64::saturating_add`. -/
def mul64 (a b : Int) : Int := max i64Min (min i64Max (a * b))

def add64 (a b : Int) : Int := max i64Min (min i64Max (a + b))

/-- The seconds since the epoch and what the fraction is read as. -/
def parseRfc3339 (parseFraction : Text → Option Nat) (value : Text) : Option (Int × Nat) :=
  if Bytes.size value < 20 ∨ value.getLast? ≠ some 'Z' ∨ hasRfc3339UtcLayout value = false then none
  else do
    let year ← Text.parseI32 (part value 0 4)
    let month ← parseU32 (part value 5 7)
    let day ← parseU32 (part value 8 10)
    let hour ← parseU32 (part value 11 13)
    let minute ← parseU32 (part value 14 16)
    let second ← parseU32 (part value 17 19)
    if isValidUtcDate year.val month day = false ∨ 23 < hour ∨ 59 < minute ∨ 59 < second then none
    else
      let fraction ← parseFraction (part value 19 (value.length - 1))
      let days := daysFromCivil year.val month day
      let seconds := add64 (add64 (add64 (mul64 days 86400) (hour * 3600)) (minute * 60)) second
      return (seconds, fraction)

inductive StreamIngestorError where
  | invalidPayload (message : Text)
  deriving DecidableEq

inductive RecentChangesError where
  | invalidResponse (message : Text)
  deriving DecidableEq

def unsupported (value : Text) : Text := "unsupported timestamp format: ".toList ++ value

/-- A number above ten billion is taken for milliseconds. -/
def normalizeUnixTimestampMs (value : Int) : Int :=
  if 10000000000 < value then value else mul64 value 1000

def parseRfc3339Utc (value : Text) : Option (Int × Nat) := parseRfc3339 parseFractionalNanos value

def parseTimestampText (value : Text) : Except StreamIngestorError Int :=
  match parseI64 value with
  | some number => .ok (normalizeUnixTimestampMs number)
  | none =>
    match parseRfc3339Utc value with
    | some (seconds, nanos) => .ok (add64 (mul64 seconds 1000) (nanos / 1000000 : Nat))
    | none => .error (.invalidPayload (unsupported value))

def parseRfc3339UtcToMs (value : Text) : Except RecentChangesError Int :=
  match parseRfc3339 parseFractionalMillis value with
  | some (seconds, fractionalMs) => .ok (add64 (mul64 seconds 1000) fractionalMs)
  | none => .error (.invalidResponse (unsupported value))

section Days

open Calendar

/-- The years before, counted by eras of 400 years that begin in March. -/
theorem eras (year : Nat) (days : Int) :
    let era := (year : Int).tdiv 400
    let yearOfEra := (year : Int) - era * 400
    era * 146097 + (yearOfEra * 365 + yearOfEra.tdiv 4 - yearOfEra.tdiv 100 + days) =
      365 * (year : Int) + ((year / 4 : Nat) : Int) - ((year / 100 : Nat) : Int) +
        ((year / 400 : Nat) : Int) + days := by
  dsimp only
  rw [Int.tdiv_eq_ediv_of_nonneg (a := year) (by omega), Int.tdiv_eq_ediv_of_nonneg (by omega),
    Int.tdiv_eq_ediv_of_nonneg (by omega)]
  omega

/-- From March on, the months before are counted by fifths of 153 days. -/
theorem fromMarch (year : Nat) {month : Nat} (low : 2 < month) (high : month ≤ 12) :
    (153 * ((month : Int) + -3) + 2).tdiv 5 + 59 + (if leap year then 1 else 0) =
      (daysBeforeMonth year month : Int) := by
  interval_cases month <;> cases h : leap year <;> simp [daysBeforeMonth, monthDays, h]

theorem beforeMarch (year : Nat) {month : Nat} (low : 1 ≤ month) (high : month ≤ 2) :
    (153 * ((month : Int) + 9) + 2).tdiv 5 = (daysBeforeMonth year month : Int) + 306 := by
  interval_cases month <;> simp [daysBeforeMonth, monthDays]

theorem daysFromCivil_eq {year month day : Nat} (low : 1 ≤ month) (high : month ≤ 12) :
    daysFromCivil year month day = dayNumber year month day := by
  have closed := daysBeforeYear_eq year
  have epoch := daysBeforeYear_eq 1970
  have january : daysBeforeMonth 1970 1 = 0 := rfl
  unfold daysFromCivil dayNumber
  by_cases march : 2 < month
  · have months := fromMarch year march high
    have rule := leap_iff year
    have whole := eras year ((153 * ((month : Int) + -3) + 2).tdiv 5 + day - 1)
    dsimp only at whole
    simp only [if_neg (Nat.not_le.mpr march), if_pos march, Int.sub_zero]
    rw [if_pos (by omega), whole]
    cases h : leap year with
    | true =>
        have cases := rule.mp h
        simp only [h, if_true] at months
        omega
    | false =>
        have cases := (not_congr rule).mp (by rw [h]; exact Bool.false_ne_true)
        simp only [h, Bool.false_eq_true, if_false] at months
        omega
  · have months := beforeMarch year low (by omega)
    simp only [if_pos (Nat.not_lt.mp march), if_neg march]
    cases year with
    | zero =>
        -- January and February of the year 0 belong to the era before.
        simp only [Nat.cast_zero, Int.zero_sub] at *
        rw [if_neg (by decide), months]
        have era : ((-1 : Int) - 399).tdiv 400 = -1 := by decide
        have rest : ((-1 : Int) - -1 * 400) = 399 := by decide
        rw [era, rest, show (399 : Int).tdiv 4 = 99 by decide,
          show (399 : Int).tdiv 100 = 3 by decide]
        omega
    | succ year =>
        have whole := eras year ((153 * ((month : Int) + 9) + 2).tdiv 5 + day - 1)
        dsimp only at whole
        have back : ((year + 1 : Nat) : Int) - 1 = year := by omega
        rw [back, if_pos (by omega), whole]
        omega

end Days

section Layout

/-- A numeral of so many digits. -/
structure Numeral (width : Nat) (text : Text) (n : Nat) : Prop where
  width : text.length = width
  digits : ∀ c ∈ text, c.isDigit = true
  value : Nat.ofDigitChars 10 text 0 = n

theorem stripLayout_digits {n : Nat} {marks value tail : Text} :
    stripLayout (List.replicate n '#' ++ marks) value = some tail ↔
      ∃ digits rest, value = digits ++ rest ∧ Numeral n digits (Nat.ofDigitChars 10 digits 0) ∧
        stripLayout marks rest = some tail := by
  induction n generalizing value with
  | zero =>
      constructor
      · intro stripped
        exact ⟨[], value, rfl, ⟨rfl, nofun, rfl⟩, stripped⟩
      · rintro ⟨digits, rest, rfl, numeral, stripped⟩
        rw [List.eq_nil_of_length_eq_zero numeral.width]
        exact stripped
  | succ n ih =>
      rw [List.replicate_succ, List.cons_append]
      constructor
      · intro stripped
        cases value with
        | nil => cases stripped
        | cons c value =>
            rw [stripLayout, if_pos rfl] at stripped
            split at stripped
            · next digit =>
                obtain ⟨digits, rest, rfl, numeral, stripped⟩ := ih.mp stripped
                refine ⟨c :: digits, rest, rfl, ⟨congrArg (· + 1) numeral.width, ?_, rfl⟩, stripped⟩
                exact List.forall_mem_cons.mpr ⟨digit, numeral.digits⟩
            · cases stripped
      · rintro ⟨digits, rest, rfl, numeral, stripped⟩
        cases digits with
        | nil => cases numeral.width
        | cons c digits =>
            obtain ⟨digit, digits'⟩ := List.forall_mem_cons.mp numeral.digits
            rw [List.cons_append, stripLayout, if_pos rfl, if_pos digit]
            exact ih.mpr ⟨digits, rest, rfl, ⟨Nat.succ.inj numeral.width, digits', rfl⟩, stripped⟩

theorem stripLayout_mark {mark : Char} (literal : mark ≠ '#') {marks value tail : Text} :
    stripLayout (mark :: marks) value = some tail ↔
      ∃ rest, value = mark :: rest ∧ stripLayout marks rest = some tail := by
  cases value with
  | nil =>
      refine iff_of_false nofun ?_
      rintro ⟨rest, none, -⟩
      cases none
  | cons c value =>
      rw [stripLayout, if_neg literal]
      split
      · next same =>
          rw [beq_iff_eq] at same
          subst same
          constructor
          · intro stripped
            exact ⟨value, rfl, stripped⟩
          · rintro ⟨rest, same, stripped⟩
            cases same
            exact stripped
      · next different =>
          refine iff_of_false nofun ?_
          rintro ⟨rest, same, -⟩
          cases same
          exact different (beq_self_eq_true _)

/-- The parts of a value with the layout: the fields in order, a fraction, and the `Z`. -/
structure LaidOut (yyyy mm dd hh mi ss rest value : Text) : Prop where
  year : Numeral 4 yyyy (Nat.ofDigitChars 10 yyyy 0)
  month : Numeral 2 mm (Nat.ofDigitChars 10 mm 0)
  day : Numeral 2 dd (Nat.ofDigitChars 10 dd 0)
  hour : Numeral 2 hh (Nat.ofDigitChars 10 hh 0)
  minute : Numeral 2 mi (Nat.ofDigitChars 10 mi 0)
  second : Numeral 2 ss (Nat.ofDigitChars 10 ss 0)
  behind : rest = [] ∨ ∃ digits : Text, rest = '.' :: digits ∧ ∀ c ∈ digits, c.isDigit = true
  whole : value = yyyy ++ '-' :: (mm ++ '-' :: (dd ++ 'T' :: (hh ++ ':' :: (mi ++ ':' ::
    (ss ++ (rest ++ ['Z']))))))

theorem hasRfc3339UtcLayout_iff {value : Text} : hasRfc3339UtcLayout value = true ↔
    ∃ yyyy mm dd hh mi ss rest, LaidOut yyyy mm dd hh mi ss rest value := by
  have marks : rfc3339Layout = List.replicate 4 '#' ++ '-' :: (List.replicate 2 '#' ++ '-' ::
      (List.replicate 2 '#' ++ 'T' :: (List.replicate 2 '#' ++ ':' ::
        (List.replicate 2 '#' ++ ':' :: (List.replicate 2 '#' ++ []))))) := rfl
  constructor
  · intro laid
    unfold hasRfc3339UtcLayout at laid
    split at laid
    · cases laid
    · next tail stripped =>
        rw [marks] at stripped
        obtain ⟨yyyy, _, rfl, year, stripped⟩ := stripLayout_digits.mp stripped
        obtain ⟨_, rfl, stripped⟩ := (stripLayout_mark (by decide)).mp stripped
        obtain ⟨mm, _, rfl, month, stripped⟩ := stripLayout_digits.mp stripped
        obtain ⟨_, rfl, stripped⟩ := (stripLayout_mark (by decide)).mp stripped
        obtain ⟨dd, _, rfl, day, stripped⟩ := stripLayout_digits.mp stripped
        obtain ⟨_, rfl, stripped⟩ := (stripLayout_mark (by decide)).mp stripped
        obtain ⟨hh, _, rfl, hour, stripped⟩ := stripLayout_digits.mp stripped
        obtain ⟨_, rfl, stripped⟩ := (stripLayout_mark (by decide)).mp stripped
        obtain ⟨mi, _, rfl, minute, stripped⟩ := stripLayout_digits.mp stripped
        obtain ⟨_, rfl, stripped⟩ := (stripLayout_mark (by decide)).mp stripped
        obtain ⟨ss, _, rfl, second, stripped⟩ := stripLayout_digits.mp stripped
        cases stripped
        obtain ⟨last, rest⟩ := Bool.and_eq_true_iff.mp laid
        have ends : tail.dropLast ++ ['Z'] = tail :=
          List.dropLast_append_getLast? 'Z' (of_decide_eq_true last)
        refine ⟨yyyy, mm, dd, hh, mi, ss, tail.dropLast, year, month, day, hour, minute, second, ?_,
          by rw [ends]⟩
        rcases Bool.or_eq_true_iff.mp rest with none | some
        · exact .inl (of_decide_eq_true none)
        · obtain ⟨dot, digits⟩ := Bool.and_eq_true_iff.mp some
          refine .inr ⟨tail.dropLast.tail, ?_, List.all_eq_true.mp digits⟩
          exact (List.cons_head?_tail (of_decide_eq_true dot)).symm
  · rintro ⟨yyyy, mm, dd, hh, mi, ss, rest, laid⟩
    have stripped : stripLayout rfc3339Layout value = some (rest ++ ['Z']) := by
      rw [marks, laid.whole]
      refine stripLayout_digits.mpr ⟨yyyy, _, rfl, laid.year, ?_⟩
      refine (stripLayout_mark (by decide)).mpr ⟨_, rfl, ?_⟩
      refine stripLayout_digits.mpr ⟨mm, _, rfl, laid.month, ?_⟩
      refine (stripLayout_mark (by decide)).mpr ⟨_, rfl, ?_⟩
      refine stripLayout_digits.mpr ⟨dd, _, rfl, laid.day, ?_⟩
      refine (stripLayout_mark (by decide)).mpr ⟨_, rfl, ?_⟩
      refine stripLayout_digits.mpr ⟨hh, _, rfl, laid.hour, ?_⟩
      refine (stripLayout_mark (by decide)).mpr ⟨_, rfl, ?_⟩
      refine stripLayout_digits.mpr ⟨mi, _, rfl, laid.minute, ?_⟩
      refine (stripLayout_mark (by decide)).mpr ⟨_, rfl, ?_⟩
      exact stripLayout_digits.mpr ⟨ss, _, rfl, laid.second, rfl⟩
    rw [hasRfc3339UtcLayout, stripped]
    dsimp only
    rw [List.dropLast_concat, List.getLast?_concat]
    rcases laid.behind with none | ⟨digits, dot, all⟩
    · simp [none]
    · simp [dot, List.all_eq_true.mpr all]

end Layout

section Fields

theorem part_here {field : Text} {n : Nat} (width : field.length = n) (back : Text) :
    part (field ++ back) 0 n = field := by
  rw [part, List.take_left' width, List.drop_zero]

theorem part_skip {front : Text} {n : Nat} (width : front.length = n) (text : Text)
    (start stop : Nat) : part (front ++ text) (n + start) (n + stop) = part text start stop := by
  subst width
  rw [part, part, List.take_length_add_append, List.drop_length_add_append]

theorem part_skip_mark {front : Text} {n : Nat} (width : front.length = n) (mark : Char)
    (text : Text) (start stop : Nat) :
    part (front ++ mark :: text) (n + 1 + start) (n + 1 + stop) = part text start stop := by
  have wider : (front ++ [mark]).length = n + 1 := by rw [List.length_append, width]; rfl
  rw [List.append_cons, part_skip wider]

variable {yyyy mm dd hh mi ss rest value : Text}

/-- The slices of the parsers are the fields. -/
theorem LaidOut.parts (laid : LaidOut yyyy mm dd hh mi ss rest value) :
    part value 0 4 = yyyy ∧ part value 5 7 = mm ∧ part value 8 10 = dd ∧ part value 11 13 = hh ∧
      part value 14 16 = mi ∧ part value 17 19 = ss ∧ part value 19 (value.length - 1) = rest := by
  obtain ⟨⟨y, -⟩, ⟨m, -⟩, ⟨d, -⟩, ⟨h, -⟩, ⟨n, -⟩, ⟨s, -⟩, -, rfl⟩ := laid
  have length : (yyyy ++ '-' :: (mm ++ '-' :: (dd ++ 'T' :: (hh ++ ':' :: (mi ++ ':' ::
      (ss ++ (rest ++ ['Z']))))))).length - 1 = 19 + rest.length := by
    simp [y, m, d, h, n, s]
    omega
  have behindYear := part_skip_mark y '-'
  have behindMonth := part_skip_mark m '-'
  have behindDay := part_skip_mark d 'T'
  have behindHour := part_skip_mark h ':'
  have behindMinute := part_skip_mark n ':'
  refine ⟨part_here y _, ?_, ?_, ?_, ?_, ?_, ?_⟩
  · exact (behindYear _ 0 2).trans (part_here m _)
  · exact (behindYear _ 3 5).trans ((behindMonth _ 0 2).trans (part_here d _))
  · exact (behindYear _ 6 8).trans ((behindMonth _ 3 5).trans ((behindDay _ 0 2).trans
      (part_here h _)))
  · exact (behindYear _ 9 11).trans ((behindMonth _ 6 8).trans ((behindDay _ 3 5).trans
      ((behindHour _ 0 2).trans (part_here n _))))
  · exact (behindYear _ 12 14).trans ((behindMonth _ 9 11).trans ((behindDay _ 6 8).trans
      ((behindHour _ 3 5).trans ((behindMinute _ 0 2).trans (part_here s _)))))
  · have total : 19 + rest.length =
      4 + 1 + (2 + 1 + (2 + 1 + (2 + 1 + (2 + 1 + (2 + rest.length))))) := by omega
    rw [length, total]
    exact (behindYear _ 14 _).trans ((behindMonth _ 11 _).trans ((behindDay _ 8 _).trans
      ((behindHour _ 5 _).trans ((behindMinute _ 2 _).trans ((part_skip s _ 0 _).trans
        (part_here rfl _))))))

theorem LaidOut.length (laid : LaidOut yyyy mm dd hh mi ss rest value) : 20 ≤ value.length := by
  rw [laid.whole]
  simp [laid.year.width, laid.month.width, laid.day.width, laid.hour.width, laid.minute.width,
    laid.second.width]
  omega

theorem ofDigitChars_lt {digits : Text} (all : ∀ c ∈ digits, c.isDigit = true) :
    Nat.ofDigitChars 10 digits 0 < 10 ^ digits.length := by
  induction digits with
  | nil => exact Nat.one_pos
  | cons c rest ih =>
      obtain ⟨digit, later⟩ := List.forall_mem_cons.mp all
      obtain ⟨-, high⟩ : 48 ≤ c.toNat ∧ c.toNat ≤ 57 := Char.isDigit_iff_toNat.mp digit
      have below := ih later
      have zero : '0'.toNat = 48 := rfl
      rw [Nat.ofDigitChars_cons, Nat.ofDigitChars_eq_ofDigitChars_zero, List.length_cons,
        Nat.pow_succ, zero, Nat.mul_zero, Nat.zero_add]
      have scaled : 10 ^ rest.length * (c.toNat - 48) ≤ 10 ^ rest.length * 9 :=
        Nat.mul_le_mul_left _ (by omega)
      omega

theorem Numeral.parseDigits {width n : Nat} {text : Text} (numeral : Numeral (width + 1) text n) :
    Text.parseDigits text = some n := by
  have inhabited : text ≠ [] := by
    rintro rfl
    cases numeral.width
  rw [Text.parseDigits, if_pos ⟨inhabited, List.all_eq_true.mpr numeral.digits⟩, numeral.value]

/-- A numeral has no sign. -/
theorem Numeral.unsigned {width n : Nat} {text : Text} (numeral : Numeral width text n) {c : Char}
    {rest : Text} (begins : text = c :: rest) : c ≠ '+' ∧ c ≠ '-' := by
  have digit := numeral.digits c (begins ▸ List.mem_cons_self)
  constructor
  · rintro rfl
    exact absurd digit (by decide)
  · rintro rfl
    exact absurd digit (by decide)

theorem Numeral.parseU32 {n : Nat} {text : Text} (numeral : Numeral 2 text n) :
    parseU32 text = some n := by
  have small := ofDigitChars_lt numeral.digits
  rw [numeral.value, numeral.width] at small
  have fits : n ≤ u32Max := by unfold u32Max; omega
  unfold Live.parseU32
  split
  · exact absurd rfl (numeral.unsigned rfl).1
  · dsimp only
    rw [numeral.parseDigits]
    exact Option.filter_some_pos (decide_eq_true fits)

theorem Numeral.parseI32 {n : Nat} {text : Text} (numeral : Numeral 4 text n) :
    ∃ z, Text.parseI32 text = some z ∧ z.val = n := by
  have small := ofDigitChars_lt numeral.digits
  rw [numeral.value, numeral.width] at small
  have range : i32Min ≤ (n : Int) ∧ (n : Int) ≤ i32Max := by unfold i32Min i32Max; omega
  have signed : Text.parseSigned text = some (n : Int) := by
    unfold Text.parseSigned
    split
    · exact absurd rfl (numeral.unsigned rfl).2
    · exact absurd rfl (numeral.unsigned rfl).1
    · rw [numeral.parseDigits]
      rfl
  exact ⟨⟨n, range⟩, by rw [Text.parseI32, signed, Option.bind_some, dif_pos range], rfl⟩

theorem isLeapYear_eq (year : Nat) : isLeapYear year = Calendar.leap year := by
  have rest (m : Nat) : (year : Int).tmod m = (year % m : Nat) := rfl
  unfold isLeapYear Calendar.leap
  rw [Bool.eq_iff_iff]
  have four := rest 4
  have hundred := rest 100
  have fourHundred := rest 400
  push_cast at four hundred fourHundred
  simp only [four, hundred, fourHundred, Bool.or_eq_true, Bool.and_eq_true, beq_iff_eq, bne_iff_ne]
  omega

theorem daysInMonth_eq (year : Nat) {month : Nat} (inYear : 1 ≤ month ∧ month ≤ 12) :
    daysInMonth year month = some (Calendar.monthDays year month) := by
  obtain ⟨low, high⟩ := inYear
  unfold daysInMonth Calendar.monthDays
  rw [isLeapYear_eq]
  interval_cases month <;> rfl

theorem isValidUtcDate_iff {year month day : Nat} :
    isValidUtcDate year month day = true ↔ Calendar.IsDate year month day := by
  unfold isValidUtcDate
  by_cases inYear : 1 ≤ month ∧ month ≤ 12
  · rw [daysInMonth_eq year inYear]
    dsimp only
    rw [decide_eq_true_iff]
    constructor
    · exact fun inMonth => ⟨inYear, inMonth⟩
    · exact fun date => date.inMonth
  · have unknown : daysInMonth year month = none := by
      have long : month ∉ [1, 3, 5, 7, 8, 10, 12] := by simp; omega
      have short : month ∉ [4, 6, 9, 11] := by simp; omega
      rw [daysInMonth, if_neg long, if_neg short, if_neg (by omega)]
    rw [unknown]
    exact iff_of_false Bool.false_ne_true fun date => inYear date.inYear

end Fields

section Fraction

/-- As many digits as are wanted, scaled up where there are fewer: the fraction, rounded down. -/
theorem take_scaled {digits : Text} (all : ∀ c ∈ digits, c.isDigit = true) (width : Nat) :
    Nat.ofDigitChars 10 (digits.take width) 0 * 10 ^ (width - min digits.length width) =
      Nat.ofDigitChars 10 digits 0 * 10 ^ width / 10 ^ digits.length := by
  rcases Nat.le_total digits.length width with few | many
  · rw [List.take_of_length_le few, Nat.min_eq_left few,
      Nat.mul_div_assoc _ (Nat.pow_dvd_pow 10 few), Nat.pow_div few (by decide)]
  · have later : ∀ c ∈ digits.drop width, c.isDigit = true := fun c inside =>
      all c (List.mem_of_mem_drop inside)
    have below := ofDigitChars_lt later
    have length : (digits.drop width).length = digits.length - width := List.length_drop
    have total : 10 ^ digits.length = 10 ^ (digits.length - width) * 10 ^ width := by
      rw [← Nat.pow_add, Nat.sub_add_cancel many]
    have parts : Nat.ofDigitChars 10 digits 0 =
        Nat.ofDigitChars 10 (digits.drop width) 0 +
          Nat.ofDigitChars 10 (digits.take width) 0 * 10 ^ (digits.length - width) := by
      conv_lhs => rw [← List.take_append_drop width digits]
      rw [Nat.ofDigitChars_append, Nat.ofDigitChars_eq_ofDigitChars_zero, length, Nat.mul_comm,
        Nat.add_comm]
    rw [length] at below
    rw [Nat.min_eq_right many, Nat.sub_self, Nat.pow_zero, Nat.mul_one, total,
      Nat.mul_div_mul_right _ _ (Nat.pow_pos (by decide)), parts,
      Nat.add_mul_div_right _ _ (Nat.pow_pos (by decide)), Nat.div_eq_of_lt below, Nat.zero_add]

variable {limit width : Nat} {digits : Text}

theorem parseFractional_digits (wide : 10 ^ width ≤ limit) (inhabited : digits ≠ [])
    (all : ∀ c ∈ digits, c.isDigit = true) : parseFractional limit width ('.' :: digits) =
      some (Nat.ofDigitChars 10 digits 0 * 10 ^ width / 10 ^ digits.length) := by
  have accepted : ¬ (digits = [] ∨ digits.all Char.isDigit = false) := by
    rintro (none | bad)
    · exact inhabited none
    · rw [List.all_eq_true.mpr all] at bad
      cases bad
  have scale : 10 ^ (width - min digits.length width) ≤ limit :=
    (Nat.pow_le_pow_right (by decide) (Nat.sub_le _ _)).trans wide
  have small : Nat.ofDigitChars 10 digits 0 * 10 ^ width / 10 ^ digits.length ≤ limit := by
    have below := ofDigitChars_lt all
    refine Nat.le_trans ?_ wide
    exact Nat.div_le_of_le_mul (Nat.mul_le_mul_right _ (Nat.le_of_lt below))
  rw [parseFractional, if_neg accepted]
  dsimp only
  rw [Nat.min_eq_right scale, take_scaled all, Nat.min_eq_right small]

end Fraction

/-- A point in time as the layout writes it, with the digits of its fraction. -/
structure Stamp where
  year : Nat
  month : Nat
  day : Nat
  hour : Nat
  minute : Nat
  second : Nat
  fraction : Option Text

namespace Stamp

structure IsValid (stamp : Stamp) : Prop where
  date : Calendar.IsDate stamp.year stamp.month stamp.day
  hour : stamp.hour ≤ 23
  minute : stamp.minute ≤ 59
  second : stamp.second ≤ 59

def fractionText : Option Text → Text
  | none => []
  | some digits => '.' :: digits

/-- The text is the stamp as `YYYY-MM-DDTHH:MM:SS[.digits]Z`. -/
def IsWritten (stamp : Stamp) (value : Text) : Prop :=
  (∀ digits, stamp.fraction = some digits → digits ≠ [] ∧ ∀ c ∈ digits, c.isDigit = true) ∧
    ∃ yyyy mm dd hh mi ss, Numeral 4 yyyy stamp.year ∧ Numeral 2 mm stamp.month ∧
      Numeral 2 dd stamp.day ∧ Numeral 2 hh stamp.hour ∧ Numeral 2 mi stamp.minute ∧
      Numeral 2 ss stamp.second ∧
      value = yyyy ++ '-' :: (mm ++ '-' :: (dd ++ 'T' :: (hh ++ ':' :: (mi ++ ':' ::
        (ss ++ (fractionText stamp.fraction ++ ['Z']))))))

/-- The whole seconds since the beginning of 1970. -/
def seconds (stamp : Stamp) : Int :=
  Calendar.dayNumber stamp.year stamp.month stamp.day * 86400 + stamp.hour * 3600 +
    stamp.minute * 60 + stamp.second

/-- The fraction in units of `10 ^ -width`, rounded down. -/
def subsecond (stamp : Stamp) (width : Nat) : Nat :=
  match stamp.fraction with
  | none => 0
  | some digits => Nat.ofDigitChars 10 digits 0 * 10 ^ width / 10 ^ digits.length

def millis (stamp : Stamp) : Int := stamp.seconds * 1000 + stamp.subsecond 3

/-- The years of four digits are far from the ends of an `i64`. -/
theorem IsValid.day_small {stamp : Stamp} (valid : stamp.IsValid) (year : stamp.year < 10000) :
    -720000 ≤ Calendar.dayNumber stamp.year stamp.month stamp.day ∧
      Calendar.dayNumber stamp.year stamp.month stamp.day ≤ 4000000 := by
  obtain ⟨⟨inYear, inMonth⟩, -, -, -⟩ := valid
  have months := Calendar.daysBeforeMonth_le stamp.year stamp.month
  have days := Calendar.monthDays_le stamp.year stamp.month
  have years := Calendar.daysBeforeYear_eq stamp.year
  have epoch := Calendar.daysBeforeYear_eq 1970
  have january : Calendar.daysBeforeMonth 1970 1 = 0 := rfl
  unfold Calendar.dayNumber
  omega

theorem IsWritten.year_small {stamp : Stamp} {value : Text} (written : stamp.IsWritten value) :
    stamp.year < 10000 := by
  obtain ⟨-, yyyy, mm, dd, hh, mi, ss, year, -⟩ := written
  have small := ofDigitChars_lt year.digits
  rw [year.value, year.width] at small
  exact small

theorem IsWritten.digits_lt {stamp : Stamp} {value digits : Text} (written : stamp.IsWritten value)
    (some : stamp.fraction = some digits) : Nat.ofDigitChars 10 digits 0 < 10 ^ digits.length :=
  ofDigitChars_lt (written.1 digits some).2

theorem IsWritten.subsecond_lt {stamp : Stamp} {value : Text} (written : stamp.IsWritten value)
    (width : Nat) : stamp.subsecond width < 10 ^ width := by
  unfold subsecond
  split
  · exact Nat.pow_pos (by decide)
  · next digits some =>
      have below := written.digits_lt some
      rw [Nat.div_lt_iff_lt_mul (Nat.pow_pos (by decide)), Nat.mul_comm (10 ^ width)]
      exact Nat.mul_lt_mul_of_pos_right below (Nat.pow_pos (by decide))

/-- The nanoseconds cut down to milliseconds are the milliseconds. -/
theorem subsecond_div (stamp : Stamp) (width more : Nat) :
    stamp.subsecond (width + more) / 10 ^ more = stamp.subsecond width := by
  unfold subsecond
  split
  · exact Nat.zero_div _
  · rw [Nat.div_div_eq_div_mul, Nat.pow_add, ← Nat.mul_assoc,
      Nat.mul_div_mul_right _ _ (Nat.pow_pos (by decide))]

end Stamp

section Parsers

variable {yyyy mm dd hh mi ss rest value : Text}

/-- Nothing saturates on a date of four digits. -/
theorem seconds_eq {stamp : Stamp} (valid : stamp.IsValid) (year : stamp.year < 10000) :
    add64 (add64 (add64 (mul64 (daysFromCivil stamp.year stamp.month stamp.day) 86400)
      (stamp.hour * 3600)) (stamp.minute * 60)) stamp.second = stamp.seconds := by
  obtain ⟨low, high⟩ := valid.day_small year
  obtain ⟨date, hour, minute, second⟩ := valid
  rw [daysFromCivil_eq date.inYear.1 date.inYear.2]
  unfold add64 mul64 i64Min i64Max Stamp.seconds
  omega

theorem millis_eq {stamp : Stamp} (written : stamp.IsWritten value) (valid : stamp.IsValid) :
    add64 (mul64 stamp.seconds 1000) (stamp.subsecond 3 : Nat) = stamp.millis := by
  obtain ⟨low, high⟩ := valid.day_small written.year_small
  obtain ⟨date, hour, minute, second⟩ := valid
  have fraction := written.subsecond_lt 3
  unfold add64 mul64 i64Min i64Max Stamp.millis Stamp.seconds
  omega

/-- The parsers read the fields of a value with the layout. -/
theorem LaidOut.parseRfc3339 (laid : LaidOut yyyy mm dd hh mi ss rest value) {stamp : Stamp}
    (year : Numeral 4 yyyy stamp.year) (month : Numeral 2 mm stamp.month)
    (day : Numeral 2 dd stamp.day) (hour : Numeral 2 hh stamp.hour)
    (minute : Numeral 2 mi stamp.minute) (second : Numeral 2 ss stamp.second)
    (parseFraction : Text → Option Nat) {seconds : Int} {fraction : Nat} :
    parseRfc3339 parseFraction value = some (seconds, fraction) ↔
      stamp.IsValid ∧ seconds = stamp.seconds ∧ parseFraction rest = some fraction := by
  have ends : value.getLast? = some 'Z' := by
    rw [laid.whole]
    simp only [← List.cons_append, ← List.append_assoc]
    exact List.getLast?_concat
  have small := ofDigitChars_lt year.digits
  rw [year.value, year.width] at small
  have accepted : ¬ (Bytes.size value < 20 ∨ value.getLast? ≠ some 'Z' ∨
      hasRfc3339UtcLayout value = false) := by
    have long := laid.length
    have bytes := Bytes.length_le_size value
    have layout := hasRfc3339UtcLayout_iff.mpr ⟨_, _, _, _, _, _, _, laid⟩
    rintro (short | last | bad)
    · omega
    · exact last ends
    · rw [layout] at bad
      cases bad
  obtain ⟨atYear, atMonth, atDay, atHour, atMinute, atSecond, behind⟩ := laid.parts
  obtain ⟨z, read, same⟩ := year.parseI32
  rw [Live.parseRfc3339, if_neg accepted, atYear, atMonth, atDay, atHour, atMinute, atSecond,
    behind, read, month.parseU32, day.parseU32, hour.parseU32, minute.parseU32, second.parseU32]
  simp only [Option.bind_eq_bind, Option.bind_some, same]
  split
  · next bad =>
      refine iff_of_false nofun ?_
      rintro ⟨valid, -, -⟩
      obtain ⟨date, hour, minute, second⟩ := valid
      rw [isValidUtcDate_iff.mpr date] at bad
      simp only [Bool.true_eq_false, false_or] at bad
      omega
  · next good =>
      have valid : stamp.IsValid := by
        rw [not_or, Bool.not_eq_false, isValidUtcDate_iff] at good
        obtain ⟨date, clock⟩ := good
        exact ⟨date, by omega, by omega, by omega⟩
      rw [seconds_eq valid small]
      constructor
      · intro read
        obtain ⟨n, fraction, pair⟩ := Option.bind_eq_some_iff.mp read
        obtain ⟨whole, rfl⟩ := Prod.mk.inj (Option.some.inj pair)
        exact ⟨valid, whole.symm, fraction⟩
      · rintro ⟨-, whole, fraction⟩
        rw [fraction, Option.bind_some, Option.pure_def, whole]

/-- Both parsers read exactly the stamps that are written and valid. -/
theorem parseRfc3339_eq_some_iff {limit width : Nat} (wide : 10 ^ width ≤ limit) {seconds : Int}
    {fraction : Nat} : parseRfc3339 (parseFractional limit width) value = some (seconds, fraction) ↔
      ∃ stamp : Stamp, stamp.IsWritten value ∧ stamp.IsValid ∧ seconds = stamp.seconds ∧
        fraction = stamp.subsecond width := by
  constructor
  · intro read
    have layout : hasRfc3339UtcLayout value = true := by
      by_contra bad
      rw [Live.parseRfc3339, if_pos (.inr (.inr (Bool.eq_false_of_not_eq_true bad)))] at read
      cases read
    obtain ⟨yyyy, mm, dd, hh, mi, ss, rest, laid⟩ := hasRfc3339UtcLayout_iff.mp layout
    have reading (digits : Option Text) := (@LaidOut.parseRfc3339 _ _ _ _ _ _ _ _ laid
      ⟨_, _, _, _, _, _, digits⟩ laid.year laid.month laid.day laid.hour laid.minute laid.second _ _
      _).mp read
    rcases laid.behind with empty | ⟨digits, point, all⟩
    · obtain ⟨valid, whole, part⟩ := reading none
      rw [empty] at part
      refine ⟨_, ⟨?_, yyyy, mm, dd, hh, mi, ss, laid.year, laid.month, laid.day, laid.hour,
        laid.minute, laid.second, ?_⟩, valid, whole, (Option.some.inj part).symm⟩
      · intro other same
        cases same
      · rw [laid.whole, empty]
        rfl
    · obtain ⟨valid, whole, part⟩ := reading (some digits)
      rw [point] at part
      have inhabited : digits ≠ [] := by
        rintro rfl
        cases part
      rw [parseFractional_digits wide inhabited all] at part
      refine ⟨_, ⟨?_, yyyy, mm, dd, hh, mi, ss, laid.year, laid.month, laid.day, laid.hour,
        laid.minute, laid.second, ?_⟩, valid, whole, (Option.some.inj part).symm⟩
      · intro other same
        rw [← Option.some.inj same]
        exact ⟨inhabited, all⟩
      · rw [laid.whole, point]
        rfl
  · rintro ⟨stamp, ⟨fractional, yyyy, mm, dd, hh, mi, ss, year, month, day, hour, minute, second,
      whole⟩, valid, seconds, rfl⟩
    have laid : LaidOut yyyy mm dd hh mi ss (Stamp.fractionText stamp.fraction) value := by
      refine ⟨⟨year.width, year.digits, rfl⟩, ⟨month.width, month.digits, rfl⟩,
        ⟨day.width, day.digits, rfl⟩, ⟨hour.width, hour.digits, rfl⟩,
        ⟨minute.width, minute.digits, rfl⟩, ⟨second.width, second.digits, rfl⟩, ?_, whole⟩
      cases some : stamp.fraction with
      | none => exact .inl rfl
      | some digits => exact .inr ⟨digits, rfl, (fractional digits some).2⟩
    refine (laid.parseRfc3339 year month day hour minute second _).mpr ⟨valid, seconds, ?_⟩
    unfold Stamp.subsecond
    cases some : stamp.fraction with
    | none => rfl
    | some digits =>
        obtain ⟨inhabited, all⟩ := fractional digits some
        exact parseFractional_digits wide inhabited all

theorem parseTimestampText_eq_ok_iff (word : parseI64 value = none) {t : Int} :
    parseTimestampText value = .ok t ↔
      ∃ stamp : Stamp, stamp.IsWritten value ∧ stamp.IsValid ∧ t = stamp.millis := by
  have wide : 10 ^ 9 ≤ u32Max := by decide
  rw [parseTimestampText, word]
  dsimp only
  constructor
  · intro parsed
    split at parsed
    · next seconds nanos read =>
        obtain ⟨stamp, written, valid, whole, part⟩ := (parseRfc3339_eq_some_iff wide).mp read
        refine ⟨stamp, written, valid, ?_⟩
        have cut : stamp.subsecond 9 / 1000000 = stamp.subsecond 3 := stamp.subsecond_div 3 6
        rw [← Except.ok.inj parsed, whole, part, cut]
        exact millis_eq written valid
    · cases parsed
  · rintro ⟨stamp, written, valid, time⟩
    have read := (parseRfc3339_eq_some_iff wide).mpr ⟨stamp, written, valid, rfl, rfl⟩
    have nanos : parseRfc3339Utc value = some (stamp.seconds, stamp.subsecond 9) := read
    rw [nanos]
    have cut : stamp.subsecond 9 / 1000000 = stamp.subsecond 3 := stamp.subsecond_div 3 6
    dsimp only
    rw [cut, millis_eq written valid, time]

theorem parseRfc3339UtcToMs_eq_ok_iff {t : Int} : parseRfc3339UtcToMs value = .ok t ↔
    ∃ stamp : Stamp, stamp.IsWritten value ∧ stamp.IsValid ∧ t = stamp.millis := by
  have wide : 10 ^ 3 ≤ i64Max.toNat := by decide
  rw [parseRfc3339UtcToMs]
  constructor
  · intro parsed
    split at parsed
    · next seconds part read =>
        obtain ⟨stamp, written, valid, whole, part⟩ := (parseRfc3339_eq_some_iff wide).mp read
        refine ⟨stamp, written, valid, ?_⟩
        rw [← Except.ok.inj parsed, whole, part]
        exact millis_eq written valid
    · cases parsed
  · rintro ⟨stamp, written, valid, time⟩
    have read := (parseRfc3339_eq_some_iff wide).mpr ⟨stamp, written, valid, rfl, rfl⟩
    have millis : parseRfc3339 parseFractionalMillis value =
      some (stamp.seconds, stamp.subsecond 3) := read
    rw [millis]
    dsimp only
    rw [millis_eq written valid, time]

/-- Where the text is no number, the two parsers accept the same timestamps, and their result is
the time since the beginning of 1970. -/
theorem timestamps_agree (word : parseI64 value = none) (t : Int) :
    (parseTimestampText value = .ok t ↔ parseRfc3339UtcToMs value = .ok t) ∧
      (parseRfc3339UtcToMs value = .ok t ↔
        ∃ stamp : Stamp, stamp.IsWritten value ∧ stamp.IsValid ∧ t = stamp.millis) :=
  ⟨(parseTimestampText_eq_ok_iff word).trans parseRfc3339UtcToMs_eq_ok_iff.symm,
    parseRfc3339UtcToMs_eq_ok_iff⟩

theorem timestamps_agree_leap_day :
    parseI64 "2024-02-29T12:34:56.7891Z".toList = none ∧
      parseTimestampText "2024-02-29T12:34:56.7891Z".toList = .ok 1709210096789 ∧
      ∃ stamp : Stamp, stamp.IsWritten "2024-02-29T12:34:56.7891Z".toList ∧ stamp.IsValid ∧
        1709210096789 = stamp.millis := by
  have word : parseI64 "2024-02-29T12:34:56.7891Z".toList = none := by decide
  have parsed : parseTimestampText "2024-02-29T12:34:56.7891Z".toList = .ok 1709210096789 := by
    decide +kernel
  have agree := timestamps_agree word 1709210096789
  exact ⟨word, parsed, agree.2.mp (agree.1.mp parsed)⟩

end Parsers

end SP42.Live

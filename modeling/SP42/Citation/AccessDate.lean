import SP42.Live.Timestamp

/-!
The access date of a repaired citation: the civil date of a timestamp. The conversion divides by
eras of 400 years that begin in March, and undoes the count of days of the timestamp parsers.
-/
namespace SP42.Citation

/-- The result of an operation on `i64`; out of range it overflows. -/
def inI64 (z : Int) : Option Int := if i64Min ≤ z ∧ z ≤ i64Max then some z else none

/-- `{:0width$}` of an integer. -/
def zeroPadded (width : Nat) : Int → Text
  | .ofNat n => (Text.ofNat n).leftpad width '0'
  | .negSucc n => '-' :: (Text.ofNat (n + 1)).leftpad (width - 1) '0'

/-- The plain divisions truncate; `div_euclid` and `rem_euclid` round down. -/
def isoDateFromEpochMs (epochMs : Int) : Option Text := do
  let days := epochMs / 86400000
  let z ← inI64 (days + 719468)
  let era := z / 146097
  let doe := z % 146097
  let short ← inI64 (doe - doe.tdiv 1460)
  let short ← inI64 (short + doe.tdiv 36524)
  let short ← inI64 (short - doe.tdiv 146096)
  let yoe := short.tdiv 365
  let past ← inI64 (365 * yoe)
  let past ← inI64 (past + yoe.tdiv 4)
  let past ← inI64 (past - yoe.tdiv 100)
  let doy ← inI64 (doe - past)
  let fifths ← inI64 (5 * doy)
  let fifths ← inI64 (fifths + 2)
  let mp := fifths.tdiv 153
  let before ← inI64 (153 * mp)
  let before ← inI64 (before + 2)
  let day ← inI64 (doy - before.tdiv 5)
  let day ← inI64 (day + 1)
  let month ← inI64 (if mp < 10 then mp + 3 else mp - 9)
  let years ← inI64 (era * 400)
  let year ← inI64 (yoe + years)
  let year ← inI64 (year + if month ≤ 2 then 1 else 0)
  return zeroPadded 4 year ++ '-' :: (zeroPadded 2 month ++ '-' :: zeroPadded 2 day)

section Eras

/-- The day of an era of 400 years that begin in March. -/
def dayOfEra (yearOfEra dayOfYear : Int) : Int :=
  yearOfEra * 365 + yearOfEra / 4 - yearOfEra / 100 + dayOfYear

/-- A day in a year of the era; only a leap year has the last one. -/
structure InEra (yearOfEra dayOfYear : Int) : Prop where
  year : 0 ≤ yearOfEra ∧ yearOfEra < 400
  day : 0 ≤ dayOfYear ∧ dayOfYear ≤ 365
  last : dayOfYear = 365 → (yearOfEra + 1) % 4 = 0 ∧
    ((yearOfEra + 1) % 100 ≠ 0 ∨ (yearOfEra + 1) % 400 = 0)

variable {yearOfEra dayOfYear : Int}

theorem InEra.dayOfEra_bounds (inEra : InEra yearOfEra dayOfYear) :
    0 ≤ dayOfEra yearOfEra dayOfYear ∧ dayOfEra yearOfEra dayOfYear < 146097 := by
  obtain ⟨year, day, last⟩ := inEra
  unfold dayOfEra
  by_cases final : dayOfYear = 365
  · have leap := last final
    omega
  · omega

/-- The centuries of an era are of the same length, but for the last day of the last. -/
theorem century_quotients {century s : Int} (low : 0 ≤ century ∧ century ≤ 3)
    (days : 0 ≤ s ∧ s ≤ 36524) (final : s = 36524 → century = 3) :
    (36524 * century + s) / 36524 - (36524 * century + s) / 146096 = century := by
  rcases Int.lt_or_eq_of_le days.2 with short | long
  · have hundreds : (36524 * century + s) / 36524 = century := by omega
    have eras : (36524 * century + s) / 146096 = 0 := by omega
    omega
  · rw [long, final long]
    decide

/-- The four-year cycles are of the same length, but for the centuries and the leap days. -/
theorem cycle_quotient {century cycle odd day : Int} (centuries : 0 ≤ century ∧ century ≤ 3)
    (cycles : 0 ≤ cycle ∧ cycle ≤ 24) (odds : 0 ≤ odd ∧ odd ≤ 3) (days : 0 ≤ day ∧ day ≤ 365)
    (leap : day = 365 → odd = 3) :
    ∃ extra, (36524 * century + (1461 * cycle + 365 * odd + day)) / 1460 =
      25 * century + cycle + extra ∧ 0 ≤ day - extra ∧ day - extra ≤ 364 := by
  refine ⟨(24 * century + cycle + 365 * odd + day) / 1460, by omega, ?_⟩
  by_cases last : day = 365
  · have three := leap last
    omega
  · omega

/-- The year of the era is found again from the day of the era. -/
theorem InEra.yearOfEra_eq (inEra : InEra yearOfEra dayOfYear) :
    let doe := dayOfEra yearOfEra dayOfYear
    (doe - doe / 1460 + doe / 36524 - doe / 146096) / 365 = yearOfEra := by
  obtain ⟨year, day, last⟩ := inEra
  obtain ⟨century, cycle, odd, split, centuries, cycles, odds⟩ : ∃ century cycle odd,
      yearOfEra = 100 * century + 4 * cycle + odd ∧ (0 ≤ century ∧ century ≤ 3) ∧
      (0 ≤ cycle ∧ cycle ≤ 24) ∧ 0 ≤ odd ∧ odd ≤ 3 :=
    ⟨yearOfEra / 100, yearOfEra % 100 / 4, yearOfEra % 4, by omega, by omega, by omega, by omega⟩
  have count : dayOfEra yearOfEra dayOfYear =
      36524 * century + (1461 * cycle + 365 * odd + dayOfYear) := by
    unfold dayOfEra
    omega
  have leap : dayOfYear = 365 → odd = 3 ∧ (cycle = 24 → century = 3) := by
    intro leap
    obtain ⟨four, hundred⟩ := last leap
    rw [split] at four hundred
    clear last count split year day leap
    refine ⟨by omega, ?_⟩
    rintro rfl
    rcases hundred with no | whole
    · exact absurd (by omega) no
    · omega
  clear last
  have final : 1461 * cycle + 365 * odd + dayOfYear = 36524 → century = 3 := by
    intro full
    by_cases last : dayOfYear = 365
    · exact (leap last).2 (by omega)
    · omega
  have most : 1461 * cycle + 365 * odd + dayOfYear ≤ 36524 := by omega
  have hundreds := century_quotients centuries ⟨by omega, most⟩ final
  obtain ⟨extra, fours, spare⟩ := cycle_quotient centuries cycles odds day fun last => (leap last).1
  dsimp only
  rw [count, fours]
  generalize (36524 * century + (1461 * cycle + 365 * odd + dayOfYear)) / 36524 = upper
    at hundreds ⊢
  generalize (36524 * century + (1461 * cycle + 365 * odd + dayOfYear)) / 146096 = lower
    at hundreds ⊢
  clear fours final leap most count
  omega

/-- The year that begins in March, which a date lies in. -/
def marchYear (year month : Nat) : Int := (year : Int) - if month ≤ 2 then 1 else 0

/-- The month, counted from March. -/
def marchMonth (month : Nat) : Int := (month : Int) + if 2 < month then -3 else 9

def marchDay (month day : Nat) : Int := (153 * marchMonth month + 2) / 5 + day - 1

variable {year month day : Nat}

theorem marchMonth_bounds (inYear : 1 ≤ month ∧ month ≤ 12) :
    0 ≤ marchMonth month ∧ marchMonth month ≤ 11 := by
  unfold marchMonth
  split <;> omega

theorem day_le (date : Calendar.IsDate year month day) (other : month ≠ 2) :
    (month = 4 ∨ month = 6 ∨ month = 9 ∨ month = 11 → day ≤ 30) ∧ day ≤ 31 := by
  have most := date.inMonth.2
  refine ⟨fun short => ?_, Nat.le_trans most (Calendar.monthDays_le year month)⟩
  have listed : month ∈ [4, 6, 9, 11] := by simpa using short
  rwa [Calendar.monthDays, if_neg other, if_pos listed] at most

/-- Only 29 February is the 366th day of its year. -/
theorem marchDay_bounds (date : Calendar.IsDate year month day) :
    0 ≤ marchDay month day ∧ marchDay month day ≤ 365 ∧
      (marchDay month day = 365 → month = 2 ∧ Calendar.leap year = true) := by
  have ⟨⟨first, last⟩, one, most⟩ := date
  unfold Calendar.monthDays at most
  unfold marchDay marchMonth
  by_cases february : month = 2
  · subst february
    cases isLeap : Calendar.leap year with
    | true =>
        rw [if_pos rfl, isLeap, if_pos rfl] at most
        simp only [Nat.lt_irrefl, if_false, Nat.cast_ofNat]
        exact ⟨by omega, by omega, fun _ => ⟨trivial, trivial⟩⟩
    | false =>
        rw [if_pos rfl, isLeap, if_neg Bool.false_ne_true] at most
        simp only [Nat.lt_irrefl, if_false, Nat.cast_ofNat]
        omega
  · rw [if_neg february] at most
    obtain ⟨short, long⟩ := day_le date february
    clear date most
    interval_cases month
    case «2» => exact absurd rfl february
    all_goals
      simp only [Nat.reduceLT, if_true, if_false]
      omega

/-- A date lies in its era. -/
theorem inEra_of_isDate (date : Calendar.IsDate year month day) :
    InEra (marchYear year month % 400) (marchDay month day) := by
  obtain ⟨low, high, last⟩ := marchDay_bounds date
  refine ⟨by omega, ⟨low, high⟩, fun final => ?_⟩
  obtain ⟨february, isLeap⟩ := last final
  have rule := (Calendar.leap_iff year).mp isLeap
  have before : marchYear year month = (year : Int) - 1 := by
    rw [marchYear, february]
    rfl
  rw [before]
  clear low high last final date before
  omega

theorem floor_era (a : Int) : (if 0 ≤ a then a else a - 399).tdiv 400 = a / 400 := by
  split
  · exact Int.tdiv_eq_ediv_of_nonneg ‹_›
  · next negative =>
      have back : a - 399 = -(399 - a) := by omega
      rw [back, Int.neg_tdiv, Int.tdiv_eq_ediv_of_nonneg (by omega)]
      omega

/-- The days to a date, counted by eras. -/
theorem dayNumber_eras (date : Calendar.IsDate year month day) :
    Calendar.dayNumber year month day + 719468 =
      marchYear year month / 400 * 146097 +
        dayOfEra (marchYear year month % 400) (marchDay month day) := by
  have months := marchMonth_bounds date.inYear
  have rest : marchYear year month - marchYear year month / 400 * 400 =
    marchYear year month % 400 := by omega
  have nonneg : 0 ≤ marchYear year month % 400 := by omega
  have counted : Live.daysFromCivil year month day =
      marchYear year month / 400 * 146097 +
        dayOfEra (marchYear year month % 400) (marchDay month day) - 719468 := by
    unfold Live.daysFromCivil
    dsimp only
    rw [← marchYear, ← marchMonth, floor_era, rest, Int.tdiv_eq_ediv_of_nonneg nonneg,
      Int.tdiv_eq_ediv_of_nonneg nonneg, Int.tdiv_eq_ediv_of_nonneg (by omega)]
    rfl
  rw [← Live.daysFromCivil_eq date.inYear.1 date.inYear.2, counted]
  omega

/-- Every day of an era is a day of one of its years. -/
theorem exists_inEra {doe : Int} (low : 0 ≤ doe) (high : doe < 146097) :
    ∃ yearOfEra dayOfYear, InEra yearOfEra dayOfYear ∧ dayOfEra yearOfEra dayOfYear = doe := by
  obtain ⟨century, r, split, centuries, days, last⟩ : ∃ century r, doe = 36524 * century + r ∧
      (0 ≤ century ∧ century ≤ 3) ∧ (0 ≤ r ∧ r ≤ 36524) ∧ (r = 36524 → century = 3) :=
    ⟨min (doe / 36524) 3, doe - 36524 * min (doe / 36524) 3, by omega, by omega, by omega, by omega⟩
  obtain ⟨cycle, s, split', cycles, days', last'⟩ : ∃ cycle s, r = 1461 * cycle + s ∧
      (0 ≤ cycle ∧ cycle ≤ 24) ∧ (0 ≤ s ∧ s ≤ 1460) ∧ (s = 1460 → cycle = 24 → r = 36524) :=
    ⟨r / 1461, r % 1461, by omega, by omega, by omega, by omega⟩
  obtain ⟨odd, day, split'', odds, days'', last''⟩ : ∃ odd day, s = 365 * odd + day ∧
      (0 ≤ odd ∧ odd ≤ 3) ∧ (0 ≤ day ∧ day ≤ 365) ∧ (day = 365 → odd = 3 ∧ s = 1460) :=
    ⟨min (s / 365) 3, s - 365 * min (s / 365) 3, by omega, by omega, by omega, by omega⟩
  refine ⟨100 * century + 4 * cycle + odd, day, ⟨by omega, days'', fun final => ?_⟩, ?_⟩
  · obtain ⟨three, full⟩ := last'' final
    have century' := fun closes => last (last' full closes)
    clear split split' split'' last last' last'' days days' days'' full final low high
    by_cases closes : cycle = 24
    · rw [century' closes, closes, three]
      decide
    · omega
  · unfold dayOfEra
    have quarters : (100 * century + 4 * cycle + odd) / 4 = 25 * century + cycle := by omega
    have hundreds : (100 * century + 4 * cycle + odd) / 100 = century := by omega
    rw [quarters, hundreds, split, split', split'']
    omega

end Eras

section Fields

theorem inI64_small {z : Int} (low : -1000000000000 ≤ z) (high : z ≤ 1000000000000) :
    inI64 z = some z := by
  refine if_pos ⟨?_, ?_⟩
  · unfold i64Min
    omega
  · unfold i64Max
    omega

theorem inI64_bind {β : Type} {z : Int} {f : Int → Option β} (low : -1000000000000 ≤ z)
    (high : z ≤ 1000000000000) : (inI64 z >>= f) = f z := by
  rw [inI64_small low high]
  rfl

/-- The date that the conversion writes for a day of an era. -/
def eraDate (era yearOfEra dayOfYear : Int) : Text :=
  let mp := (5 * dayOfYear + 2) / 153
  let month := if mp < 10 then mp + 3 else mp - 9
  zeroPadded 4 (yearOfEra + era * 400 + if month ≤ 2 then 1 else 0) ++ '-' ::
    (zeroPadded 2 month ++ '-' :: zeroPadded 2 (dayOfYear - (153 * mp + 2) / 5 + 1))

/-- Nothing overflows on the way to the date. -/
theorem isoDateFromEpochMs_eq {epochMs era yearOfEra dayOfYear : Int} (low : i64Min ≤ epochMs)
    (high : epochMs ≤ i64Max) (inEra : InEra yearOfEra dayOfYear)
    (day : epochMs / 86400000 + 719468 = era * 146097 + dayOfEra yearOfEra dayOfYear) :
    isoDateFromEpochMs epochMs = some (eraDate era yearOfEra dayOfYear) := by
  have found := inEra.yearOfEra_eq
  obtain ⟨first, last⟩ := inEra.dayOfEra_bounds
  obtain ⟨year, days, -⟩ := inEra
  have counted : dayOfEra yearOfEra dayOfYear -
      (365 * yearOfEra + yearOfEra / 4 - yearOfEra / 100) = dayOfYear := by
    unfold dayOfEra
    omega
  unfold i64Min at low
  unfold i64Max at high
  unfold isoDateFromEpochMs
  dsimp only at found ⊢
  rw [day]
  have eras : -1000000 ≤ era ∧ era ≤ 1000000 := by omega
  clear low high day
  generalize dayOfEra yearOfEra dayOfYear = doe at *
  have whole : (era * 146097 + doe) / 146097 = era := by omega
  have rest : (era * 146097 + doe) % 146097 = doe := by omega
  have short : 0 ≤ doe - doe / 1460 + doe / 36524 - doe / 146096 ∧
    doe - doe / 1460 + doe / 36524 - doe / 146096 ≤ 1000000 := by omega
  rw [inI64_bind (by omega) (by omega), whole, rest, Int.tdiv_eq_ediv_of_nonneg (a := doe) first,
    Int.tdiv_eq_ediv_of_nonneg (a := doe) first, Int.tdiv_eq_ediv_of_nonneg (a := doe) first,
    inI64_bind (by omega) (by omega), inI64_bind (by omega) (by omega),
    inI64_bind (by omega) (by omega), Int.tdiv_eq_ediv_of_nonneg short.1, found]
  clear found short whole rest
  rw [inI64_bind (by omega) (by omega), Int.tdiv_eq_ediv_of_nonneg (a := yearOfEra) year.1,
    Int.tdiv_eq_ediv_of_nonneg (a := yearOfEra) year.1, inI64_bind (by omega) (by omega),
    inI64_bind (by omega) (by omega), inI64_bind (by omega) (by omega), counted]
  clear counted first last doe
  have months : 0 ≤ (5 * dayOfYear + 2) / 153 ∧ (5 * dayOfYear + 2) / 153 ≤ 12 := by omega
  rw [inI64_bind (by omega) (by omega), inI64_bind (by omega) (by omega),
    Int.tdiv_eq_ediv_of_nonneg (a := 5 * dayOfYear + 2) (by omega)]
  unfold eraDate
  dsimp only
  generalize (5 * dayOfYear + 2) / 153 = mp at months ⊢
  rw [inI64_bind (by omega) (by omega), inI64_bind (by omega) (by omega),
    Int.tdiv_eq_ediv_of_nonneg (a := 153 * mp + 2) (by omega), inI64_bind (by omega) (by omega),
    inI64_bind (by omega) (by omega)]
  have month : 1 ≤ (if mp < 10 then mp + 3 else mp - 9) := by split <;> omega
  have month' : (if mp < 10 then mp + 3 else mp - 9) ≤ 12 := by split <;> omega
  rw [inI64_bind (by omega) (by omega), inI64_bind (by omega) (by omega),
    inI64_bind (by omega) (by omega), inI64_bind (by split <;> omega) (by split <;> omega)]
  rfl

theorem exists_eraDate {epochMs : Int} (low : i64Min ≤ epochMs) (high : epochMs ≤ i64Max) :
    ∃ era yearOfEra dayOfYear,
      isoDateFromEpochMs epochMs = some (eraDate era yearOfEra dayOfYear) := by
  obtain ⟨yearOfEra, dayOfYear, inEra, day⟩ :=
    @exists_inEra ((epochMs / 86400000 + 719468) % 146097) (by omega) (by omega)
  have split : epochMs / 86400000 + 719468 =
      (epochMs / 86400000 + 719468) / 146097 * 146097 + dayOfEra yearOfEra dayOfYear := by omega
  exact ⟨_, _, _, isoDateFromEpochMs_eq low high inEra split⟩

variable {year month day : Nat}

/-- The month and the day of the month are found again from the day of the year. -/
theorem marchDay_fields (date : Calendar.IsDate year month day) :
    (5 * marchDay month day + 2) / 153 = marchMonth month ∧
      marchDay month day - (153 * marchMonth month + 2) / 5 + 1 = day ∧
      (if marchMonth month < 10 then marchMonth month + 3 else marchMonth month - 9) =
        (month : Int) := by
  obtain ⟨⟨first, last⟩, one, most⟩ := date
  have dayOf : marchDay month day - (153 * marchMonth month + 2) / 5 + 1 = day := by
    unfold marchDay
    omega
  have bound : month ≠ 2 → _ := day_le ⟨⟨first, last⟩, one, most⟩
  have february : month = 2 → day ≤ 29 := by
    rintro rfl
    rw [Calendar.monthDays, if_pos rfl] at most
    split at most <;> omega
  refine ⟨?_, dayOf, ?_⟩
  · unfold marchDay marchMonth
    clear dayOf most
    by_cases second : month = 2
    · subst second
      have := february rfl
      simp only [Nat.lt_irrefl, if_false, Nat.cast_ofNat]
      omega
    · obtain ⟨short, long⟩ := bound second
      clear bound february
      interval_cases month
      case «2» => exact absurd rfl second
      all_goals
        simp only [Nat.reduceLT, if_true, if_false]
        omega
  · unfold marchMonth
    split <;> split <;> omega

/-- The date of a day of an era is written. -/
theorem eraDate_eq (date : Calendar.IsDate year month day) :
    eraDate (marchYear year month / 400) (marchYear year month % 400) (marchDay month day) =
      zeroPadded 4 year ++ '-' :: (zeroPadded 2 month ++ '-' :: zeroPadded 2 day) := by
  obtain ⟨mp, dayOf, monthOf⟩ := marchDay_fields date
  have back : marchYear year month % 400 + marchYear year month / 400 * 400 =
    marchYear year month := by omega
  unfold eraDate
  dsimp only
  have yearOf : marchYear year month + (if (month : Int) ≤ 2 then 1 else 0) = year := by
    unfold marchYear
    split <;> split <;> omega
  rw [mp, monthOf, dayOf, back, yearOf]

theorem zeroPadded_numeral {width n : Nat} (wide : 0 < width) (fits : n < 10 ^ width) :
    Live.Numeral width (zeroPadded width n) n := by
  have short : (Text.ofNat n).length ≤ width :=
    (Nat.length_toDigits_le_iff (by decide) wide).mpr fits
  have padded : zeroPadded width n = (Text.ofNat n).leftpad width '0' := rfl
  rw [padded]
  refine ⟨?_, fun c mem => ?_, ?_⟩
  · rw [List.length_leftpad]
    exact Nat.max_eq_left short
  · rw [List.leftpad] at mem
    rcases List.mem_append.mp mem with zeros | digits
    · rw [List.eq_of_mem_replicate zeros]
      decide
    · exact Nat.isDigit_of_mem_toDigits (by decide) (by decide) digits
  · rw [List.leftpad, Nat.ofDigitChars_append, Nat.ofDigitChars_replicate_zero, Nat.mul_zero]
    exact Nat.ofDigitChars_ten_toDigits

end Fields

/-- Every timestamp has a date, and in the years of four digits it is the day of the calendar that
the timestamp lies in: its midnight is the timestamp rounded down to the day. -/
theorem isoDateFromEpochMs_civil {epochMs : Int} (low : i64Min ≤ epochMs)
    (high : epochMs ≤ i64Max) : (isoDateFromEpochMs epochMs).isSome = true ∧
      ∀ year month day : Nat, year ≤ 9999 → Calendar.IsDate year month day →
        Calendar.dayNumber year month day = epochMs / 86400000 →
        ∃ yyyy mm dd, Live.Numeral 4 yyyy year ∧ Live.Numeral 2 mm month ∧ Live.Numeral 2 dd day ∧
          isoDateFromEpochMs epochMs = some (yyyy ++ '-' :: (mm ++ '-' :: dd)) ∧
          Live.parseRfc3339UtcToMs (yyyy ++ '-' :: (mm ++ '-' :: dd) ++ "T00:00:00Z".toList) =
            .ok (epochMs / 86400000 * 86400000) := by
  constructor
  · obtain ⟨era, yearOfEra, dayOfYear, done⟩ := exists_eraDate low high
    rw [done]
    rfl
  · intro year month day four date number
    have yyyy := @zeroPadded_numeral 4 year (by decide) (by omega)
    have mm := @zeroPadded_numeral 2 month (by decide) (by have := date.inYear.2; omega)
    have dd := @zeroPadded_numeral 2 day (by decide)
      (by have := date.inMonth.2; have := Calendar.monthDays_le year month; omega)
    have eras := dayNumber_eras date
    rw [number] at eras
    refine ⟨_, _, _, yyyy, mm, dd, ?_, ?_⟩
    · rw [isoDateFromEpochMs_eq low high (inEra_of_isDate date) eras, eraDate_eq date]
    · rw [Live.parseRfc3339UtcToMs_eq_ok_iff]
      have midnight : Live.Numeral 2 ['0', '0'] 0 := ⟨rfl, List.all_eq_true.mp rfl, rfl⟩
      refine ⟨⟨year, month, day, 0, 0, 0, none⟩,
        ⟨nofun, _, _, _, _, _, _, yyyy, mm, dd, midnight, midnight, midnight, ?_⟩,
        ⟨date, Nat.zero_le _, Nat.zero_le _, Nat.zero_le _⟩, ?_⟩
      · simp [Live.Stamp.fractionText]
      · simp only [Live.Stamp.millis, Live.Stamp.seconds, Live.Stamp.subsecond, number]
        omega

/-- An instant of 29 February 2024. -/
theorem isoDateFromEpochMs_civil_leap_day :
    (isoDateFromEpochMs 1709210096789).isSome = true ∧
      ∃ yyyy mm dd, Live.Numeral 4 yyyy 2024 ∧ Live.Numeral 2 mm 2 ∧ Live.Numeral 2 dd 29 ∧
        isoDateFromEpochMs 1709210096789 = some (yyyy ++ '-' :: (mm ++ '-' :: dd)) ∧
        Live.parseRfc3339UtcToMs (yyyy ++ '-' :: (mm ++ '-' :: dd) ++ "T00:00:00Z".toList) =
          .ok 1709164800000 := by
  have civil := @isoDateFromEpochMs_civil 1709210096789 (by decide) (by decide)
  exact ⟨civil.1, civil.2 2024 2 29 (by decide) ⟨by decide, by decide⟩ (by decide +kernel)⟩

end SP42.Citation

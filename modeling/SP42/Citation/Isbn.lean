import Mathlib.Tactic.IntervalCases
import SP42.Citation.Books
import SP42.Lib.CheckDigit

/-!
The two forms of an ISBN. The validator and the conversions compute their check digits
separately; a number of one form, converted and converted back, is the number again.
-/
namespace SP42.Citation

open CheckDigit

section Validator

/-- Without the blanks and hyphens, in upper case. -/
def compactIsbn (raw : Text) : Text :=
  (raw.filter fun c => !Text.isWhitespace c && c != '-').map Char.toUpper

def digitValue (c : Char) : Nat := c.toNat - '0'.toNat

/-- The last digit of an ISBN-10 can be an `X`, which counts ten. -/
def isbn10Value (c : Char) : Nat := if c = 'X' then 10 else digitValue c

def isbn10Weight (position : Nat) : Nat := 10 - position

def ean13Weight (position : Nat) : Nat := if position % 2 = 0 then 1 else 3

/-- The source looks at bytes; a character of more than one byte fails the tests as its bytes do. -/
def validIsbn (compact : Text) : Bool :=
  if Bytes.size compact = 10 then
    (compact.take 9).all Char.isDigit &&
      (compact.drop 9).all (fun c => c.isDigit || c == 'X') &&
      weighted isbn10Weight 0 (compact.map isbn10Value) % 11 == 0
  else if Bytes.size compact = 13 then
    compact.all Char.isDigit && weighted ean13Weight 0 (compact.map digitValue) % 10 == 0
  else false

/-- `BookIdentifier::isbn`. -/
def isbn (raw : Text) : Option BookIdentifier :=
  let compact := compactIsbn raw
  if validIsbn compact then some (.isbn compact) else none

end Validator

section Conversions

def ean13CheckDigit (firstTwelve : Text) : Option Nat :=
  if firstTwelve.length ≠ 12 ∨ firstTwelve.all Char.isDigit = false then none
  else
    let sum := weighted ean13Weight 0 (firstTwelve.map digitValue)
    some ((10 - sum % 10) % 10)

def isbn10CheckDigit (firstNine : Text) : Option Char :=
  if firstNine.length ≠ 9 ∨ firstNine.all Char.isDigit = false then none
  else
    let sum := weighted isbn10Weight 0 (firstNine.map digitValue)
    let check := (11 - sum % 11) % 11
    some (if check = 10 then 'X' else Nat.digitChar check)

/-- The valid number is ASCII, so its bytes are its characters. -/
def isbn13FromIsbn10 (isbn10 : Text) : Option Text := do
  let .isbn valid ← isbn isbn10 | none
  if Bytes.size valid ≠ 10 then none
  else
    let digits := "978".toList ++ valid.take 9
    let check ← ean13CheckDigit digits
    return digits ++ [Nat.digitChar check]

def isbn10FromIsbn13 (isbn13 : Text) : Option Text := do
  let .isbn valid ← isbn isbn13 | none
  if Bytes.size valid ≠ 13 ∨ "978".toList.isPrefixOf valid = false then none
  else
    let digits := (valid.take 12).drop 3
    let check ← isbn10CheckDigit digits
    return digits ++ [check]

end Conversions

/-- What could be added to a record, and where it is from. -/
structure EnrichmentCandidate where
  field : Text
  proposed : Text
  source : Text
  deriving DecidableEq

/-- The values of the record come first, as the sources of a conversion. -/
def enrichmentCandidates (edition : OpenLibraryEdition) (cited : List BookIdentifier) :
    List EnrichmentCandidate :=
  let citedIsbns := cited.filterMap fun
    | .isbn value => some value
    | _ => none
  let known (record : List Text) (size : Nat) : List (Text × Text) :=
    record.map (·, "record".toList) ++
      (citedIsbns.filter fun value => Bytes.size value == size).map (·, "citation".toList)
  let converted (convert : Text → Option Text) (known : List (Text × Text)) :=
    known.findSome? fun (value, origin) => (convert value).map fun c => (c, value, origin)
  let candidate (field form : Text) : Text × Text × Text → EnrichmentCandidate :=
    fun (converted, source, origin) => ⟨field, converted,
      "derived from ".toList ++ form ++ ' ' :: (source ++ " (".toList ++ origin ++ ")".toList)⟩
  (if edition.isbn13 = [] then
      ((converted isbn13FromIsbn10 (known edition.isbn10 10)).map
        (candidate "isbn_13".toList "ISBN-10".toList)).toList
    else []) ++
    if edition.isbn10 = [] then
      ((converted isbn10FromIsbn13 (known edition.isbn13 13)).map
        (candidate "isbn_10".toList "ISBN-13".toList)).toList
    else []

section Digits

theorem digitValue_digitChar {n : Nat} (small : n < 10) : digitValue (Nat.digitChar n) = n := by
  interval_cases n <;> rfl

theorem digit_bounds {c : Char} (digit : c.isDigit = true) : 48 ≤ c.toNat ∧ c.toNat ≤ 57 :=
  Char.isDigit_iff_toNat.mp digit

theorem digitValue_lt {c : Char} (digit : c.isDigit = true) : digitValue c < 10 := by
  obtain ⟨low, high⟩ := digit_bounds digit
  have value : digitValue c = c.toNat - 48 := rfl
  omega

theorem digitChar_digitValue {c : Char} (digit : c.isDigit = true) :
    Nat.digitChar (digitValue c) = c := by
  obtain ⟨low, high⟩ := digit_bounds digit
  have small := digitValue_lt digit
  apply Char.toNat_inj.mp
  rw [Nat.toNat_digitChar_of_lt_ten small]
  exact Nat.add_sub_cancel' low

theorem isDigit_digitChar {n : Nat} (small : n < 10) : (Nat.digitChar n).isDigit = true := by
  interval_cases n <;> rfl

theorem utf8Size_digit {c : Char} (digit : c.isDigit = true) : c.utf8Size = 1 := by
  obtain ⟨low, high⟩ := digit_bounds digit
  exact Char.utf8Size_eq_one_iff.mpr (by
    rw [UInt32.le_iff_toNat_le]
    exact Nat.le_trans high (by decide))

/-- The characters of a number are digits, but for an `X`. -/
def Plain (text : Text) : Prop := ∀ c ∈ text, c.isDigit = true ∨ c = 'X'

theorem plain_of_digits {text : Text} (digits : ∀ c ∈ text, c.isDigit = true) : Plain text :=
  fun c mem => Or.inl (digits c mem)

theorem plain_concat {text : Text} {c : Char} (digits : ∀ c ∈ text, c.isDigit = true)
    (last : c.isDigit = true ∨ c = 'X') : Plain (text ++ [c]) := by
  intro other mem
  rcases List.mem_append.mp mem with front | back
  · exact Or.inl (digits other front)
  · rw [List.mem_singleton.mp back]
    exact last

theorem Plain.size {text : Text} (plain : Plain text) : Bytes.size text = text.length := by
  induction text with
  | nil => rfl
  | cons c rest ih =>
      obtain ⟨first, others⟩ := List.forall_mem_cons.mp plain
      have one : c.utf8Size = 1 := by
        rcases first with digit | rfl
        · exact utf8Size_digit digit
        · rfl
      rw [Bytes.size_cons, one, ih others, List.length_cons, Nat.add_comm]

/-- A digit or the letter of the check digit is left as it is. -/
theorem Plain.compactIsbn {text : Text} (plain : Plain text) : compactIsbn text = text := by
  have kept : ∀ c ∈ text, (!Text.isWhitespace c && c != '-') = true ∧ c.toUpper = c := by
    intro c mem
    rcases plain c mem with digit | rfl
    · obtain ⟨low, high⟩ := digit_bounds digit
      have hyphen : c ≠ '-' := by
        rintro rfl
        exact absurd digit (by decide)
      have lower : ¬ ('a'.val ≤ c.val ∧ c.val ≤ 'z'.val) := by
        rintro ⟨above, -⟩
        have := UInt32.le_iff_toNat_le.mp above
        exact absurd (Nat.le_trans this high) (by decide)
      refine ⟨?_, dif_neg lower⟩
      rw [Text.isWhitespace_of_isDigit digit]
      exact bne_iff_ne.mpr hyphen
    · decide
  unfold Citation.compactIsbn
  rw [List.filter_eq_self.mpr fun c mem => (kept c mem).1]
  exact (List.map_congr_left fun c mem => (kept c mem).2).trans (List.map_id _)

end Digits

section Forms

/-- A number of ten: nine digits and their check digit. -/
def IsIsbn10 (text : Text) : Prop :=
  ∃ nine check, (∀ c ∈ nine, c.isDigit = true) ∧ isbn10CheckDigit nine = some check ∧
    text = nine ++ [check]

/-- A number of thirteen: twelve digits and their check digit. -/
def IsIsbn13 (text : Text) : Prop :=
  ∃ twelve check, (∀ c ∈ twelve, c.isDigit = true) ∧ ean13CheckDigit twelve = some check ∧
    text = twelve ++ [Nat.digitChar check]

theorem isbn10Value_digit {c : Char} (digit : c.isDigit = true) : isbn10Value c = digitValue c := by
  refine if_neg ?_
  rintro rfl
  exact absurd digit (by decide)

theorem isbn10Value_of_lt {n : Nat} (small : n < 11) :
    isbn10Value (if n = 10 then 'X' else Nat.digitChar n) = n := by
  interval_cases n <;> rfl

/-- The character of a check digit and its value determine each other. -/
theorem isbn10Value_eq_iff {c : Char} {n : Nat} (small : n < 11) :
    (if n = 10 then 'X' else Nat.digitChar n) = c ↔
      (c.isDigit = true ∨ c = 'X') ∧ isbn10Value c = n := by
  constructor
  · rintro rfl
    refine ⟨?_, isbn10Value_of_lt small⟩
    split
    · exact Or.inr rfl
    · exact Or.inl (isDigit_digitChar (by omega))
  · rintro ⟨digit | rfl, rfl⟩
    · have below := digitValue_lt digit
      rw [isbn10Value_digit digit, if_neg (by omega), digitChar_digitValue digit]
    · rfl

theorem digits_iff {text : Text} {n : Nat} :
    (text.length = n ∧ ∀ c ∈ text, c.isDigit = true) ↔
      ¬ (text.length ≠ n ∨ text.all Char.isDigit = false) := by
  rw [not_or, not_not, Bool.not_eq_false, List.all_eq_true]

theorem isbn10CheckDigit_eq_some_iff {nine : Text} {check : Char} :
    isbn10CheckDigit nine = some check ↔ nine.length = 9 ∧ (∀ c ∈ nine, c.isDigit = true) ∧
      (check.isDigit = true ∨ check = 'X') ∧
      (weighted isbn10Weight 0 (nine.map digitValue) + isbn10Value check) % 11 = 0 := by
  unfold isbn10CheckDigit
  by_cases refused : nine.length ≠ 9 ∨ nine.all Char.isDigit = false
  · rw [if_pos refused]
    exact iff_of_false nofun fun ⟨length, digits, _⟩ => digits_iff.mp ⟨length, digits⟩ refused
  · rw [if_neg refused]
    obtain ⟨length, digits⟩ := digits_iff.mpr refused
    have small : CheckDigit.check 11 (weighted isbn10Weight 0 (nine.map digitValue)) < 11 :=
      check_lt (by decide)
    have value {c : Char} (last : c.isDigit = true ∨ c = 'X') : isbn10Value c < 11 := by
      rcases last with digit | rfl
      · rw [isbn10Value_digit digit]
        exact Nat.lt_trans (digitValue_lt digit) (by decide)
      · decide
    rw [Option.some.injEq]
    refine (isbn10Value_eq_iff small).trans ⟨?_, ?_⟩
    · rintro ⟨last, sum⟩
      exact ⟨length, digits, last, (add_mod_eq_zero_iff (value last)).mpr sum⟩
    · rintro ⟨-, -, last, sum⟩
      exact ⟨last, (add_mod_eq_zero_iff (value last)).mp sum⟩

theorem ean13CheckDigit_eq_some_iff {twelve : Text} {check : Nat} :
    ean13CheckDigit twelve = some check ↔ twelve.length = 12 ∧ (∀ c ∈ twelve, c.isDigit = true) ∧
      check < 10 ∧ (weighted ean13Weight 0 (twelve.map digitValue) + check) % 10 = 0 := by
  unfold ean13CheckDigit
  by_cases refused : twelve.length ≠ 12 ∨ twelve.all Char.isDigit = false
  · rw [if_pos refused]
    exact iff_of_false nofun fun ⟨length, digits, _⟩ => digits_iff.mp ⟨length, digits⟩ refused
  · rw [if_neg refused]
    obtain ⟨length, digits⟩ := digits_iff.mpr refused
    have small : CheckDigit.check 10 (weighted ean13Weight 0 (twelve.map digitValue)) < 10 :=
      check_lt (by decide)
    rw [Option.some.injEq]
    constructor
    · rintro rfl
      exact ⟨length, digits, small, (add_mod_eq_zero_iff small).mpr rfl⟩
    · rintro ⟨-, -, below, sum⟩
      exact ((add_mod_eq_zero_iff below).mp sum).symm

variable {nine twelve : Text} {check : Char}

theorem validIsbn_ten (length : nine.length = 9) (digits : ∀ c ∈ nine, c.isDigit = true)
    (last : check.isDigit = true ∨ check = 'X') : validIsbn (nine ++ [check]) = true ↔
      (weighted isbn10Weight 0 (nine.map digitValue) + isbn10Value check) % 11 = 0 := by
  have size : Bytes.size (nine ++ [check]) = 10 := by
    rw [(plain_concat digits last).size, List.length_append, length]
    rfl
  have values : nine.map isbn10Value = nine.map digitValue :=
    List.map_congr_left fun c mem => isbn10Value_digit (digits c mem)
  have one : isbn10Weight (nine.map digitValue).length = 1 := by
    rw [List.length_map, length]
    rfl
  have letter : (check.isDigit || check == 'X') = true := by
    rw [Bool.or_eq_true, beq_iff_eq]
    exact last
  unfold validIsbn
  rw [if_pos size, List.take_left' length, List.drop_left' length, List.all_eq_true.mpr digits,
    List.map_append, values, List.map_singleton, weighted_concat one, List.all_cons, letter]
  exact beq_iff_eq

theorem validIsbn_thirteen (length : twelve.length = 12)
    (digits : ∀ c ∈ twelve, c.isDigit = true) (last : check.isDigit = true) :
    validIsbn (twelve ++ [check]) = true ↔
      (weighted ean13Weight 0 (twelve.map digitValue) + digitValue check) % 10 = 0 := by
  have size : Bytes.size (twelve ++ [check]) = 13 := by
    rw [(plain_concat digits (Or.inl last)).size, List.length_append, length]
    rfl
  have one : ean13Weight (twelve.map digitValue).length = 1 := by
    rw [List.length_map, length]
    rfl
  unfold validIsbn
  rw [if_neg (by rw [size]; decide), if_pos size, List.all_append, List.all_eq_true.mpr digits,
    List.map_append, List.map_singleton, weighted_concat one, List.all_cons, last]
  exact beq_iff_eq

variable {text : Text}

theorem exists_concat {n : Nat} (length : text.length = n + 1) :
    ∃ check, text = text.take n ++ [check] ∧ text.drop n = [check] := by
  have one : (text.drop n).length = 1 := by
    rw [List.length_drop, length]
    omega
  obtain ⟨check, last⟩ := List.length_eq_one_iff.mp one
  exact ⟨check, by rw [← last, List.take_append_drop], last⟩

theorem shape_ten (size : Bytes.size text = 10) (digits : (text.take 9).all Char.isDigit = true)
    (last : (text.drop 9).all (fun c => c.isDigit || c == 'X') = true) :
    ∃ nine check, text = nine ++ [check] ∧ nine.length = 9 ∧ (∀ c ∈ nine, c.isDigit = true) ∧
      (check.isDigit = true ∨ check = 'X') := by
  have plain : Plain text := by
    rw [← List.take_append_drop 9 text]
    intro c mem
    rcases List.mem_append.mp mem with front | back
    · exact Or.inl (List.all_eq_true.mp digits c front)
    · simpa using List.all_eq_true.mp last c back
  have length : text.length = 9 + 1 := plain.size ▸ size
  obtain ⟨check, split, behind⟩ := exists_concat length
  refine ⟨_, check, split, ?_, List.all_eq_true.mp digits, ?_⟩
  · rw [List.length_take, length]
    decide
  · exact plain check (split ▸ List.mem_append_right _ List.mem_cons_self)

theorem shape_thirteen (size : Bytes.size text = 13) (digits : text.all Char.isDigit = true) :
    ∃ twelve check, text = twelve ++ [check] ∧ twelve.length = 12 ∧
      (∀ c ∈ twelve, c.isDigit = true) ∧ check.isDigit = true := by
  have all := List.all_eq_true.mp digits
  have length : text.length = 12 + 1 := (plain_of_digits all).size ▸ size
  obtain ⟨check, split, behind⟩ := exists_concat length
  refine ⟨_, check, split, ?_, fun c mem => all c (List.mem_of_mem_take mem), ?_⟩
  · rw [List.length_take, length]
    decide
  · exact all check (split ▸ List.mem_append_right _ List.mem_cons_self)

/-- The validator accepts the numbers with the check digits of the conversions. -/
theorem validIsbn_iff : validIsbn text = true ↔ IsIsbn10 text ∨ IsIsbn13 text := by
  constructor
  · intro accepted
    have tests := accepted
    unfold validIsbn at tests
    split at tests
    · next ten =>
        simp only [Bool.and_eq_true] at tests
        obtain ⟨⟨digits, last⟩, -⟩ := tests
        obtain ⟨nine, check, rfl, length, digits, last⟩ := shape_ten ten digits last
        exact Or.inl ⟨nine, check, digits, isbn10CheckDigit_eq_some_iff.mpr
          ⟨length, digits, last, (validIsbn_ten length digits last).mp accepted⟩, rfl⟩
    · split at tests
      · next thirteen =>
          rw [Bool.and_eq_true] at tests
          obtain ⟨twelve, check, rfl, length, digits, last⟩ := shape_thirteen thirteen tests.1
          exact Or.inr ⟨twelve, digitValue check, digits, ean13CheckDigit_eq_some_iff.mpr
            ⟨length, digits, digitValue_lt last,
              (validIsbn_thirteen length digits last).mp accepted⟩,
            by rw [digitChar_digitValue last]⟩
      · cases tests
  · rintro (⟨nine, check, -, found, rfl⟩ | ⟨twelve, check, -, found, rfl⟩)
    · obtain ⟨length, digits, last, sum⟩ := isbn10CheckDigit_eq_some_iff.mp found
      exact (validIsbn_ten length digits last).mpr sum
    · obtain ⟨length, digits, small, sum⟩ := ean13CheckDigit_eq_some_iff.mp found
      refine (validIsbn_thirteen length digits (isDigit_digitChar small)).mpr ?_
      rwa [digitValue_digitChar small]

end Forms

section Conversions

variable {raw value : Text}

theorem isbn_eq_some_iff : isbn raw = some (.isbn value) ↔
    value = compactIsbn raw ∧ (IsIsbn10 value ∨ IsIsbn13 value) := by
  unfold isbn
  dsimp only
  rw [← validIsbn_iff]
  constructor
  · intro accepted
    split at accepted
    · next valid =>
        obtain rfl := BookIdentifier.isbn.inj (Option.some.inj accepted)
        exact ⟨rfl, valid⟩
    · cases accepted
  · rintro ⟨rfl, valid⟩
    exact if_pos valid

/-- A number is its own canonical form. -/
theorem isbn_of_isIsbn (form : IsIsbn10 value ∨ IsIsbn13 value) :
    isbn value = some (.isbn value) := by
  refine isbn_eq_some_iff.mpr ⟨?_, form⟩
  rcases form with ⟨nine, check, digits, found, rfl⟩ | ⟨twelve, check, digits, found, rfl⟩
  · obtain ⟨-, -, last, -⟩ := isbn10CheckDigit_eq_some_iff.mp found
    exact (plain_concat digits last).compactIsbn.symm
  · obtain ⟨-, -, small, -⟩ := ean13CheckDigit_eq_some_iff.mp found
    exact (plain_concat digits (Or.inl (isDigit_digitChar small))).compactIsbn.symm

theorem IsIsbn10.length (form : IsIsbn10 value) : value.length = 10 := by
  obtain ⟨nine, check, -, found, rfl⟩ := form
  rw [List.length_append, (isbn10CheckDigit_eq_some_iff.mp found).1]
  rfl

theorem IsIsbn13.length (form : IsIsbn13 value) : value.length = 13 := by
  obtain ⟨twelve, check, -, found, rfl⟩ := form
  rw [List.length_append, (ean13CheckDigit_eq_some_iff.mp found).1]
  rfl

theorem size_of_isIsbn (form : IsIsbn10 value ∨ IsIsbn13 value) :
    Bytes.size value = value.length := by
  rcases form with ⟨nine, check, digits, found, rfl⟩ | ⟨twelve, check, digits, found, rfl⟩
  · exact (plain_concat digits (isbn10CheckDigit_eq_some_iff.mp found).2.2.1).size
  · exact (plain_concat digits
      (Or.inl (isDigit_digitChar (ean13CheckDigit_eq_some_iff.mp found).2.2.1))).size

theorem exists_ean13CheckDigit {twelve : Text} (length : twelve.length = 12)
    (digits : ∀ c ∈ twelve, c.isDigit = true) : ∃ check, ean13CheckDigit twelve = some check :=
  ⟨_, if_neg (digits_iff.mp ⟨length, digits⟩)⟩

theorem exists_isbn10CheckDigit {nine : Text} (length : nine.length = 9)
    (digits : ∀ c ∈ nine, c.isDigit = true) : ∃ check, isbn10CheckDigit nine = some check :=
  ⟨_, if_neg (digits_iff.mp ⟨length, digits⟩)⟩

/-- An ISBN-13 with the prefix of the ISBN-10s is around nine digits. -/
theorem bookland {nine : Text} (length : nine.length = 9) (digits : ∀ c ∈ nine, c.isDigit = true) :
    ("978".toList ++ nine).length = 12 ∧ ∀ c ∈ "978".toList ++ nine, c.isDigit = true := by
  refine ⟨by rw [List.length_append, length]; rfl, fun c mem => ?_⟩
  rcases List.mem_append.mp mem with front | back
  · exact List.all_eq_true.mp (by decide : "978".toList.all Char.isDigit = true) c front
  · exact digits c back

/-- The two forms of nine digits are converted to each other. -/
theorem converted_ten {nine : Text} {check : Char} (found : isbn10CheckDigit nine = some check)
    (canonical : isbn raw = some (.isbn (nine ++ [check]))) :
    ∃ check13, ean13CheckDigit ("978".toList ++ nine) = some check13 ∧
      isbn13FromIsbn10 raw = some ("978".toList ++ nine ++ [Nat.digitChar check13]) := by
  obtain ⟨length, digits, last, -⟩ := isbn10CheckDigit_eq_some_iff.mp found
  obtain ⟨check13, found13⟩ := exists_ean13CheckDigit (bookland length digits).1
    (bookland length digits).2
  refine ⟨check13, found13, ?_⟩
  have ten : ¬ Bytes.size (nine ++ [check]) ≠ 10 := by
    rw [(plain_concat digits last).size, List.length_append, length]
    exact not_not.mpr rfl
  unfold isbn13FromIsbn10
  rw [canonical]
  simp only [Option.bind_eq_bind, Option.bind_some]
  rw [if_neg ten, List.take_left' length, found13]
  rfl

theorem converted_thirteen {nine : Text} {check13 : Nat}
    (found : ean13CheckDigit ("978".toList ++ nine) = some check13)
    (canonical : isbn raw = some (.isbn ("978".toList ++ nine ++ [Nat.digitChar check13]))) :
    ∃ check, isbn10CheckDigit nine = some check ∧
      isbn10FromIsbn13 raw = some (nine ++ [check]) := by
  obtain ⟨length, digits, small, -⟩ := ean13CheckDigit_eq_some_iff.mp found
  have nines : nine.length = 9 := by
    rw [List.length_append] at length
    exact Nat.add_left_cancel length
  obtain ⟨check, found10⟩ := exists_isbn10CheckDigit nines
    fun c mem => digits c (List.mem_append_right _ mem)
  refine ⟨check, found10, ?_⟩
  have accepted : ¬ (Bytes.size ("978".toList ++ nine ++ [Nat.digitChar check13]) ≠ 13 ∨
      "978".toList.isPrefixOf ("978".toList ++ nine ++ [Nat.digitChar check13]) = false) := by
    rw [not_or, not_not, Bool.not_eq_false, List.isPrefixOf_iff_prefix, List.append_assoc]
    refine ⟨?_, List.prefix_append _ _⟩
    rw [← List.append_assoc, (plain_concat digits (Or.inl (isDigit_digitChar small))).size,
      List.length_append, length]
    rfl
  unfold isbn10FromIsbn13
  rw [canonical]
  simp only [Option.bind_eq_bind, Option.bind_some]
  rw [if_neg accepted, List.take_left' length, List.drop_left' (by rfl), found10]
  rfl

theorem isbn13FromIsbn10_none (canonical : isbn raw = some (.isbn value))
    (other : value.length ≠ 10) : isbn13FromIsbn10 raw = none := by
  have size := size_of_isIsbn (isbn_eq_some_iff.mp canonical).2
  unfold isbn13FromIsbn10
  rw [canonical]
  exact if_pos (size ▸ other)

theorem isbn10FromIsbn13_none (canonical : isbn raw = some (.isbn value))
    (other : ¬ (value.length = 13 ∧ "978".toList <+: value)) : isbn10FromIsbn13 raw = none := by
  have size := size_of_isIsbn (isbn_eq_some_iff.mp canonical).2
  unfold isbn10FromIsbn13
  rw [canonical]
  refine if_pos ?_
  rw [size, ← Bool.not_eq_true, List.isPrefixOf_iff_prefix]
  exact not_and_or.mp other

theorem isbn_isbn {identifier : BookIdentifier} (accepted : isbn raw = some identifier) :
    ∃ value, identifier = .isbn value := by
  unfold isbn at accepted
  dsimp only at accepted
  split at accepted
  · exact ⟨_, (Option.some.inj accepted).symm⟩
  · cases accepted

/-- An ISBN-13 that begins as the ISBN-10s do has nine digits after that. -/
theorem IsIsbn13.split (form : IsIsbn13 value) (begins : "978".toList <+: value) :
    ∃ nine check, ean13CheckDigit ("978".toList ++ nine) = some check ∧
      value = "978".toList ++ nine ++ [Nat.digitChar check] := by
  obtain ⟨twelve, check, digits, found, rfl⟩ := form
  have length := (ean13CheckDigit_eq_some_iff.mp found).1
  obtain ⟨nine, rfl⟩ := List.prefix_of_prefix_length_le begins (List.prefix_append twelve _)
    (by rw [length]; decide)
  exact ⟨nine, check, found, rfl⟩

theorem isIsbn10_of_length (form : IsIsbn10 value ∨ IsIsbn13 value) (length : value.length = 10) :
    IsIsbn10 value := by
  refine form.resolve_right fun thirteen => ?_
  rw [thirteen.length] at length
  cases length

theorem isIsbn13_of_length (form : IsIsbn10 value ∨ IsIsbn13 value) (length : value.length = 13) :
    IsIsbn13 value := by
  refine form.resolve_left fun ten => ?_
  rw [ten.length] at length
  cases length

/-- To thirteen digits and back. -/
theorem isbn10_round (canonical : isbn raw = some (.isbn value)) (ten : value.length = 10) :
    ∃ w, isbn13FromIsbn10 raw = some w ∧ isbn w = some (.isbn w) ∧
      isbn10FromIsbn13 w = some value := by
  obtain ⟨nine, check, digits, found, rfl⟩ :=
    isIsbn10_of_length (isbn_eq_some_iff.mp canonical).2 ten
  obtain ⟨check13, found13, there⟩ := converted_ten found canonical
  have form : IsIsbn13 ("978".toList ++ nine ++ [Nat.digitChar check13]) :=
    ⟨_, check13, (ean13CheckDigit_eq_some_iff.mp found13).2.1, found13, rfl⟩
  have accepted := isbn_of_isIsbn (Or.inr form)
  obtain ⟨back, found', home⟩ := converted_thirteen found13 accepted
  refine ⟨_, there, accepted, ?_⟩
  rw [home, Option.some.inj (found.symm.trans found')]

/-- To ten characters and back. -/
theorem isbn13_round (canonical : isbn raw = some (.isbn value)) (thirteen : value.length = 13)
    (begins : "978".toList <+: value) :
    ∃ u, isbn10FromIsbn13 raw = some u ∧ isbn u = some (.isbn u) ∧
      isbn13FromIsbn10 u = some value := by
  obtain ⟨nine, check13, found13, rfl⟩ :=
    (isIsbn13_of_length (isbn_eq_some_iff.mp canonical).2 thirteen).split begins
  obtain ⟨check, found, there⟩ := converted_thirteen found13 canonical
  have form : IsIsbn10 (nine ++ [check]) :=
    ⟨_, check, (isbn10CheckDigit_eq_some_iff.mp found).2.1, found, rfl⟩
  have accepted := isbn_of_isIsbn (Or.inl form)
  obtain ⟨back, found', home⟩ := converted_ten found accepted
  refine ⟨_, there, accepted, ?_⟩
  rw [home, Option.some.inj (found13.symm.trans found')]

/-- What a conversion gives is accepted. -/
theorem isbn13FromIsbn10_accepted {w : Text} (converted : isbn13FromIsbn10 raw = some w) :
    isbn w = some (.isbn w) := by
  cases read : isbn raw with
  | none =>
      rw [isbn13FromIsbn10, read] at converted
      cases converted
  | some identifier =>
      obtain ⟨value, rfl⟩ := isbn_isbn read
      by_cases ten : value.length = 10
      · obtain ⟨w', there, accepted, -⟩ := isbn10_round read ten
        rw [Option.some.inj (converted.symm.trans there)]
        exact accepted
      · rw [isbn13FromIsbn10_none read ten] at converted
        cases converted

theorem isbn10FromIsbn13_accepted {u : Text} (converted : isbn10FromIsbn13 raw = some u) :
    isbn u = some (.isbn u) := by
  cases read : isbn raw with
  | none =>
      rw [isbn10FromIsbn13, read] at converted
      cases converted
  | some identifier =>
      obtain ⟨value, rfl⟩ := isbn_isbn read
      by_cases thirteen : value.length = 13 ∧ "978".toList <+: value
      · obtain ⟨u', there, accepted, -⟩ := isbn13_round read thirteen.1 thirteen.2
        rw [Option.some.inj (converted.symm.trans there)]
        exact accepted
      · rw [isbn10FromIsbn13_none read thirteen] at converted
        cases converted

end Conversions

/-- The proposed values come out of the conversions. -/
theorem enrichmentCandidates_converted {edition : OpenLibraryEdition} {cited : List BookIdentifier}
    {candidate : EnrichmentCandidate} (proposed : candidate ∈ enrichmentCandidates edition cited) :
    ∃ value, isbn13FromIsbn10 value = some candidate.proposed ∨
      isbn10FromIsbn13 value = some candidate.proposed := by
  unfold enrichmentCandidates at proposed
  dsimp only at proposed
  rcases List.mem_append.mp proposed with first | second
  · split at first
    · obtain ⟨⟨converted, source, origin⟩, found, rfl⟩ :=
        Option.map_eq_some_iff.mp (Option.mem_toList.mp first)
      obtain ⟨⟨value, at'⟩, -, hit⟩ := List.exists_of_findSome?_eq_some found
      obtain ⟨w, done, same⟩ := Option.map_eq_some_iff.mp hit
      cases same
      exact ⟨value, Or.inl done⟩
    · cases first
  · split at second
    · obtain ⟨⟨converted, source, origin⟩, found, rfl⟩ :=
        Option.map_eq_some_iff.mp (Option.mem_toList.mp second)
      obtain ⟨⟨value, at'⟩, -, hit⟩ := List.exists_of_findSome?_eq_some found
      obtain ⟨w, done, same⟩ := Option.map_eq_some_iff.mp hit
      cases same
      exact ⟨value, Or.inr done⟩
    · cases second

/-- A valid number, converted and converted back, is itself; where the other form does not exist
there is no conversion; and every candidate proposes a valid number. -/
theorem isbn_conversions {raw value : Text} (accepted : isbn raw = some (.isbn value))
    (edition : OpenLibraryEdition) (cited : List BookIdentifier) :
    (value.length = 10 → ∃ w, isbn13FromIsbn10 value = some w ∧ isbn w = some (.isbn w) ∧
        isbn10FromIsbn13 w = some value) ∧
      (value.length = 13 ∧ "978".toList <+: value → ∃ u, isbn10FromIsbn13 value = some u ∧
        isbn u = some (.isbn u) ∧ isbn13FromIsbn10 u = some value) ∧
      (value.length ≠ 10 → isbn13FromIsbn10 value = none) ∧
      (¬ (value.length = 13 ∧ "978".toList <+: value) → isbn10FromIsbn13 value = none) ∧
      ∀ candidate ∈ enrichmentCandidates edition cited,
        isbn candidate.proposed = some (.isbn candidate.proposed) := by
  have canonical := isbn_of_isIsbn (isbn_eq_some_iff.mp accepted).2
  refine ⟨isbn10_round canonical, fun ⟨thirteen, begins⟩ => isbn13_round canonical thirteen begins,
    isbn13FromIsbn10_none canonical, isbn10FromIsbn13_none canonical, fun candidate proposed => ?_⟩
  obtain ⟨source, thirteen | ten⟩ := enrichmentCandidates_converted proposed
  · exact isbn13FromIsbn10_accepted thirteen
  · exact isbn10FromIsbn13_accepted ten

/-- A record with an ISBN-10 only. -/
def shortRecord : OpenLibraryEdition where
  key := none
  recordUrl := none
  title := none
  authors := []
  publishers := []
  publishDate := none
  numberOfPages := none
  isbn10 := ["0-14-032872-6".toList]
  isbn13 := []
  subjects := []
  coverUrl := none

theorem isbn_conversions_short :
    (∃ w, isbn13FromIsbn10 "0140328726".toList = some w ∧ isbn w = some (.isbn w) ∧
        isbn10FromIsbn13 w = some "0140328726".toList) ∧
      isbn10FromIsbn13 "0140328726".toList = none ∧
      ∀ candidate ∈ enrichmentCandidates shortRecord [],
        isbn candidate.proposed = some (.isbn candidate.proposed) := by
  have accepted : isbn "0-14-032872-6".toList = some (.isbn "0140328726".toList) := by
    decide +kernel
  obtain ⟨there, -, -, never, proposed⟩ := isbn_conversions accepted shortRecord []
  exact ⟨there rfl, never (by decide +kernel), proposed⟩

example : (enrichmentCandidates shortRecord []).map (·.proposed) = ["9780140328721".toList] := by
  decide +kernel

end SP42.Citation

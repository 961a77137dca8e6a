import SP42.Citation.Segment
import SP42.Lib.Utf8

/-!
The segmentation as a scan over the bytes of the text. Every access to a byte and every slice can
fail; none does, and the sentences are those that are cut from the characters.
-/
namespace SP42.Citation

section Scan

variable (letters : Letters)

def isDigitByte (b : Nat) : Bool := decide (48 ≤ b) && decide (b ≤ 57)

/-- A digit before the dot and one behind its closers. -/
def isDecimalAt (text : Text) (dot stop : Nat) : Option Bool := do
  let bytes := Utf8.bytes text
  let mark ← bytes[dot]?
  if mark = 46 ∧ 0 < dot then
    let previous ← bytes[dot - 1]?
    if isDigitByte previous ∧ stop < bytes.length then
      let next ← bytes[stop]?
      return isDigitByte next
    else return false
  else return false

/-- The end of one abbreviation, which is a word of its own. -/
def endsWith (head : Text) (abbreviation : String) : Option Bool :=
  if abbreviation.toList.isSuffixOf head then do
    let before ← Bytes.slice head 0 (Bytes.size head - Bytes.size abbreviation.toList)
    return before.getLast?.all fun previous => !letters.isAlphanumeric previous
  else return false

/-- A dot between two capitals. -/
def isInitialismAt (text : Text) (dot stop : Nat) : Option Bool := do
  let before ← Bytes.slice text 0 dot
  let after ← Bytes.sliceFrom text stop
  return before.getLast?.any letters.isUppercase && after.head?.any letters.isUppercase

/-- Each byte is read as a character of its own. -/
def isSpaceAt (b : Nat) : Bool := Text.isWhitespace (Char.ofNat b)

/-- The end of the text or the begin of a sentence, behind white space. -/
def isFollowedAt (text : Text) (stop : Nat) : Option Bool := do
  let bytes := Utf8.bytes text
  let j := stop + ((bytes.drop stop).takeWhile isSpaceAt).length
  if bytes.length ≤ j then return true
  else
    let rest ← Bytes.sliceFrom text j
    let next := rest.head?.getD ' '
    return letters.isUppercase next || next.isDigit || next == '"' || next == '\x27' || next == '('

def isBoundaryAt (text : Text) (dot stop : Nat) : Option Bool := do
  let decimal ← isDecimalAt text dot stop
  if decimal then return false
  else
    let mark ← (Utf8.bytes text)[dot]?
    if mark = 46 then
      let head ← Bytes.slice text 0 (dot + 1)
      let abbreviated ← abbreviations.anyM (endsWith letters head)
      if abbreviated then return false
      else
        let initialism ← isInitialismAt letters text dot stop
        if initialism then return false else isFollowedAt letters text stop
    else isFollowedAt letters text stop

def leadingWs (slice : Text) : Nat := Bytes.size slice - Bytes.size (Text.trimStart slice)

/-- The sentence of a slice that begins at a position, if it is not blank. -/
def sentenceAt (start : Nat) (slice : Text) : List Sentence :=
  let trimmed := Text.trim slice
  if trimmed = [] then []
  else
    let trimmedStart := start + leadingWs slice
    [⟨trimmed, trimmedStart, trimmedStart + Bytes.size trimmed⟩]

/-- The loop, from a byte on; the fuel bounds the number of its steps. -/
def scan (text : Text) : Nat → Nat → Nat → Option (List Sentence)
  | 0, _, _ => none
  | fuel + 1, start, i =>
      match (Utf8.bytes text)[i]? with
      | none => (Bytes.sliceFrom text start).map (sentenceAt start)
      | some c =>
          if c = 46 ∨ c = 33 ∨ c = 63 then do
            let remainder ← Bytes.sliceFrom text (i + 1)
            let stop := i + 1 + Bytes.size (remainder.takeWhile isCloser)
            let boundary ← isBoundaryAt letters text i stop
            if boundary then
              let slice ← Bytes.slice text start stop
              let later ← scan text fuel stop stop
              return sentenceAt start slice ++ later
            else scan text fuel start stop
          else scan text fuel start (i + 1)

def scanSentences (text : Text) : Option (List Sentence) :=
  scan letters text (Bytes.size text + 1) 0 0

end Scan

section Reading

open Bytes (size)

/-- The bytes of a character are those of one byte `n`, or it is another character. -/
theorem byte_eq_iff {c : Char} {b n : Nat} (mem : b ∈ Utf8.encode c) (ascii : n < 128) :
    b = n ↔ c.toNat = n := by
  rcases Utf8.mem_encode mem with ⟨-, rfl⟩ | ⟨wide, high⟩
  · exact Iff.rfl
  · omega

theorem isDigitByte_eq {c : Char} {b : Nat} (mem : b ∈ Utf8.encode c) :
    isDigitByte b = c.isDigit := by
  rw [Bool.eq_iff_iff, Char.isDigit_iff_toNat, isDigitByte, Bool.and_eq_true, decide_eq_true_eq,
    decide_eq_true_eq]
  have zero : '0'.toNat = 48 := rfl
  have nine : '9'.toNat = 57 := rfl
  rcases Utf8.mem_encode mem with ⟨-, rfl⟩ | ⟨wide, high⟩
  · exact Iff.rfl
  · omega

theorem isTerminator_iff {c : Char} :
    isTerminator c = true ↔ c.toNat = 46 ∨ c.toNat = 33 ∨ c.toNat = 63 := by
  have same (d : Char) : c = d ↔ c.toNat = d.toNat := Char.toNat_inj.symm
  simp only [isTerminator, Bool.or_eq_true, beq_iff_eq, same, or_assoc]
  exact Iff.rfl

theorem terminator_byte {c : Char} {b : Nat} (mem : b ∈ Utf8.encode c) :
    (b = 46 ∨ b = 33 ∨ b = 63) ↔ isTerminator c = true := by
  rw [isTerminator_iff, byte_eq_iff mem (by decide), byte_eq_iff mem (by decide),
    byte_eq_iff mem (by decide)]

theorem size_terminator {c : Char} (ends : isTerminator c = true) : c.utf8Size = 1 := by
  unfold isTerminator at ends
  simp only [Bool.or_eq_true, beq_iff_eq] at ends
  rcases ends with (rfl | rfl) | rfl <;> rfl

/-- No first byte of a longer character is white space when it is read as a character. -/
theorem no_space_above : ∀ b < 256, 192 ≤ b → isSpaceAt b = false := by decide +kernel

/-- The byte loop over white space stops where the characters do. -/
theorem spaces_length (after : Text) :
    ((Utf8.bytes after).takeWhile isSpaceAt).length = size (after.takeWhile isSpaceByte) := by
  induction after with
  | nil => rfl
  | cons c rest ih =>
      obtain ⟨b, first, small, kinds⟩ := Utf8.head_bytes c rest
      rcases kinds with ⟨ascii, rfl⟩ | ⟨wide, high⟩
      · have whole := Utf8.encode_ascii ascii
        have one : c.utf8Size = 1 := by
          rw [← Utf8.encode_length, whole]
          rfl
        have same : isSpaceAt c.toNat = isSpaceByte c := by
          rw [isSpaceAt, isSpaceByte, Char.ofNat_toNat, decide_eq_true ascii, Bool.true_and]
        rw [Utf8.bytes_cons, whole, List.singleton_append, List.takeWhile_cons, List.takeWhile_cons,
          same]
        cases isSpaceByte c with
        | true =>
            rw [if_pos rfl, if_pos rfl, List.length_cons, ih, Bytes.size_cons, one, Nat.add_comm]
        | false => rfl
      · have solid : isSpaceByte c = false := by
          rw [isSpaceByte, decide_eq_false (Nat.not_lt.mpr wide), Bool.false_and]
        have none : isSpaceAt b = false := no_space_above b small high
        cases bytes : Utf8.bytes (c :: rest) with
        | nil => rw [List.takeWhile_cons, solid]; rfl
        | cons lead more =>
            rw [bytes] at first
            obtain rfl := Option.some.inj first
            rw [List.takeWhile_cons, none, List.takeWhile_cons, solid]
            rfl

variable {letters : Letters} {head after closers : Text} {dot : Char}

/-- A text around a terminator, with the position behind its closers. -/
theorem behind_closers (ends : isTerminator dot = true) :
    size (head ++ dot :: closers) = size head + 1 + size closers := by
  rw [Bytes.size_append, Bytes.size_cons, size_terminator ends, Nat.add_assoc]

theorem whole_text : head ++ dot :: (closers ++ after) = (head ++ dot :: closers) ++ after := by
  simp

theorem mark_byte : ∃ b, (Utf8.bytes (head ++ dot :: (closers ++ after)))[size head]? = some b ∧
    b ∈ Utf8.encode dot :=
  @Utf8.inner_byte head dot (closers ++ after) 0 dot.utf8Size_pos

theorem dot_iff {b : Nat} (mem : b ∈ Utf8.encode dot) : b = 46 ↔ dot = '.' := by
  rw [byte_eq_iff mem (by decide)]
  exact @Char.toNat_inj dot '.'

/-- The byte before the terminator. -/
theorem previous_digit (inhabited : head ≠ []) :
    ∃ b, (Utf8.bytes (head ++ dot :: (closers ++ after)))[size head - 1]? = some b ∧
      isDigitByte b = head.getLast?.any Char.isDigit := by
  obtain ⟨init, last, rfl⟩ := (List.eq_nil_or_concat' head).resolve_left inhabited
  obtain ⟨b, found, mem⟩ := Utf8.last_byte init last (dot :: (closers ++ after))
  refine ⟨b, ?_, ?_⟩
  · rw [List.append_assoc]
    exact found
  · rw [isDigitByte_eq mem, List.getLast?_concat]
    rfl

/-- The byte behind the closers. -/
theorem next_digit (ends : isTerminator dot = true) (inhabited : after ≠ []) :
    ∃ b, (Utf8.bytes (head ++ dot :: (closers ++ after)))[size head + 1 + size closers]? = some b ∧
      isDigitByte b = after.head?.any Char.isDigit := by
  obtain ⟨next, rest, rfl⟩ := List.exists_cons_of_ne_nil inhabited
  obtain ⟨b, found, mem⟩ := @Utf8.inner_byte (head ++ dot :: closers) next rest 0 next.utf8Size_pos
  refine ⟨b, ?_, isDigitByte_eq mem⟩
  rw [whole_text, ← behind_closers ends]
  exact found

theorem bytes_left (ends : isTerminator dot = true) :
    size head + 1 + size closers < (Utf8.bytes (head ++ dot :: (closers ++ after))).length ↔
      after ≠ [] := by
  rw [Utf8.bytes_length, whole_text, Bytes.size_append, behind_closers ends]
  constructor
  · rintro less rfl
    exact Nat.lt_irrefl _ less
  · intro inhabited
    exact Nat.lt_add_of_pos_right (Bytes.size_pos inhabited)

theorem isDecimalAt_eq (ends : isTerminator dot = true) :
    isDecimalAt (head ++ dot :: (closers ++ after)) (size head) (size head + 1 + size closers) =
      some (dot == '.' && head.getLast?.any Char.isDigit && after.head?.any Char.isDigit) := by
  obtain ⟨mark, found, mem⟩ := @mark_byte head after closers dot
  unfold isDecimalAt
  dsimp only
  rw [found]
  simp only [Option.bind_eq_bind, Option.bind_some]
  by_cases point : mark = 46 ∧ 0 < size head
  · obtain ⟨isDot, positive⟩ := point
    obtain rfl := (dot_iff mem).mp isDot
    have inhabited : head ≠ [] := by
      rintro rfl
      exact Nat.lt_irrefl 0 positive
    obtain ⟨previous, before, digit⟩ := @previous_digit head after closers '.' inhabited
    rw [if_pos ⟨isDot, positive⟩, before, Option.bind_some, digit]
    cases head.getLast?.any Char.isDigit with
    | false => rfl
    | true =>
        by_cases more : after = []
        · rw [if_neg fun both => (bytes_left ends).mp both.2 more, more]
          rfl
        · obtain ⟨next, behind, digit'⟩ := @next_digit head after closers '.' ends more
          rw [if_pos ⟨rfl, (bytes_left ends).mpr more⟩, behind, Option.bind_some, digit']
          rfl
  · rw [if_neg point]
    rcases not_and_or.mp point with other | start
    · have plain : (dot == '.') = false := beq_false_of_ne (mt (dot_iff mem).mpr other)
      rw [plain]
      rfl
    · have empty : head = [] := by
        by_contra inhabited
        exact start (Bytes.size_pos inhabited)
      rw [empty]
      simp

theorem isInitialismAt_eq (ends : isTerminator dot = true) :
    isInitialismAt letters (head ++ dot :: (closers ++ after)) (size head)
        (size head + 1 + size closers) =
      some (head.getLast?.any letters.isUppercase && after.head?.any letters.isUppercase) := by
  have before : Bytes.slice (head ++ dot :: (closers ++ after)) 0 (size head) = some head :=
    Bytes.slice_eq.mpr ⟨[], dot :: (closers ++ after), rfl, rfl, Nat.zero_add _⟩
  have behind : Bytes.sliceFrom (head ++ dot :: (closers ++ after))
      (size head + 1 + size closers) = some after :=
    Bytes.sliceFrom_eq.mpr ⟨head ++ dot :: closers, by simp, behind_closers ends⟩
  rw [isInitialismAt, before, behind]
  rfl

theorem endsWith_eq (head : Text) (abbreviation : String) :
    endsWith letters head abbreviation = some (abbreviation.toList.isSuffixOf head &&
      ((head.take (head.length - abbreviation.length)).getLast?).all fun previous =>
        !letters.isAlphanumeric previous) := by
  unfold endsWith
  cases suffix : abbreviation.toList.isSuffixOf head with
  | false => rfl
  | true =>
      obtain ⟨before, rfl⟩ := List.isSuffixOf_iff_suffix.mp suffix
      have cut : Bytes.slice (before ++ abbreviation.toList) 0
          (size (before ++ abbreviation.toList) - size abbreviation.toList) = some before :=
        Bytes.slice_eq.mpr ⟨[], abbreviation.toList, rfl, rfl, by
          rw [Bytes.size_append, Nat.add_sub_cancel, Bytes.size_nil, Nat.zero_add]⟩
      have front : (before ++ abbreviation.toList).take
          ((before ++ abbreviation.toList).length - abbreviation.length) = before := by
        rw [List.length_append, String.length_toList, Nat.add_sub_cancel]
        exact List.take_left' rfl
      rw [if_pos rfl, cut, front]
      rfl

theorem anyM_some {α : Type} {p : α → Option Bool} {q : α → Bool} (items : List α)
    (runs : ∀ item, p item = some (q item)) : items.anyM p = some (items.any q) := by
  induction items with
  | nil => rfl
  | cons item rest ih =>
      rw [List.anyM, runs, List.any_cons]
      cases q item with
      | true => rfl
      | false => exact ih

theorem isFollowedAt_eq (ends : isTerminator dot = true) :
    isFollowedAt letters (head ++ dot :: (closers ++ after)) (size head + 1 + size closers) =
      some (match after.dropWhile isSpaceByte with
        | [] => true
        | next :: _ =>
            letters.isUppercase next || next.isDigit || next == '"' || next == '\x27' ||
              next == '(') := by
  have bytes : (Utf8.bytes (head ++ dot :: (closers ++ after))).drop
      (size head + 1 + size closers) = Utf8.bytes after := by
    rw [whole_text, ← behind_closers ends, Utf8.bytes_append]
    exact List.drop_left' (Utf8.bytes_length _)
  have split : after.takeWhile isSpaceByte ++ after.dropWhile isSpaceByte = after :=
    List.takeWhile_append_dropWhile
  have length : (Utf8.bytes (head ++ dot :: (closers ++ after))).length =
      size head + 1 + size closers + size (after.takeWhile isSpaceByte) +
        size (after.dropWhile isSpaceByte) := by
    rw [Utf8.bytes_length, whole_text, Bytes.size_append, behind_closers ends, Nat.add_assoc _ _
      (size (after.dropWhile isSpaceByte)), ← Bytes.size_append, split]
  unfold isFollowedAt
  dsimp only
  rw [bytes, spaces_length, length]
  cases behind : after.dropWhile isSpaceByte with
  | nil =>
      rw [Bytes.size_nil, Nat.add_zero, if_pos (Nat.le_refl _)]
      rfl
  | cons next rest =>
      have cut : Bytes.sliceFrom (head ++ dot :: (closers ++ after))
          (size head + 1 + size closers + size (after.takeWhile isSpaceByte)) =
            some (next :: rest) := by
        refine Bytes.sliceFrom_eq.mpr
          ⟨(head ++ dot :: closers) ++ after.takeWhile isSpaceByte, ?_, ?_⟩
        · rw [List.append_assoc, ← behind, split, whole_text]
        · rw [Bytes.size_append, behind_closers ends]
      have more : ¬ size head + 1 + size closers + size (after.takeWhile isSpaceByte) +
          size (next :: rest) ≤
            size head + 1 + size closers + size (after.takeWhile isSpaceByte) := by
        have := Bytes.size_pos (List.cons_ne_nil next rest)
        omega
      rw [if_neg more, cut]
      rfl

theorem isBoundaryAt_eq (ends : isTerminator dot = true) :
    isBoundaryAt letters (head ++ dot :: (closers ++ after)) (size head)
        (size head + 1 + size closers) = some (isBoundary letters head dot after) := by
  obtain ⟨mark, found, mem⟩ := @mark_byte head after closers dot
  have through : Bytes.slice (head ++ dot :: (closers ++ after)) 0 (size head + 1) =
      some (head ++ [dot]) := by
    refine Bytes.slice_eq.mpr ⟨[], closers ++ after, by simp, rfl, ?_⟩
    rw [Bytes.size_append, Bytes.size_cons, size_terminator ends]
    exact Nat.zero_add _
  have abbreviated : abbreviations.anyM (endsWith letters (head ++ [dot])) =
      some (endsWithAbbreviation letters (head ++ [dot])) :=
    anyM_some _ (endsWith_eq (head ++ [dot]))
  unfold isBoundaryAt isBoundary
  rw [isDecimalAt_eq ends, isInitialismAt_eq ends, isFollowedAt_eq ends, found, through]
  simp only [Option.bind_eq_bind, Option.bind_some, abbreviated]
  by_cases point : mark = 46
  · obtain rfl := (dot_iff mem).mp point
    rw [if_pos point]
    simp only [beq_self_eq_true, Bool.true_and]
    rw [apply_ite some, apply_ite some, apply_ite some]
    rfl
  · rw [if_neg point]
    have plain : (dot == '.') = false := beq_false_of_ne (mt (dot_iff mem).mpr point)
    rw [plain]
    rfl

end Reading

section Loop

open Bytes (size)

variable {letters : Letters}

theorem sentenceAt_eq (before piece : Text) :
    sentenceAt (size before) piece = sentenceOf (before ++ piece) piece := by
  have shorter : size (Text.trimStart piece) ≤ size piece := by
    have split : piece.takeWhile Text.isWhitespace ++ Text.trimStart piece = piece :=
      List.takeWhile_append_dropWhile
    have sum := congrArg size split
    rw [Bytes.size_append] at sum
    omega
  have place : size before + leadingWs piece =
      size (before ++ piece) - size (Text.trimStart piece) := by
    rw [leadingWs, Bytes.size_append]
    omega
  unfold sentenceAt sentenceOf
  dsimp only
  rw [place]

/-- The closers of a terminator are skipped. -/
theorem segmentFrom_skip (rest : Text) : ∀ skip head piece, skip ≤ rest.length →
    segmentFrom letters skip head piece rest =
      segmentFrom letters 0 head piece (rest.drop skip) := by
  induction rest with
  | nil =>
      intro skip head piece short
      rw [Nat.le_zero.mp short]
      rfl
  | cons c rest ih =>
      intro skip head piece short
      cases skip with
      | zero => rfl
      | succ skip =>
          rw [segmentFrom, List.drop_succ_cons]
          exact ih skip head piece (Nat.le_of_succ_le_succ short)

/-- The bytes of a character that ends nothing are passed one by one. -/
theorem scan_character {head rest : Text} {c : Char} (goesOn : isTerminator c = false)
    (fuel start : Nat) : ∀ left ≤ c.utf8Size,
      scan letters (head ++ c :: rest) (fuel + left) start (size head + (c.utf8Size - left)) =
        scan letters (head ++ c :: rest) fuel start (size head + c.utf8Size) := by
  intro left
  induction left with
  | zero => exact fun _ => rfl
  | succ left ih =>
      intro bound
      have inside : c.utf8Size - (left + 1) < c.utf8Size := by omega
      obtain ⟨b, found, mem⟩ := Utf8.inner_byte head c rest inside
      have other : ¬ (b = 46 ∨ b = 33 ∨ b = 63) := by
        rw [terminator_byte mem, goesOn]
        exact Bool.false_ne_true
      have next : size head + (c.utf8Size - (left + 1)) + 1 = size head + (c.utf8Size - left) := by
        omega
      rw [← Nat.add_assoc, scan, found]
      dsimp only
      rw [if_neg other, next]
      exact ih (by omega)

/-- At the end of the text the rest of it is a sentence. -/
theorem scan_end {before piece : Text} {fuel : Nat} (enough : 0 < fuel) :
    scan letters (before ++ piece) fuel (size before) (size (before ++ piece)) =
      some (sentenceOf (before ++ piece) piece) := by
  obtain ⟨fuel, rfl⟩ := Nat.exists_eq_succ_of_ne_zero (Nat.pos_iff_ne_zero.mp enough)
  have ended : (Utf8.bytes (before ++ piece))[size (before ++ piece)]? = none :=
    List.getElem?_eq_none (Nat.le_of_eq (Utf8.bytes_length _))
  have tail : Bytes.sliceFrom (before ++ piece) (size before) = some piece :=
    Bytes.sliceFrom_eq.mpr ⟨before, rfl, rfl⟩
  rw [scan, ended]
  dsimp only
  rw [tail, ← sentenceAt_eq]
  rfl

/-- One step at a terminator. -/
theorem scan_terminator {head rest : Text} {c : Char} (ends : isTerminator c = true)
    (fuel start : Nat) :
    scan letters (head ++ c :: rest) (fuel + 1) start (size head) =
      let closers := rest.takeWhile isCloser
      let stop := size (head ++ c :: closers)
      if isBoundary letters head c (rest.dropWhile isCloser) then do
        let slice ← Bytes.slice (head ++ c :: rest) start stop
        let later ← scan letters (head ++ c :: rest) fuel stop stop
        return sentenceAt start slice ++ later
      else scan letters (head ++ c :: rest) fuel start stop := by
  obtain ⟨mark, found, mem⟩ := @Utf8.inner_byte head c rest 0 c.utf8Size_pos
  have behind : Bytes.sliceFrom (head ++ c :: rest) (size head + 1) = some rest := by
    refine Bytes.sliceFrom_eq.mpr ⟨head ++ [c], by simp, ?_⟩
    rw [Bytes.size_append, Bytes.size_cons, size_terminator ends]
    rfl
  have boundary := @isBoundaryAt_eq letters head (rest.dropWhile isCloser)
    (rest.takeWhile isCloser) c ends
  rw [List.takeWhile_append_dropWhile] at boundary
  rw [Nat.add_zero] at found
  rw [scan, found]
  dsimp only
  rw [if_pos ((terminator_byte mem).mpr ends), behind, behind_closers ends]
  simp only [Option.bind_eq_bind, Option.bind_some, boundary]

/-- From a boundary on, the bytes give the sentences of the characters. -/
theorem scan_eq (n : Nat) : ∀ {before piece rest : Text} {fuel : Nat}, rest.length ≤ n →
    size rest < fuel →
    scan letters (before ++ piece ++ rest) fuel (size before) (size (before ++ piece)) =
      some (segmentFrom letters 0 (before ++ piece) piece rest) := by
  induction n with
  | zero =>
      intro before piece rest fuel short enough
      obtain rfl := List.length_eq_zero_iff.mp (Nat.le_zero.mp short)
      rw [List.append_nil]
      exact scan_end enough
  | succ n ih =>
      intro before piece rest fuel short enough
      cases rest with
      | nil =>
          rw [List.append_nil]
          exact scan_end enough
      | cons c rest =>
          rw [List.length_cons] at short
          rw [Bytes.size_cons] at enough
          have positive := c.utf8Size_pos
          rw [segmentFrom]
          cases ends : isTerminator c with
          | false =>
              obtain ⟨fuel, rfl⟩ : ∃ less, fuel = less + c.utf8Size :=
                ⟨fuel - c.utf8Size, by omega⟩
              have passed := @scan_character letters (before ++ piece) rest c ends fuel
                (size before) c.utf8Size (Nat.le_refl _)
              have whole : before ++ piece ++ c :: rest = before ++ (piece ++ [c]) ++ rest := by
                simp
              have behind : size (before ++ piece) + c.utf8Size =
                  size (before ++ (piece ++ [c])) := by
                simp only [Bytes.size_append, Bytes.size_cons, Bytes.size_nil]
                omega
              rw [Nat.sub_self, Nat.add_zero, behind] at passed
              rw [passed, whole, ih (by omega) (by omega), List.append_assoc]
              rfl
          | true =>
              obtain ⟨fuel, rfl⟩ := Nat.exists_eq_succ_of_ne_zero (n := fuel) (by omega)
              have split : rest.takeWhile isCloser ++ rest.dropWhile isCloser = rest :=
                List.takeWhile_append_dropWhile
              have skipped := List.takeWhile_sublist (l := rest) isCloser
              have dropped : rest.drop (rest.takeWhile isCloser).length =
                  rest.dropWhile isCloser := by
                have cut : (rest.takeWhile isCloser ++ rest.dropWhile isCloser).drop
                    (rest.takeWhile isCloser).length = rest.dropWhile isCloser :=
                  List.drop_left' rfl
                rwa [split] at cut
              have sum := congrArg size split
              have fewer := congrArg List.length split
              rw [Bytes.size_append] at sum
              rw [List.length_append] at fewer
              rw [scan_terminator ends, if_pos rfl]
              dsimp only
              rw [segmentFrom_skip _ _ _ _ skipped.length_le,
                segmentFrom_skip _ _ _ _ skipped.length_le, dropped]
              generalize rest.takeWhile isCloser = closers at *
              generalize rest.dropWhile isCloser = after at *
              subst split
              cases isBoundary letters (before ++ piece) c after with
              | true =>
                  have slice : Bytes.slice (before ++ piece ++ c :: (closers ++ after))
                      (size before) (size (before ++ piece ++ c :: closers)) =
                        some (piece ++ c :: closers) := by
                    refine Bytes.slice_eq.mpr ⟨before, after, by simp, rfl, ?_⟩
                    rw [List.append_assoc, ← Bytes.size_append]
                  have later := @ih (before ++ piece ++ c :: closers) [] after fuel (by omega)
                    (by omega)
                  have whole : before ++ piece ++ c :: closers ++ after =
                    before ++ piece ++ c :: (closers ++ after) := by simp
                  rw [List.append_nil, whole] at later
                  rw [if_pos rfl, if_pos rfl, slice]
                  simp only [Option.bind_eq_bind, Option.bind_some]
                  rw [later, sentenceAt_eq, ← List.append_assoc before piece]
                  rfl
              | false =>
                  have later := @ih before (piece ++ c :: closers) after fuel (by omega) (by omega)
                  have whole : before ++ (piece ++ c :: closers) ++ after =
                    before ++ piece ++ c :: (closers ++ after) := by simp
                  rw [whole, ← List.append_assoc before piece] at later
                  rw [if_neg Bool.false_ne_true, if_neg Bool.false_ne_true]
                  exact later

theorem scanSentences_eq (text : Text) :
    scanSentences letters text = some (segmentSentences letters text) :=
  @scan_eq letters text.length [] [] text (size text + 1) (Nat.le_refl _) (Nat.lt_succ_self _)

end Loop

end SP42.Citation

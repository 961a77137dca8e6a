import Mathlib.Data.List.DropRight
import Mathlib.Tactic.Common

/-!
Strings as the sequence of their characters, with the operations of the standard
library that the modelled code uses. A position counts characters here; the one
module that slices by bytes says so itself.
-/
namespace SP42

abbrev Text := List Char

instance : LawfulBEq Text := inferInstance

namespace Text

/-- `char::is_whitespace`: the characters with the White_Space property. -/
def isWhitespace (c : Char) : Bool :=
  let n := c.toNat
  (9 ≤ n && n ≤ 13) || n == 0x20 || n == 0x85 || n == 0xa0 || n == 0x1680 ||
    (0x2000 ≤ n && n ≤ 0x200a) || n == 0x2028 || n == 0x2029 || n == 0x202f || n == 0x205f ||
    n == 0x3000

def trimStart (text : Text) : Text := text.dropWhile isWhitespace

def trimEnd (text : Text) : Text := text.rdropWhile isWhitespace

/-- `str::trim`. -/
def trim (text : Text) : Text := trimEnd (trimStart text)

/-- `str::trim_matches` with a set of characters. -/
def trimMatches (drops : Char → Bool) (text : Text) : Text :=
  (text.dropWhile drops).rdropWhile drops

/-- `[T]::join`. -/
def join (separator : Text) (pieces : List Text) : Text := List.intercalate separator pieces

/-- A written string is compared by its characters, which spares reading its octets. -/
theorem not_mem_literal {c : Char} {letters : List Char} (apart : c ∉ letters) :
    c ∉ (String.ofList letters).toList := by rwa [String.toList_ofList]

theorem mem_of_mem_trimMatches {drops : Char → Bool} {text : Text} {c : Char}
    (h : c ∈ trimMatches drops text) : c ∈ text :=
  (List.dropWhile_sublist drops).subset ((List.rdropWhile_prefix drops _).subset h)

theorem trim_sublist (text : Text) : (trim text).Sublist text :=
  (List.rdropWhile_prefix isWhitespace _).sublist.trans (List.dropWhile_sublist isWhitespace)

theorem trim_eq_nil_iff {text : Text} :
    trim text = [] ↔ ∀ c ∈ text, isWhitespace c = true := by
  unfold trim trimEnd trimStart
  rw [List.rdropWhile_eq_nil_iff, ← @List.dropWhile_eq_nil_iff _ isWhitespace text]
  constructor
  · intro blank
    cases started : text.dropWhile isWhitespace with
    | nil => rfl
    | cons c rest =>
        have head := List.head?_dropWhile_not isWhitespace text
        rw [started] at head blank
        have solid : isWhitespace c = false := by simpa using head
        exact absurd (blank c List.mem_cons_self) (by simp [solid])
  · intro blank
    rw [blank]
    exact fun _ member => absurd member List.not_mem_nil

/-- A trimmed text has nothing left to trim. -/
theorem trim_trim (text : Text) : trim (trim text) = trim text := by
  have settled : trimStart (trim text) = trim text := by
    unfold trim trimEnd trimStart
    cases started : text.dropWhile isWhitespace with
    | nil => rfl
    | cons c rest =>
        have solid : isWhitespace c = false := by
          have head := List.head?_dropWhile_not isWhitespace text
          rw [started] at head
          simpa using head
        have begins := List.rdropWhile_prefix isWhitespace (c :: rest)
        cases ended : (c :: rest).rdropWhile isWhitespace with
        | nil => rfl
        | cons d others =>
            obtain ⟨rfl, -⟩ := List.cons_prefix_cons.mp (ended ▸ begins)
            rw [List.dropWhile_cons_of_neg (by simp [solid])]
  unfold trim at settled ⊢
  rw [settled]
  exact List.rdropWhile_idempotent isWhitespace _

theorem trim_of_solid {text : Text} (solid : ∀ c ∈ text, isWhitespace c = false) :
    trim text = text := by
  have front : trimStart text = text := by
    cases text with
    | nil => rfl
    | cons c rest => exact List.dropWhile_cons_of_neg (by simp [solid c List.mem_cons_self])
  rw [trim, front, trimEnd, List.rdropWhile_eq_self_iff]
  intro inhabited
  simp [solid _ (List.getLast_mem inhabited)]

/-- Joining puts the separator before every piece but the first. -/
theorem join_cons (separator piece : Text) (pieces : List Text) :
    join separator (piece :: pieces) = piece ++ pieces.flatMap fun p => separator ++ p := by
  unfold join
  induction pieces generalizing piece with
  | nil => simp
  | cons next rest ih =>
      rw [List.intercalate_cons_cons, ih, List.flatMap_cons]
      simp only [List.append_assoc]

theorem mem_join {separator : Text} {pieces : List Text} {c : Char} (h : c ∈ join separator pieces) :
    c ∈ separator ∨ ∃ piece ∈ pieces, c ∈ piece := by
  cases pieces with
  | nil => simp [join] at h
  | cons piece pieces =>
      rw [join_cons, List.mem_append, List.mem_flatMap] at h
      rcases h with here | ⟨other, member, inside⟩
      · exact .inr ⟨piece, List.mem_cons_self, here⟩
      · rcases List.mem_append.mp inside with between | there
        · exact .inl between
        · exact .inr ⟨other, List.mem_cons_of_mem _ member, there⟩

theorem join_append (separator : Text) {pieces others : List Text} (here : pieces ≠ [])
    (there : others ≠ []) :
    join separator (pieces ++ others) =
      join separator pieces ++ (separator ++ join separator others) := by
  cases pieces with
  | nil => exact absurd rfl here
  | cons piece pieces =>
      cases others with
      | nil => exact absurd rfl there
      | cons other others => simp [join_cons]

/-- Trimming takes the white space around a text that begins and ends with something else. -/
theorem trim_padded {before after inner : Text} {first last : Char}
    (blankBefore : ∀ c ∈ before, isWhitespace c = true)
    (blankAfter : ∀ c ∈ after, isWhitespace c = true) (solid : isWhitespace first = false)
    (solid' : isWhitespace last = false) :
    trim (before ++ (first :: inner ++ [last]) ++ after) = first :: inner ++ [last] := by
  unfold trim trimStart trimEnd
  rw [List.append_assoc, List.dropWhile_append_of_pos blankBefore, List.cons_append,
    List.cons_append, List.dropWhile_cons_of_neg (by simp [solid]), List.rdropWhile]
  simp only [List.reverse_cons, List.reverse_append, List.append_assoc]
  rw [List.dropWhile_append_of_pos (by simpa using blankAfter)]
  simp [solid']

theorem trim_append_left {before : Text} (blank : ∀ c ∈ before, isWhitespace c = true)
    (text : Text) : trim (before ++ text) = trim text := by
  unfold trim trimStart
  rw [List.dropWhile_append_of_pos blank]

theorem trim_append_right {after : Text} (blank : ∀ c ∈ after, isWhitespace c = true)
    (text : Text) : trim (text ++ after) = trim text := by
  unfold trim trimStart trimEnd
  rw [List.dropWhile_append]
  cases started : text.dropWhile isWhitespace with
  | nil =>
      rw [List.isEmpty_nil, if_pos rfl, List.rdropWhile_nil, List.rdropWhile_eq_nil_iff]
      intro c member
      exact blank c ((List.dropWhile_sublist _).subset member)
  | cons c rest =>
      rw [List.isEmpty_cons, if_neg Bool.false_ne_true, List.rdropWhile, List.reverse_append,
        List.dropWhile_append_of_pos (by simpa using blank)]
      rfl

/-- A text that begins and ends with more than blanks is trimmed. -/
theorem trim_of_ends {text : Text} (first : ∀ c ∈ text.head?, isWhitespace c = false)
    (last : ∀ c ∈ text.getLast?, isWhitespace c = false) : trim text = text := by
  have start : trimStart text = text := by
    unfold trimStart
    cases text with
    | nil => rfl
    | cons c rest => exact List.dropWhile_cons_of_neg (by simp [first c rfl])
  unfold trim
  rw [start]
  unfold trimEnd
  rw [List.rdropWhile_eq_self_iff]
  intro inhabited
  rw [last _ (List.getLast?_eq_some_getLast inhabited)]
  exact Bool.false_ne_true

theorem head?_join {separator piece : Text} {pieces : List Text} (inhabited : piece ≠ []) :
    (join separator (piece :: pieces)).head? = piece.head? := by
  rw [join_cons]
  cases piece with
  | nil => exact absurd rfl inhabited
  | cons c rest => rfl

theorem getLast?_join {separator last : Text} {pieces : List Text} (inhabited : last ≠ []) :
    (join separator (pieces ++ [last])).getLast? = last.getLast? := by
  have alone : join separator [last] = last := by rw [join_cons, List.flatMap_nil, List.append_nil]
  by_cases only : pieces = []
  · rw [only, List.nil_append, alone]
  · rw [join_append separator only (List.cons_ne_nil _ _), alone, ← List.append_assoc,
      List.getLast?_append_of_ne_nil _ inhabited]

/-- Pieces without blanks make a trimmed text. -/
theorem trim_join {separator : Text} {pieces : List Text}
    (solid : ∀ piece ∈ pieces, piece ≠ [] ∧ ∀ c ∈ piece, isWhitespace c = false) :
    trim (join separator pieces) = join separator pieces := by
  apply trim_of_ends
  · intro c member
    cases pieces with
    | nil => cases member
    | cons piece pieces =>
        rw [head?_join (solid piece List.mem_cons_self).1] at member
        exact (solid piece List.mem_cons_self).2 c (List.mem_of_mem_head? member)
  · intro c member
    rcases List.eq_nil_or_concat pieces with rfl | ⟨before, piece, rfl⟩
    · cases member
    · rw [List.concat_eq_append] at solid member
      have inside : piece ∈ before ++ [piece] := by simp
      rw [getLast?_join (solid piece inside).1] at member
      exact (solid piece inside).2 c (List.mem_of_getLast? member)

/-- What is trimmed off is blank. -/
theorem trim_split (text : Text) : ∃ before after, text = before ++ trim text ++ after ∧
    (∀ c ∈ before, isWhitespace c = true) ∧ ∀ c ∈ after, isWhitespace c = true := by
  refine ⟨text.takeWhile isWhitespace, (trimStart text).rtakeWhile isWhitespace, ?_, ?_, ?_⟩
  · rw [List.append_assoc, trim, trimEnd, List.rdropWhile_append_rtakeWhile, trimStart,
      List.takeWhile_append_dropWhile]
  · intro c member
    exact List.mem_takeWhile_imp member
  · intro c member
    exact List.mem_rtakeWhile_imp member

theorem trim_infix (text : Text) : trim text <:+: text := by
  obtain ⟨before, after, split, -⟩ := trim_split text
  exact ⟨before, after, split.symm⟩

/-- Trimming keeps what stands before a character that is not white space. -/
theorem trim_keeps (before : Text) {c : Char} (solid : isWhitespace c = false) (rest : Text) :
    ∃ later, trim (before ++ c :: rest) = trimStart before ++ c :: later := by
  have back : ∃ later, trimEnd (trimStart before ++ c :: rest) = trimStart before ++ c :: later := by
    unfold trimEnd
    induction rest using List.reverseRecOn with
    | nil =>
        exact ⟨[], List.rdropWhile_concat_neg isWhitespace (trimStart before) c (by simp [solid])⟩
    | append_singleton rest d ih =>
        rw [← List.cons_append, ← List.append_assoc]
        cases blank : isWhitespace d with
        | true =>
            rw [List.rdropWhile_concat_pos _ _ _ blank]
            exact ih
        | false =>
            rw [List.rdropWhile_concat_neg _ _ _ (by simp [blank])]
            exact ⟨rest ++ [d], by simp⟩
  have front : trimStart (before ++ c :: rest) = trimStart before ++ c :: rest := by
    unfold trimStart
    rw [List.dropWhile_append, List.dropWhile_cons_of_neg (by simp [solid])]
    split
    case isTrue blank => rw [List.isEmpty_iff.mp blank, List.nil_append]
    case isFalse => rfl
  rw [trim, front]
  exact back

theorem trim_ne {before : Text} {c d : Char} (solid : isWhitespace c = false)
    (solid' : isWhitespace d = false) (differ : c ≠ d) (rest rest' : Text) :
    trim (before ++ c :: rest) ≠ trim (before ++ d :: rest') := by
  obtain ⟨later, here⟩ := trim_keeps before solid rest
  obtain ⟨later', there⟩ := trim_keeps before solid' rest'
  intro same
  rw [here, there, List.append_cancel_left_eq] at same
  exact differ (List.cons.inj same).1

end Text

end SP42

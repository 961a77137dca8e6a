import Mathlib.Data.List.Infix
import Mathlib.Tactic.Common

/-!
Positions in a text counted in UTF-8 bytes. A slice exists between two character
boundaries that are in order, and nowhere else.
-/
namespace Bytes

/-- The length in bytes. -/
def size : List Char → Nat
  | [] => 0
  | c :: rest => c.utf8Size + size rest

/-- The text before and after a position, if a character begins or the text ends there. -/
def splitAt : Nat → List Char → Option (List Char × List Char)
  | 0, text => some ([], text)
  | _ + 1, [] => none
  | n + 1, c :: rest =>
      if c.utf8Size ≤ n + 1 then
        (splitAt (n + 1 - c.utf8Size) rest).map fun halves => (c :: halves.1, halves.2)
      else none

/-- `&text[start..]`. -/
def sliceFrom (text : List Char) (start : Nat) : Option (List Char) :=
  (splitAt start text).map Prod.snd

/-- `&text[start..stop]`. -/
def slice (text : List Char) (start stop : Nat) : Option (List Char) :=
  if stop < start then none
  else (sliceFrom text start).bind fun rest => (splitAt (stop - start) rest).map Prod.fst

/-- A character begins at the position, or the text ends there. -/
def Boundary (text : List Char) (position : Nat) : Prop :=
  ∃ before after, text = before ++ after ∧ size before = position

@[simp] theorem size_nil : size [] = 0 := rfl

@[simp] theorem size_cons (c : Char) (rest : List Char) : size (c :: rest) = c.utf8Size + size rest :=
  rfl

@[simp] theorem size_append (before after : List Char) :
    size (before ++ after) = size before + size after := by
  induction before with
  | nil => simp
  | cons c before ih => simp only [List.cons_append, size_cons, ih]; omega

theorem size_pos {text : List Char} (h : text ≠ []) : 0 < size text := by
  cases text with
  | nil => exact absurd rfl h
  | cons c rest => have := c.utf8Size_pos; simp only [size_cons]; omega

theorem length_le_size (text : List Char) : text.length ≤ size text := by
  induction text with
  | nil => exact Nat.le_refl 0
  | cons c rest ih =>
      have positive := c.utf8Size_pos
      rw [List.length_cons, size_cons]
      omega

theorem splitAt_size (before after : List Char) :
    splitAt (size before) (before ++ after) = some (before, after) := by
  induction before with
  | nil => cases after <;> rfl
  | cons c before ih =>
      have positive := c.utf8Size_pos
      obtain ⟨n, value⟩ : ∃ n, c.utf8Size + size before = n + 1 :=
        ⟨c.utf8Size + size before - 1, by omega⟩
      rw [size_cons, value, List.cons_append, splitAt, if_pos (by omega),
        show n + 1 - c.utf8Size = size before by omega, ih]
      rfl

theorem eq_of_splitAt {n : Nat} {text before after : List Char}
    (h : splitAt n text = some (before, after)) : text = before ++ after ∧ size before = n := by
  induction text generalizing n before with
  | nil =>
      cases n with
      | zero => cases h; exact ⟨rfl, rfl⟩
      | succ n => cases h
  | cons c rest ih =>
      cases n with
      | zero => cases h; exact ⟨rfl, rfl⟩
      | succ n =>
          rw [splitAt] at h
          split at h
          · obtain ⟨⟨front, back⟩, halves, pair⟩ := Option.map_eq_some_iff.mp h
            cases pair
            obtain ⟨text, length⟩ := ih halves
            refine ⟨by rw [text]; rfl, ?_⟩
            rw [size_cons, length]
            omega
          · cases h

/-- Two cuts of a text at one position are the same. -/
theorem cut_unique {before after front back : List Char} (whole : before ++ after = front ++ back)
    (length : size before = size front) : before = front ∧ after = back := by
  have halves := splitAt_size before after
  rw [whole, length, splitAt_size] at halves
  cases halves
  exact ⟨rfl, rfl⟩

theorem splitAt_isSome {text : List Char} {position : Nat} :
    (splitAt position text).isSome ↔ Boundary text position := by
  rw [Option.isSome_iff_exists]
  constructor
  · rintro ⟨⟨before, after⟩, h⟩
    exact ⟨before, after, eq_of_splitAt h⟩
  · rintro ⟨before, after, rfl, rfl⟩
    exact ⟨_, splitAt_size before after⟩

theorem boundary_zero (text : List Char) : Boundary text 0 := ⟨[], text, rfl, rfl⟩

theorem boundary_size (text : List Char) : Boundary text (size text) :=
  ⟨text, [], (List.append_nil text).symm, rfl⟩

theorem Boundary.le_size {text : List Char} {position : Nat} (h : Boundary text position) :
    position ≤ size text := by
  obtain ⟨before, after, rfl, rfl⟩ := h
  rw [size_append]
  omega

/-- A boundary of what follows a boundary is one of the text. -/
theorem Boundary.add {before after : List Char} {position : Nat} (h : Boundary after position) :
    Boundary (before ++ after) (size before + position) := by
  obtain ⟨front, back, rfl, rfl⟩ := h
  exact ⟨before ++ front, back, by rw [List.append_assoc], size_append before front⟩

theorem sliceFrom_eq {text rest : List Char} {start : Nat} :
    sliceFrom text start = some rest ↔ ∃ before, text = before ++ rest ∧ size before = start := by
  rw [sliceFrom, Option.map_eq_some_iff]
  constructor
  · rintro ⟨⟨before, _⟩, h, rfl⟩
    exact ⟨before, eq_of_splitAt h⟩
  · rintro ⟨before, rfl, rfl⟩
    exact ⟨_, splitAt_size before rest, rfl⟩

/-- Two boundaries in order cut a text in three. -/
theorem slice_eq {text piece : List Char} {start stop : Nat} :
    slice text start stop = some piece ↔
      ∃ before after, text = before ++ (piece ++ after) ∧ size before = start ∧
        size before + size piece = stop := by
  unfold slice
  constructor
  · intro h
    split at h
    · cases h
    · obtain ⟨rest, from_, cut⟩ := Option.bind_eq_some_iff.mp h
      obtain ⟨before, rfl, rfl⟩ := sliceFrom_eq.mp from_
      obtain ⟨⟨_, after⟩, halves, rfl⟩ := Option.map_eq_some_iff.mp cut
      obtain ⟨rfl, length⟩ := eq_of_splitAt halves
      exact ⟨before, after, rfl, rfl, by dsimp only; omega⟩
  · rintro ⟨before, after, rfl, rfl, rfl⟩
    rw [if_neg (by omega), sliceFrom_eq.mpr ⟨before, rfl, rfl⟩, Option.bind_some,
      Nat.add_sub_cancel_left, splitAt_size]
    rfl

theorem slice_of_boundaries {text : List Char} {start stop : Nat} (low : Boundary text start)
    (high : Boundary text stop) (ordered : start ≤ stop) : (slice text start stop).isSome := by
  obtain ⟨before, rest, rfl, rfl⟩ := low
  obtain ⟨front, after, whole, rfl⟩ := high
  obtain ⟨piece, rfl⟩ | ⟨piece, rfl⟩ :
      (∃ piece, front = before ++ piece) ∨ ∃ piece, before = front ++ piece :=
    (List.append_eq_append_iff.mp whole).imp
      (fun ⟨piece, split, _⟩ => ⟨piece, split⟩) fun ⟨piece, split, _⟩ => ⟨piece, split⟩
  · rw [List.append_assoc, List.append_right_inj] at whole
    exact Option.isSome_iff_exists.mpr
      ⟨piece, slice_eq.mpr ⟨before, after, by rw [whole], rfl, by rw [size_append]⟩⟩
  · have empty : piece = [] := by
      by_contra inhabited
      have := size_pos inhabited
      rw [size_append] at ordered
      omega
    subst empty
    exact Option.isSome_iff_exists.mpr ⟨[], slice_eq.mpr ⟨front ++ [], rest, by simp, rfl, by simp⟩⟩

/-- From one boundary to a later one there is a piece. -/
theorem Boundary.piece {text before rest : List Char} {position : Nat} (h : Boundary text position)
    (whole : text = before ++ rest) (le : size before ≤ position) :
    ∃ piece later, rest = piece ++ later ∧ position = size before + size piece := by
  have cut := slice_of_boundaries ⟨before, rest, whole, rfl⟩ h le
  obtain ⟨piece, cut⟩ := Option.isSome_iff_exists.mp cut
  obtain ⟨front, later, split, length, stop⟩ := slice_eq.mp cut
  obtain ⟨rfl, rfl⟩ := cut_unique (whole.symm.trans split) length.symm
  exact ⟨piece, later, rfl, stop.symm⟩

theorem slice_of_reversed {text : List Char} {start stop : Nat} (reversed : stop < start) :
    slice text start stop = none := if_pos reversed

end Bytes

import Mathlib.Data.List.Basic

/-!
Reading framed text back. A field that avoids its delimiter ends at the first
one, a field whose brackets are well nested ends at the first bracket it does
not open, and the last fields of a record are found from its end. A list of
rendered elements is read one element at a time when each can be read off the
front of what follows it.
-/
namespace Framing

variable {α β γ : Type*}

theorem first_unique {sep : α} {xs ys s t : List α} (hx : sep ∉ xs) (hy : sep ∉ ys)
    (h : xs ++ sep :: s = ys ++ sep :: t) : xs = ys ∧ s = t := by
  rcases List.append_eq_append_iff.mp h with ⟨more, rfl, rest⟩ | ⟨more, rfl, rest⟩
  · cases more with
    | nil => exact ⟨by simp, by simpa using rest⟩
    | cons a more =>
        obtain ⟨rfl, _⟩ := List.cons.inj rest
        simp at hy
  · cases more with
    | nil => exact ⟨by simp, by simpa using rest.symm⟩
    | cons a more =>
        obtain ⟨rfl, _⟩ := List.cons.inj rest
        simp at hx

theorem last_unique {sep : α} {xs ys s t : List α} (hs : sep ∉ s) (ht : sep ∉ t)
    (h : xs ++ sep :: s = ys ++ sep :: t) : xs = ys ∧ s = t := by
  have mirrored : s.reverse ++ sep :: xs.reverse = t.reverse ++ sep :: ys.reverse := by
    simpa using congrArg List.reverse h
  obtain ⟨rest, same⟩ := first_unique (by simpa using hs) (by simpa using ht) mirrored
  exact ⟨List.reverse_injective same, List.reverse_injective rest⟩

section Nesting

variable [DecidableEq α] {op cl : α}

/-- Under `depth` open brackets, the text closes them all and no other. -/
def nestedFrom (op cl : α) : Nat → List α → Bool
  | depth, [] => depth == 0
  | depth, x :: xs =>
    if x = op then nestedFrom op cl (depth + 1) xs
    else if x = cl then
      match depth with
      | 0 => false
      | depth + 1 => nestedFrom op cl depth xs
    else nestedFrom op cl depth xs

/-- Well nested texts end where the enclosing bracket closes. -/
theorem nested_unique {depth : Nat} {xs ys s t : List α} (distinct : op ≠ cl)
    (hx : nestedFrom op cl depth xs = true) (hy : nestedFrom op cl depth ys = true)
    (h : xs ++ cl :: s = ys ++ cl :: t) : xs = ys ∧ s = t := by
  induction xs generalizing depth ys with
  | nil =>
      cases ys with
      | nil => exact ⟨rfl, (List.cons.inj h).2⟩
      | cons y ys =>
          obtain ⟨rfl, _⟩ := List.cons.inj h
          have closed : depth = 0 := by simpa [nestedFrom] using hx
          simp [nestedFrom, closed, distinct.symm] at hy
  | cons x xs ih =>
      cases ys with
      | nil =>
          obtain ⟨rfl, _⟩ := List.cons.inj h
          have closed : depth = 0 := by simpa [nestedFrom] using hy
          simp [nestedFrom, closed, distinct.symm] at hx
      | cons y ys =>
          obtain ⟨rfl, rest⟩ := List.cons.inj h
          suffices xs = ys ∧ s = t from ⟨congrArg _ this.1, this.2⟩
          by_cases opens : x = op
          · simp only [nestedFrom, opens, if_true] at hx hy
            exact ih hx hy rest
          · by_cases closes : x = cl
            · simp only [nestedFrom, closes, if_true, if_false, distinct.symm] at hx hy
              cases depth with
              | zero => cases hx
              | succ depth => exact ih hx hy rest
            · simp only [nestedFrom, opens, closes, if_false] at hx hy
              exact ih hx hy rest

/-- Only the brackets of a text decide whether it is well nested. -/
theorem nestedFrom_filter (depth : Nat) (xs : List α) :
    nestedFrom op cl depth (xs.filter fun x => decide (x = op) || decide (x = cl)) = nestedFrom op cl depth xs := by
  induction xs generalizing depth with
  | nil => rfl
  | cons x xs ih =>
      by_cases opens : x = op
      · simp [nestedFrom, opens, ih]
      · by_cases closes : x = cl
        · cases depth <;> simp_all [nestedFrom]
        · simp [nestedFrom, opens, closes, ih]

end Nesting

theorem filter_join {sep : α} {keep : α → Bool} (drops : keep sep = false)
    (pieces : List (List α)) :
    ([sep].intercalate pieces).filter keep = pieces.flatten.filter keep := by
  induction pieces with
  | nil => rfl
  | cons piece pieces ih =>
      cases pieces with
      | nil => simp
      | cons next rest => simp_all [List.intercalate_cons_cons]

theorem not_mem_join {a sep : α} (distinct : a ≠ sep) {pieces : List (List α)}
    (free : ∀ piece ∈ pieces, a ∉ piece) : a ∉ [sep].intercalate pieces := by
  induction pieces with
  | nil => simp
  | cons piece pieces ih =>
      have tail := ih fun other member => free other (List.mem_cons_of_mem _ member)
      cases pieces with
      | nil => simpa using free
      | cons next rest =>
          rw [List.intercalate_cons_cons, List.append_assoc, List.mem_append]
          rintro (h | h)
          · exact free piece List.mem_cons_self h
          · rcases List.mem_cons.mp h with h | h
            · exact distinct h
            · exact tail h

/-- Cutting a joined text at the separator cuts each of its pieces. -/
theorem splitOn_join [BEq α] [LawfulBEq α] {sep : α} {pieces : List (List α)}
    (inhabited : pieces ≠ []) :
    ([sep].intercalate pieces).splitOn sep = pieces.flatMap fun piece => piece.splitOn sep := by
  induction pieces with
  | nil => exact absurd rfl inhabited
  | cons piece pieces ih =>
      cases pieces with
      | nil => simp
      | cons next rest =>
          rw [List.intercalate_cons_cons, List.append_assoc, List.singleton_append,
            List.splitOn_append_cons_self, ih (List.cons_ne_nil _ _)]
          rfl

/-- What follows the first element of a joined list: its end, or a separator and the others. -/
theorem join_cons (sep cl : α) (piece : List α) (pieces : List (List α)) (s : List α) :
    [sep].intercalate (piece :: pieces) ++ cl :: s = piece ++
      if pieces = [] then cl :: s else sep :: ([sep].intercalate pieces ++ cl :: s) := by
  cases pieces with
  | nil => simp
  | cons next rest => simp [List.intercalate_cons_cons]

/-- A closed list of elements is read back element by element, up to `norm`. -/
theorem join_unique {sep cl : α} (distinct : sep ≠ cl) {render : β → List α} {norm : β → γ}
    (opens : ∀ x, ∃ a rest, render x = a :: rest ∧ a ≠ cl) {xs ys : List β}
    (reads : ∀ x ∈ xs, ∀ y ∈ ys, ∀ s t, render x ++ s = render y ++ t → norm x = norm y ∧ s = t)
    {s t : List α} (h : [sep].intercalate (xs.map render) ++ cl :: s =
      [sep].intercalate (ys.map render) ++ cl :: t) : xs.map norm = ys.map norm ∧ s = t := by
  induction xs generalizing ys with
  | nil =>
      cases ys with
      | nil => exact ⟨rfl, by simpa using h⟩
      | cons y ys =>
          obtain ⟨a, rest, hy, ha⟩ := opens y
          rw [List.map_cons, join_cons, hy] at h
          exact absurd (List.cons.inj h).1.symm ha
  | cons x xs ih =>
      cases ys with
      | nil =>
          obtain ⟨a, rest, hx, ha⟩ := opens x
          rw [List.map_cons, join_cons, hx] at h
          exact absurd (List.cons.inj h).1 ha
      | cons y ys =>
          rw [List.map_cons, List.map_cons, join_cons, join_cons] at h
          obtain ⟨same, h⟩ := reads x List.mem_cons_self y List.mem_cons_self _ _ h
          have tail := @ih ys fun x hx y hy =>
            reads x (List.mem_cons_of_mem _ hx) y (List.mem_cons_of_mem _ hy)
          rw [List.map_cons, List.map_cons, same]
          cases xs with
          | nil =>
              cases ys with
              | nil => exact ⟨rfl, by simpa using h⟩
              | cons z zs => exact absurd (by simpa using h : cl = sep ∧ _).1.symm distinct
          | cons z zs =>
              cases ys with
              | nil => exact absurd (by simpa using h : sep = cl ∧ _).1 distinct
              | cons w ws =>
                  obtain ⟨rest, ends⟩ := tail (by simpa using h)
                  exact ⟨congrArg _ rest, ends⟩

end Framing

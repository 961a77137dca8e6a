import Mathlib.Data.List.Infix
import Mathlib.Tactic.Common

/-!
Search for a word in a text, and its removal. A word whose first letter does not
come back in it cannot straddle the place where it was put into a text, so what is
found there, and what is removed, is the word itself.
-/
namespace Search

variable {α : Type*} [DecidableEq α]

/-- Where the word first occurs. -/
def find (word : List α) : List α → Option Nat
  | [] => if word = [] then some 0 else none
  | x :: xs => if word.isPrefixOf (x :: xs) then some 0 else (find word xs).map (· + 1)

/-- The text after `skip` letters, without the occurrences of the word, left to right. -/
def eraseFrom (word : List α) : Nat → List α → List α
  | _, [] => []
  | skip + 1, _ :: xs => eraseFrom word skip xs
  | 0, x :: xs =>
    if word.isPrefixOf (x :: xs) then eraseFrom word (word.length - 1) xs
    else x :: eraseFrom word 0 xs

def erase (word text : List α) : List α := eraseFrom word 0 text

/-- The first letter of the word does not come back in it. -/
def unbordered : List α → Bool
  | [] => false
  | c :: rest => !rest.contains c

theorem find_nil (word : List α) : find word [] = if word = [] then some 0 else none := rfl

theorem find_cons (word : List α) (x : α) (xs : List α) : find word (x :: xs) =
    if word.isPrefixOf (x :: xs) then some 0 else (find word xs).map (· + 1) := rfl

/-- Where a word is found, it stands. -/
theorem append_of_find {word text : List α} {position : Nat} (h : find word text = some position) :
    ∃ after, text = text.take position ++ (word ++ after) := by
  induction text generalizing position with
  | nil =>
      rw [find_nil] at h
      split at h
      · rename_i empty; exact ⟨[], by simp [empty]⟩
      · cases h
  | cons x xs ih =>
      rw [find_cons] at h
      split at h
      · rename_i here
        obtain ⟨after, whole⟩ := List.isPrefixOf_iff_prefix.mp here
        cases h
        exact ⟨after, whole.symm⟩
      · obtain ⟨earlier, found, rfl⟩ := Option.map_eq_some_iff.mp h
        obtain ⟨after, split⟩ := ih found
        exact ⟨after, congrArg (x :: ·) split⟩

theorem prefix_drop_of_find {word text : List α} {position : Nat}
    (h : find word text = some position) : word <+: text.drop position := by
  induction text generalizing position with
  | nil =>
      rw [find_nil] at h
      split at h
      · rename_i empty
        simp [empty]
      · cases h
  | cons x xs ih =>
      rw [find_cons] at h
      split at h
      · rename_i here
        cases h
        exact List.isPrefixOf_iff_prefix.mp here
      · obtain ⟨earlier, found, rfl⟩ := Option.map_eq_some_iff.mp h
        exact ih found

/-- What is found is the first occurrence. -/
theorem find_eq_some_iff {word text : List α} {position : Nat} : find word text = some position ↔
    position ≤ text.length ∧ word <+: text.drop position ∧
      ∀ earlier < position, ¬ word <+: text.drop earlier := by
  induction text generalizing position with
  | nil =>
      rw [find_nil]
      constructor
      · intro found
        split at found
        · next empty =>
            cases found
            exact ⟨Nat.le_refl _, by simp [empty], fun _ before => absurd before (Nat.not_lt_zero _)⟩
        · cases found
      · rintro ⟨inside, stands, -⟩
        rw [List.drop_nil, List.prefix_nil] at stands
        rw [if_pos stands, Nat.le_zero.mp inside]
  | cons x xs ih =>
      rw [find_cons]
      by_cases here : word <+: x :: xs
      · rw [if_pos (List.isPrefixOf_iff_prefix.mpr here)]
        constructor
        · rintro ⟨⟩
          exact ⟨Nat.zero_le _, here, fun _ before => absurd before (Nat.not_lt_zero _)⟩
        · rintro ⟨-, -, first⟩
          cases position with
          | zero => rfl
          | succ position => exact absurd here (first 0 (Nat.succ_pos _))
      · rw [if_neg fun stands => here (List.isPrefixOf_iff_prefix.mp stands)]
        cases position with
        | zero =>
            refine iff_of_false ?_ fun found => here found.2.1
            intro found
            obtain ⟨earlier, -, none⟩ := Option.map_eq_some_iff.mp found
            cases none
        | succ position =>
            rw [Option.map_eq_some_iff]
            constructor
            · rintro ⟨_, found, ⟨⟩⟩
              obtain ⟨inside, stands, first⟩ := ih.mp found
              refine ⟨Nat.succ_le_succ inside, stands, fun earlier before => ?_⟩
              cases earlier with
              | zero => exact here
              | succ earlier => exact first earlier (Nat.lt_of_succ_lt_succ before)
            · rintro ⟨inside, stands, first⟩
              refine ⟨position, ih.mpr ⟨Nat.le_of_succ_le_succ inside, stands, ?_⟩, rfl⟩
              exact fun earlier before => first (earlier + 1) (Nat.succ_lt_succ before)

theorem find_add_le {word text : List α} {position : Nat} (found : find word text = some position) :
    position + word.length ≤ text.length := by
  obtain ⟨inside, stands, -⟩ := find_eq_some_iff.mp found
  have shorter := stands.length_le
  rw [List.length_drop] at shorter
  omega

/-- Where nothing is found, the word does not occur. -/
theorem find_eq_none {word text : List α} : find word text = none ↔ ¬ word <:+: text := by
  induction text with
  | nil => simp [find_nil]
  | cons x xs ih =>
      rw [find_cons, List.infix_cons_iff, not_or, ← ih, ← List.isPrefixOf_iff_prefix]
      split
      · rename_i here
        simp [here]
      · rename_i here
        simp [here]

theorem find_isSome {word text : List α} : (find word text).isSome = true ↔ word <:+: text := by
  rw [Option.isSome_iff_ne_none, ne_eq, find_eq_none, Classical.not_not]

theorem eraseFrom_skip (word skipped text : List α) :
    eraseFrom word skipped.length (skipped ++ text) = eraseFrom word 0 text := by
  induction skipped with
  | nil => rfl
  | cons x xs ih => exact ih

theorem erase_of_not_infix {word text : List α} (h : ¬ word <:+: text) : erase word text = text := by
  induction text with
  | nil => rfl
  | cons x xs ih =>
      rw [List.infix_cons_iff, not_or] at h
      have here : word.isPrefixOf (x :: xs) = false := by
        simpa [← Bool.not_eq_true, List.isPrefixOf_iff_prefix] using h.1
      rw [erase, eraseFrom, here]
      exact congrArg (x :: ·) (ih h.2)

section Placement

/-- The words stand in the text at the starts, one after another, from `low` to `stop`. -/
inductive Placed (text : List α) : Nat → List (List α) → List Nat → Nat → Prop
  | nil (low : Nat) : Placed text low [] [] low
  | cons {low start stop : Nat} {word : List α} {words : List (List α)} {starts : List Nat}
      (after : low ≤ start) (stands : word <+: text.drop start)
      (rest : Placed text (start + word.length) words starts stop) :
      Placed text low (word :: words) (start :: starts) stop

omit [DecidableEq α]

theorem Placed.low_le_stop {text : List α} {low stop : Nat} {words : List (List α)}
    {starts : List Nat} (placed : Placed text low words starts stop) : low ≤ stop := by
  induction placed with
  | nil => exact Nat.le_refl _
  | cons after _ _ ih => omega

theorem Placed.end_le_stop {text : List α} {low stop : Nat} {words : List (List α)}
    {starts : List Nat} (placed : Placed text low words starts stop) {word : List α} {start : Nat}
    (member : (word, start) ∈ words.zip starts) : start + word.length ≤ stop := by
  induction placed with
  | nil => cases member
  | cons after stands rest ih =>
      rw [List.zip_cons_cons, List.mem_cons] at member
      rcases member with same | later
      · cases same
        exact rest.low_le_stop
      · exact ih later

theorem Placed.infix_of_mem {text : List α} {low stop : Nat} {words : List (List α)}
    {starts : List Nat} (placed : Placed text low words starts stop) {word : List α}
    (member : word ∈ words) : word <:+: text := by
  induction placed with
  | nil => cases member
  | cons after stands rest ih =>
      rcases List.mem_cons.mp member with rfl | later
      · exact stands.isInfix.trans (List.drop_suffix _ _).isInfix
      · exact ih later

end Placement

section Unbordered

omit [DecidableEq α] in
/-- Before an inserted word there is no other one that reaches into it. -/
theorem not_prefix_before {x c : α} {rest before after : List α} (fresh : c ∉ rest)
    (h : ¬ (c :: rest) <:+: x :: before) :
    ¬ (c :: rest) <+: x :: before ++ (c :: rest ++ after) := by
  intro reaches
  rcases List.prefix_or_prefix_of_prefix reaches (List.prefix_append (x :: before) _) with
    inside | ⟨more, split⟩
  · exact h inside.isInfix
  · cases more with
    | nil =>
        rw [List.append_nil] at split
        exact h (split ▸ List.infix_refl _)
    | cons y more =>
        -- the rest of the word would start with its own first letter
        obtain ⟨tail, whole⟩ := reaches
        rw [← split, List.append_assoc] at whole
        obtain ⟨same, _⟩ := List.cons.inj (List.append_cancel_left whole)
        obtain ⟨first, inner⟩ := List.cons.inj split
        have again : y ∈ rest := inner ▸ List.mem_append_right before List.mem_cons_self
        rw [same, first] at again
        exact fresh again

theorem find_append {word before after : List α} (single : unbordered word = true)
    (h : ¬ word <:+: before) : find word (before ++ (word ++ after)) = some before.length := by
  cases word with
  | nil => cases single
  | cons c rest =>
      have fresh : c ∉ rest := by simpa [unbordered] using single
      induction before with
      | nil =>
          rw [List.nil_append, List.cons_append, find_cons, if_pos]
          · rfl
          · rw [List.isPrefixOf_iff_prefix, ← List.cons_append]
            exact List.prefix_append _ _
      | cons x before ih =>
          have here : ¬ (c :: rest).isPrefixOf (x :: (before ++ (c :: rest ++ after))) = true := by
            rw [List.isPrefixOf_iff_prefix]
            exact not_prefix_before fresh h
          have later : ¬ (c :: rest) <:+: before := fun inside => h (List.infix_cons inside)
          rw [List.cons_append, find_cons, if_neg here, ih later]
          rfl

theorem erase_append {word before after : List α} (single : unbordered word = true)
    (h : ¬ word <:+: before) : erase word (before ++ (word ++ after)) = before ++ erase word after := by
  cases word with
  | nil => cases single
  | cons c rest =>
      have fresh : c ∉ rest := by simpa [unbordered] using single
      induction before with
      | nil =>
          have here : (c :: rest).isPrefixOf (c :: (rest ++ after)) = true := by
            rw [List.isPrefixOf_iff_prefix, ← List.cons_append]
            exact List.prefix_append _ _
          rw [List.nil_append, List.nil_append, List.cons_append, erase, eraseFrom, if_pos here,
            List.length_cons, Nat.add_sub_cancel, eraseFrom_skip]
          rfl
      | cons x before ih =>
          have here : ¬ (c :: rest).isPrefixOf (x :: (before ++ (c :: rest ++ after))) = true := by
            rw [List.isPrefixOf_iff_prefix]
            exact not_prefix_before fresh h
          have later : ¬ (c :: rest) <:+: before := fun inside => h (List.infix_cons inside)
          rw [List.cons_append, erase, eraseFrom, if_neg here]
          exact congrArg (x :: ·) (ih later)

end Unbordered

omit [DecidableEq α] in
/-- A word without the separator occurs on one side of it. -/
theorem infix_append_cons {word before after : List α} {sep : α} (plain : sep ∉ word)
    (h : word <:+: before ++ sep :: after) : word <:+: before ∨ word <:+: after := by
  induction before with
  | nil =>
      rw [List.nil_append, List.infix_cons_iff] at h
      rcases h with here | there
      · cases word with
        | nil => exact .inl (List.infix_refl _)
        | cons x word =>
            obtain ⟨tail, whole⟩ := here
            obtain ⟨rfl, _⟩ := List.cons.inj whole
            simp at plain
      · exact .inr there
  | cons x before ih =>
      rw [List.cons_append, List.infix_cons_iff] at h
      rcases h with here | there
      · rw [← List.cons_append] at here
        rcases List.prefix_or_prefix_of_prefix here (List.prefix_append (x :: before) _) with
          inside | ⟨more, split⟩
        · exact .inl inside.isInfix
        · cases more with
          | nil =>
              rw [List.append_nil] at split
              exact .inl (split ▸ List.infix_refl _)
          | cons y more =>
              obtain ⟨tail, whole⟩ := here
              rw [← split, List.append_assoc] at whole
              obtain ⟨same, _⟩ := List.cons.inj (List.append_cancel_left whole)
              exact absurd (split ▸ by simp [same]) plain
      · exact (ih there).imp List.infix_cons id

omit [DecidableEq α] in
/-- A word without the separator occurs in one piece of a joined text. -/
theorem infix_join {word : List α} {sep : α} (plain : sep ∉ word) {pieces : List (List α)}
    (inhabited : pieces ≠ []) (h : word <:+: [sep].intercalate pieces) :
    ∃ piece ∈ pieces, word <:+: piece := by
  induction pieces with
  | nil => exact absurd rfl inhabited
  | cons piece pieces ih =>
      cases pieces with
      | nil => exact ⟨piece, List.mem_cons_self, by simpa using h⟩
      | cons next others =>
          rw [List.intercalate_cons_cons, List.append_assoc, List.singleton_append] at h
          rcases infix_append_cons plain h with here | there
          · exact ⟨piece, List.mem_cons_self, here⟩
          · obtain ⟨found, member, inside⟩ := ih (List.cons_ne_nil _ _) there
            exact ⟨found, List.mem_cons_of_mem _ member, inside⟩

section Margins

variable {c : α} {rest margin text : List α}

omit [DecidableEq α] in
/-- A word whose first letter is not in the left margin begins after it. -/
theorem infix_of_left_margin (outside : c ∉ margin) (h : (c :: rest) <:+: margin ++ text) :
    (c :: rest) <:+: text := by
  induction margin with
  | nil => exact h
  | cons x margin ih =>
      rw [List.cons_append, List.infix_cons_iff] at h
      rcases h with ⟨tail, whole⟩ | inside
      · obtain ⟨rfl, _⟩ := List.cons.inj whole
        exact absurd List.mem_cons_self outside
      · exact ih (fun member => outside (List.mem_cons_of_mem _ member)) inside

omit [DecidableEq α] in
/-- A word whose last letter is not in the right margin ends before it. -/
theorem infix_of_right_margin (outside : c ∉ margin) (h : (rest ++ [c]) <:+: text ++ margin) :
    (rest ++ [c]) <:+: text := by
  rw [← List.reverse_infix] at h ⊢
  simp only [List.reverse_append, List.reverse_singleton, List.singleton_append] at h ⊢
  exact infix_of_left_margin (by simpa using outside) h

end Margins

end Search

import Mathlib.Data.List.Basic
import Mathlib.Tactic.Common

/-!
The length of a longest common subsequence, and what a table of these lengths holds when it
is filled row by row, from the values above and to the left.
-/
namespace Lcs

variable {α : Type*} {a b : α} {xs ys : List α} {m n : Nat}

/-- The longest words that are subsequences of both have this length. -/
structure Longest (xs ys : List α) (n : Nat) : Prop where
  reached : ∃ word : List α, word.Sublist xs ∧ word.Sublist ys ∧ word.length = n
  bound : ∀ word : List α, word.Sublist xs → word.Sublist ys → word.length ≤ n

theorem Longest.nil_left (ys : List α) : Longest [] ys 0 := by
  refine ⟨⟨[], List.nil_sublist _, List.nil_sublist _, rfl⟩, ?_⟩
  intro word left _
  rw [List.sublist_nil.mp left]
  exact Nat.le_refl 0

theorem Longest.nil_right (xs : List α) : Longest xs [] 0 := by
  refine ⟨⟨[], List.nil_sublist _, List.nil_sublist _, rfl⟩, ?_⟩
  intro word _ right
  rw [List.sublist_nil.mp right]
  exact Nat.le_refl 0

theorem Longest.unique (here : Longest xs ys m) (there : Longest xs ys n) : m = n := by
  obtain ⟨word, left, right, rfl⟩ := here.reached
  obtain ⟨other, front, back, rfl⟩ := there.reached
  exact Nat.le_antisymm (there.bound _ left right) (here.bound _ front back)

/-- A subsequence of a text with one more letter ends in the letter, or does without it. -/
theorem sublist_snoc {word : List α} (h : word.Sublist (xs ++ [a])) :
    word.Sublist xs ∨ ∃ shorter : List α, word = shorter ++ [a] ∧ shorter.Sublist xs := by
  obtain ⟨front, back, rfl, first, last⟩ := List.sublist_append_iff.mp h
  rcases List.sublist_singleton.mp last with rfl | rfl
  · exact .inl (by rwa [List.append_nil])
  · exact .inr ⟨front, rfl, first⟩

/-- The same letter behind both makes it one longer. -/
theorem Longest.same (longest : Longest xs ys n) (a : α) :
    Longest (xs ++ [a]) (ys ++ [a]) (n + 1) := by
  constructor
  · obtain ⟨word, left, right, rfl⟩ := longest.reached
    refine ⟨word ++ [a], left.append (List.Sublist.refl _), right.append (List.Sublist.refl _), ?_⟩
    rw [List.length_append, List.length_singleton]
  · intro word left right
    rcases sublist_snoc left with front | ⟨shorter, rfl, front⟩
    · rcases sublist_snoc right with back | ⟨shorter, rfl, back⟩
      · exact Nat.le_succ_of_le (longest.bound _ front back)
      · rw [List.length_append, List.length_singleton]
        exact Nat.succ_le_succ
          (longest.bound _ ((List.sublist_append_left shorter [a]).trans front) back)
    · have back : shorter.Sublist ys := by
        rcases sublist_snoc right with back | ⟨other, same, back⟩
        · exact (List.sublist_append_left shorter [a]).trans back
        · rw [List.append_cancel_right same]
          exact back
      rw [List.length_append, List.length_singleton]
      exact Nat.succ_le_succ (longest.bound _ front back)

/-- Of two different letters behind, one is left out. -/
theorem Longest.differ (different : a ≠ b) (up : Longest xs (ys ++ [b]) m)
    (left : Longest (xs ++ [a]) ys n) : Longest (xs ++ [a]) (ys ++ [b]) (max m n) := by
  constructor
  · rcases Nat.le_total m n with less | more
    · obtain ⟨word, front, back, rfl⟩ := left.reached
      exact ⟨word, front, back.trans (List.sublist_append_left _ _), (Nat.max_eq_right less).symm⟩
    · obtain ⟨word, front, back, rfl⟩ := up.reached
      exact ⟨word, front.trans (List.sublist_append_left _ _), back, (Nat.max_eq_left more).symm⟩
  · intro word front back
    rcases sublist_snoc front with without | ⟨shorter, rfl, -⟩
    · exact Nat.le_trans (up.bound word without back) (Nat.le_max_left m n)
    · rcases sublist_snoc back with without | ⟨other, same, -⟩
      · exact Nat.le_trans (left.bound _ front without) (Nat.le_max_right m n)
      · exact absurd (List.singleton_inj.mp (List.append_inj_right' same rfl)) different

/-- The values of a row behind its first one: for each letter of `ys`, the length up to it. -/
inductive Values (xs : List α) : List α → List α → List Nat → Prop
  | nil (seen : List α) : Values xs seen [] []
  | cons {seen ys : List α} {y : α} {value : Nat} {values : List Nat}
      (here : Longest xs (seen ++ [y]) value) (later : Values xs (seen ++ [y]) ys values) :
      Values xs seen (y :: ys) (value :: values)

theorem Values.length {seen : List α} {values : List Nat} (row : Values xs seen ys values) :
    values.length = ys.length := by
  induction row with
  | nil => rfl
  | cons here later ih => exact congrArg (· + 1) ih

theorem Values.zeros (seen ys : List α) : Values [] seen ys (List.replicate ys.length 0) := by
  induction ys generalizing seen with
  | nil => exact .nil seen
  | cons y ys ih => exact .cons (Longest.nil_left _) (ih _)

theorem Values.get {seen : List α} {values : List Nat} (row : Values xs seen ys values) {j : Nat}
    (inside : j < ys.length) :
    ∃ value, values[j]? = some value ∧ Longest xs (seen ++ ys.take (j + 1)) value := by
  induction row generalizing j with
  | nil => cases inside
  | @cons seen ys y value values here later ih =>
      cases j with
      | zero => exact ⟨value, rfl, here⟩
      | succ j =>
          obtain ⟨found, at_, longest⟩ := ih (Nat.lt_of_succ_lt_succ inside)
          refine ⟨found, at_, ?_⟩
          rwa [List.append_assoc, List.singleton_append] at longest

/-- A whole row. -/
def Row (xs ys : List α) (row : List Nat) : Prop := ∃ values, row = 0 :: values ∧ Values xs [] ys values

theorem Row.zeros (ys : List α) : Row [] ys (List.replicate (ys.length + 1) 0) :=
  ⟨List.replicate ys.length 0, List.replicate_succ, .zeros [] ys⟩

theorem Row.get {row : List Nat} (filled : Row xs ys row) {j : Nat} (inside : j ≤ ys.length) :
    ∃ value, row[j]? = some value ∧ Longest xs (ys.take j) value := by
  obtain ⟨values, rfl, rest⟩ := filled
  cases j with
  | zero => exact ⟨0, rfl, .nil_right xs⟩
  | succ j => exact rest.get inside

end Lcs

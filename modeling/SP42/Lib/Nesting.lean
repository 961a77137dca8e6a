import Mathlib

/-!
Nested words: leaves, and letters that open and close. A beginning of a nested word that is itself
balanced ends between two pieces of the top level. And words over a prefix code: a text made of
code words begins another only where the words do.
-/
namespace Nesting

section Forests

/-- Leaves, and trees between an opening and a closing letter. -/
inductive Forest (α : Type*) where
  | done
  | leaf (letter : α) (next : Forest α)
  | tree (first last : α) (children next : Forest α)

variable {α : Type*}

def Forest.word : Forest α → List α
  | done => []
  | leaf letter next => letter :: next.word
  | tree first last children next => first :: (children.word ++ last :: next.word)

/-- One forest behind another. -/
def Forest.append : Forest α → Forest α → Forest α
  | done, other => other
  | leaf letter next, other => leaf letter (next.append other)
  | tree first last children next, other => tree first last children (next.append other)

@[simp] theorem Forest.word_append (forest other : Forest α) :
    (forest.append other).word = forest.word ++ other.word := by
  induction forest with
  | done => rfl
  | leaf letter next ih => rw [append, word, ih, word, List.cons_append]
  | tree first last children next _ ih =>
      rw [append, word, ih, word]
      simp only [List.cons_append, List.append_assoc]

/-- How deep a word ends, counted from where it began. -/
def depth (weight : α → Int) (word : List α) : Int := (word.map weight).sum

variable {weight : α → Int}

@[simp] theorem depth_cons (letter : α) (word : List α) :
    depth weight (letter :: word) = weight letter + depth weight word := List.sum_cons

@[simp] theorem depth_append (word other : List α) :
    depth weight (word ++ other) = depth weight word + depth weight other := by
  rw [depth, List.map_append, List.sum_append]
  rfl

/-- The letters of the forest weigh what they do. -/
def Forest.Fits (weight : α → Int) : Forest α → Prop
  | done => True
  | leaf letter next => weight letter = 0 ∧ next.Fits weight
  | tree first last children next =>
      weight first = 1 ∧ weight last = -1 ∧ children.Fits weight ∧ next.Fits weight

theorem Forest.Fits.balanced {forest : Forest α} (fits : forest.Fits weight) :
    depth weight forest.word = 0 := by
  induction forest with
  | done => rfl
  | leaf letter next ih => rw [word, depth_cons, fits.1, ih fits.2, Int.add_zero]
  | tree first last children next inner later =>
      obtain ⟨opens, closes, below, behind⟩ := fits
      rw [word, depth_cons, depth_append, depth_cons, opens, closes, inner below, later behind]
      rfl

/-- The beginning of a word with letters around it. -/
theorem prefix_append_cons {front word rest : List α} {letter : α}
    (begins : front <+: word ++ letter :: rest) :
    front <+: word ∨ ∃ more, front = word ++ letter :: more ∧ more <+: rest := by
  obtain ⟨tail, whole⟩ := begins
  rcases List.append_eq_append_iff.mp whole with ⟨gap, rfl, -⟩ | ⟨gap, rfl, split⟩
  · exact .inl (List.prefix_append front gap)
  · cases gap with
    | nil =>
        rw [List.append_nil]
        exact .inl (List.prefix_refl word)
    | cons c gap =>
        obtain ⟨rfl, there⟩ := List.cons.inj split
        exact .inr ⟨gap, rfl, tail, there.symm⟩

/-- No beginning of a nested word is above the ground. -/
theorem Forest.Fits.depth_nonneg {forest : Forest α} (fits : forest.Fits weight) {front : List α}
    (begins : front <+: forest.word) : 0 ≤ depth weight front := by
  induction forest generalizing front with
  | done =>
      rw [List.prefix_nil.mp begins]
      exact Int.le_refl 0
  | leaf letter next ih =>
      cases front with
      | nil => exact Int.le_refl 0
      | cons c front =>
          obtain ⟨rfl, later⟩ := List.cons_prefix_cons.mp begins
          rw [depth_cons, fits.1, Int.zero_add]
          exact ih fits.2 later
  | tree first last children next inner behind =>
      obtain ⟨opens, closes, below, after⟩ := fits
      cases front with
      | nil => exact Int.le_refl 0
      | cons c front =>
          obtain ⟨rfl, later⟩ := List.cons_prefix_cons.mp begins
          rw [depth_cons, opens]
          rcases prefix_append_cons later with inside | ⟨more, rfl, beyond⟩
          · have level := inner below inside
            omega
          · have level := behind after beyond
            rw [depth_append, depth_cons, closes, below.balanced]
            omega

/-- A balanced beginning ends at the top level. -/
theorem Forest.Fits.balanced_prefix {forest : Forest α} (fits : forest.Fits weight)
    {front : List α} (begins : front <+: forest.word) (level : depth weight front = 0) :
    ∃ before after : Forest α, forest = before.append after ∧ before.word = front := by
  induction forest generalizing front with
  | done => exact ⟨.done, .done, rfl, (List.prefix_nil.mp begins).symm⟩
  | leaf letter next ih =>
      cases front with
      | nil => exact ⟨.done, .leaf letter next, rfl, rfl⟩
      | cons c front =>
          obtain ⟨rfl, later⟩ := List.cons_prefix_cons.mp begins
          rw [depth_cons, fits.1, Int.zero_add] at level
          obtain ⟨before, after, rfl, rfl⟩ := ih fits.2 later level
          exact ⟨.leaf c before, after, rfl, rfl⟩
  | tree first last children next inner behind =>
      obtain ⟨opens, closes, below, after⟩ := fits
      cases front with
      | nil => exact ⟨.done, .tree first last children next, rfl, rfl⟩
      | cons c front =>
          obtain ⟨rfl, later⟩ := List.cons_prefix_cons.mp begins
          rw [depth_cons, opens] at level
          rcases prefix_append_cons later with inside | ⟨more, rfl, beyond⟩
          · have deep := below.depth_nonneg inside
            omega
          · rw [depth_append, depth_cons, closes, below.balanced] at level
            obtain ⟨before, rest, rfl, rfl⟩ := behind after beyond (by omega)
            exact ⟨.tree c last children before, rest, rfl, rfl⟩

end Forests

section Codes

variable {α : Type*} {code : List α → Prop}

/-- Code words are told apart whatever follows them. -/
structure SelfDelimiting (code : List α → Prop) : Prop where
  inhabited : ∀ word, code word → word ≠ []
  apart : ∀ word other rest more, code word → code other → word ++ rest = other ++ more →
    word = other

/-- A text of code words that begins another is made of its first words. -/
theorem SelfDelimiting.flatten_prefix (delimits : SelfDelimiting code)
    {words others : List (List α)} (coded : ∀ word ∈ words, code word) (codedOthers : ∀ word ∈ others, code word)
    (begins : words.flatten <+: others.flatten) : words <+: others := by
  induction words generalizing others with
  | nil => exact List.nil_prefix
  | cons word words ih =>
      have here := coded word List.mem_cons_self
      cases others with
      | nil =>
          rw [List.flatten_cons, List.flatten_nil, List.prefix_nil] at begins
          exact absurd (List.append_eq_nil_iff.mp begins).1 (delimits.inhabited word here)
      | cons other others =>
          obtain ⟨tail, whole⟩ := begins
          rw [List.flatten_cons, List.flatten_cons, List.append_assoc] at whole
          obtain rfl := delimits.apart word other _ _ here
            (codedOthers other List.mem_cons_self) whole
          exact List.cons_prefix_cons.mpr ⟨rfl,
            ih (fun w member => coded w (List.mem_cons_of_mem _ member))
              (fun w member => codedOthers w (List.mem_cons_of_mem _ member))
              ⟨tail, List.append_cancel_left whole⟩⟩

end Codes

end Nesting

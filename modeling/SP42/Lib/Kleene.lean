import Mathlib.Data.List.Forall2

/-!
Strong Kleene logic over partial information. A truth value is an `Option Bool`
and `none` is a question nobody has answered yet. `Refines a b` says that `b`
keeps every answer `a` already gave; the connectives are monotone for it, so a
later answer can complete a verdict and can never contradict one.
-/
namespace Kleene

/-- Every answer given by `a` is the answer given by `b`. -/
def Refines (a b : Option Bool) : Prop := ∀ x, a = some x → b = some x

theorem Refines.refl (a : Option Bool) : Refines a a := fun _ h => h

theorem Refines.trans {a b c : Option Bool} (h : Refines a b) (k : Refines b c) : Refines a c :=
  fun x hx => k x (h x hx)

theorem none_refines (b : Option Bool) : Refines none b := fun _ h => nomatch h

def neg : Option Bool → Option Bool := Option.map (!·)

/-- A single refutation settles a conjunction; otherwise one open question leaves it open. -/
def conj (xs : List (Option Bool)) : Option Bool :=
  if some false ∈ xs then some false else if none ∈ xs then none else some true

/-- The De Morgan dual of `conj`. -/
def disj (xs : List (Option Bool)) : Option Bool := neg (conj (xs.map neg))

theorem neg_mono {a b : Option Bool} (h : Refines a b) : Refines (neg a) (neg b) := by
  cases a with
  | none => exact none_refines _
  | some x => rw [h x rfl]; exact Refines.refl _

theorem conj_cons (a : Option Bool) (xs : List (Option Bool)) :
    conj (a :: xs) = match a, conj xs with
      | some false, _ => some false
      | _, some false => some false
      | none, _ => none
      | _, none => none
      | some true, some true => some true := by
  unfold conj
  rcases a with _ | a
  · by_cases f : some false ∈ xs <;> by_cases u : none ∈ xs <;> simp [f, u]
  · cases a <;> by_cases f : some false ∈ xs <;> by_cases u : none ∈ xs <;> simp [f, u]

/-- Answering open questions of the conjuncts never revokes a settled conjunction. -/
theorem conj_mono {xs ys : List (Option Bool)} (h : List.Forall₂ Refines xs ys) :
    Refines (conj xs) (conj ys) := by
  induction h with
  | nil => exact Refines.refl _
  | @cons a b xs ys hab _ ih =>
      rw [conj_cons, conj_cons]
      rcases a with _ | (_ | _)
      · cases hx : conj xs with
        | none => exact none_refines _
        | some x =>
            rw [ih x hx]
            cases x
            · rcases b with _ | (_ | _) <;> exact Refines.refl _
            · exact none_refines _
      · rw [hab false rfl]; exact Refines.refl _
      · rw [hab true rfl]
        cases hx : conj xs with
        | none => exact none_refines _
        | some x => rw [ih x hx]; exact Refines.refl _

theorem conj_perm {xs ys : List (Option Bool)} (reordered : xs.Perm ys) : conj xs = conj ys := by
  simp only [conj, reordered.mem_iff]

theorem conj_append (xs ys : List (Option Bool)) : conj (xs ++ ys) = conj [conj xs, conj ys] := by
  induction xs with
  | nil =>
      rw [List.nil_append, conj_cons, conj_cons]
      rcases conj ys with _ | (_ | _) <;> rfl
  | cons x xs ih =>
      rw [List.cons_append, conj_cons x, ih, conj_cons x]
      simp only [conj_cons]
      rcases x with _ | (_ | _) <;> rcases conj xs with _ | (_ | _) <;>
        rcases conj ys with _ | (_ | _) <;> rfl

theorem conj_singleton (x : Option Bool) : conj [x] = x := by
  rcases x with _ | (_ | _) <;> rfl

/-- A conjunction among the conjuncts may be taken apart. -/
theorem conj_nested (xs ys : List (Option Bool)) : conj (conj xs :: ys) = conj (xs ++ ys) := by
  rw [← List.singleton_append, conj_append, conj_singleton, ← conj_append]

theorem disj_mono {xs ys : List (Option Bool)} (h : List.Forall₂ Refines xs ys) :
    Refines (disj xs) (disj ys) := by
  apply neg_mono
  apply conj_mono
  rw [List.forall₂_map_left_iff, List.forall₂_map_right_iff]
  exact h.imp fun _ _ => neg_mono

end Kleene

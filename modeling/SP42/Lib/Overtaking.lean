import Mathlib.Data.List.Basic
import Mathlib.Tactic.Common

/-!
Two orders of the same items, where the second brings some items, the own ones,
forward past items of others. A holder that keeps its own items at once and is
told of the others' in order sees such an order of what everybody else sees.
-/
namespace Overtaking

variable {α β : Type*}

/-- `Ahead own xs ys`: `ys` is `xs` with own items moved forward past items of others. -/
inductive Ahead (own : α → Bool) (items : List α) : List α → Prop
  | refl : Ahead own items items
  | overtake {before after : List α} {other mine : α} :
      Ahead own items (before ++ other :: mine :: after) → own other = false → own mine = true →
      Ahead own items (before ++ mine :: other :: after)

variable {own : α → Bool} {xs ys zs : List α}

theorem Ahead.trans (h : Ahead own xs ys) (h' : Ahead own ys zs) : Ahead own xs zs := by
  induction h' with
  | refl => exact h
  | overtake _ other mine ih => exact ih.overtake other mine

theorem Ahead.append_right (h : Ahead own xs ys) (tail : List α) :
    Ahead own (xs ++ tail) (ys ++ tail) := by
  induction h with
  | refl => exact .refl
  | @overtake before after x m _ other mine ih =>
      have moved : Ahead own (xs ++ tail) (before ++ x :: m :: (after ++ tail)) := by
        simpa using ih
      simpa using moved.overtake other mine

theorem Ahead.append_left (head : List α) (h : Ahead own xs ys) :
    Ahead own (head ++ xs) (head ++ ys) := by
  induction h with
  | refl => exact .refl
  | @overtake before after x m _ other mine ih =>
      have moved : Ahead own (head ++ xs) ((head ++ before) ++ x :: m :: after) := by
        simpa using ih
      simpa using moved.overtake other mine

theorem Ahead.pass {mine : α} (hm : own mine = true) (others : List α)
    (ho : ∀ x ∈ others, own x = false) : Ahead own (others ++ [mine]) (mine :: others) := by
  induction others with
  | nil => exact .refl
  | cons first rest ih =>
      have later : Ahead own ([first] ++ (rest ++ [mine])) ([first] ++ mine :: rest) :=
        (ih fun x hx => ho x (List.mem_cons_of_mem _ hx)).append_left [first]
      have front : Ahead own (first :: rest ++ [mine]) ([] ++ first :: mine :: rest) := later
      exact front.overtake (ho first List.mem_cons_self) hm

/-- A block of own items passes a block of others' as a whole. -/
theorem Ahead.pass_block (others : List α) (ho : ∀ x ∈ others, own x = false) (mine : List α)
    (hm : ∀ x ∈ mine, own x = true) : Ahead own (others ++ mine) (mine ++ others) := by
  induction mine with
  | nil => simpa using Ahead.refl
  | cons first rest ih =>
      have passed := (Ahead.pass (hm first List.mem_cons_self) others ho).append_right rest
      have later := (ih fun x hx => hm x (List.mem_cons_of_mem _ hx)).append_left [first]
      have joined : Ahead own (others ++ first :: rest) (first :: (others ++ rest)) := by
        simpa using passed
      exact joined.trans later

theorem Ahead.perm (h : Ahead own xs ys) : xs.Perm ys := by
  induction h with
  | refl => exact .refl xs
  | overtake _ _ _ ih => exact ih.trans ((List.Perm.swap _ _ _).append_left _)

/-- The own items keep their order among themselves. -/
theorem Ahead.filter_own (h : Ahead own xs ys) : ys.filter own = xs.filter own := by
  induction h with
  | refl => rfl
  | overtake _ other mine ih =>
      rw [← ih]
      simp [List.filter_append, other, mine]

/-- The last item of a kind is the last in both orders unless it is an own one. -/
theorem Ahead.last (h : Ahead own xs ys) {kind : α → Bool} {x : α}
    (last : (xs.filter kind).getLast? = some x) (other : own x = false) :
    (ys.filter kind).getLast? = some x := by
  induction h with
  | refl => exact last
  | @overtake before after y m _ theirs mine ih =>
      have parts : ∀ a b, (before ++ a :: b :: after).filter kind =
          before.filter kind ++ [a, b].filter kind ++ after.filter kind := fun a b => by
        rw [List.append_assoc, ← List.filter_append, ← List.filter_append]
        rfl
      rw [parts, List.getLast?_append] at ih ⊢
      cases rest : (after.filter kind).getLast? with
      | some z =>
          rw [rest] at ih
          exact ih
      | none =>
          rw [rest, Option.none_or, List.getLast?_append] at ih
          rw [Option.none_or, List.getLast?_append]
          by_cases passing : kind m = true
          · -- nothing of the kind follows, so the own item would be the last
            have mineLast : ([y, m].filter kind).getLast? = some m := by
              by_cases overtaken : kind y = true <;> simp [passing, overtaken]
            rw [mineLast, Option.some_or, Option.some.injEq] at ih
            rw [ih, other] at mine
            cases mine
          · have same : [m, y].filter kind = [y, m].filter kind := by
              simp [List.filter_cons, passing]
            rw [same]
            exact ih

/-- When the last item of a kind is an own one in both orders, it is the same one. -/
theorem Ahead.last_own (h : Ahead own xs ys) {kind : α → Bool} {x y : α}
    (last : (xs.filter kind).getLast? = some x) (mine : own x = true)
    (last' : (ys.filter kind).getLast? = some y) (mine' : own y = true) : y = x := by
  have keeps : ∀ {items : List α} {z : α}, (items.filter kind).getLast? = some z → own z = true →
      ((items.filter own).filter kind).getLast? = some z := by
    intro items z lastOf ownLast
    obtain ⟨before, split⟩ := List.getLast?_eq_some_iff.mp lastOf
    rw [List.filter_comm, split]
    simp [List.filter_append, ownLast]
  have there := keeps last' mine'
  rw [h.filter_own, keeps last mine] at there
  exact (Option.some.inj there).symm

/-- The item that decides: the last strong one, or else the last weak one. -/
def decisive (strong weak : α → Bool) (items : List α) : Option α :=
  (items.filter strong).getLast?.or (items.filter weak).getLast?

theorem Ahead.getLast?_none (h : Ahead own xs ys) (kind : α → Bool) :
    (ys.filter kind).getLast? = none ↔ (xs.filter kind).getLast? = none := by
  rw [List.getLast?_eq_none_iff, List.getLast?_eq_none_iff]
  exact ⟨fun empty => (empty ▸ h.perm.filter kind).eq_nil,
    fun empty => (empty ▸ h.perm.symm.filter kind).eq_nil⟩

theorem Ahead.decisive_none (h : Ahead own xs ys) {strong weak : α → Bool} :
    decisive strong weak ys = none ↔ decisive strong weak xs = none := by
  rw [decisive, decisive, Option.or_eq_none_iff, Option.or_eq_none_iff, h.getLast?_none,
    h.getLast?_none]

/-- What decides in one order decides in the other unless it is an own item. -/
theorem Ahead.decisive_other (h : Ahead own xs ys) {strong weak : α → Bool} {x : α}
    (decides : decisive strong weak xs = some x) (other : own x = false) :
    decisive strong weak ys = some x := by
  unfold decisive at decides ⊢
  cases first : (xs.filter strong).getLast? with
  | some y =>
      rw [first, Option.some_or] at decides
      cases decides
      rw [h.last first other, Option.some_or]
  | none =>
      rw [first, Option.none_or] at decides
      rw [(h.getLast?_none strong).mpr first, Option.none_or, h.last decides other]

/-- When own items decide in both orders they are the same item. -/
theorem Ahead.decisive_own (h : Ahead own xs ys) {strong weak : α → Bool} {x y : α}
    (decides : decisive strong weak xs = some x) (mine : own x = true)
    (decides' : decisive strong weak ys = some y) (mine' : own y = true) : y = x := by
  unfold decisive at decides decides'
  cases first : (xs.filter strong).getLast? with
  | none =>
      rw [first, Option.none_or] at decides
      rw [(h.getLast?_none strong).mpr first, Option.none_or] at decides'
      exact h.last_own decides mine decides' mine'
  | some z =>
      rw [first, Option.some_or, Option.some.injEq] at decides
      cases first' : (ys.filter strong).getLast? with
      | none =>
          rw [(h.getLast?_none strong).mp first'] at first
          cases first
      | some z' =>
          rw [first', Option.some_or, Option.some.injEq] at decides'
          subst decides decides'
          exact h.last_own first mine first' mine'

end Overtaking

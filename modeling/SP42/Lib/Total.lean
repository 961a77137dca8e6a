import Mathlib.Data.List.Basic
import Mathlib.Data.List.Forall2
import Mathlib.Tactic.Common

/-!
Traversing a list with a computation that may fail: the traversal succeeds when
every element does, and fails exactly when some element does.
-/
namespace Traverse

variable {ε α β : Type*}

theorem bind_ok {ε α β : Type} {x : Except ε α} {f : α → Except ε β} {result : β}
    (done : (x >>= f) = .ok result) : ∃ value, x = .ok value ∧ f value = .ok result := by
  cases x with
  | error reason => cases done
  | ok value => exact ⟨value, rfl, done⟩

theorem mapM_eq_ok (f : α → Except ε β) (xs : List α) (ys : List β) :
    xs.mapM f = .ok ys ↔ List.Forall₂ (fun x y => f x = .ok y) xs ys := by
  induction xs generalizing ys with
  | nil =>
      simp only [List.mapM_nil, List.forall₂_nil_left_iff]
      constructor
      · intro h; cases h; rfl
      · rintro rfl; rfl
  | cons x xs ih =>
      rw [List.mapM_cons, List.forall₂_cons_left_iff]
      cases hx : f x with
      | error e => simp [bind, Except.bind]
      | ok y =>
          cases hs : xs.mapM f with
          | error e =>
              constructor
              · intro h; cases h
              · rintro ⟨b, u, _, hu, rfl⟩
                rw [(ih u).mpr hu] at hs
                cases hs
          | ok zs =>
              have hz := (ih zs).mp hs
              constructor
              · intro h
                cases h
                exact ⟨y, zs, rfl, hz, rfl⟩
              · rintro ⟨b, u, hb, hu, rfl⟩
                rw [(ih u).mpr hu] at hs
                cases hb
                cases hs
                rfl

theorem mapM_fails_iff (f : α → Except ε β) (xs : List α) :
    (∃ e, xs.mapM f = .error e) ↔ ∃ x ∈ xs, ∃ e, f x = .error e := by
  induction xs with
  | nil =>
      constructor
      · rintro ⟨e, he⟩; cases he
      · rintro ⟨x, hx, _⟩; cases hx
  | cons x xs ih =>
      rw [List.mapM_cons]
      cases hx : f x with
      | error e => simpa [bind, Except.bind] using Or.inl ⟨e, hx⟩
      | ok y =>
          have tail : (∃ e, (xs.mapM f >>= fun zs => pure (y :: zs)) = .error e) ↔
              ∃ e, xs.mapM f = .error e := by
            cases xs.mapM f with
            | error e => simp [bind, Except.bind]
            | ok zs => simp [bind, Except.bind, pure, Except.pure]
          change (∃ e, (xs.mapM f >>= fun zs => pure (y :: zs)) = .error e) ↔ _
          rw [tail, ih]
          simp [hx]

theorem exists_right {R : α → β → Prop} {xs : List α} {ys : List β} (h : List.Forall₂ R xs ys)
    {x : α} (hx : x ∈ xs) : ∃ y ∈ ys, R x y := by
  induction h with
  | nil => cases hx
  | cons here _ ih =>
      rcases List.mem_cons.mp hx with rfl | later
      · exact ⟨_, List.mem_cons_self, here⟩
      · obtain ⟨y, hy, related⟩ := ih later
        exact ⟨y, List.mem_cons_of_mem _ hy, related⟩

theorem exists_left {R : α → β → Prop} {xs : List α} {ys : List β} (h : List.Forall₂ R xs ys)
    {y : β} (hy : y ∈ ys) : ∃ x ∈ xs, R x y :=
  exists_right h.flip hy

theorem mapM_ok_iff (f : α → Except ε β) (xs : List α) :
    (∃ ys, xs.mapM f = .ok ys) ↔ ∀ x ∈ xs, ∃ y, f x = .ok y := by
  constructor
  · rintro ⟨ys, read⟩ x member
    obtain ⟨y, -, here⟩ := exists_right ((mapM_eq_ok f xs ys).mp read) member
    exact ⟨y, here⟩
  · intro each
    induction xs with
    | nil => exact ⟨[], rfl⟩
    | cons x xs ih =>
        obtain ⟨here, there⟩ := List.forall_mem_cons.mp each
        obtain ⟨y, read⟩ := here
        obtain ⟨ys, rest⟩ := ih there
        exact ⟨y :: ys, (mapM_eq_ok f _ _).mpr (.cons read ((mapM_eq_ok f xs ys).mp rest))⟩

end Traverse

/-!
Computations that may stop without a result. `Returns x P` says that `x` does return,
with a value that satisfies `P`; its rules follow the monad, the traversals and the
loops.
-/
namespace Total

variable {α β σ : Type*}

/-- `&xs[start..stop]`. -/
def slice (xs : List α) (start stop : Nat) : Option (List α) :=
  if start ≤ stop ∧ stop ≤ xs.length then some ((xs.drop start).take (stop - start)) else none

/-- `a - b` of unsigned numbers. -/
def sub (a b : Nat) : Option Nat := if b ≤ a then some (a - b) else none

def Returns (x : Option α) (P : α → Prop) : Prop := ∃ a, x = some a ∧ P a

theorem Returns.isSome {x : Option α} {P : α → Prop} (h : Returns x P) : x.isSome := by
  obtain ⟨a, rfl, -⟩ := h
  rfl

theorem Returns.pure {a : α} {P : α → Prop} (h : P a) : Returns (some a) P := ⟨a, rfl, h⟩

theorem Returns.mono {x : Option α} {P Q : α → Prop} (h : Returns x P) (weaker : ∀ a, P a → Q a) :
    Returns x Q := by
  obtain ⟨a, rfl, post⟩ := h
  exact ⟨a, rfl, weaker a post⟩

theorem Returns.bind {β : Type _} {x : Option α} {f : α → Option β} {P : α → Prop} {Q : β → Prop}
    (h : Returns x P) (next : ∀ a, P a → Returns (f a) Q) : Returns (x.bind f) Q := by
  obtain ⟨a, rfl, post⟩ := h
  exact next a post

theorem Returns.map {β : Type _} {x : Option α} {f : α → β} {P : α → Prop} {Q : β → Prop}
    (h : Returns x P) (next : ∀ a, P a → Q (f a)) : Returns (x.map f) Q := by
  obtain ⟨a, rfl, post⟩ := h
  exact ⟨f a, rfl, next a post⟩

theorem returns_of_isSome {x : Option α} (h : x.isSome) : Returns x fun a => x = some a := by
  obtain ⟨a, rfl⟩ := Option.isSome_iff_exists.mp h
  exact ⟨a, rfl, rfl⟩

theorem slice_returns {xs : List α} {start stop : Nat} (ordered : start ≤ stop)
    (inside : stop ≤ xs.length) :
    Returns (slice xs start stop) fun ys => ys = (xs.drop start).take (stop - start) :=
  ⟨_, if_pos ⟨ordered, inside⟩, rfl⟩

theorem sub_returns {a b : Nat} (h : b ≤ a) : Returns (sub a b) fun c => c + b = a :=
  ⟨_, if_pos h, Nat.sub_add_cancel h⟩

/-- A traversal returns when every element does. -/
theorem mapM_returns {β : Type _} {f : α → Option β} {P : β → Prop} {xs : List α}
    (each : ∀ x ∈ xs, Returns (f x) P) : Returns (xs.mapM f) fun ys => ∀ y ∈ ys, P y := by
  induction xs with
  | nil => exact .pure (by simp)
  | cons x xs ih =>
      obtain ⟨first, rest⟩ := List.forall_mem_cons.mp each
      rw [List.mapM_cons]
      refine first.bind fun y here => (ih rest).bind fun ys there => .pure ?_
      exact List.forall_mem_cons.mpr ⟨here, there⟩

/-- What a traversal that returned returned, one by one. -/
theorem mapM_eq_some {β : Type _} {f : α → Option β} {xs : List α} {ys : List β}
    (h : xs.mapM f = some ys) : List.Forall₂ (fun x y => f x = some y) xs ys := by
  induction xs generalizing ys with
  | nil => cases h; exact .nil
  | cons x xs ih =>
      rw [List.mapM_cons] at h
      obtain ⟨y, first, h⟩ := Option.bind_eq_some_iff.mp h
      obtain ⟨rest, later, h⟩ := Option.bind_eq_some_iff.mp h
      cases h
      exact .cons first (ih later)

theorem mapM_isSome_iff {β : Type _} {f : α → Option β} {xs : List α} :
    (xs.mapM f).isSome ↔ ∀ x ∈ xs, (f x).isSome := by
  induction xs with
  | nil => simp
  | cons x xs ih =>
      rw [List.mapM_cons, List.forall_mem_cons, ← ih]
      cases f x with
      | none => simp
      | some y => cases xs.mapM f <;> simp

theorem anyM_isSome {p : α → Option Bool} {xs : List α} (each : ∀ x ∈ xs, (p x).isSome) :
    (xs.anyM p).isSome := by
  induction xs with
  | nil => rfl
  | cons x xs ih =>
      obtain ⟨first, rest⟩ := List.forall_mem_cons.mp each
      obtain ⟨answer, value⟩ := Option.isSome_iff_exists.mp first
      rw [List.anyM, value]
      cases answer with
      | true => rfl
      | false => exact ih rest

/-- A search that stops at the first answer fails where it fails before any. -/
theorem anyM_isSome_iff {p : α → Option Bool} {xs : List α} :
    (xs.anyM p).isSome ↔ ¬ ∃ before x after, xs = before ++ x :: after ∧ p x = none ∧
      ∀ y ∈ before, p y = some false := by
  induction xs with
  | nil => simp [List.anyM]
  | cons x xs ih =>
      rw [List.anyM]
      cases value : p x with
      | none =>
          refine iff_of_false (by simp) (not_not.mpr ⟨[], x, xs, rfl, value, ?_⟩)
          exact fun y member => absurd member List.not_mem_nil
      | some answer =>
          cases answer with
          | true =>
              refine iff_of_true rfl ?_
              rintro ⟨before, y, after, whole, fails, passed⟩
              cases before with
              | nil => cases whole; rw [value] at fails; cases fails
              | cons z before =>
                  cases whole
                  have first := passed _ List.mem_cons_self
                  rw [value] at first
                  cases first
          | false =>
              refine ih.trans (not_congr ⟨?_, ?_⟩)
              · rintro ⟨before, y, after, rfl, fails, passed⟩
                exact ⟨x :: before, y, after, rfl, fails, List.forall_mem_cons.mpr ⟨value, passed⟩⟩
              · rintro ⟨before, y, after, whole, fails, passed⟩
                cases before with
                | nil => cases whole; rw [value] at fails; cases fails
                | cons z before =>
                    cases whole
                    exact ⟨before, y, after, rfl, fails, fun w member =>
                      passed w (List.mem_cons_of_mem _ member)⟩

/-- A loop over a list keeps what every step keeps. -/
theorem foldlM_returns {step : σ → α → Option σ} {I : σ → Prop} {xs : List α}
    (keeps : ∀ s, I s → ∀ x ∈ xs, Returns (step s x) I) {s : σ} (start : I s) :
    Returns (xs.foldlM step s) I := by
  induction xs generalizing s with
  | nil => exact .pure start
  | cons x xs ih =>
      rw [List.foldlM_cons]
      exact (keeps s start x List.mem_cons_self).bind fun s' kept =>
        ih (fun s held y later => keeps s held y (List.mem_cons_of_mem _ later)) kept

/-- A loop that returned kept what its steps keep. -/
theorem foldlM_keeps {step : σ → α → Option σ} {I : σ → Prop} {xs : List α}
    (keeps : ∀ s s' x, x ∈ xs → I s → step s x = some s' → I s') {s s' : σ} (start : I s)
    (h : xs.foldlM step s = some s') : I s' := by
  induction xs generalizing s with
  | nil => cases h; exact start
  | cons x xs ih =>
      obtain ⟨next, first, rest⟩ := Option.bind_eq_some_iff.mp h
      exact ih (fun s s' y later => keeps s s' y (List.mem_cons_of_mem _ later))
        (keeps s next x List.mem_cons_self start first) rest

/-- What a computation that returned returned. -/
theorem Returns.of_eq {x : Option α} {P : α → Prop} {a : α} (h : Returns x P) (value : x = some a) :
    P a := by
  obtain ⟨b, rfl, post⟩ := h
  cases value
  exact post

end Total

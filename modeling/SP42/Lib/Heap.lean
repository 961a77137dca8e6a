import Mathlib.Data.List.Pairwise

/-!
A heap, as the bag of its elements: `pop` takes out one that no other comes out before.
Drained, it gives its elements in order.
-/
namespace Heap

variable {α : Type*} (above : α → α → Bool)

def pop : List α → Option (α × List α)
  | [] => none
  | x :: xs =>
      match pop xs with
      | none => some (x, [])
      | some (top, rest) =>
          if above top x then some (top, x :: rest) else some (x, top :: rest)

/-- Pop until the heap is empty; the fuel is the number of its elements. -/
def drainFrom : Nat → List α → List α
  | 0, _ => []
  | fuel + 1, heap =>
      match pop above heap with
      | none => []
      | some (top, rest) => top :: drainFrom fuel rest

def drain (heap : List α) : List α := drainFrom above heap.length heap

/-- A strict weak order. -/
structure Ranks : Prop where
  asymm : ∀ a b, above a b = true → above b a = false
  split : ∀ a b c, above a c = true → above a b = true ∨ above b c = true

variable {above}

theorem drainFrom_succ (fuel : Nat) (heap : List α) : drainFrom above (fuel + 1) heap =
    match pop above heap with
    | none => []
    | some (top, rest) => top :: drainFrom above fuel rest := rfl

theorem pop_isSome (x : α) (xs : List α) : (pop above (x :: xs)).isSome = true := by
  rw [pop]
  split
  · rfl
  · split <;> rfl

/-- What is popped is the first element or what the others give, whichever is above. -/
theorem pop_cases {x top : α} {xs rest : List α} (h : pop above (x :: xs) = some (top, rest)) :
    (pop above xs = none ∧ top = x ∧ rest = []) ∨
      ∃ top' rest', pop above xs = some (top', rest') ∧
        ((above top' x = true ∧ top = top' ∧ rest = x :: rest') ∨
          (above top' x = false ∧ top = x ∧ rest = top' :: rest')) := by
  rw [pop] at h
  split at h
  · next empty =>
      cases h
      exact .inl ⟨empty, rfl, rfl⟩
  · next top' rest' found =>
      refine .inr ⟨top', rest', found, ?_⟩
      split at h
      · next higher =>
          cases h
          exact .inl ⟨higher, rfl, rfl⟩
      · next lower =>
          cases h
          exact .inr ⟨Bool.eq_false_iff.mpr lower, rfl, rfl⟩

theorem pop_eq_none {heap : List α} (h : pop above heap = none) : heap = [] := by
  cases heap with
  | nil => rfl
  | cons x xs =>
      have some_ := @pop_isSome _ above x xs
      rw [h] at some_
      cases some_

theorem pop_perm {heap rest : List α} {top : α} (h : pop above heap = some (top, rest)) :
    heap.Perm (top :: rest) := by
  induction heap generalizing top rest with
  | nil => cases h
  | cons x xs ih =>
      rcases pop_cases h with ⟨empty, rfl, rfl⟩ | ⟨top', rest', found, step⟩
      · rw [pop_eq_none empty]
      · have smaller := ih found
        rcases step with ⟨-, rfl, rfl⟩ | ⟨-, rfl, rfl⟩
        · exact (smaller.cons x).trans (.swap top x rest')
        · exact smaller.cons top

/-- Nothing left behind comes out before what was taken. -/
theorem pop_top (ranks : Ranks above) {heap rest : List α} {top : α}
    (h : pop above heap = some (top, rest)) : ∀ other ∈ rest, above other top = false := by
  induction heap generalizing top rest with
  | nil => cases h
  | cons x xs ih =>
      rcases pop_cases h with ⟨-, rfl, rfl⟩ | ⟨top', rest', found, step⟩
      · exact nofun
      · have others := ih found
        rcases step with ⟨higher, rfl, rfl⟩ | ⟨lower, rfl, rfl⟩
        · exact List.forall_mem_cons.mpr ⟨ranks.asymm _ _ higher, others⟩
        · refine List.forall_mem_cons.mpr ⟨lower, ?_⟩
          intro other member
          by_contra higher
          rcases ranks.split other top' top (by simpa using higher) with one | two
          · exact absurd one (by rw [others other member]; exact Bool.false_ne_true)
          · rw [lower] at two
            cases two

theorem drainFrom_perm {fuel : Nat} {heap : List α} (enough : heap.length ≤ fuel) :
    (drainFrom above fuel heap).Perm heap := by
  induction fuel generalizing heap with
  | zero =>
      rw [List.length_eq_zero_iff.mp (Nat.le_zero.mp enough)]
      exact .refl _
  | succ fuel ih =>
      rw [drainFrom_succ]
      cases found : pop above heap with
      | none => rw [pop_eq_none found]
      | some taken =>
          obtain ⟨top, rest⟩ := taken
          have perm := pop_perm found
          have shorter := perm.length_eq
          rw [List.length_cons] at shorter
          exact ((ih (by omega)).cons top).trans perm.symm

theorem drain_perm (heap : List α) : (drain above heap).Perm heap := drainFrom_perm (Nat.le_refl _)

theorem drainFrom_sorted (ranks : Ranks above) {fuel : Nat} {heap : List α}
    (enough : heap.length ≤ fuel) :
    (drainFrom above fuel heap).Pairwise fun a b => above b a = false := by
  induction fuel generalizing heap with
  | zero => exact .nil
  | succ fuel ih =>
      rw [drainFrom_succ]
      cases found : pop above heap with
      | none => exact .nil
      | some taken =>
          obtain ⟨top, rest⟩ := taken
          have shorter := (pop_perm found).length_eq
          rw [List.length_cons] at shorter
          refine List.pairwise_cons.mpr ⟨fun other member => ?_, ih (by omega)⟩
          exact pop_top ranks found other ((drainFrom_perm (by omega)).subset member)

theorem drain_sorted (ranks : Ranks above) (heap : List α) :
    (drain above heap).Pairwise fun a b => above b a = false :=
  drainFrom_sorted ranks (Nat.le_refl _)

/-- Elements that came in the order in which they come out are drained in it. -/
theorem drain_filter (ranks : Ranks above) {heap : List α} (keep : α → Bool)
    (ordered : (heap.filter keep).Pairwise fun a b => above a b = true) :
    (drain above heap).filter keep = heap.filter keep := by
  have perm : ((drain above heap).filter keep).Perm (heap.filter keep) :=
    (drain_perm heap).filter keep
  have symmetric : Std.Symm fun a b => above a b = true ∨ above b a = true :=
    ⟨fun _ _ => Or.symm⟩
  have comparable : (heap.filter keep).Pairwise fun a b => above a b = true ∨ above b a = true :=
    ordered.imp Or.inl
  have drained := (drain_sorted ranks heap).sublist (List.filter_sublist (p := keep))
  refine perm.eq_of_pairwise (fun a b here there lower higher => ?_) drained
    (ordered.imp (ranks.asymm _ _))
  by_contra different
  rcases comparable.forall (perm.subset here) there different with one | two
  · rw [higher] at one
    cases one
  · rw [lower] at two
    cases two

end Heap

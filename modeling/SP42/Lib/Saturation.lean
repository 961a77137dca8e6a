import Mathlib

/-!
Sums that saturate at two bounds, and when such a sum depends on the order of its terms.
-/
namespace Saturation

variable {α : Type*} {low high start : ℤ}

/-- Addition that stops at the bounds. -/
def add (low high a b : ℤ) : ℤ := max low (min high (a + b))

def total (low high start : ℤ) (terms : List ℤ) : ℤ := terms.foldl (add low high) start

/-- The sum of the terms that are at least zero. -/
def gains (terms : List ℤ) : ℤ := (terms.filter fun a => 0 ≤ a).sum

/-- The sum of the terms below zero. -/
def losses (terms : List ℤ) : ℤ := (terms.filter fun a => !decide (0 ≤ a)).sum

/-- No order reaches a bound from inside, or all terms point the same way. -/
def Settled (low high : ℤ) (terms : List ℤ) : Prop :=
  (low ≤ losses terms ∧ gains terms ≤ high) ∨ (∀ a ∈ terms, 0 ≤ a) ∨ ∀ a ∈ terms, a ≤ 0

theorem total_append (terms more : List ℤ) :
    total low high start (terms ++ more) = total low high (total low high start terms) more :=
  List.foldl_append

theorem gains_cons (a : ℤ) (terms : List ℤ) :
    gains (a :: terms) = (if 0 ≤ a then a else 0) + gains terms := by
  unfold gains
  by_cases up : 0 ≤ a <;> simp [up]

theorem losses_cons (a : ℤ) (terms : List ℤ) :
    losses (a :: terms) = (if 0 ≤ a then 0 else a) + losses terms := by
  unfold losses
  by_cases up : 0 ≤ a <;> simp [up]

theorem gains_nonneg (terms : List ℤ) : 0 ≤ gains terms :=
  List.sum_nonneg fun _ member => of_decide_eq_true (List.mem_filter.mp member).2

theorem losses_nonpos (terms : List ℤ) : losses terms ≤ 0 := by
  induction terms with
  | nil => exact le_refl 0
  | cons a terms ih =>
      rw [losses_cons]
      split <;> omega

theorem gains_add_losses (terms : List ℤ) : gains terms + losses terms = terms.sum := by
  induction terms with
  | nil => rfl
  | cons a terms ih =>
      rw [gains_cons, losses_cons, List.sum_cons]
      split <;> omega

/-- A sum whose partial sums cannot leave the bounds is exact. -/
theorem total_exact {terms : List ℤ} (above : low ≤ start + losses terms)
    (below : start + gains terms ≤ high) : total low high start terms = start + terms.sum := by
  induction terms generalizing start with
  | nil => exact (add_zero start).symm
  | cons a terms ih =>
      have up := gains_nonneg terms
      have down := losses_nonpos terms
      rw [losses_cons] at above
      rw [gains_cons] at below
      have first : add low high start a = start + a := by
        unfold add
        split at above <;> omega
      calc total low high start (a :: terms)
          = total low high (start + a) terms := congrArg (total low high · terms) first
        _ = start + a + terms.sum := by
            refine ih ?_ ?_
            · split at above <;> omega
            · split at below <;> omega
        _ = start + (a :: terms).sum := by rw [List.sum_cons, add_assoc]

theorem total_rising {terms : List ℤ} (rising : ∀ a ∈ terms, 0 ≤ a) (above : low ≤ start)
    (below : start ≤ high) : total low high start terms = min high (start + terms.sum) := by
  induction terms generalizing start with
  | nil =>
      change start = min high (start + 0)
      omega
  | cons a terms ih =>
      obtain ⟨first, rest⟩ := List.forall_mem_cons.mp rising
      have more := List.sum_nonneg rest
      have next := @ih (add low high start a) rest (by unfold add; omega) (by unfold add; omega)
      calc total low high start (a :: terms)
          = min high (add low high start a + terms.sum) := next
        _ = min high (start + (a :: terms).sum) := by
            rw [List.sum_cons]
            unfold add
            omega

theorem sum_falling {terms : List ℤ} (falling : ∀ a ∈ terms, a ≤ 0) : terms.sum ≤ 0 := by
  induction terms with
  | nil => exact le_refl 0
  | cons a terms ih =>
      obtain ⟨first, rest⟩ := List.forall_mem_cons.mp falling
      rw [List.sum_cons]
      exact add_nonpos first (ih rest)

theorem total_falling {terms : List ℤ} (falling : ∀ a ∈ terms, a ≤ 0) (above : low ≤ start)
    (below : start ≤ high) : total low high start terms = max low (start + terms.sum) := by
  induction terms generalizing start with
  | nil =>
      change start = max low (start + 0)
      omega
  | cons a terms ih =>
      obtain ⟨first, rest⟩ := List.forall_mem_cons.mp falling
      have less := sum_falling rest
      have next := @ih (add low high start a) rest (by unfold add; omega) (by unfold add; omega)
      calc total low high start (a :: terms)
          = max low (add low high start a + terms.sum) := next
        _ = max low (start + (a :: terms).sum) := by
            rw [List.sum_cons]
            unfold add
            omega

section Orders

variable (low high)

/-- All gains come before all losses. -/
def gainsFirst (terms : List ℤ) : List ℤ :=
  terms.filter (fun a => 0 ≤ a) ++ terms.filter fun a => !decide (0 ≤ a)

def lossesFirst (terms : List ℤ) : List ℤ :=
  terms.filter (fun a => !decide (0 ≤ a)) ++ terms.filter fun a => 0 ≤ a

variable {low high}

theorem rising_part (terms : List ℤ) : ∀ a ∈ terms.filter fun a => 0 ≤ a, 0 ≤ a :=
  fun _ member => of_decide_eq_true (List.mem_filter.mp member).2

theorem falling_part (terms : List ℤ) : ∀ a ∈ terms.filter fun a => !decide (0 ≤ a), a ≤ 0 := by
  intro a member
  have below := (List.mem_filter.mp member).2
  rw [Bool.not_eq_true', decide_eq_false_iff_not] at below
  omega

theorem total_gainsFirst (above : low ≤ 0) (below : 0 ≤ high) (terms : List ℤ) :
    total low high 0 (gainsFirst terms) = max low (min high (gains terms) + losses terms) := by
  have up := gains_nonneg terms
  rw [gainsFirst, total_append, total_rising (rising_part terms) above below, zero_add]
  exact total_falling (falling_part terms) (le_min (by omega) (by unfold gains at up; omega))
    (min_le_left _ _)

theorem total_lossesFirst (above : low ≤ 0) (below : 0 ≤ high) (terms : List ℤ) :
    total low high 0 (lossesFirst terms) = min high (max low (losses terms) + gains terms) := by
  have down := losses_nonpos terms
  rw [lossesFirst, total_append, total_falling (falling_part terms) above below, zero_add]
  exact total_rising (rising_part terms) (le_max_left _ _)
    (max_le (by omega) (by unfold losses at down; omega))

theorem rising_of_losses {terms : List ℤ} (nothing : losses terms = 0) : ∀ a ∈ terms, 0 ≤ a := by
  induction terms with
  | nil => exact fun _ member => nomatch member
  | cons a terms ih =>
      have down := losses_nonpos terms
      rw [losses_cons] at nothing
      refine List.forall_mem_cons.mpr ⟨?_, ih ?_⟩
      · split at nothing <;> omega
      · split at nothing <;> omega

theorem falling_of_gains {terms : List ℤ} (nothing : gains terms = 0) : ∀ a ∈ terms, a ≤ 0 := by
  induction terms with
  | nil => exact fun _ member => nomatch member
  | cons a terms ih =>
      have up := gains_nonneg terms
      rw [gains_cons] at nothing
      refine List.forall_mem_cons.mpr ⟨?_, ih ?_⟩
      · split at nothing <;> omega
      · split at nothing <;> omega

/-- If even these two orders agree, the terms are settled. -/
theorem settled_of_extremes (above : low ≤ 0) (below : 0 ≤ high) (wide : low < high)
    {terms : List ℤ}
    (same : total low high 0 (gainsFirst terms) = total low high 0 (lossesFirst terms)) :
    Settled low high terms := by
  rw [total_gainsFirst above below, total_lossesFirst above below] at same
  have up := gains_nonneg terms
  have down := losses_nonpos terms
  have bounds : (low ≤ losses terms ∧ gains terms ≤ high) ∨ losses terms = 0 ∨ gains terms = 0 := by
    omega
  rcases bounds with inside | nothing | nothing
  · exact .inl inside
  · exact .inr (.inl (rising_of_losses nothing))
  · exact .inr (.inr (falling_of_gains nothing))

/-- Settled terms add up to their sum, cut off at the bounds. -/
theorem total_settled (above : low ≤ 0) (below : 0 ≤ high) {terms : List ℤ}
    (settled : Settled low high terms) :
    total low high 0 terms = max low (min high terms.sum) := by
  rcases settled with ⟨losing, gaining⟩ | rising | falling
  · have up := gains_nonneg terms
    have down := losses_nonpos terms
    have sum := gains_add_losses terms
    rw [total_exact (by omega) (by omega)]
    omega
  · have sum := List.sum_nonneg rising
    rw [total_rising rising above below]
    omega
  · have sum := sum_falling falling
    rw [total_falling falling above below]
    omega

theorem Settled.perm {terms others : List ℤ} (settled : Settled low high terms)
    (order : others.Perm terms) : Settled low high others := by
  rcases settled with ⟨losing, gaining⟩ | rising | falling
  · have same : losses others = losses terms := (order.filter _).sum_eq
    have gained : gains others = gains terms := (order.filter _).sum_eq
    exact .inl ⟨same ▸ losing, gained ▸ gaining⟩
  · exact .inr (.inl fun a member => rising a (order.subset member))
  · exact .inr (.inr fun a member => falling a (order.subset member))

/-- A choice among the items that only looks at their terms is a choice among the terms. -/
theorem filterMap_choice {term : α → Option ℤ} {choice : α → Bool} {keep : ℤ → Bool}
    (looks : ∀ item a, term item = some a → choice item = keep a) (items : List α) :
    (items.filter choice).filterMap term = (items.filterMap term).filter keep := by
  rw [List.filterMap_filter, List.filter_filterMap]
  refine List.filterMap_congr fun item _ => ?_
  cases found : term item with
  | none => simp
  | some a => simp [looks item a found, Option.filter]

/-- A saturating sum over the items that carry a term is the same in every order just where
the terms are settled. -/
theorem order_iff (above : low ≤ 0) (below : 0 ≤ high) (wide : low < high) (term : α → Option ℤ)
    (items : List α) :
    (∀ order : List α, order.Perm items →
      total low high 0 (order.filterMap term) = total low high 0 (items.filterMap term)) ↔
      Settled low high (items.filterMap term) := by
  constructor
  · intro same
    let rises : α → Bool := fun item => (term item).all fun a => 0 ≤ a
    have rising := @filterMap_choice _ term rises (fun a => 0 ≤ a)
      (fun item a found => by simp [rises, found]) items
    have falling := @filterMap_choice _ term (fun item => !rises item)
      (fun a => !decide (0 ≤ a)) (fun item a found => by simp [rises, found]) items
    have up := same (items.filter rises ++ items.filter fun item => !rises item)
      (List.filter_append_perm rises items)
    have down := same ((items.filter fun item => !rises item) ++ items.filter rises)
      (List.perm_append_comm.trans (List.filter_append_perm rises items))
    rw [List.filterMap_append, rising, falling] at up down
    exact settled_of_extremes above below wide (up.trans down.symm)
  · intro settled order perm
    have terms := perm.filterMap term
    rw [total_settled above below settled, total_settled above below (settled.perm terms),
      terms.sum_eq]

end Orders

end Saturation

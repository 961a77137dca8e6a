import Mathlib.Data.Multiset.UnionInter
import Mathlib.Tactic.Ring

/-!
The overlap of multisets as a part of their union. Where the members of the one are counted that
occur in the other at all, what it has of them beyond the other is counted in excess.
-/
namespace Overlap

variable {α : Type*} [DecidableEq α]

/-- What the one has beyond the other, of the members that occur in both. -/
def excess (s t : Multiset α) : Multiset α := (s - t).filter (· ∈ t)

/-- The two share the part `num / den` of their union. -/
def Shares (num den : Nat) (s t : Multiset α) : Prop :=
  num * (s ∪ t).card ≤ den * (s ∩ t).card

/-- The same with the members of the one that occur in the other taken for the shared ones. -/
def Counted (num den : Nat) (s t : Multiset α) : Prop :=
  num * (s.card + t.card - (s.filter (· ∈ t)).card) ≤ den * (s.filter (· ∈ t)).card

/-- Only with the excess of one of the two the part is reached. -/
def Lifted (num den : Nat) (s t : Multiset α) : Prop :=
  (num + den) * (s ∩ t).card < num * (s.card + t.card) ∧
    num * (s.card + t.card) ≤
      (num + den) * ((s ∩ t).card + max (excess s t).card (excess t s).card)

instance (num den : Nat) (s t : Multiset α) : Decidable (Shares num den s t) :=
  inferInstanceAs (Decidable (_ ≤ _))

variable {num den : Nat} {s t : Multiset α}

theorem filter_mem_eq (s t : Multiset α) : s.filter (· ∈ t) = s ∩ t + excess s t := by
  apply Multiset.ext.mpr
  intro a
  unfold excess
  rw [Multiset.count_add, Multiset.count_inter, Multiset.count_filter, Multiset.count_filter,
    Multiset.count_sub]
  by_cases member : a ∈ t
  · rw [if_pos member, if_pos member]
    omega
  · rw [if_neg member, if_neg member, Multiset.count_eq_zero_of_notMem member]
    omega

theorem excess_zero_left (t : Multiset α) : excess 0 t = 0 := by
  rw [excess, Multiset.zero_sub, Multiset.filter_zero]

theorem excess_zero_right (s : Multiset α) : excess s 0 = 0 :=
  Multiset.filter_eq_nil.mpr fun _ _ => Multiset.notMem_zero _

theorem card_union (s t : Multiset α) : (s ∪ t).card + (s ∩ t).card = s.card + t.card := by
  rw [← Multiset.card_add, Multiset.union_add_inter, Multiset.card_add]

/-- The part of the union is a part of the sum. -/
theorem shares_iff :
    Shares num den s t ↔ num * (s.card + t.card) ≤ (num + den) * (s ∩ t).card := by
  unfold Shares
  rw [← card_union s t, Nat.mul_add, Nat.add_mul]
  omega

theorem shares_comm : Shares num den s t ↔ Shares num den t s := by
  unfold Shares
  rw [Multiset.union_comm, Multiset.inter_comm]

theorem counted_iff : Counted num den s t ↔
    num * (s.card + t.card) ≤ (num + den) * ((s ∩ t).card + (excess s t).card) := by
  have within : (s.filter (· ∈ t)).card ≤ s.card + t.card :=
    (Multiset.card_le_card (Multiset.filter_le _ s)).trans (Nat.le_add_right _ _)
  unfold Counted
  rw [← Multiset.card_add (s ∩ t), ← filter_mem_eq, Nat.mul_sub, Nat.add_mul]
  have scaled := Nat.mul_le_mul_left num within
  omega

theorem Shares.counted (shares : Shares num den s t) : Counted num den s t := by
  rw [shares_iff] at shares
  rw [counted_iff]
  exact shares.trans (Nat.mul_le_mul_left _ (Nat.le_add_right _ _))

theorem lifted_iff :
    Lifted num den s t ↔ ¬Shares num den s t ∧ (Counted num den s t ∨ Counted num den t s) := by
  unfold Lifted
  rw [shares_iff, counted_iff, counted_iff, Multiset.inter_comm t s, Nat.add_comm t.card s.card,
    Nat.not_le]
  refine and_congr_right fun _ => ?_
  rcases Nat.le_total (excess s t).card (excess t s).card with less | less
  · rw [Nat.max_eq_right less]
    have more := Nat.mul_le_mul_left (num + den) (Nat.add_le_add_left less (s ∩ t).card)
    exact ⟨.inr, Or.rec (fun low => low.trans more) id⟩
  · rw [Nat.max_eq_left less]
    have more := Nat.mul_le_mul_left (num + den) (Nat.add_le_add_left less (s ∩ t).card)
    exact ⟨.inl, Or.rec id fun low => low.trans more⟩

/-- Counting is symmetric and a sign of a shared part, unless an excess lifts it. -/
theorem counted_measures_iff :
    ((Counted num den s t ↔ Counted num den t s) ∧ (Counted num den s t → Shares num den s t)) ↔
      ¬Lifted num den s t := by
  rw [lifted_iff]
  constructor
  · rintro ⟨symmetric, shared⟩ ⟨apart, here | there⟩
    · exact apart (shared here)
    · exact apart (shared (symmetric.mpr there))
  · intro grounded
    have shared (counted : Counted num den s t ∨ Counted num den t s) : Shares num den s t :=
      not_not.mp fun apart => grounded ⟨apart, counted⟩
    refine ⟨⟨fun here => ?_, fun there => ?_⟩, fun here => shared (.inl here)⟩
    · exact (shares_comm.mp (shared (.inl here))).counted
    · exact (shared (.inr there)).counted

/-- An empty multiset shares nothing, and is lifted by nothing. -/
theorem not_lifted_of_empty (empty : s = 0 ∨ t = 0) : ¬Lifted num den s t := by
  rintro ⟨low, high⟩
  have nothing : (s ∩ t).card = 0 ∧ (excess s t).card = 0 ∧ (excess t s).card = 0 := by
    rcases empty with rfl | rfl
    · rw [Multiset.zero_inter, excess_zero_left, excess_zero_right]
      exact ⟨rfl, rfl, rfl⟩
    · rw [Multiset.inter_zero, excess_zero_left, excess_zero_right]
      exact ⟨rfl, rfl, rfl⟩
  obtain ⟨shared, here, there⟩ := nothing
  rw [shared, here, there] at high
  rw [shared] at low
  exact absurd (low.trans_le high) (Nat.lt_irrefl _)

end Overlap

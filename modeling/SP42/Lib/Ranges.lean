import Mathlib

/-!
Maximal runs of the positions that have a property.
-/
namespace Runs

/-- From `start` up to `stop` every position has the property, and the run cannot be extended. -/
structure IsRun (marked : Nat → Prop) (start stop : Nat) : Prop where
  inhabited : start < stop
  inside : ∀ k, start ≤ k → k < stop → marked k
  ends : ¬ marked stop
  begins : start = 0 ∨ ¬ marked (start - 1)

variable {marked : Nat → Prop} {start stop a b : Nat}

/-- A run that begins inside another one is that run. -/
theorem IsRun.unique (run : IsRun marked start stop) (other : IsRun marked a b) (low : start ≤ a)
    (high : a < stop) : a = start ∧ b = stop := by
  have same : a = start := by
    by_contra moved
    have previous := run.inside (a - 1) (by omega) (by omega)
    rcases other.begins with zero | unmarked
    · omega
    · exact unmarked previous
  subst same
  refine ⟨rfl, ?_⟩
  rcases Nat.lt_trichotomy b stop with short | equal | long
  · exact absurd (run.inside b (Nat.le_of_lt other.inhabited) short) other.ends
  · exact equal
  · exact absurd (other.inside stop (Nat.le_of_lt run.inhabited) long) run.ends

/-- A position that is reached from a run through marked positions lies in it. -/
theorem IsRun.reaches {i j : Nat} (run : IsRun marked start stop) (low : start ≤ i) (high : i < stop)
    (between : ∀ k, min i j ≤ k → k ≤ max i j → marked k) : start ≤ j ∧ j < stop := by
  constructor
  · by_contra early
    rcases run.begins with zero | unmarked
    · omega
    · exact unmarked (between (start - 1) (by omega) (by omega))
  · by_contra late
    exact run.ends (between stop (by omega) (by omega))

theorem exists_begin {k : Nat} (here : marked k) :
    ∃ start ≤ k, (∀ j, start ≤ j → j ≤ k → marked j) ∧ (start = 0 ∨ ¬ marked (start - 1)) := by
  induction k with
  | zero =>
      refine ⟨0, Nat.le_refl 0, fun j _ low => ?_, .inl rfl⟩
      rwa [Nat.le_zero.mp low]
  | succ k ih =>
      by_cases before : marked k
      · obtain ⟨start, early, inside, begins⟩ := ih before
        refine ⟨start, Nat.le_succ_of_le early, fun j low high => ?_, begins⟩
        rcases Nat.le_succ_iff.mp high with within | rfl
        · exact inside j low within
        · exact here
      · refine ⟨k + 1, Nat.le_refl _, fun j low high => ?_, .inr before⟩
        rwa [Nat.le_antisymm high low]

theorem exists_end {limit k : Nat} (bounded : ∀ j, marked j → j < limit) (here : marked k) :
    ∃ stop, k < stop ∧ (∀ j, k ≤ j → j < stop → marked j) ∧ ¬ marked stop := by
  induction fuel : limit - k generalizing k with
  | zero => have := bounded k here; omega
  | succ fuel ih =>
      by_cases after : marked (k + 1)
      · obtain ⟨stop, late, inside, ends⟩ := ih after (by omega)
        refine ⟨stop, by omega, fun j low high => ?_, ends⟩
        rcases Nat.eq_or_lt_of_le low with rfl | low
        · exact here
        · exact inside j low high
      · refine ⟨k + 1, Nat.lt_succ_self k, fun j low high => ?_, after⟩
        rwa [show j = k by omega]

/-- Every marked position lies in a run, when the marked positions are bounded. -/
theorem exists_run {limit k : Nat} (bounded : ∀ j, marked j → j < limit) (here : marked k) :
    ∃ start stop, IsRun marked start stop ∧ start ≤ k ∧ k < stop := by
  obtain ⟨start, early, front, begins⟩ := exists_begin here
  obtain ⟨stop, late, back, ends⟩ := exists_end bounded here
  refine ⟨start, stop, ⟨by omega, fun j low high => ?_, ends, begins⟩, early, late⟩
  rcases Nat.le_total j k with before | after
  · exact front j low before
  · exact back j after high

end Runs

/-!
Ranges of positions: lists of them in order and apart, the gaps that they leave, and how
much a running total over the positions grows along them.
-/
namespace Ranges

/-- From `cursor` on, in order and apart. -/
def Ascending : Nat → List (Nat × Nat) → Prop
  | _, [] => True
  | cursor, (start, stop) :: rest => cursor ≤ start ∧ start ≤ stop ∧ Ascending stop rest

/-- What the ranges leave out between `cursor` and `limit`. -/
def gaps (limit : Nat) : Nat → List (Nat × Nat) → List (Nat × Nat)
  | cursor, [] => [(cursor, limit)]
  | cursor, (start, stop) :: rest => (cursor, start) :: gaps limit stop rest

/-- How much a running total grows along the ranges. -/
def growth (total : Nat → Int) (ranges : List (Nat × Nat)) : Int :=
  (ranges.map fun range => total range.2 - total range.1).sum

/-- No position lies in both ranges, the first standing before the second or after it. -/
def Apart (a b : Nat × Nat) : Prop := a.2 ≤ b.1 ∨ b.2 ≤ a.1

theorem Apart.symm {a b : Nat × Nat} (h : Apart a b) : Apart b a := Or.symm h

variable {total : Nat → Int}

theorem growth_cons (range : Nat × Nat) (ranges : List (Nat × Nat)) :
    growth total (range :: ranges) = total range.2 - total range.1 + growth total ranges :=
  List.sum_cons

theorem growth_perm {ranges others : List (Nat × Nat)} (h : ranges.Perm others) :
    growth total ranges = growth total others :=
  (h.map _).sum_eq

/-- Ranges and gaps together make up the whole stretch. -/
theorem growth_gaps (limit cursor : Nat) (ranges : List (Nat × Nat)) :
    growth total ranges + growth total (gaps limit cursor ranges) = total limit - total cursor := by
  induction ranges generalizing cursor with
  | nil => simp [growth, gaps]
  | cons range rest ih =>
      obtain ⟨start, stop⟩ := range
      have later := ih stop
      rw [gaps, growth_cons, growth_cons]
      dsimp only
      omega

/-- A total that does not grow over any of the ranges. -/
theorem growth_flat {ranges : List (Nat × Nat)}
    (flat : ∀ range ∈ ranges, total range.2 = total range.1) : growth total ranges = 0 := by
  induction ranges with
  | nil => rfl
  | cons range rest ih =>
      obtain ⟨here, there⟩ := List.forall_mem_cons.mp flat
      rw [growth_cons, ih there, here]
      omega

/-- Two families of ranges, paired off with the same growth each. -/
theorem growth_paired {α : Type*} {items : List α} {left right : α → Nat × Nat}
    {other : Nat → Int}
    (same : ∀ item ∈ items, total (left item).2 - total (left item).1 =
      other (right item).2 - other (right item).1) :
    growth total (items.map left) = growth other (items.map right) := by
  unfold growth
  rw [List.map_map, List.map_map]
  exact congrArg List.sum (List.map_congr_left same)

/-- Sorted ranges that are apart and inhabited follow one another. -/
theorem follows_of_sorted {ranges : List (Nat × Nat)}
    (sorted : ranges.Pairwise fun a b => a.1 ≤ b.1) (apart : ranges.Pairwise Apart)
    (inhabited : ∀ range ∈ ranges, range.1 < range.2) :
    ranges.Pairwise fun a b => a.2 ≤ b.1 := by
  refine (sorted.and apart).imp_of_mem ?_
  rintro a b - member ⟨earlier, first | second⟩
  · exact first
  · have := inhabited b member
    omega

theorem Ascending.mono {ranges : List (Nat × Nat)} {cursor earlier : Nat} (le : earlier ≤ cursor)
    (h : Ascending cursor ranges) : Ascending earlier ranges := by
  cases ranges with
  | nil => trivial
  | cons range rest => exact ⟨le.trans h.1, h.2⟩

theorem Ascending.follows {ranges : List (Nat × Nat)} {cursor : Nat} (h : Ascending cursor ranges) :
    (∀ range ∈ ranges, cursor ≤ range.1) ∧ ranges.Pairwise fun a b => a.2 ≤ b.1 := by
  induction ranges generalizing cursor with
  | nil => exact ⟨nofun, .nil⟩
  | cons range rest ih =>
      obtain ⟨start, stop⟩ := range
      obtain ⟨early, ordered, later⟩ := h
      obtain ⟨behind, pairwise⟩ := ih later
      refine ⟨List.forall_mem_cons.mpr ⟨early, fun next member => ?_⟩,
        List.pairwise_cons.mpr ⟨behind, pairwise⟩⟩
      exact early.trans (ordered.trans (behind next member))

/-- A position lies in at most one of the ranges. -/
theorem Ascending.unique {ranges : List (Nat × Nat)} {cursor i j k : Nat} {a b : Nat × Nat}
    (h : Ascending cursor ranges) (found : ranges[j]? = some a) (found' : ranges[k]? = some b)
    (low : a.1 ≤ i) (high : i < a.2) (low' : b.1 ≤ i) (high' : i < b.2) : j = k := by
  obtain ⟨inside, rfl⟩ := List.getElem?_eq_some_iff.mp found
  obtain ⟨inside', rfl⟩ := List.getElem?_eq_some_iff.mp found'
  have follows := List.pairwise_iff_getElem.mp h.follows.2
  rcases Nat.lt_trichotomy j k with before | same | after
  · have := follows j k inside inside' before
    omega
  · exact same
  · have := follows k j inside' inside after
    omega

end Ranges

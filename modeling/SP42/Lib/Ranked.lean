import Mathlib.Data.Prod.Lex
import Mathlib.Data.List.Basic

/-!
Stable rankings: a list reordered by a falling key, equals in the order they had. Rankings
by two keys compose to one by the pair, and a ranking of a front can be read off a ranking
of the whole list exactly when the front outranks the rest.
-/
namespace Ranked

variable {α κ δ : Type*} [LinearOrder κ] [LinearOrder δ]

structure Ranks (key : α → κ) (items ranked : List α) : Prop where
  perm : ranked.Perm items
  sorted : ranked.Pairwise fun a b => key b ≤ key a
  stable : ∀ value, (ranked.filter fun item => key item = value) =
    items.filter fun item => key item = value

section Unique

variable {key : α → κ} {items others ranked ranked' : List α}

/-- A sorted list is its classes of equals. -/
theorem eq_of_classes (sorted : ranked.Pairwise fun a b => key b ≤ key a)
    (sorted' : ranked'.Pairwise fun a b => key b ≤ key a)
    (same : ∀ value, (ranked.filter fun item => key item = value) =
      ranked'.filter fun item => key item = value) : ranked = ranked' := by
  have within {a b : List α} (same : ∀ value, (a.filter fun item => key item = value) =
      b.filter fun item => key item = value) : a ⊆ b := by
    intro x member
    have here : x ∈ a.filter fun item => key item = key x := by simpa using member
    rw [same] at here
    exact (List.mem_filter.mp here).1
  induction ranked generalizing ranked' with
  | nil =>
      cases ranked' with
      | nil => rfl
      | cons y rest => exact absurd (within (fun value => (same value).symm) List.mem_cons_self) List.not_mem_nil
  | cons x rest ih =>
      cases ranked' with
      | nil => exact absurd (within same List.mem_cons_self) List.not_mem_nil
      | cons y rest' =>
          obtain ⟨first, later⟩ := List.pairwise_cons.mp sorted
          obtain ⟨first', later'⟩ := List.pairwise_cons.mp sorted'
          have below : key y ≤ key x := by
            rcases List.mem_cons.mp (within (fun value => (same value).symm) List.mem_cons_self) with
              rfl | member
            · exact le_refl _
            · exact first _ member
          have above : key x ≤ key y := by
            rcases List.mem_cons.mp (within same List.mem_cons_self) with rfl | member
            · exact le_refl _
            · exact first' _ member
          have level : key x = key y := le_antisymm above below
          have heads := same (key x)
          rw [List.filter_cons_of_pos (by simp), List.filter_cons_of_pos (by simp [level])] at heads
          obtain ⟨rfl, -⟩ := List.cons.inj heads
          refine congrArg (List.cons x) (ih later later' fun value => ?_)
          have both := same value
          by_cases own : key x = value
          · rw [List.filter_cons_of_pos (by simpa using own),
              List.filter_cons_of_pos (by simpa using own)] at both
            exact (List.cons.inj both).2
          · rwa [List.filter_cons_of_neg (by simpa using own),
              List.filter_cons_of_neg (by simpa using own)] at both

theorem Ranks.unique (ranks : Ranks key items ranked) (ranks' : Ranks key items ranked') :
    ranked = ranked' :=
  eq_of_classes ranks.sorted ranks'.sorted fun value => (ranks.stable value).trans (ranks'.stable value).symm

theorem Ranks.append {back behind : List α} (ranks : Ranks key items ranked)
    (ranks' : Ranks key back behind) (outranks : ∀ x ∈ items, ∀ y ∈ back, key y ≤ key x) :
    Ranks key (items ++ back) (ranked ++ behind) where
  perm := ranks.perm.append ranks'.perm
  sorted := List.pairwise_append.mpr ⟨ranks.sorted, ranks'.sorted, fun x here y there =>
    outranks x (ranks.perm.subset here) y (ranks'.perm.subset there)⟩
  stable := fun value => by
    rw [List.filter_append, List.filter_append, ranks.stable, ranks'.stable]

/-- Every list has a ranking. -/
theorem exists_ranks (key : α → κ) (items : List α) : ∃ ranked, Ranks key items ranked := by
  have trans : ∀ a b c : α, decide (key b ≤ key a) = true → decide (key c ≤ key b) = true →
      decide (key c ≤ key a) = true := by
    intro a b c first second
    exact decide_eq_true ((of_decide_eq_true second).trans (of_decide_eq_true first))
  have total : ∀ a b : α, (decide (key b ≤ key a) || decide (key a ≤ key b)) = true := by
    intro a b
    rw [Bool.or_eq_true, decide_eq_true_eq, decide_eq_true_eq]
    exact le_total _ _
  have perm := List.mergeSort_perm items fun a b => decide (key b ≤ key a)
  refine ⟨items.mergeSort fun a b => decide (key b ≤ key a), perm, ?_, fun value => ?_⟩
  · exact (List.pairwise_mergeSort trans total items).imp of_decide_eq_true
  · have level : (items.filter fun item => key item = value).Pairwise fun a b =>
        decide (key b ≤ key a) = true := by
      refine List.pairwise_of_forall_mem_list fun a here b there => ?_
      rw [of_decide_eq_true (List.mem_filter.mp here).2, of_decide_eq_true (List.mem_filter.mp there).2]
      exact decide_eq_true (le_refl value)
    have inside := (List.sublist_mergeSort trans total level List.filter_sublist).filter
      fun item => decide (key item = value)
    rw [List.filter_filter] at inside
    simp only [Bool.and_self] at inside
    exact (inside.eq_of_length (perm.filter _).length_eq.symm).symm

end Unique

section Maps

variable {β : Type*} {items ranked : List α}

theorem Ranks.congr {key key' : α → κ} (same : ∀ item ∈ items, key item = key' item)
    (ranks : Ranks key items ranked) : Ranks key' items ranked where
  perm := ranks.perm
  sorted := ranks.sorted.imp_of_mem fun {a b} here there below => by
    rwa [← same a (ranks.perm.subset here), ← same b (ranks.perm.subset there)]
  stable := fun value => by
    have one := List.filter_congr (p := fun item => decide (key item = value))
      (q := fun item => decide (key' item = value)) (l := items) fun item member => by
        rw [same item member]
    have two := List.filter_congr (p := fun item => decide (key item = value))
      (q := fun item => decide (key' item = value)) (l := ranked) fun item member => by
        rw [same item (ranks.perm.subset member)]
    rw [← one, ← two, ranks.stable]

theorem Ranks.map (key : β → κ) (f : α → β) (ranks : Ranks (fun item => key (f item)) items ranked) :
    Ranks key (items.map f) (ranked.map f) where
  perm := ranks.perm.map f
  sorted := List.pairwise_map.mpr ranks.sorted
  stable := fun value => by
    rw [List.filter_map, List.filter_map]
    exact congrArg (List.map f) (ranks.stable value)

end Maps

section Pair

variable {first : α → κ} {second : α → δ} {items middle ranked part : List α}

/-- By the first key, then by the second. -/
def pair (first : α → κ) (second : α → δ) (item : α) : κ ×ₗ δ := toLex (first item, second item)

theorem pair_le {x y : α} : pair first second y ≤ pair first second x ↔
    first y ≤ first x ∧ (first x = first y → second y ≤ second x) := by
  rw [pair, pair, Prod.Lex.toLex_le_toLex]
  constructor
  · rintro (below | ⟨level, below⟩)
    · exact ⟨below.le, fun level => absurd level below.ne'⟩
    · exact ⟨level.le, fun _ => below⟩
  · rintro ⟨below, level⟩
    rcases below.lt_or_eq with less | same
    · exact .inl less
    · exact .inr ⟨same, level same.symm⟩

theorem pair_filter (items : List α) (value : κ ×ₗ δ) :
    (items.filter fun item => pair first second item = value) =
      (items.filter fun item => first item = (ofLex value).1).filter fun item =>
        second item = (ofLex value).2 := by
  rw [List.filter_filter]
  refine List.filter_congr fun item _ => ?_
  rw [← Bool.decide_and, decide_eq_decide]
  exact ⟨fun same => by rw [← same]; exact ⟨rfl, rfl⟩, fun ⟨two, one⟩ => Prod.ext one two⟩

theorem pairwise_of_classes {R : α → α → Prop}
    (each : ∀ value, (items.filter fun item => first item = value).Pairwise R) :
    items.Pairwise fun a b => first a = first b → R a b := by
  induction items with
  | nil => exact .nil
  | cons x rest ih =>
      refine List.pairwise_cons.mpr ⟨fun y member level => ?_, ih fun value => ?_⟩
      · have own := each (first x)
        rw [List.filter_cons_of_pos (by simp)] at own
        exact (List.pairwise_cons.mp own).1 y (List.mem_filter.mpr ⟨member, by simp [level]⟩)
      · exact (each value).sublist ((List.sublist_cons_self x rest).filter _)

theorem classes_of_pairwise {R : α → α → Prop}
    (all : items.Pairwise fun a b => first a = first b → R a b) (value : κ) :
    (items.filter fun item => first item = value).Pairwise R := by
  refine (all.sublist List.filter_sublist).imp_of_mem fun {a b} here there level => level ?_
  rw [of_decide_eq_true (List.mem_filter.mp here).2, of_decide_eq_true (List.mem_filter.mp there).2]

/-- Ranking by the second key and then by the first is ranking by the pair. -/
theorem Ranks.trans (bySecond : Ranks second items middle) (byFirst : Ranks first middle ranked) :
    Ranks (pair first second) items ranked where
  perm := byFirst.perm.trans bySecond.perm
  sorted := by
    have level : ranked.Pairwise fun a b => first a = first b → second b ≤ second a := by
      refine pairwise_of_classes fun value => ?_
      rw [byFirst.stable]
      exact bySecond.sorted.sublist List.filter_sublist
    exact byFirst.sorted.imp₂ (fun {_ _} below level => pair_le.mpr ⟨below, level⟩) level
  stable := fun value => by
    rw [pair_filter, pair_filter, byFirst.stable, List.filter_comm, bySecond.stable, List.filter_comm]

/-- A ranking by the first key alone is one by the pair, where equals stand in its order. -/
theorem Ranks.pair (byFirst : Ranks first items ranked)
    (level : items.Pairwise fun a b => first a = first b → second b ≤ second a) :
    Ranks (pair first second) items ranked where
  perm := byFirst.perm
  sorted := by
    have level : ranked.Pairwise fun a b => first a = first b → second b ≤ second a := by
      refine pairwise_of_classes fun value => ?_
      rw [byFirst.stable]
      exact classes_of_pairwise level value
    exact byFirst.sorted.imp₂ (fun {_ _} below level => pair_le.mpr ⟨below, level⟩) level
  stable := fun value => by rw [pair_filter, pair_filter, byFirst.stable]

/-- The front of a ranking by both keys is the ranking of the front by the first one, exactly
when the front outranks the rest and its equals stand in the order of the second key. -/
theorem take_eq_iff {n : Nat} (whole : Ranks (Ranked.pair first second) items ranked)
    (front : Ranks first (items.take n) part) :
    ranked.take n = part ↔
      (∀ x ∈ items.take n, ∀ y ∈ items.drop n,
        Ranked.pair first second y ≤ Ranked.pair first second x) ∧
      (items.take n).Pairwise fun a b => first a = first b → second b ≤ second a := by
  constructor
  · intro taken
    have split : ranked = part ++ ranked.drop n := by rw [← taken, List.take_append_drop]
    have rest : (ranked.drop n).Perm (items.drop n) := by
      have perm := whole.perm
      rw [split, ← List.take_append_drop n items] at perm
      exact (List.perm_append_left_iff _).mp ((front.perm.symm.append_right _).trans perm)
    have sorted := whole.sorted
    rw [split] at sorted
    obtain ⟨inside, -, across⟩ := List.pairwise_append.mp sorted
    refine ⟨fun x here y there => ?_, ?_⟩
    · exact across x (front.perm.symm.subset here) y (rest.symm.subset there)
    · refine pairwise_of_classes fun value => ?_
      rw [← front.stable]
      refine classes_of_pairwise (inside.imp fun below level => ?_) value
      exact (pair_le.mp below).2 level
  · rintro ⟨outranks, level⟩
    obtain ⟨behind, rest⟩ := exists_ranks (Ranked.pair first second) (items.drop n)
    have joined := (front.pair level).append rest outranks
    rw [List.take_append_drop] at joined
    have size := front.perm.length_eq
    rw [whole.unique joined]
    rw [List.length_take] at size
    by_cases short : items.length ≤ n
    · have none : behind = [] := by
        have empty := rest.perm
        rw [List.drop_eq_nil_of_le short] at empty
        exact empty.eq_nil
      rw [none, List.append_nil, List.take_of_length_le (by omega)]
    · exact List.take_left' (by omega)

end Pair

end Ranked

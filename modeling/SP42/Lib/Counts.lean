import Mathlib.Data.List.Basic
import Mathlib.Data.List.Count
import Mathlib.Data.List.Induction
import Mathlib.Tactic.Common

/-!
Elections by plurality. Of the candidates with the most votes the loop keeps the one of
the highest rank, the first it saw where ranks are equal.
-/
namespace Plurality

variable {α : Type*} (rank : α → Nat) (top : α → Bool)

/-- One candidate of the loop. -/
def lead (winner : Option α) (candidate : α) : Option α :=
  if top candidate then
    match winner with
    | none => some candidate
    | some current => if rank current < rank candidate then some candidate else winner
  else winner

variable {rank top}

/-- What the loop keeps of the candidates seen. -/
structure Leads (rank : α → Nat) (top : α → Bool) (seen : List α) (winner : α) : Prop where
  among : winner ∈ seen
  best : top winner = true
  highest : ∀ other ∈ seen, top other = true → rank other ≤ rank winner

theorem Leads.lead {seen : List α} {current candidate : α} (leads : Leads rank top seen current) :
    ∃ winner, lead rank top (some current) candidate = some winner ∧
      Leads rank top (seen ++ [candidate]) winner := by
  unfold Plurality.lead
  have before : ∀ other ∈ seen ++ [candidate], other ∈ seen ∨ other = candidate := by
    intro other member
    simpa using member
  cases best : top candidate with
  | false =>
      refine ⟨current, by simp, List.mem_append_left _ leads.among, leads.best, ?_⟩
      intro other member good
      rcases before other member with earlier | rfl
      · exact leads.highest other earlier good
      · rw [best] at good
        cases good
  | true =>
      by_cases higher : rank current < rank candidate
      · refine ⟨candidate, by simp [higher], List.mem_append_right _ List.mem_cons_self, best, ?_⟩
        intro other member good
        rcases before other member with earlier | rfl
        · exact Nat.le_trans (leads.highest other earlier good) (Nat.le_of_lt higher)
        · exact Nat.le_refl _
      · refine ⟨current, by simp [higher], List.mem_append_left _ leads.among, leads.best, ?_⟩
        intro other member good
        rcases before other member with earlier | rfl
        · exact leads.highest other earlier good
        · exact Nat.not_lt.mp higher

theorem foldl_leads {seen candidates : List α} {current : α} (leads : Leads rank top seen current) :
    ∃ winner, candidates.foldl (lead rank top) (some current) = some winner ∧
      Leads rank top (seen ++ candidates) winner := by
  induction candidates generalizing seen current with
  | nil => exact ⟨current, rfl, by simpa using leads⟩
  | cons candidate rest ih =>
      obtain ⟨next, step, further⟩ :
          ∃ next, lead rank top (some current) candidate = some next ∧
            Leads rank top (seen ++ [candidate]) next := leads.lead
      obtain ⟨winner, run, kept⟩ := ih further
      refine ⟨winner, by rw [List.foldl_cons, step, run], ?_⟩
      simpa using kept

/-- The loop finds a candidate of the highest rank among those with the most votes. -/
theorem exists_winner {candidates : List α} {candidate : α} (member : candidate ∈ candidates)
    (best : top candidate = true) :
    ∃ winner, candidates.foldl (lead rank top) none = some winner ∧
      Leads rank top candidates winner := by
  induction candidates with
  | nil => cases member
  | cons first rest ih =>
      cases good : top first with
      | true =>
          have start : Leads rank top [first] first :=
            ⟨List.mem_cons_self, good, by simp⟩
          have step : lead rank top none first = some first := by simp [lead, good]
          obtain ⟨winner, run, kept⟩ :
              ∃ winner, rest.foldl (lead rank top) (some first) = some winner ∧
                Leads rank top ([first] ++ rest) winner := foldl_leads start
          exact ⟨winner, by rw [List.foldl_cons, step, run], kept⟩
      | false =>
          have step : lead rank top none first = none := by simp [lead, good]
          have later : candidate ∈ rest := by
            rcases List.mem_cons.mp member with rfl | later
            · rw [good] at best
              cases best
            · exact later
          obtain ⟨winner, run, kept⟩ := ih later
          refine ⟨winner, by rw [List.foldl_cons, step, run],
            List.mem_cons_of_mem _ kept.among, kept.best, ?_⟩
          intro other inside top
          rcases List.mem_cons.mp inside with rfl | inside
          · rw [good] at top
            cases top
          · exact kept.highest other inside top

end Plurality

/-!
Ballots. Every voter of an ordered list may cast a vote, and the votes are added up
from a start with an operation that need not be associative. A voter whose votes are
neutral has no influence on the result.
-/
namespace Tally

variable {σ ω τ : Type*}

/-- The votes that are cast, in order. -/
def cast (order : List σ) (vote : σ → Option ω) : List ω := order.filterMap vote

/-- The result of adding the cast votes to `start`. -/
def count (add : τ → ω → τ) (start : τ) (order : List σ) (vote : σ → Option ω) : τ :=
  (cast order vote).foldl add start

variable {add : τ → ω → τ} {start : τ} {order : List σ} {vote vote' : σ → Option ω}

theorem cast_append (before after : List σ) :
    cast (before ++ after) vote = cast before vote ++ cast after vote :=
  List.filterMap_append

theorem count_append (before after : List σ) :
    count add start (before ++ after) vote = count add (count add start before vote) after vote := by
  rw [count, cast_append, List.foldl_append]
  rfl

/-- One voter more: a vote is added, an abstention is not. -/
theorem count_cons (voter : σ) (order : List σ) :
    count add start (voter :: order) vote =
      count add ((vote voter).elim start (add start)) order vote := by
  unfold count cast
  cases h : vote voter with
  | none => rw [List.filterMap_cons_none h]; rfl
  | some w => rw [List.filterMap_cons_some h]; rfl

theorem count_map {ω' : Type*} (weigh : ω' → ω) (ballot : σ → Option ω') :
    count (fun total w => add total (weigh w)) start order ballot =
      count add start order fun s => (ballot s).map weigh := by
  induction order generalizing start with
  | nil => rfl
  | cons voter order ih =>
      rw [count_cons, count_cons, ih]
      cases ballot voter <;> rfl

/-- Two ballots that differ only in neutral votes have one result. -/
theorem count_congr_neutral {settled : σ → Prop} (same : ∀ s, settled s → vote s = vote' s)
    (neutral : ∀ s w t, ¬ settled s → (vote s = some w ∨ vote' s = some w) → add t w = t) :
    count add start order vote = count add start order vote' := by
  induction order generalizing start with
  | nil => rfl
  | cons voter order ih =>
      rw [count_cons, count_cons]
      by_cases fixed : settled voter
      · rw [same voter fixed]
        exact ih
      · have silent : ∀ ballot : Option ω, (ballot = vote voter ∨ ballot = vote' voter) →
            ballot.elim start (add start) = start := by
          intro ballot chosen
          cases ballot with
          | none => rfl
          | some w => exact neutral voter w start fixed (chosen.imp Eq.symm Eq.symm)
        rw [silent _ (.inl rfl), silent _ (.inr rfl)]
        exact ih

end Tally

/-!
Occurrences counted by key, each count held at a limit.
-/
namespace Counts

variable {κ : Type*} [DecidableEq κ] (limit : Nat)

/-- Count a key once more; a new key has been counted zero times. -/
def bump (key : κ) : List (κ × Nat) → List (κ × Nat)
  | [] => [(key, min limit 1)]
  | (other, count) :: rest =>
      if other = key then (other, min limit (count + 1)) :: rest else (other, count) :: bump key rest

def tally (keys : List κ) : List (κ × Nat) :=
  keys.foldl (fun counts key => bump limit key counts) []

variable [BEq κ] [LawfulBEq κ]

theorem lookup_bump (key k : κ) (counts : List (κ × Nat)) :
    (bump limit key counts).lookup k =
      if k = key then some (min limit ((counts.lookup key).getD 0 + 1)) else counts.lookup k := by
  induction counts with
  | nil =>
      rw [bump, List.lookup_cons]
      by_cases same : k = key
      · simp [same]
      · rw [if_neg same, beq_false_of_ne same]
  | cons entry rest ih =>
      obtain ⟨other, count⟩ := entry
      rw [bump]
      by_cases found : other = key
      · subst found
        rw [if_pos rfl, List.lookup_cons_self, List.lookup_cons]
        by_cases same : k = other
        · simp [same]
        · rw [if_neg same, beq_false_of_ne same, List.lookup_cons, beq_false_of_ne same]
      · rw [if_neg found, List.lookup_cons, ih, List.lookup_cons, List.lookup_cons,
          beq_false_of_ne (Ne.symm found)]
        by_cases same : k = other
        · simp [same, found]
        · rw [beq_false_of_ne same]

/-- The tally of a key is how often it occurs, up to the limit. -/
theorem lookup_tally (keys : List κ) (k : κ) :
    (tally limit keys).lookup k =
      if k ∈ keys then some (min limit (keys.count k)) else none := by
  induction keys using List.reverseRecOn with
  | nil => rfl
  | append_singleton keys key ih =>
      have step : (tally limit (keys ++ [key])).lookup k =
          (bump limit key (tally limit keys)).lookup k := by
        rw [tally, List.foldl_append]
        rfl
      simp only [step, lookup_bump, List.count_append, List.mem_append, List.mem_singleton]
      by_cases same : k = key
      · subst same
        rw [if_pos rfl, if_pos (.inr rfl), ih, List.count_singleton_self]
        split
        · rw [Option.getD_some]
          congr 1
          omega
        · next absent => rw [Option.getD_none, List.count_eq_zero_of_not_mem absent]
      · have none : [key].count k = 0 := List.count_eq_zero_of_not_mem (by simpa using same)
        rw [if_neg same, ih, none, Nat.add_zero]
        simp only [same, or_false]

variable {α : Type*} {key : α → Option κ} {items : List α}

/-- A key occurs twice when another item has it too. -/
theorem two_le_count {i : Nat} {item : α} {k : κ} (here : items[i]? = some item)
    (keyed : key item = some k) : 2 ≤ (items.filterMap key).count k ↔
      ∃ j other, j ≠ i ∧ items[j]? = some other ∧ key other = some k := by
  have inside := (List.getElem?_eq_some_iff.mp here).1
  have split : items = items.take i ++ item :: items.drop (i + 1) := by
    rw [← (List.getElem?_eq_some_iff.mp here).2, List.getElem_cons_drop, List.take_append_drop]
  have sum : (items.filterMap key).count k =
      ((items.take i).filterMap key).count k + (((items.drop (i + 1)).filterMap key).count k + 1) := by
    conv_lhs => rw [split]
    rw [List.filterMap_append, List.filterMap_cons_some keyed, List.count_append,
      List.count_cons_self]
  have occurs (some : List α) : 0 < (some.filterMap key).count k ↔
      ∃ other ∈ some, key other = .some k := by
    rw [List.count_pos_iff, List.mem_filterMap]
  constructor
  · intro twice
    have one : 0 < ((items.take i).filterMap key).count k ∨
        0 < ((items.drop (i + 1)).filterMap key).count k := by omega
    rw [occurs, occurs] at one
    rcases one with ⟨other, member, keyed⟩ | ⟨other, member, keyed⟩
    · obtain ⟨j, low, found⟩ := List.mem_take_iff_getElem.mp member
      exact ⟨j, other, by omega, List.getElem?_eq_some_iff.mpr ⟨by omega, found⟩, keyed⟩
    · obtain ⟨j, high, found⟩ := List.mem_drop_iff_getElem.mp member
      exact ⟨i + 1 + j, other, by omega, List.getElem?_eq_some_iff.mpr ⟨by omega, found⟩, keyed⟩
  · rintro ⟨j, other, apart, found, keyed⟩
    obtain ⟨below, value⟩ := List.getElem?_eq_some_iff.mp found
    have one : 0 < ((items.take i).filterMap key).count k ∨
        0 < ((items.drop (i + 1)).filterMap key).count k := by
      rw [occurs, occurs]
      rcases Nat.lt_or_gt_of_ne apart with before | after
      · exact .inl ⟨other, List.mem_take_iff_getElem.mpr ⟨j, by omega, value⟩, keyed⟩
      · refine .inr ⟨other, List.mem_drop_iff_getElem.mpr ⟨j - (i + 1), by omega, ?_⟩, keyed⟩
        simpa [show i + 1 + (j - (i + 1)) = j by omega] using value
    omega

end Counts

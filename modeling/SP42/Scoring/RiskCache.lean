import Mathlib.Data.List.Perm.Lattice
import Std.Data.ExtTreeMap.Lemmas
import SP42.Lib.Recency
import SP42.Scoring.Types

/-!
The cache of user risk profiles: a queue of the user names beside a map of their profiles, and what
any sequence of calls leaves in them.
-/
namespace SP42.Scoring

structure UserRiskCache where
  capacity : Nat
  order : List String
  entries : Std.ExtTreeMap String UserRiskProfile

namespace UserRiskCache

section Calls

def new (capacity : Nat) : UserRiskCache where
  capacity
  order := []
  entries := Std.ExtTreeMap.empty

def touch (cache : UserRiskCache) (username : String) : UserRiskCache :=
  { cache with order := cache.order.filter (· ≠ username) ++ [username] }

def get (cache : UserRiskCache) (username : String) : UserRiskCache × Option UserRiskProfile :=
  match cache.entries[username]? with
  | none => (cache, none)
  | some profile => (cache.touch username, some profile)

/-- The body of the eviction loop. -/
def popFront (cache : UserRiskCache) : UserRiskCache :=
  match cache.order with
  | [] => cache
  | username :: rest => { cache with order := rest, entries := cache.entries.erase username }

/-- The eviction loop; `none` where it has not ended after so many turns. -/
def evict : Nat → UserRiskCache → Option UserRiskCache
  | 0, cache => if cache.capacity < cache.entries.size then none else some cache
  | turns + 1, cache =>
      if cache.capacity < cache.entries.size then evict turns cache.popFront else some cache

def insert (turns : Nat) (cache : UserRiskCache) (username : String) (profile : UserRiskProfile) :
    Option UserRiskCache :=
  if cache.capacity = 0 then some cache
  else
    let touched := cache.touch username
    evict turns { touched with entries := touched.entries.insert username profile }

inductive Call where
  | insert (username : String) (profile : UserRiskProfile)
  | get (username : String)

/-- A call; an insertion answers with nothing. -/
def step (turns : Nat) (cache : UserRiskCache) :
    Call → Option (UserRiskCache × Option UserRiskProfile)
  | .insert username profile => (cache.insert turns username profile).map fun next => (next, none)
  | .get username => some (cache.get username)

/-- The calls in their order, with the log of what each was answered. -/
def run (turns : Nat) (cache : UserRiskCache) :
    List Call → Option (UserRiskCache × List (Call × Option UserRiskProfile))
  | [] => some (cache, [])
  | call :: calls =>
      (step turns cache call).bind fun (next, answer) =>
        (run turns next calls).map fun (final, log) => (final, (call, answer) :: log)

end Calls

section Purpose

/-- The user name that a call uses: one inserted, or one read with success. -/
def used : Call × Option UserRiskProfile → Option String
  | (.insert username _, _) => some username
  | (.get username, answer) => answer.map fun _ => username

/-- The distinct user names used last, by their last use. -/
def recent (capacity : Nat) (log : List (Call × Option UserRiskProfile)) : List String :=
  ((log.filterMap used).dedup).rtake capacity

def keepInserted (username : String) (held : Option UserRiskProfile) :
    Call → Option UserRiskProfile
  | .insert other profile => if other = username then some profile else held
  | .get _ => held

/-- The profile of the last insertion of a user. -/
def lastInserted (username : String) (calls : List Call) : Option UserRiskProfile :=
  calls.foldl (keepInserted username) none

/-- What a cache holds after the calls of the log. -/
structure Holds (capacity : Nat) (log : List (Call × Option UserRiskProfile))
    (cache : UserRiskCache) : Prop where
  limit : cache.capacity = capacity
  order : cache.order = recent capacity log
  keys : ∀ username, username ∈ cache.entries ↔ username ∈ cache.order
  profiles : ∀ username ∈ cache.order,
    cache.entries[username]? = lastInserted username (log.map Prod.fst)

/-- Every reading answers what was last inserted, for the user names used last before it. -/
def Answers (capacity : Nat) (log : List (Call × Option UserRiskProfile)) : Prop :=
  ∀ before username answer after, log = before ++ (.get username, answer) :: after →
    answer = if username ∈ recent capacity before then lastInserted username (before.map Prod.fst)
      else none

end Purpose

section Coupling

/-- The names in the queue are the keys of the map, each once. -/
structure Coupled (cache : UserRiskCache) : Prop where
  once : cache.order.Nodup
  keys : ∀ username, username ∈ cache.entries ↔ username ∈ cache.order

theorem Coupled.size {cache : UserRiskCache} (coupled : Coupled cache) :
    cache.entries.size = cache.order.length := by
  have same : cache.entries.keys.Perm cache.order := by
    refine (List.perm_ext_iff_of_nodup Std.ExtTreeMap.nodup_keys coupled.once).mpr
      fun username => ?_
    rw [Std.ExtTreeMap.mem_keys]
    exact coupled.keys username
  rw [← Std.ExtTreeMap.length_keys]
  exact same.length_eq

theorem evict_fits {cache : UserRiskCache} (fits : cache.entries.size ≤ cache.capacity)
    (turns : Nat) : evict turns cache = some cache := by
  cases turns with
  | zero => exact if_neg (Nat.not_lt.mpr fits)
  | succ turns => exact if_neg (Nat.not_lt.mpr fits)

theorem Coupled.popFront {cache : UserRiskCache} (coupled : Coupled cache) :
    Coupled cache.popFront := by
  unfold UserRiskCache.popFront
  cases queued : cache.order with
  | nil => exact coupled
  | cons username rest =>
      obtain ⟨fresh, onceRest⟩ := List.nodup_cons.mp (queued ▸ coupled.once)
      refine ⟨onceRest, fun other => ?_⟩
      rw [Std.ExtTreeMap.mem_erase, coupled.keys, queued, List.mem_cons]
      constructor
      · rintro ⟨apart, rfl | member⟩
        · simp at apart
        · exact member
      · intro member
        refine ⟨?_, .inr member⟩
        rw [ne_eq, Std.LawfulEqOrd.compare_eq_iff_eq]
        rintro rfl
        exact fresh member

theorem popFront_order (cache : UserRiskCache) : cache.popFront.order = cache.order.tail := by
  unfold popFront
  cases queued : cache.order with
  | nil => exact queued
  | cons username rest => rfl

theorem popFront_capacity (cache : UserRiskCache) : cache.popFront.capacity = cache.capacity := by
  unfold popFront
  cases cache.order with
  | nil => rfl
  | cons username rest => rfl

/-- What is still in the queue keeps its profile. -/
theorem popFront_profile {cache : UserRiskCache} (once : cache.order.Nodup) {username : String}
    (kept : username ∈ cache.popFront.order) :
    cache.popFront.entries[username]? = cache.entries[username]? := by
  rw [popFront_order] at kept
  unfold popFront
  cases queued : cache.order with
  | nil => rfl
  | cons first rest =>
      rw [queued] at kept once
      rw [Std.ExtTreeMap.getElem?_erase, if_neg]
      rw [Std.LawfulEqOrd.compare_eq_iff_eq]
      rintro rfl
      exact (List.nodup_cons.mp once).1 kept

/-- A cache with one entry too many loses the one at the front, and no more. -/
theorem Coupled.evict {cache : UserRiskCache} (coupled : Coupled cache)
    (full : cache.order.length = cache.capacity + 1) (turns : Nat) :
    evict (turns + 1) cache = some cache.popFront := by
  rw [UserRiskCache.evict, if_pos (by rw [coupled.size]; omega)]
  refine evict_fits ?_ turns
  rw [coupled.popFront.size, popFront_order, popFront_capacity, List.length_tail, full]
  omega

/-- What an insertion leaves. -/
structure Inserted (cache : UserRiskCache) (username : String) (profile : UserRiskProfile)
    (next : UserRiskCache) : Prop where
  capacity : next.capacity = cache.capacity
  order : next.order = (Recency.touch username cache.order).rtake cache.capacity
  keys : ∀ other, other ∈ next.entries ↔ other ∈ next.order
  profiles : ∀ other ∈ next.order,
    next.entries[other]? = if username = other then some profile else cache.entries[other]?

/-- One turn of the loop is enough for any insertion. -/
theorem Coupled.insert {cache : UserRiskCache} (coupled : Coupled cache)
    (fits : cache.order.length ≤ cache.capacity) (username : String) (profile : UserRiskProfile) :
    ∃ next, Inserted cache username profile next ∧
      ∀ turns, cache.insert (turns + 1) username profile = some next := by
  by_cases closed : cache.capacity = 0
  · refine ⟨cache, ?_, fun turns => if_pos closed⟩
    have empty : cache.order = [] := List.length_eq_zero_iff.mp (by omega)
    refine ⟨rfl, ?_, coupled.keys, ?_⟩
    · rw [closed, empty]
      rfl
    · rw [empty]
      exact fun other member => absurd member List.not_mem_nil
  · let held : UserRiskCache :=
      { cache.touch username with entries := cache.entries.insert username profile }
    have order : held.order = Recency.touch username cache.order := rfl
    have whole : Coupled held := by
      refine ⟨Recency.touch_nodup coupled.once, fun other => ?_⟩
      rw [order, Recency.mem_touch, ← coupled.keys, Std.ExtTreeMap.mem_insert,
        Std.LawfulEqOrd.compare_eq_iff_eq, eq_comm]
    have profiles : ∀ other,
        held.entries[other]? = if username = other then some profile else cache.entries[other]? := by
      intro other
      simp only [held, Std.ExtTreeMap.getElem?_insert, Std.LawfulEqOrd.compare_eq_iff_eq]
    have opened : ∀ turns, cache.insert (turns + 1) username profile =
        UserRiskCache.evict (turns + 1) held := fun turns => if_neg closed
    by_cases full : cache.capacity < held.order.length
    · obtain ⟨last, size⟩ := Recency.rtake_touch_tail fits full
      refine ⟨held.popFront, ⟨popFront_capacity held, ?_, whole.popFront.keys, ?_⟩,
        fun turns => ?_⟩
      · rw [popFront_order, order, last]
      · intro other kept
        rw [popFront_profile whole.once kept, profiles]
      · rw [opened, whole.evict size]
    · refine ⟨held, ⟨rfl, ?_, whole.keys, fun other _ => profiles other⟩, fun turns => ?_⟩
      · exact (Recency.rtake_of_length_le (Nat.not_lt.mp full)).symm
      · rw [opened]
        exact evict_fits (by rw [whole.size]; exact Nat.not_lt.mp full) _

end Coupling

section Runs

variable {capacity : Nat} {log : List (Call × Option UserRiskProfile)} {cache : UserRiskCache}

theorem recent_concat (event : Call × Option UserRiskProfile) {username : String}
    (uses : used event = some username) :
    recent capacity (log ++ [event]) =
      (Recency.touch username (recent capacity log)).rtake capacity := by
  unfold recent
  rw [List.filterMap_append, List.filterMap_cons_some uses, List.filterMap_nil,
    Recency.dedup_concat, Recency.rtake_touch (List.nodup_dedup _)]

theorem recent_unused (event : Call × Option UserRiskProfile) (idle : used event = none) :
    recent capacity (log ++ [event]) = recent capacity log := by
  unfold recent
  rw [List.filterMap_append, List.filterMap_cons_none idle, List.filterMap_nil, List.append_nil]

theorem lastInserted_concat (username : String) (call : Call) (calls : List Call) :
    lastInserted username (calls ++ [call]) =
      keepInserted username (lastInserted username calls) call := by
  rw [lastInserted, List.foldl_append]
  rfl

theorem recent_nodup : (recent capacity log).Nodup :=
  (List.nodup_dedup _).sublist (List.drop_sublist _ _)

theorem recent_length : (recent capacity log).length ≤ capacity := by
  rw [recent, Recency.length_rtake]
  exact Nat.min_le_left _ _

theorem Holds.coupled (holds : Holds capacity log cache) : Coupled cache :=
  ⟨holds.order ▸ recent_nodup, holds.keys⟩

theorem Holds.fits (holds : Holds capacity log cache) : cache.order.length ≤ cache.capacity := by
  rw [holds.order, holds.limit]
  exact recent_length

theorem Holds.insert (holds : Holds capacity log cache) (username : String)
    (profile : UserRiskProfile) :
    ∃ next, Holds capacity (log ++ [(.insert username profile, none)]) next ∧
      ∀ turns, cache.insert (turns + 1) username profile = some next := by
  obtain ⟨next, inserted, ends⟩ := holds.coupled.insert holds.fits username profile
  refine ⟨next, ⟨inserted.capacity.trans holds.limit, ?_, inserted.keys, ?_⟩, ends⟩
  · rw [recent_concat _ rfl, inserted.order, holds.order, holds.limit]
  · intro other member
    rw [List.map_append, List.map_cons, List.map_nil, lastInserted_concat, keepInserted,
      inserted.profiles other member]
    by_cases same : username = other
    · rw [if_pos same, if_pos same]
    · rw [if_neg same, if_neg same]
      refine holds.profiles other ?_
      rw [inserted.order] at member
      rcases Recency.mem_touch.mp ((List.drop_sublist _ _).subset member) with rfl | earlier
      · exact absurd rfl same
      · exact earlier

/-- What a reading answers. -/
theorem Holds.answer (holds : Holds capacity log cache) (username : String) :
    (cache.get username).2 =
      if username ∈ recent capacity log then lastInserted username (log.map Prod.fst)
      else none := by
  have reads : (cache.get username).2 = cache.entries[username]? := by
    unfold UserRiskCache.get
    cases cache.entries[username]? with
    | none => rfl
    | some profile => rfl
  rw [reads, ← holds.order]
  by_cases held : username ∈ cache.order
  · rw [if_pos held, holds.profiles username held]
  · rw [if_neg held, Std.ExtTreeMap.getElem?_eq_none]
    exact fun inside => held ((holds.keys username).mp inside)

theorem Holds.get (holds : Holds capacity log cache) (username : String) :
    Holds capacity (log ++ [(.get username, (cache.get username).2)]) (cache.get username).1 := by
  have calls : ∀ answer, (log ++ [(Call.get username, answer)]).map Prod.fst =
      log.map Prod.fst ++ [.get username] := fun answer => List.map_append
  unfold UserRiskCache.get
  cases read : cache.entries[username]? with
  | none =>
      refine ⟨holds.limit, ?_, holds.keys, ?_⟩
      · rw [recent_unused _ rfl]
        exact holds.order
      · intro other member
        rw [calls, lastInserted_concat]
        exact holds.profiles other member
  | some profile =>
      have held : username ∈ cache.order :=
        (holds.keys username).mp (Std.ExtTreeMap.mem_iff_isSome_getElem?.mpr (by rw [read]; rfl))
      have fits : (Recency.touch username cache.order).length ≤ capacity := by
        rw [Recency.length_touch holds.coupled.once held, ← holds.limit]
        exact holds.fits
      refine ⟨holds.limit, ?_, ?_, ?_⟩
      · rw [recent_concat _ rfl, ← holds.order, Recency.rtake_of_length_le fits]
        rfl
      · intro other
        refine (holds.keys other).trans ⟨fun member => Recency.mem_touch.mpr (.inr member), ?_⟩
        intro member
        rcases Recency.mem_touch.mp member with rfl | earlier
        · exact held
        · exact earlier
      · intro other member
        rw [calls, lastInserted_concat]
        refine holds.profiles other ?_
        rcases Recency.mem_touch.mp member with rfl | earlier
        · exact held
        · exact earlier

/-- The last exchange of a log is its end. -/
theorem Answers.concat (answers : Answers capacity log) {event : Call × Option UserRiskProfile}
    (last : ∀ username answer, event = (.get username, answer) → answer =
      if username ∈ recent capacity log then lastInserted username (log.map Prod.fst) else none) :
    Answers capacity (log ++ [event]) := by
  intro before username answer after split
  rcases List.eq_nil_or_concat after with rfl | ⟨later, final, rfl⟩
  · obtain ⟨rfl, same⟩ := List.append_inj' split rfl
    exact last username answer (List.cons.inj same).1
  · have ends : log ++ [event] = (before ++ (.get username, answer) :: later) ++ [final] := by
      rw [split, List.concat_eq_append, List.append_assoc, List.cons_append]
    obtain ⟨rfl, -⟩ := List.append_inj' ends rfl
    exact answers before username answer later rfl

theorem Holds.step (holds : Holds capacity log cache) (answers : Answers capacity log)
    (call : Call) : ∃ next answer, Holds capacity (log ++ [(call, answer)]) next ∧
      Answers capacity (log ++ [(call, answer)]) ∧
      ∀ turns, step (turns + 1) cache call = some (next, answer) := by
  cases call with
  | insert username profile =>
      obtain ⟨next, after, ends⟩ := holds.insert username profile
      refine ⟨next, none, after, answers.concat ?_, fun turns => ?_⟩
      · rintro _ _ ⟨⟩
      · rw [UserRiskCache.step, ends]
        rfl
  | get username =>
      refine ⟨_, _, holds.get username, answers.concat ?_, fun turns => rfl⟩
      rintro _ _ ⟨⟩
      exact holds.answer username

/-- The calls of a run are answered and logged one by one. -/
theorem Holds.run (holds : Holds capacity log cache) (answers : Answers capacity log)
    (calls : List Call) : ∃ final more, more.map Prod.fst = calls ∧
      Holds capacity (log ++ more) final ∧ Answers capacity (log ++ more) ∧
      ∀ turns, run (turns + 1) cache calls = some (final, more) := by
  induction calls generalizing log cache with
  | nil => exact ⟨cache, [], rfl, by simpa using holds, by simpa using answers, fun turns => rfl⟩
  | cons call calls ih =>
      obtain ⟨next, answer, held, answered, stepped⟩ := holds.step answers call
      obtain ⟨final, more, inputs, after, last, ends⟩ := ih held answered
      rw [List.append_assoc] at after last
      refine ⟨final, (call, answer) :: more, congrArg (call :: ·) inputs, after, last,
        fun turns => ?_⟩
      rw [UserRiskCache.run, stepped, Option.bind_some]
      exact congrArg (Option.map _) (ends turns)

end Runs

/-- Any sequence of calls ends, and leaves the users used last, each with the profile inserted for
it last. -/
theorem least_recently_used (capacity : Nat) (calls : List Call) :
    ∃ cache log, (∀ turns, run (turns + 1) (new capacity) calls = some (cache, log)) ∧
      log.map Prod.fst = calls ∧ Holds capacity log cache ∧ cache.order.Nodup ∧
      cache.order.length ≤ capacity ∧ Answers capacity log := by
  have start : Holds capacity [] (new capacity) := by
    refine ⟨rfl, by simp [recent, new], fun username => ?_,
      fun username member => absurd member List.not_mem_nil⟩
    exact iff_of_false Std.ExtTreeMap.not_mem_empty List.not_mem_nil
  have silent : Answers capacity [] := fun before _ _ after split => by simp at split
  obtain ⟨cache, log, inputs, holds, answers, ends⟩ := start.run silent calls
  rw [List.nil_append] at holds answers
  have fits : cache.order.length ≤ capacity := holds.limit ▸ holds.fits
  exact ⟨cache, log, ends, inputs, holds, holds.coupled.once, fits, answers⟩

end UserRiskCache

end SP42.Scoring

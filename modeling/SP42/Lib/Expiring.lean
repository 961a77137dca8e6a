import Mathlib.Logic.Function.Basic
import Mathlib.Tactic.Common

/-!
A cache that serves an entry for a while, filled by several owners, in two runs. As long as an
owner is served nothing that another filled, the two caches serve it the same.
-/
namespace Expiring

/-- An entry, with when it was filled and by whom. -/
structure Entry (Time Owner Value : Type*) where
  time : Time
  owner : Owner
  value : Value

variable {Key Time Owner Value : Type*}

abbrev Cache (Key Time Owner Value : Type*) := Key → Option (Entry Time Owner Value)

/-- What is served at a time: the entry of the key, while it is fresh. -/
def serve (fresh : Time → Time → Bool) (cache : Cache Key Time Owner Value) (key : Key) (now : Time) :
    Option (Entry Time Owner Value) :=
  (cache key).filter fun entry => fresh now entry.time

def fill [DecidableEq Key] (cache : Cache Key Time Owner Value) (key : Key)
    (entry : Entry Time Owner Value) : Cache Key Time Owner Value :=
  Function.update cache key (some entry)

/-- What is stale when a stale entry is replaced stays stale while its successor does. -/
def Ages (fresh : Time → Time → Bool) : Prop :=
  ∀ now later earlier, fresh now later = false → fresh later earlier = false →
    fresh now earlier = false

/-- The owner's last entry is the current one, or another owner replaced it when it was stale. -/
inductive Follows (fresh : Time → Time → Bool) (owner : Owner) :
    Option (Entry Time Owner Value) → Option (Entry Time Owner Value) → Prop
  | empty : Follows fresh owner none none
  | own (entry : Entry Time Owner Value) (mine : entry.owner = owner) :
      Follows fresh owner (some entry) (some entry)
  | first (entry : Entry Time Owner Value) (other : entry.owner ≠ owner) :
      Follows fresh owner none (some entry)
  | replaced (last entry : Entry Time Owner Value) (mine : last.owner = owner)
      (other : entry.owner ≠ owner) (stale : fresh entry.time last.time = false) :
      Follows fresh owner (some last) (some entry)

/-- The two caches agree on the last entries of the owner. -/
def Agree (fresh : Time → Time → Bool) (owner : Owner) (one two : Cache Key Time Owner Value) : Prop :=
  ∀ key, ∃ last, Follows fresh owner last (one key) ∧ Follows fresh owner last (two key)

variable {fresh : Time → Time → Bool} {owner : Owner} {one two cache : Cache Key Time Owner Value}
  {key : Key} {now : Time}

theorem serve_eq_none : serve fresh cache key now = none ↔
    ∀ entry, cache key = some entry → fresh now entry.time = false := by
  rw [serve, Option.filter_eq_none_iff]
  constructor
  · exact fun stale entry here => eq_false_of_ne_true (stale entry here)
  · exact fun stale entry here => by rw [stale entry here]; exact Bool.false_ne_true

theorem serve_eq_some {entry : Entry Time Owner Value} : serve fresh cache key now = some entry ↔
    cache key = some entry ∧ fresh now entry.time = true :=
  Option.filter_eq_some_iff

/-- What the owner is served, where it is nothing of the others. -/
theorem Follows.serve (ages : Ages fresh) {last : Option (Entry Time Owner Value)}
    (follows : Follows fresh owner last (cache key))
    (own : ∀ entry, serve fresh cache key now = some entry → entry.owner = owner) :
    serve fresh cache key now = last.filter fun entry => fresh now entry.time := by
  generalize here : cache key = current at follows
  cases follows with
  | empty => rw [Expiring.serve, here]
  | own entry mine => rw [Expiring.serve, here]
  | first entry other =>
      rw [Option.filter_none, serve_eq_none]
      intro found same
      rw [here] at same
      cases same
      by_contra served
      exact other (own entry (serve_eq_some.mpr ⟨here, eq_true_of_ne_false served⟩))
  | replaced last entry mine other stale =>
      have unserved : fresh now entry.time = false := by
        by_contra served
        exact other (own entry (serve_eq_some.mpr ⟨here, eq_true_of_ne_false served⟩))
      have expired := ages _ _ _ unserved stale
      rw [Option.filter_some, if_neg (by rw [expired]; exact Bool.false_ne_true), serve_eq_none]
      intro found same
      rw [here] at same
      cases same
      exact unserved

/-- Two caches that agree serve the owner the same, where each serves nothing of the others. -/
theorem Agree.serve (ages : Ages fresh) (agree : Agree fresh owner one two)
    (here : ∀ entry, serve fresh one key now = some entry → entry.owner = owner)
    (there : ∀ entry, serve fresh two key now = some entry → entry.owner = owner) :
    serve fresh one key now = serve fresh two key now := by
  obtain ⟨last, first, second⟩ := agree key
  rw [first.serve ages here, second.serve ages there]

variable [DecidableEq Key]

/-- A request of the owner fills both caches alike. -/
theorem Agree.fill (agree : Agree fresh owner one two) {entry : Entry Time Owner Value}
    (mine : entry.owner = owner) (key : Key) :
    Agree fresh owner (fill one key entry) (fill two key entry) := by
  intro other
  by_cases same : other = key
  · subst same
    refine ⟨some entry, ?_, ?_⟩
    · rw [Expiring.fill, Function.update_self]
      exact .own entry mine
    · rw [Expiring.fill, Function.update_self]
      exact .own entry mine
  · rw [Expiring.fill, Expiring.fill, Function.update_of_ne same, Function.update_of_ne same]
    exact agree other

/-- Another owner fills a cache where it is served nothing. -/
theorem Follows.fill (ages : Ages fresh) {last : Option (Entry Time Owner Value)}
    (follows : Follows fresh owner last (cache key)) {entry : Entry Time Owner Value}
    (other : entry.owner ≠ owner) (missed : Expiring.serve fresh cache key entry.time = none) :
    Follows fresh owner last (some entry) := by
  generalize here : cache key = current at follows
  have stale := serve_eq_none.mp missed
  cases follows with
  | empty => exact .first entry other
  | own found mine => exact .replaced found entry mine other (stale found here)
  | first found different => exact .first entry other
  | replaced last found mine different before =>
      exact .replaced last entry mine other (ages _ _ _ (stale found here) before)

/-- What other owners do to a cache: it stays, or is filled where they are served nothing. -/
inductive Grows (fresh : Time → Time → Bool) (owner : Owner) (cache : Cache Key Time Owner Value) :
    Cache Key Time Owner Value → Prop
  | same : Grows fresh owner cache cache
  | fill (key : Key) (entry : Entry Time Owner Value) (other : entry.owner ≠ owner)
      (missed : serve fresh cache key entry.time = none) :
      Grows fresh owner cache (fill cache key entry)

theorem Grows.follows (ages : Ages fresh) {next : Cache Key Time Owner Value}
    (grows : Grows fresh owner cache next) {last : Option (Entry Time Owner Value)}
    (follows : Follows fresh owner last (cache key)) : Follows fresh owner last (next key) := by
  cases grows with
  | same => exact follows
  | fill place entry other missed =>
      by_cases here : key = place
      · subst here
        rw [Expiring.fill, Function.update_self]
        exact follows.fill ages other missed
      · rw [Expiring.fill, Function.update_of_ne here]
        exact follows

theorem Agree.grow (ages : Ages fresh) (agree : Agree fresh owner one two)
    {next next' : Cache Key Time Owner Value} (here : Grows fresh owner one next)
    (there : Grows fresh owner two next') : Agree fresh owner next next' := by
  intro key
  obtain ⟨last, first, second⟩ := agree key
  exact ⟨last, here.follows ages first, there.follows ages second⟩

end Expiring

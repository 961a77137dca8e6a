import Mathlib.Data.List.Basic
import Mathlib.Logic.Function.Basic
import Mathlib.Tactic.Common
import SP42.Lib.Run

/-!
Programs that ask a partner and go on with the answer. The partner may answer anything and
may look at all that was said; what a program guarantees whatever the answers are is read
off its text, one question after the other. Where many programs ask one store in turns, each
relies on what the others leave as it is.
-/

/-- A program that ends with a result or asks and continues with the answer. -/
inductive Dialogue (Q A R : Type) where
  | done (result : R)
  | ask (question : Q) (next : A → Dialogue Q A R)

namespace Dialogue

variable {Q A R S : Type}

def bind : Dialogue Q A R → (R → Dialogue Q A S) → Dialogue Q A S
  | done result, f => f result
  | ask question next, f => ask question fun answer => bind (next answer) f

instance : Monad (Dialogue Q A) where
  pure := done
  bind := bind

/-- Asks one question and returns its answer. -/
def put (question : Q) : Dialogue Q A A := ask question done

/-- What was said in the end, and the result, against a partner who knows what was said. -/
def run (partner : List (Q × A) → Q → A) : List (Q × A) → Dialogue Q A R → List (Q × A) × R
  | said, done result => (said, result)
  | said, ask question next =>
      run partner (said ++ [(question, partner said question)]) (next (partner said question))

/-- However the partner answers from here on, the dialogue ends as described. -/
def Always (Ends : List (Q × A) → R → Prop) : List (Q × A) → Dialogue Q A R → Prop
  | said, done result => Ends said result
  | said, ask question next =>
      ∀ answer, Always Ends (said ++ [(question, answer)]) (next answer)

variable {partner : List (Q × A) → Q → A} {Ends : List (Q × A) → R → Prop}

@[simp] theorem run_done (said : List (Q × A)) (result : R) :
    run partner said (done result) = (said, result) := rfl

@[simp] theorem run_pure (said : List (Q × A)) (result : R) :
    run partner said (pure result : Dialogue Q A R) = (said, result) := rfl

@[simp] theorem always_pure (said : List (Q × A)) (result : R) :
    Always Ends said (pure result : Dialogue Q A R) ↔ Ends said result := Iff.rfl

/-- What is guaranteed whatever the answers are holds against every partner. -/
theorem run_of_always {said : List (Q × A)} {d : Dialogue Q A R} (h : Always Ends said d) :
    Ends (run partner said d).1 (run partner said d).2 := by
  induction d generalizing said with
  | done result => exact h
  | ask question next ih => exact ih _ (h _)

theorem always_bind {Ends : List (Q × A) → S → Prop} (said : List (Q × A)) (d : Dialogue Q A R)
    (f : R → Dialogue Q A S) :
    Always Ends said (d >>= f) ↔
      Always (fun later result => Always Ends later (f result)) said d := by
  induction d generalizing said with
  | done result => exact Iff.rfl
  | ask question next ih => exact forall_congr' fun answer => ih answer _

theorem always_put_bind {Ends : List (Q × A) → S → Prop} (said : List (Q × A)) (question : Q)
    (f : A → Dialogue Q A S) :
    Always Ends said (put question >>= f) ↔
      ∀ answer, Always Ends (said ++ [(question, answer)]) (f answer) := Iff.rfl

theorem Always.mono {Weaker : List (Q × A) → R → Prop} {said : List (Q × A)} {d : Dialogue Q A R}
    (h : Always Ends said d) (imp : ∀ later result, Ends later result → Weaker later result) :
    Always Weaker said d := by
  induction d generalizing said with
  | done result => exact imp _ _ h
  | ask question next ih => exact fun answer => ih answer (h answer)

/-- Nothing that was said is taken back. -/
theorem always_extends (said : List (Q × A)) (d : Dialogue Q A R) :
    Always (fun later _ => said <+: later) said d := by
  induction d generalizing said with
  | done result => exact List.prefix_refl said
  | ask question next ih =>
      intro answer
      refine (ih answer (said ++ [(question, answer)])).mono ?_
      intro later result whole
      exact (List.prefix_append said _).trans whole

theorem prefix_run (said : List (Q × A)) (d : Dialogue Q A R) :
    said <+: (run partner said d).1 := run_of_always (always_extends said d)

theorem mem_run_put_bind (said : List (Q × A)) (question : Q) (f : A → Dialogue Q A R) :
    (question, partner said question) ∈ (run partner said (put question >>= f)).1 :=
  (prefix_run (said ++ [(question, partner said question)]) (f _)).subset
    (List.mem_append_right said (List.mem_singleton.mpr rfl))

/-- Every answer is the partner's. -/
theorem answered {said : List (Q × A)} (d : Dialogue Q A R) {exchange : Q × A}
    (member : exchange ∈ (run partner said d).1) :
    exchange ∈ said ∨ ∃ earlier, exchange.2 = partner earlier exchange.1 := by
  induction d generalizing said with
  | done result => exact .inl member
  | ask question next ih =>
      rcases ih _ member with before | later
      · rcases List.mem_append.mp before with old | new
        · exact .inl old
        · rw [List.mem_singleton.mp new]
          exact .inr ⟨said, rfl⟩
      · exact .inr later

section Steps

/-- However the partner answers, the exchanges of the dialogue and its result are as
described. -/
def Adds (Makes : List (Q × A) → R → Prop) : Dialogue Q A R → Prop
  | done result => Makes [] result
  | ask question next =>
      ∀ answer, Adds (fun steps result => Makes ((question, answer) :: steps) result) (next answer)

@[simp] theorem adds_pure {Makes : List (Q × A) → R → Prop} (result : R) :
    Adds Makes (pure result) ↔ Makes [] result := Iff.rfl

theorem Adds.mono {Makes Weaker : List (Q × A) → R → Prop} {d : Dialogue Q A R}
    (h : Adds Makes d) (imp : ∀ steps result, Makes steps result → Weaker steps result) :
    Adds Weaker d := by
  induction d generalizing Makes Weaker with
  | done result => exact imp _ _ h
  | ask question next ih =>
      intro answer
      exact ih answer (h answer) fun steps result => imp _ result

theorem adds_bind {Makes : List (Q × A) → S → Prop} (d : Dialogue Q A R)
    (f : R → Dialogue Q A S) :
    Adds Makes (d >>= f) ↔
      Adds (fun steps result => Adds (fun more => Makes (steps ++ more)) (f result)) d := by
  induction d generalizing Makes with
  | done result => exact Iff.rfl
  | ask question next ih => exact forall_congr' fun answer => ih answer

theorem adds_put_bind {Makes : List (Q × A) → S → Prop} (question : Q)
    (f : A → Dialogue Q A S) :
    Adds Makes (put question >>= f) ↔
      ∀ answer, Adds (fun steps => Makes ((question, answer) :: steps)) (f answer) := Iff.rfl

/-- A run makes what the dialogue adds, behind what was said before. -/
theorem run_of_adds {Makes : List (Q × A) → R → Prop} {d : Dialogue Q A R} (h : Adds Makes d)
    (said : List (Q × A)) :
    ∃ steps, (run partner said d).1 = said ++ steps ∧ Makes steps (run partner said d).2 := by
  induction d generalizing said Makes with
  | done result => exact ⟨[], (List.append_nil said).symm, h⟩
  | ask question next ih =>
      obtain ⟨steps, whole, made⟩ := ih _ (h (partner said question)) _
      refine ⟨(question, partner said question) :: steps, ?_, made⟩
      rw [run, whole, List.append_assoc, List.singleton_append]

end Steps

end Dialogue

/-- A store that answers questions. What it does and answers is also decided by an event from
outside; the events that are allowed depend on the store and the question. -/
structure Store (σ Q A ε : Type) where
  serve : σ → Q → ε → σ × A
  allowed : σ → Q → ε → Prop

/-- What a program may rely on while the others have their turns, and what it gives them. -/
structure Terms (σ : Type) where
  inv : σ → Prop
  rely : σ → σ → Prop
  give : σ → σ → Prop
  refl : ∀ s, rely s s
  trans : ∀ r s t, rely r s → rely s t → rely r t

namespace Dialogue

section Sharing

variable {σ Q A R S ε : Type} (store : Store σ Q A ε) (terms : Terms σ)

/-- However the others take their turns between its own, the program keeps the invariant, gives
what it has to give and ends as described. -/
def Holds (Ends : R → σ → Prop) : Dialogue Q A R → σ → Prop
  | done result, s => ∀ t, terms.rely s t → terms.inv t → Ends result t
  | ask question next, s => ∀ t, terms.rely s t → terms.inv t → ∀ event,
      store.allowed t question event →
        terms.inv (store.serve t question event).1 ∧
        terms.give t (store.serve t question event).1 ∧
        Holds Ends (next (store.serve t question event).2) (store.serve t question event).1

variable {store terms} {Ends : R → σ → Prop}

theorem Holds.later {d : Dialogue Q A R} {s t : σ} (h : Holds store terms Ends d s)
    (moved : terms.rely s t) : Holds store terms Ends d t := by
  cases d with
  | done result => exact fun u further => h u (terms.trans s t u moved further)
  | ask question next => exact fun u further => h u (terms.trans s t u moved further)

theorem holds_of_later {d : Dialogue Q A R} {s : σ}
    (h : ∀ t, terms.rely s t → terms.inv t → Holds store terms Ends d t) :
    Holds store terms Ends d s := by
  cases d with
  | done result => exact fun t moved inv => h t moved inv t (terms.refl t) inv
  | ask question next => exact fun t moved inv => h t moved inv t (terms.refl t) inv

theorem Holds.mono {Weaker : R → σ → Prop} {d : Dialogue Q A R} {s : σ}
    (h : Holds store terms Ends d s) (imp : ∀ result t, Ends result t → Weaker result t) :
    Holds store terms Weaker d s := by
  induction d generalizing s with
  | done result => exact fun t moved inv => imp result t (h t moved inv)
  | ask question next ih =>
      intro t moved inv event allowed
      obtain ⟨keeps, gives, rest⟩ := h t moved inv event allowed
      exact ⟨keeps, gives, ih _ rest⟩

theorem Holds.bind {Ends : S → σ → Prop} {d : Dialogue Q A R} {f : R → Dialogue Q A S} {s : σ}
    (h : Holds store terms (fun result t => terms.inv t → Holds store terms Ends (f result) t) d s) :
    Holds store terms Ends (d >>= f) s := by
  induction d generalizing s with
  | done result => exact holds_of_later (d := f result) fun t moved inv => h t moved inv inv
  | ask question next ih =>
      intro t moved inv event allowed
      obtain ⟨keeps, gives, rest⟩ := h t moved inv event allowed
      exact ⟨keeps, gives, ih _ rest⟩

theorem holds_put_bind {question : Q} {f : A → Dialogue Q A R} {s : σ} :
    Holds store terms Ends (put question >>= f) s ↔
      ∀ t, terms.rely s t → terms.inv t → ∀ event, store.allowed t question event →
        terms.inv (store.serve t question event).1 ∧
        terms.give t (store.serve t question event).1 ∧
        Holds store terms Ends (f (store.serve t question event).2)
          (store.serve t question event).1 := Iff.rfl

end Sharing

section Turns

variable {σ Q A R ε τ : Type} [DecidableEq τ] (stores : τ → Store σ Q A ε)

/-- One program gets its question answered and goes on; one that has ended does nothing. -/
def turn (s : σ × (τ → Dialogue Q A R)) (event : τ × ε) : (σ × (τ → Dialogue Q A R)) × Unit :=
  match s.2 event.1 with
  | done _ => (s, ())
  | ask question next =>
      let served := (stores event.1).serve s.1 question event.2
      ((served.1, Function.update s.2 event.1 (next served.2)), ())

/-- The event is allowed for the question that the program asks. -/
def Permits (s : σ × (τ → Dialogue Q A R)) (event : τ × ε) : Prop :=
  match s.2 event.1 with
  | done _ => True
  | ask question _ => (stores event.1).allowed s.1 question event.2

variable {stores} {terms : τ → Terms σ} {inv : σ → Prop} {Ends : τ → R → σ → Prop}

theorem turn_of_asks {s : σ × (τ → Dialogue Q A R)} {i : τ} {question : Q}
    {next : A → Dialogue Q A R} (asks : s.2 i = ask question next) (event : ε) :
    turn stores s (i, event) = ((((stores i).serve s.1 question event).1,
      Function.update s.2 i (next ((stores i).serve s.1 question event).2)), ()) := by
  unfold turn
  rw [asks]

omit [DecidableEq τ] in
theorem permits_of_asks {s : σ × (τ → Dialogue Q A R)} {i : τ} {question : Q}
    {next : A → Dialogue Q A R} (asks : s.2 i = ask question next) (event : ε) :
    Permits stores s (i, event) ↔ (stores i).allowed s.1 question event := by
  unfold Permits
  rw [asks]

/-- An allowed run goes on from an answer, wherever the other programs stand. -/
theorem run_of_asks {s : σ × (τ → Dialogue Q A R)} {i : τ} {question : Q}
    {next : A → Dialogue Q A R} {events : List (τ × ε)} {last : Dialogue Q A R}
    (asks : s.2 i = ask question next) (event : ε)
    (allowed : (stores i).allowed s.1 question event)
    (goes : ∀ tasks, tasks i = next ((stores i).serve s.1 question event).2 →
      Run.Along (turn stores) (Permits stores) (((stores i).serve s.1 question event).1, tasks)
        events ∧
      (Run.final (turn stores) (((stores i).serve s.1 question event).1, tasks) events).2 i = last) :
    Run.Along (turn stores) (Permits stores) s ((i, event) :: events) ∧
      (Run.final (turn stores) s ((i, event) :: events)).2 i = last := by
  have rest := goes _ (Function.update_self i _ s.2)
  rw [Run.Along, Run.final, turn_of_asks asks]
  exact ⟨⟨(permits_of_asks asks event).mpr allowed, rest.1⟩, rest.2⟩

/-- One turn: the program whose turn it is goes on, and the others may rely on it. -/
theorem turn_holds (shared : ∀ i, (terms i).inv = inv)
    (leaves : ∀ i j s t, i ≠ j → (terms j).give s t → (terms i).rely s t)
    {s : σ × (τ → Dialogue Q A R)} {event : τ × ε} (allowed : Permits stores s event)
    (h : inv s.1 ∧ ∀ i, Holds (stores i) (terms i) (Ends i) (s.2 i) s.1) :
    inv (turn stores s event).1.1 ∧ ∀ i, Holds (stores i) (terms i) (Ends i)
      ((turn stores s event).1.2 i) (turn stores s event).1.1 := by
  obtain ⟨holds_, each⟩ := h
  obtain ⟨j, outside⟩ := event
  have own := each j
  cases asks : s.2 j with
  | done result =>
      unfold turn
      dsimp only
      rw [asks]
      exact ⟨holds_, each⟩
  | ask question next =>
      rw [asks] at own
      have here : (terms j).inv s.1 := by rwa [shared j]
      obtain ⟨keeps, gives, rest⟩ := own s.1 ((terms j).refl s.1) here outside
        ((permits_of_asks asks outside).mp allowed)
      rw [turn_of_asks asks]
      refine ⟨shared j ▸ keeps, fun i => ?_⟩
      dsimp only
      by_cases same : i = j
      · subst same
        rw [Function.update_self]
        exact rest
      · rw [Function.update_of_ne same]
        exact (each i).later (leaves i j _ _ same gives)

/-- Programs that each keep to their terms keep to them in any order of turns. -/
theorem turns_hold (shared : ∀ i, (terms i).inv = inv)
    (leaves : ∀ i j s t, i ≠ j → (terms j).give s t → (terms i).rely s t)
    {s : σ × (τ → Dialogue Q A R)} (start : inv s.1)
    (each : ∀ i, Holds (stores i) (terms i) (Ends i) (s.2 i) s.1) (events : List (τ × ε))
    (allowed : Run.Along (turn stores) (Permits stores) s events) :
    inv (Run.final (turn stores) s events).1 ∧ ∀ i, Holds (stores i) (terms i) (Ends i)
      ((Run.final (turn stores) s events).2 i) (Run.final (turn stores) s events).1 :=
  Run.final_along (fun _ _ permits h => turn_holds shared leaves permits h) ⟨start, each⟩ events
    allowed

end Turns

end Dialogue

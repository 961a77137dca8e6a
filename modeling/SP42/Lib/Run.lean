import Mathlib.Data.List.Basic

/-!
Runs of a machine that answers each input. A property of every reachable state
comes from one step, and so does a balance between what goes in, what is held
and what comes out.
-/
namespace Run

variable {σ ι ο α κ : Type*}

/-- The state after a sequence of inputs. -/
def final (step : σ → ι → σ × ο) : σ → List ι → σ
  | s, [] => s
  | s, i :: is => final step (step s i).1 is

/-- Each input of the run with its answer. -/
def trace (step : σ → ι → σ × ο) : σ → List ι → List (ι × ο)
  | _, [] => []
  | s, i :: is => (i, (step s i).2) :: trace step (step s i).1 is

/-- Every step of the run is taken from a state and on an input that are related so. -/
def Along (step : σ → ι → σ × ο) (P : σ → ι → Prop) : σ → List ι → Prop
  | _, [] => True
  | s, i :: is => P s i ∧ Along step P (step s i).1 is

variable {step : σ → ι → σ × ο}

theorem trace_inputs (s : σ) (is : List ι) : (trace step s is).map Prod.fst = is := by
  induction is generalizing s with
  | nil => rfl
  | cons i is ih => exact congrArg (i :: ·) (ih (step s i).1)

theorem final_append (s : σ) (is js : List ι) :
    final step s (is ++ js) = final step (final step s is) js := by
  induction is generalizing s with
  | nil => rfl
  | cons i is ih => exact ih (step s i).1

/-- An exchange of the run, with the run before it. -/
theorem trace_split {s : σ} {is : List ι} {past future : List (ι × ο)} {i : ι} {o : ο}
    (found : trace step s is = past ++ (i, o) :: future) : ∃ before after,
      is = before ++ i :: after ∧ past = trace step s before ∧ o = (step (final step s before) i).2 := by
  induction past generalizing s is with
  | nil =>
      cases is with
      | nil => cases found
      | cons j is =>
          cases found
          exact ⟨[], is, rfl, rfl, rfl⟩
  | cons e past ih =>
      cases is with
      | nil => cases found
      | cons j is =>
          obtain ⟨rfl, rest⟩ := List.cons.inj found
          obtain ⟨before, after, rfl, rfl, answer⟩ := ih rest
          exact ⟨j :: before, after, rfl, rfl, answer⟩

/-- What every allowed input preserves holds after any run of allowed inputs. -/
theorem final_invariant {Allowed : ι → Prop} {Inv : σ → Prop}
    (keeps : ∀ s i, Allowed i → Inv s → Inv (step s i).1) {s : σ} (start : Inv s) (is : List ι)
    (allowed : ∀ i ∈ is, Allowed i) : Inv (final step s is) := by
  induction is generalizing s with
  | nil => exact start
  | cons i is ih =>
      have next := keeps s i (allowed i List.mem_cons_self) start
      exact ih next fun j hj => allowed j (List.mem_cons_of_mem _ hj)

/-- An input that commutes with everything before it may be taken first. -/
theorem final_front {i : ι} {is : List ι}
    (commute : ∀ s, ∀ j ∈ is, (step (step s j).1 i).1 = (step (step s i).1 j).1) (s : σ)
    (js : List ι) : final step s (is ++ i :: js) = final step s (i :: (is ++ js)) := by
  induction is generalizing s with
  | nil => rfl
  | cons j is ih =>
      have swap := commute s j List.mem_cons_self
      calc final step s (j :: is ++ i :: js)
          = final step (step s j).1 (is ++ i :: js) := rfl
        _ = final step (step (step s j).1 i).1 (is ++ js) :=
              ih (fun s k mem => commute s k (List.mem_cons_of_mem _ mem)) (step s j).1
        _ = final step (step (step s i).1 j).1 (is ++ js) := by rw [swap]
        _ = final step s (i :: (j :: is ++ js)) := rfl

/-- Where inputs of different slots commute, two runs that agree slot by slot end in one state. -/
theorem final_of_slots [DecidableEq κ] {slot : ι → κ}
    (commute : ∀ s i j, slot i ≠ slot j → (step (step s j).1 i).1 = (step (step s i).1 j).1)
    {is js : List ι}
    (same : ∀ k, is.filter (fun i => slot i = k) = js.filter (fun i => slot i = k)) (s : σ) :
    final step s is = final step s js := by
  induction is generalizing js s with
  | nil =>
      cases js with
      | nil => rfl
      | cons j js =>
          have own := same (slot j)
          simp at own
  | cons i is ih =>
      have own := same (slot i)
      rw [List.filter_cons_of_pos (by simp)] at own
      obtain ⟨front, back, rfl, others, -, -⟩ := List.filter_eq_cons_iff.mp own.symm
      have apart : ∀ j ∈ front, slot i ≠ slot j := by
        intro j mem equal
        exact others j mem (by simp [equal])
      have rest : ∀ k, is.filter (fun i => slot i = k) =
          (front ++ back).filter (fun i => slot i = k) := by
        intro k
        have whole := same k
        rw [List.filter_append] at whole ⊢
        by_cases here : slot i = k
        · have none_ : front.filter (fun j => slot j = k) = [] :=
            List.filter_eq_nil_iff.mpr fun j mem => by
              have := apart j mem
              simp only [decide_eq_true_eq]
              rintro rfl
              exact this here
          rw [none_, List.nil_append] at whole ⊢
          simpa [here] using whole
        · simpa [here] using whole
      rw [final_front (fun s j mem => commute s i j (apart j mem)) s back]
      exact ih rest (step s i).1

theorem along_at {P : σ → ι → Prop} {s : σ} {before after : List ι} {i : ι}
    (h : Along step P s (before ++ i :: after)) : P (final step s before) i := by
  induction before generalizing s with
  | nil => exact h.1
  | cons j before ih => exact ih h.2

/-- An invariant that the allowed steps keep holds after a run of them. -/
theorem final_along {Allowed : σ → ι → Prop} {Inv : σ → Prop}
    (keeps : ∀ s i, Allowed s i → Inv s → Inv (step s i).1) {s : σ} (start : Inv s) (is : List ι)
    (allowed : Along step Allowed s is) : Inv (final step s is) := by
  induction is generalizing s with
  | nil => exact start
  | cons i is ih =>
      obtain ⟨first, rest⟩ := allowed
      exact ih (keeps s i first start) rest

/-- Under an invariant that the allowed steps keep, every step is as good as the allowed ones are. -/
theorem along_invariant {Allowed Good : σ → ι → Prop} {Inv : σ → Prop}
    (keeps : ∀ s i, Allowed s i → Inv s → Inv (step s i).1)
    (good : ∀ s i, Allowed s i → Inv s → Good s i) {s : σ} (start : Inv s) (is : List ι)
    (allowed : Along step Allowed s is) : Along step Good s is := by
  induction is generalizing s with
  | nil => trivial
  | cons i is ih =>
      obtain ⟨first, rest⟩ := allowed
      exact ⟨good s i first start, ih (keeps s i first start) rest⟩

/-- Where a step from a good state is as promised and leads to a good state just on a condition,
a whole run is so just if all its steps meet the condition. -/
theorem along_promise_iff {Inv : σ → Prop} {Good P : σ → ι → Prop}
    (keeps : ∀ s i, Inv s → (Inv (step s i).1 ∧ Good s i ↔ P s i)) {s : σ} (start : Inv s)
    (is : List ι) :
    Along step (fun s i => Inv (step s i).1 ∧ Good s i) s is ↔ Along step P s is := by
  induction is generalizing s with
  | nil => exact Iff.rfl
  | cons i is ih =>
      constructor
      · rintro ⟨first, rest⟩
        exact ⟨(keeps s i start).mp first, (ih first.1).mp rest⟩
      · rintro ⟨first, rest⟩
        have next := (keeps s i start).mpr first
        exact ⟨next, (ih next.1).mpr rest⟩

theorem along_congr {P Q : σ → ι → Prop} (same : ∀ s i, P s i ↔ Q s i) (s : σ) (is : List ι) :
    Along step P s is ↔ Along step Q s is := by
  induction is generalizing s with
  | nil => exact Iff.rfl
  | cons i is ih => exact and_congr (same s i) (ih _)

/-- The same where a good state is all that is promised. -/
theorem along_iff {Inv : σ → Prop} {P : σ → ι → Prop}
    (keeps : ∀ s i, Inv s → (Inv (step s i).1 ↔ P s i)) {s : σ} (start : Inv s) (is : List ι) :
    Along step (fun s i => Inv (step s i).1) s is ↔ Along step P s is := by
  have promise := @along_promise_iff _ _ _ step Inv (fun _ _ => True) P
    (fun s i good => (and_iff_left trivial).trans (keeps s i good)) s start is
  exact (along_congr (fun _ _ => (and_iff_left trivial).symm) s is).trans promise

/-- Under an invariant, what every allowed input is answered holds all along the run. -/
theorem trace_invariant {Allowed : ι → Prop} {Inv : σ → Prop} {Good : ι × ο → Prop}
    (keeps : ∀ s i, Allowed i → Inv s → Inv (step s i).1)
    (answers : ∀ s i, Allowed i → Inv s → Good (i, (step s i).2)) {s : σ} (start : Inv s)
    (is : List ι) (allowed : ∀ i ∈ is, Allowed i) : ∀ e ∈ trace step s is, Good e := by
  induction is generalizing s with
  | nil => intro e he; cases he
  | cons i is ih =>
      have first := allowed i List.mem_cons_self
      have rest := ih (keeps s i first start) fun j hj => allowed j (List.mem_cons_of_mem _ hj)
      intro e he
      rcases List.mem_cons.mp he with rfl | he
      · exact answers s i first start
      · exact rest e he

/-- An invariant that relates the state to everything exchanged so far. -/
theorem history_invariant {Inv : List (ι × ο) → σ → Prop}
    (keeps : ∀ past s i, Inv past s → Inv (past ++ [(i, (step s i).2)]) (step s i).1)
    {past : List (ι × ο)} {s : σ} (start : Inv past s) (is : List ι) :
    Inv (past ++ trace step s is) (final step s is) := by
  induction is generalizing past s with
  | nil => simpa [trace, final] using start
  | cons i is ih => simpa [trace, final] using ih (keeps past s i start)

/-- The same under a condition on the steps, which may look at the state they are taken from. -/
theorem history_along {Allowed : σ → ι → Prop} {Inv : List (ι × ο) → σ → Prop}
    (keeps : ∀ past s i, Allowed s i → Inv past s →
      Inv (past ++ [(i, (step s i).2)]) (step s i).1)
    {past : List (ι × ο)} {s : σ} (start : Inv past s) (is : List ι)
    (allowed : Along step Allowed s is) : Inv (past ++ trace step s is) (final step s is) := by
  induction is generalizing past s with
  | nil => simpa [trace, final] using start
  | cons i is ih =>
      obtain ⟨first, rest⟩ := allowed
      simpa [trace, final] using ih (keeps past s i first start) rest

/-- If every step balances, what came out and what is held is, in order, what was held and came in. -/
theorem conserves {stock : σ → List α} {inflow outflow : ι × ο → List α}
    (balance : ∀ s i, outflow (i, (step s i).2) ++ stock (step s i).1 =
      stock s ++ inflow (i, (step s i).2)) (s : σ) (is : List ι) :
    (trace step s is).flatMap outflow ++ stock (final step s is) =
      stock s ++ (trace step s is).flatMap inflow := by
  induction is generalizing s with
  | nil => simp [trace, final]
  | cons i is ih =>
      have rest := ih (step s i).1
      calc (trace step s (i :: is)).flatMap outflow ++ stock (final step s (i :: is))
          = outflow (i, (step s i).2) ++ ((trace step (step s i).1 is).flatMap outflow ++
              stock (final step (step s i).1 is)) := by simp [trace, final]
        _ = (outflow (i, (step s i).2) ++ stock (step s i).1) ++
              (trace step (step s i).1 is).flatMap inflow := by rw [rest, List.append_assoc]
        _ = stock s ++ (trace step s (i :: is)).flatMap inflow := by
              rw [balance, List.append_assoc]; rfl

end Run

import SP42.Lib.Total
import SP42.Intake.Leaf

/-!
The evaluator refines its meaning: `evalCondition` computes the verdict of the
tree and, beside it, a trail that never influences the verdict. What is proved
of `verdict`, by induction on the tree, therefore holds of the routed decision.
-/
namespace SP42.Intake

theorem verdicts_eq_mapM (cs : List IntakeCondition) (item : IntakeItem) (context : IntakeContext) :
    verdicts cs item context = cs.mapM fun c => verdict c item context := by
  induction cs with
  | nil => rfl
  | cons c cs ih => rw [verdicts, ih, List.mapM_cons]; rfl

/-- The loop over the children computes their verdicts when each child does. -/
theorem evalChildren_verdicts {item : IntakeItem} {context : IntakeContext}
    (cs : List IntakeCondition)
    (h : ∀ c ∈ cs, ∀ matched,
      (evalCondition c item context matched).map Prod.fst = verdict c item context)
    (fired : List String) :
    (evalChildren cs item context fired).map Prod.fst = verdicts cs item context := by
  induction cs generalizing fired with
  | nil => rfl
  | cons c cs ih =>
      have head := h c List.mem_cons_self fired
      rw [evalChildren, verdicts, ← head]
      cases evalCondition c item context fired with
      | error e => rfl
      | ok result =>
          have tail := ih (fun d hd => h d (List.mem_cons_of_mem _ hd)) result.2
          simp only [bind, Except.bind, Except.map]
          rw [← tail]
          cases evalChildren cs item context result.2 with
          | error e => rfl
          | ok rest => rfl

theorem evalCondition_verdict (c : IntakeCondition) (item : IntakeItem) (context : IntakeContext)
    (matched : List String) :
    (evalCondition c item context matched).map Prod.fst = verdict c item context := by
  induction c generalizing matched with
  | all cs ih =>
      have children := evalChildren_verdicts cs ih []
      rw [evalCondition, verdict, ← children]
      cases evalChildren cs item context [] <;> rfl
  | any cs ih =>
      have children := evalChildren_verdicts cs ih []
      rw [evalCondition, verdict, ← children]
      cases evalChildren cs item context [] <;> rfl
  | not c ih =>
      have child := ih []
      rw [evalCondition, verdict, ← child]
      cases evalCondition c item context [] <;> rfl
  | rule r =>
      rw [evalCondition, verdict]
      cases evalRule r item context <;> rfl

/-- `compiled` routes `item` to `outcome` because its condition evaluated to `t`. -/
def RoutedBy (compiled : CompiledPipeline) (context : IntakeContext) (item : IntakeItem) (t : Tri)
    (outcome : IntakeOutcome) : Prop :=
  ∃ matched, evalCondition compiled.pipeline.condition item context [] = .ok (t, matched) ∧
    evaluateIntake item compiled context =
      .ok (.routed outcome compiled.pipeline.id matched compiled.configVersion)

def IsMisconfigured (compiled : CompiledPipeline) (context : IntakeContext) (item : IntakeItem) :
    Prop :=
  ∃ reason, evaluateIntake item compiled context =
    .ok (.misconfigured compiled.pipeline.id reason)

section Decision

variable {compiled : CompiledPipeline} {context : IntakeContext} {item : IntakeItem}

theorem routedBy_iff (valid : validateCondition compiled.pipeline.condition = .ok ()) (t : Tri)
    (outcome : IntakeOutcome) :
    RoutedBy compiled context item t outcome ↔
      verdict compiled.pipeline.condition item context = .ok t ∧
        outcome = routeVerdict compiled.pipeline t := by
  have spec := evalCondition_verdict compiled.pipeline.condition item context []
  unfold RoutedBy evaluateIntake
  rw [valid, ← spec]
  cases evalCondition compiled.pipeline.condition item context [] with
  | error e => simp [Except.map]
  | ok result =>
      obtain ⟨u, matched⟩ := result
      simp only [bind, Except.bind, Except.map, Except.ok.injEq, Prod.mk.injEq,
        IntakeDecision.routed.injEq]
      constructor
      · rintro ⟨_, ⟨rfl, rfl⟩, rfl, _⟩; exact ⟨rfl, rfl⟩
      · rintro ⟨rfl, rfl⟩; exact ⟨matched, ⟨rfl, rfl⟩, by simp⟩

theorem isMisconfigured_iff (valid : validateCondition compiled.pipeline.condition = .ok ()) :
    IsMisconfigured compiled context item ↔
      ∃ reason, verdict compiled.pipeline.condition item context = .error reason := by
  have spec := evalCondition_verdict compiled.pipeline.condition item context []
  unfold IsMisconfigured evaluateIntake
  rw [valid, ← spec]
  cases evalCondition compiled.pipeline.condition item context [] with
  | error e => simp [bind, Except.bind, Except.map]
  | ok result => simp [bind, Except.bind, Except.map]

theorem misconfigured_or_routed (context : IntakeContext) (item : IntakeItem)
    (valid : validateCondition compiled.pipeline.condition = .ok ()) :
    IsMisconfigured compiled context item ∨ ∃ t,
      RoutedBy compiled context item t (routeVerdict compiled.pipeline t) := by
  rw [isMisconfigured_iff valid]
  cases h : verdict compiled.pipeline.condition item context with
  | error reason => exact .inl ⟨reason, rfl⟩
  | ok t => exact .inr ⟨t, (routedBy_iff valid t _).mpr ⟨h, rfl⟩⟩

end Decision

theorem map_fails_iff {ε α β : Type} (f : α → β) (result : Except ε α) :
    (∃ e, f <$> result = .error e) ↔ ∃ e, result = .error e := by
  cases result <;> simp [Functor.map, Except.map]

/-- No connective hides a failure: a tree fails exactly when one of its leaves does. -/
theorem verdict_fails_iff (c : IntakeCondition) (item : IntakeItem) (context : IntakeContext) :
    (∃ reason, verdict c item context = .error reason) ↔
      ∃ r, Occurs r c ∧ ∃ reason, evalRule r item context = .error reason := by
  induction c with
  | all cs ih =>
      rw [verdict, map_fails_iff, verdicts_eq_mapM, Traverse.mapM_fails_iff]
      constructor
      · rintro ⟨c, hc, failed⟩
        obtain ⟨r, hr, failed⟩ := (ih c hc).mp failed
        exact ⟨r, .all hc hr, failed⟩
      · rintro ⟨r, hr, failed⟩
        cases hr with
        | all hc hr => exact ⟨_, hc, (ih _ hc).mpr ⟨r, hr, failed⟩⟩
  | any cs ih =>
      rw [verdict, map_fails_iff, verdicts_eq_mapM, Traverse.mapM_fails_iff]
      constructor
      · rintro ⟨c, hc, failed⟩
        obtain ⟨r, hr, failed⟩ := (ih c hc).mp failed
        exact ⟨r, .any hc hr, failed⟩
      · rintro ⟨r, hr, failed⟩
        cases hr with
        | any hc hr => exact ⟨_, hc, (ih _ hc).mpr ⟨r, hr, failed⟩⟩
  | not c ih =>
      rw [verdict, map_fails_iff, ih]
      constructor
      · rintro ⟨r, hr, failed⟩
        exact ⟨r, .not hr, failed⟩
      · rintro ⟨r, hr, failed⟩
        cases hr with
        | not hr => exact ⟨r, hr, failed⟩
  | rule r =>
      rw [verdict]
      constructor
      · intro failed
        exact ⟨r, .rule, failed⟩
      · rintro ⟨s, hs, failed⟩
        cases hs with
        | rule => exact failed

end SP42.Intake

import SP42.Intake.Verdict

/-!
When a broken ruleset is reported. A rule is broken when its custom field is not
registered or its capability does not resolve; the report comes from the rules
that are evaluated up to the fault, and an absent field stops before it.
-/
namespace SP42.Intake

/-- The rule names something its environment does not have. -/
def Broken (context : IntakeContext) (item : IntakeItem) (rule : IntakeRule) : Prop :=
  (∃ name e, rule.field = .custom name ∧ context.customFields name item = .error e) ∨
    ∃ reference e, rule.value = .capabilityRef reference ∧
      context.capabilities reference = .error e

/-- The item has a value of the kind for the field. -/
def Present (context : IntakeContext) (item : IntakeItem) (field : IntakeField)
    (kind : ValueKind) : Prop :=
  ∃ resolved, resolveField field item context = .ok resolved ∧ shape resolved = some kind

/-- The fault is met: the field is not registered, or it has a value and the
capability does not resolve or the literal operand does not fit the value. -/
def Faulty (context : IntakeContext) (item : IntakeItem) (rule : IntakeRule) : Prop :=
  (∃ name e, rule.field = .custom name ∧ context.customFields name item = .error e) ∨
    (∃ kind reference e, Present context item rule.field kind ∧
      rule.value = .capabilityRef reference ∧ context.capabilities reference = .error e) ∨
    ∃ kind, Present context item rule.field kind ∧ rule.value.isLiteral = true ∧
      operandFits kind rule.op rule.value = false

section Leaf

variable {rule : IntakeRule} {item : IntakeItem} {context : IntakeContext}

theorem not_present_of_absent (h : resolveField rule.field item context = .ok .absent)
    (kind : ValueKind) : ¬ Present context item rule.field kind := by
  rintro ⟨resolved, hr, hk⟩
  rw [h] at hr
  cases hr
  cases hk

theorem present_iff {resolved : ResolvedField} {kind : ValueKind}
    (h : resolveField rule.field item context = .ok resolved) (hk : shape resolved = some kind)
    (other : ValueKind) : Present context item rule.field other ↔ other = kind := by
  constructor
  · rintro ⟨resolved', hr, hk'⟩
    rw [h] at hr
    cases hr
    rw [hk] at hk'
    exact (Option.some.inj hk').symm
  · rintro rfl
    exact ⟨resolved, h, hk⟩

theorem registered_of_resolved {resolved : ResolvedField}
    (h : resolveField rule.field item context = .ok resolved) :
    ¬ ∃ name e, rule.field = .custom name ∧ context.customFields name item = .error e := by
  rw [← resolveField_error_iff, h]
  rintro ⟨reason, hr⟩
  cases hr

/-- On a present value a rule fails exactly when its own operand is at fault. -/
theorem evalRule_present_fails_iff {resolved : ResolvedField} {kind : ValueKind}
    (h : resolveField rule.field item context = .ok resolved) (hk : shape resolved = some kind) :
    (∃ reason, evalRule rule item context = .error reason) ↔
      (∃ reference e, rule.value = .capabilityRef reference ∧
        context.capabilities reference = .error e) ∨
      (rule.value.isLiteral = true ∧ operandFits kind rule.op rule.value = false) := by
  have present := present_ne_absent hk
  by_cases literal : rule.value.isLiteral = true
  · rw [evalRule_literal h present literal]
    have named : ¬ ∃ reference e, rule.value = .capabilityRef reference ∧
        context.capabilities reference = .error e := by
      rintro ⟨reference, e, hv, _⟩
      rw [hv] at literal
      cases literal
    simp only [named, literal, true_and, false_or]
    cases fits : operandFits kind rule.op rule.value with
    | false =>
        have report := compareDirect_misfit hk fits literal rule.field context.nowMs
        simp [report]
    | true =>
        obtain ⟨b, answer⟩ := compareDirect_fits hk fits literal rule.field context.nowMs
        simp [answer]
  · obtain ⟨reference, hv⟩ := isLiteral_eq_false_iff.mp (Bool.not_eq_true _ ▸ literal)
    rw [evalRule_capability h present hv, hv]
    cases hc : context.capabilities reference with
    | error e => simp [hc]
    | ok allowed => simp [hc, IntakeValue.isLiteral]

theorem evalRule_fails_iff :
    (∃ reason, evalRule rule item context = .error reason) ↔ Faulty context item rule := by
  unfold Faulty
  cases h : resolveField rule.field item context with
  | error reason =>
      have unregistered := (resolveField_error_iff _ _ _).mp ⟨reason, h⟩
      rw [evalRule_unresolved h]
      exact ⟨fun _ => .inl unregistered, fun _ => ⟨reason, rfl⟩⟩
  | ok resolved =>
      simp only [registered_of_resolved h, false_or]
      cases hk : shape resolved with
      | none =>
          have absent := (shape_eq_none_iff resolved).mp hk
          subst absent
          rw [evalRule_absent h]
          simp [not_present_of_absent h]
      | some kind =>
          rw [evalRule_present_fails_iff h hk]
          simp only [present_iff h hk]
          simp

end Leaf

/-- A broken ruleset is reported on this item, and the item is not routed. -/
def ReportsBroken (compiled : CompiledPipeline) (context : IntakeContext) (item : IntakeItem) :
    Prop :=
  (∃ r, Occurs r compiled.pipeline.condition ∧ Broken context item r) →
    IsMisconfigured compiled context item ∧
      ¬ ∃ t outcome, RoutedBy compiled context item t outcome

theorem misconfigured_not_routed {compiled : CompiledPipeline} {context : IntakeContext}
    {item : IntakeItem} (h : IsMisconfigured compiled context item) :
    ¬ ∃ t outcome, RoutedBy compiled context item t outcome := by
  obtain ⟨reason, report⟩ := h
  rintro ⟨t, outcome, matched, _, routed⟩
  rw [report] at routed
  cases routed

/-- A broken rule is reported exactly when, if the tree has one, some rule of the
tree is faulty on the item at hand. -/
theorem evaluateIntake_reports_broken_iff (sha256Hex : ByteArray → String) (p : IntakePipeline)
    (compiled : CompiledPipeline) (context : IntakeContext) (item : IntakeItem)
    (accepted : compilePipeline sha256Hex p = .ok compiled) :
    ReportsBroken compiled context item ↔
      ((∃ r, Occurs r p.condition ∧ Broken context item r) →
        ∃ r, Occurs r p.condition ∧ Faulty context item r) := by
  have valid := compilePipeline_valid accepted
  have same : compiled.pipeline = p := by
    obtain ⟨_, rfl⟩ := (compilePipeline_ok_iff _ _ _).mp accepted
    rfl
  have reported : IsMisconfigured compiled context item ↔
      ∃ r, Occurs r p.condition ∧ Faulty context item r := by
    rw [isMisconfigured_iff valid, verdict_fails_iff, same]
    simp only [evalRule_fails_iff]
  unfold ReportsBroken
  rw [same, ← reported]
  constructor
  · intro h broken
    exact (h broken).1
  · intro h broken
    exact ⟨h broken, misconfigured_not_routed (h broken)⟩

/-- Admit the pages a capability lists, drop the others. -/
def watchedPages : IntakePipeline where
  id := "watched"
  condition := .rule ⟨.pageId, .in_, .capabilityRef "watched-pages"⟩
  onPass := .admitTo "patrol"
  onFail := .drop
  onUnknown := none

/-- Whatever `sha256Hex` is elsewhere, this is its value on the bytes of `watchedPages`. -/
def watchedPagesSha256 : ByteArray → String :=
  fun _ => "92591f3b625701e8091f34a11c9d0d2892d4d2d0792e2fcef78aefe332600234"

theorem evaluateIntake_reports_broken_page :
    ReportsBroken ⟨watchedPages, configDigest watchedPagesSha256 watchedPages⟩ (.bare 10000)
      { IntakeItem.unfetched "frwiki" "edit" 0 10000 with pageId := some 7 } :=
  (evaluateIntake_reports_broken_iff watchedPagesSha256 watchedPages _ (.bare 10000) _ rfl).mpr
    fun _ => ⟨_, .rule, .inr (.inl ⟨.number, "watched-pages",
      .unresolvedCapability "watched-pages", ⟨.number 7, rfl, rfl⟩, rfl, rfl⟩)⟩

/-- Without the page id the same pipeline, with the same unresolved capability, drops the item. -/
theorem evaluateIntake_drops_broken_page :
    compilePipeline watchedPagesSha256 watchedPages =
      .ok ⟨watchedPages, configDigest watchedPagesSha256 watchedPages⟩ ∧
    Occurs ⟨.pageId, .in_, .capabilityRef "watched-pages"⟩ watchedPages.condition ∧
    Broken (.bare 10000) (.unfetched "frwiki" "edit" 0 10000)
      ⟨.pageId, .in_, .capabilityRef "watched-pages"⟩ ∧
    evaluateIntake (.unfetched "frwiki" "edit" 0 10000)
        ⟨watchedPages, configDigest watchedPagesSha256 watchedPages⟩ (.bare 10000) =
      .ok (.routed .drop "watched" [] "92591f3b625701e8") ∧
    ¬ ReportsBroken ⟨watchedPages, configDigest watchedPagesSha256 watchedPages⟩ (.bare 10000)
      (.unfetched "frwiki" "edit" 0 10000) := by
  have broken : Broken (.bare 10000) (.unfetched "frwiki" "edit" 0 10000)
      ⟨.pageId, .in_, .capabilityRef "watched-pages"⟩ :=
    .inr ⟨"watched-pages", .unresolvedCapability "watched-pages", rfl, rfl⟩
  have routed : evaluateIntake (.unfetched "frwiki" "edit" 0 10000)
      ⟨watchedPages, configDigest watchedPagesSha256 watchedPages⟩ (.bare 10000) =
        .ok (.routed .drop "watched" [] "92591f3b625701e8") := by decide
  refine ⟨rfl, .rule, broken, routed, fun reports => ?_⟩
  obtain ⟨⟨reason, report⟩, _⟩ := reports ⟨_, .rule, broken⟩
  rw [routed] at report
  cases report

end SP42.Intake

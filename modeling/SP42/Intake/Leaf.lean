import SP42.Intake.Engine

/-!
What one rule evaluates to. The four facts about `evalRule` below say all it can
do: a field that does not resolve, an absent field, a capability operand, a
literal operand. Later modules reason from these and never unfold it again.
-/
namespace SP42.Intake

/-- The row of the table a resolved value belongs to. -/
def shape : ResolvedField → Option ValueKind
  | .text _ => some .text
  | .number _ => some .number
  | .textList _ => some .textList
  | .flag _ => some .flag
  | .instant _ => some .instant
  | .absent => none

theorem shape_eq_none_iff (resolved : ResolvedField) :
    shape resolved = none ↔ resolved = .absent := by
  cases resolved <;> simp [shape]

theorem present_ne_absent {resolved : ResolvedField} {kind : ValueKind}
    (hk : shape resolved = some kind) : resolved ≠ .absent := by
  rintro rfl
  cases hk

theorem isAbsent_iff (resolved : ResolvedField) :
    resolved.isAbsent = true ↔ resolved = .absent := by
  cases resolved <;> simp [ResolvedField.isAbsent]

/-- Whether an operand is written in the rule itself. -/
def IntakeValue.isLiteral : IntakeValue → Bool
  | .capabilityRef _ => false
  | _ => true

/-- Whether an element of a capability set has the element type of a kind. -/
def elementFits : ValueKind → IntakeValue → Bool
  | .text, .str _ => true
  | .textList, .str _ => true
  | .number, .int _ => true
  | _, _ => false

theorem isLiteral_eq_false_iff {value : IntakeValue} :
    value.isLiteral = false ↔ ∃ reference, value = .capabilityRef reference := by
  cases value <;> simp [IntakeValue.isLiteral]

theorem resolveField_builtin {field : IntakeField} {spec : FieldSpec}
    (h : fieldSpec field = some spec) (item : IntakeItem) (context : IntakeContext) :
    ∃ resolved, resolveField field item context = .ok resolved ∧
      (resolved = .absent ∨ shape resolved = some spec.kind) := by
  obtain ⟨wikiId, eventType, ns, pageId, revisionId, createdAt, lastRevisionAt,
    ⟨username, rights, isBot, accountCreatedAt⟩, observedAt, payloadRef⟩ := item
  cases field <;> cases h <;> refine ⟨_, rfl, ?_⟩
  case pageId => cases pageId <;> simp [optionalNumber, shape]
  case revisionId => cases revisionId <;> simp [optionalNumber, shape]
  case createdAt => cases createdAt <;> simp [optionalInstant, shape]
  case lastRevisionAt => cases lastRevisionAt <;> simp [optionalInstant, shape]
  case actorUsername => cases username <;> simp [shape]
  case actorRights => cases rights <;> simp [shape]
  case actorAccountCreatedAt => cases accountCreatedAt <;> simp [optionalInstant, shape]
  all_goals exact .inr rfl

theorem resolveField_custom (name : String) (item : IntakeItem) (context : IntakeContext) :
    resolveField (.custom name) item context =
      (context.customFields name item).mapError fun _ => .unregisteredCustomField name := rfl

theorem resolveField_error_iff (field : IntakeField) (item : IntakeItem) (context : IntakeContext) :
    (∃ reason, resolveField field item context = .error reason) ↔
      ∃ name e, field = .custom name ∧ context.customFields name item = .error e := by
  constructor
  · rintro ⟨reason, h⟩
    cases hs : fieldSpec field with
    | some spec =>
        obtain ⟨resolved, hr, _⟩ := resolveField_builtin hs item context
        rw [hr] at h
        cases h
    | none =>
        obtain ⟨name, rfl⟩ := (fieldSpec_eq_none_iff field).mp hs
        rw [resolveField_custom] at h
        cases hc : context.customFields name item with
        | ok resolved => rw [hc] at h; cases h
        | error e => exact ⟨name, e, rfl, hc⟩
  · rintro ⟨name, e, rfl, hc⟩
    exact ⟨.unregisteredCustomField name, by rw [resolveField_custom, hc]; rfl⟩

section EvalRule

variable {rule : IntakeRule} {item : IntakeItem} {context : IntakeContext}
  {resolved : ResolvedField}

theorem evalRule_unresolved {reason : IntakeMisconfiguration}
    (h : resolveField rule.field item context = .error reason) :
    evalRule rule item context = .error reason := by
  simp [evalRule, h, bind, Except.bind]

theorem evalRule_absent (h : resolveField rule.field item context = .ok .absent) :
    evalRule rule item context = .ok .unknown := by
  simp [evalRule, h, bind, Except.bind, ResolvedField.isAbsent]

theorem evalRule_literal (h : resolveField rule.field item context = .ok resolved)
    (present : resolved ≠ .absent) (literal : rule.value.isLiteral = true) :
    evalRule rule item context =
      compareDirect rule.field resolved rule.value rule.op context.nowMs := by
  have hp : resolved.isAbsent = false := by
    rw [← Bool.not_eq_true, isAbsent_iff]; exact present
  unfold evalRule
  cases hv : rule.value <;> simp_all [bind, Except.bind, IntakeValue.isLiteral]

theorem evalRule_capability {reference : String}
    (h : resolveField rule.field item context = .ok resolved)
    (present : resolved ≠ .absent) (hv : rule.value = .capabilityRef reference) :
    evalRule rule item context = match context.capabilities reference with
      | .ok allowed => .ok (compareMembership resolved allowed rule.op)
      | .error _ => .error (.unresolvedCapability reference) := by
  have hp : resolved.isAbsent = false := by
    rw [← Bool.not_eq_true, isAbsent_iff]; exact present
  unfold evalRule
  cases hc : context.capabilities reference <;>
    simp [h, hv, hp, hc, bind, Except.bind, Except.mapError]

end EvalRule

/-- On an operand the table accepts, the direct comparison gives a definite answer. -/
theorem compareDirect_fits {resolved : ResolvedField} {kind : ValueKind} {op : IntakeOp}
    {value : IntakeValue} (hk : shape resolved = some kind)
    (fits : operandFits kind op value = true) (literal : value.isLiteral = true)
    (field : IntakeField) (nowMs : Int) :
    ∃ b, compareDirect field resolved value op nowMs = .ok (truth b) := by
  cases resolved <;> cases hk <;> cases value <;> first | (cases literal; done) | skip
  all_goals cases op <;> first | (cases fits; done) | skip
  all_goals simp only [compareDirect, triNot_truth]; exact ⟨_, rfl⟩

/-- On any other literal operand it reports the field, the operator and the shape. -/
theorem compareDirect_misfit {resolved : ResolvedField} {kind : ValueKind} {op : IntakeOp}
    {value : IntakeValue} (hk : shape resolved = some kind)
    (misfit : operandFits kind op value = false) (literal : value.isLiteral = true)
    (field : IntakeField) (nowMs : Int) :
    compareDirect field resolved value op nowMs =
      .error (.unusableCustomField (label field) op (describeResolved resolved)) := by
  cases resolved <;> cases hk <;> cases value <;> first | (cases literal; done) | skip
  all_goals cases op <;> first | (cases misfit; done) | rfl

/-- The positive operator a negative one negates. -/
def IntakeOp.positive : IntakeOp → Option IntakeOp
  | .notEq => some .eq
  | .notIn => some .in_
  | .notHas => some .has
  | _ => none

theorem compareDirect_negative {resolved : ResolvedField} {kind : ValueKind} {op pos : IntakeOp}
    {value : IntakeValue} (hk : shape resolved = some kind)
    (fits : operandFits kind op value = true) (literal : value.isLiteral = true)
    (h : op.positive = some pos) (field : IntakeField) (nowMs : Int) :
    compareDirect field resolved value op nowMs =
      triNot <$> compareDirect field resolved value pos nowMs := by
  cases op <;> cases h <;> cases resolved <;> cases hk <;> cases value <;>
    first | (cases literal; done) | (cases fits; done) | rfl

theorem compareMembership_negative {op pos : IntakeOp} (h : op.positive = some pos)
    (resolved : ResolvedField) (allowed : CapabilitySet) :
    compareMembership resolved allowed op = triNot (compareMembership resolved allowed pos) := by
  cases op <;> cases h <;> rfl

end SP42.Intake

import SP42.Intake.Leaf

/-!
When a leaf about a present value gives an answer that means something. Literal
operands always do: a shape the operator cannot compare is reported. A
capability operand does only under a set operator of the value's own row, and a
negative one only when the set has an element the value could have been.
-/
namespace SP42.Intake

def IntakeOp.isSet : IntakeOp → Bool
  | .in_ | .notIn | .has | .notHas => true
  | _ => false

def IntakeOp.isNegatedSet : IntakeOp → Bool
  | .notIn | .notHas => true
  | _ => false

/-- The set can be compared with a value of the kind: it is empty, or some element could match. -/
def SetComparable (kind : ValueKind) (allowed : CapabilitySet) : Prop :=
  allowed = [] ∨ ∃ element ∈ allowed, elementFits kind element = true

instance (kind : ValueKind) (allowed : CapabilitySet) : Decidable (SetComparable kind allowed) :=
  inferInstanceAs (Decidable (_ ∨ _))

/-- The operand of a rule can be compared with a value of the kind. -/
def OperandComparable (context : IntakeContext) (kind : ValueKind) (op : IntakeOp) :
    IntakeValue → Prop
  | .capabilityRef reference =>
      ∃ allowed, context.capabilities reference = .ok allowed ∧ SetComparable kind allowed
  | value => operandFits kind op value = true

/-- A sound result for a present value of the kind: a report, or an answer of an
operator in the kind's row, and no affirmed absence from an incomparable set. -/
def LeafSound (context : IntakeContext) (rule : IntakeRule) (kind : ValueKind) :
    Except IntakeMisconfiguration Tri → Prop
  | .error _ => True
  | .ok .unknown => False
  | .ok .false => rule.op ∈ opsOf kind
  | .ok .true => rule.op ∈ opsOf kind ∧
      (rule.op.isNegatedSet = true → OperandComparable context kind rule.op rule.value)

/-- The condition on a capability operand that resolves. -/
def CapabilityUsable (context : IntakeContext) (rule : IntakeRule) (kind : ValueKind) : Prop :=
  ∀ reference allowed, rule.value = .capabilityRef reference →
    context.capabilities reference = .ok allowed →
      rule.op ∈ opsOf kind ∧ rule.op.isSet = true ∧
        (rule.op.isNegatedSet = true → SetComparable kind allowed)

theorem setContains_incomparable {resolved : ResolvedField} {kind : ValueKind}
    {allowed : CapabilitySet} (hk : shape resolved = some kind)
    (incomparable : ¬ SetComparable kind allowed) : setContains resolved allowed = false := by
  simp only [SetComparable, not_or, not_exists, not_and, Bool.not_eq_true] at incomparable
  obtain ⟨nonempty, misfit⟩ := incomparable
  cases resolved with
  | text text =>
      cases hk
      simp only [setContains, List.any_eq_false]
      intro value member same
      rw [beq_iff_eq.mp same] at member
      cases misfit _ member
  | number number =>
      cases hk
      simp only [setContains, List.any_eq_false]
      intro value member same
      rw [beq_iff_eq.mp same] at member
      cases misfit _ member
  | textList items =>
      cases hk
      obtain ⟨value, member⟩ := List.exists_mem_of_ne_nil allowed nonempty
      simp only [setContains, List.all_eq_false]
      refine ⟨value, member, ?_⟩
      have element := misfit value member
      cases value <;> first | (cases element; done) | simp
  | flag value => rfl
  | instant value => rfl
  | absent => cases hk

theorem compareMembership_unset {op : IntakeOp} (h : op.isSet = false)
    (resolved : ResolvedField) (allowed : CapabilitySet) :
    compareMembership resolved allowed op = .unknown := by
  cases op <;> first | (cases h; done) | rfl

theorem compareMembership_set {op : IntakeOp} (h : op.isSet = true)
    (resolved : ResolvedField) (allowed : CapabilitySet) :
    compareMembership resolved allowed op =
      truth (setContains resolved allowed ^^ op.isNegatedSet) := by
  cases op <;> first | (cases h; done) | skip
  all_goals cases hc : setContains resolved allowed <;> simp [compareMembership, hc] <;> rfl

theorem leafSound_truth_iff {context : IntakeContext} {rule : IntakeRule} {kind : ValueKind}
    (b : Bool) : LeafSound context rule kind (.ok (truth b)) ↔ rule.op ∈ opsOf kind ∧
      (b = true → rule.op.isNegatedSet = true →
        OperandComparable context kind rule.op rule.value) := by
  cases b <;> simp [truth, LeafSound]

theorem leafSound_literal {rule : IntakeRule} {item : IntakeItem} {context : IntakeContext}
    {resolved : ResolvedField} {kind : ValueKind}
    (hr : resolveField rule.field item context = .ok resolved) (hk : shape resolved = some kind)
    (literal : rule.value.isLiteral = true) :
    LeafSound context rule kind (evalRule rule item context) := by
  have present := present_ne_absent hk
  rw [evalRule_literal hr present literal]
  by_cases fits : operandFits kind rule.op rule.value = true
  · obtain ⟨b, hb⟩ := compareDirect_fits hk fits literal rule.field context.nowMs
    rw [hb, leafSound_truth_iff]
    refine ⟨operandFits_op_mem fits, fun _ _ => ?_⟩
    cases hv : rule.value <;> simp_all [OperandComparable, IntakeValue.isLiteral]
  · rw [compareDirect_misfit hk (Bool.not_eq_true _ ▸ fits) literal]
    trivial

theorem leafSound_membership_iff {rule : IntakeRule} {context : IntakeContext}
    {resolved : ResolvedField} {kind : ValueKind} {reference : String} {allowed : CapabilitySet}
    (hk : shape resolved = some kind) (hv : rule.value = .capabilityRef reference)
    (hc : context.capabilities reference = .ok allowed) :
    LeafSound context rule kind (.ok (compareMembership resolved allowed rule.op)) ↔
      rule.op ∈ opsOf kind ∧ rule.op.isSet = true ∧
        (rule.op.isNegatedSet = true → SetComparable kind allowed) := by
  have comparable : OperandComparable context kind rule.op rule.value ↔
      SetComparable kind allowed := by
    rw [hv, OperandComparable, hc]
    simp
  by_cases set : rule.op.isSet = true
  · rw [compareMembership_set set, leafSound_truth_iff, comparable]
    constructor
    · rintro ⟨row, h⟩
      refine ⟨row, set, fun negated => ?_⟩
      by_contra incomparable
      exact incomparable (h (by simp [setContains_incomparable hk incomparable, negated]) negated)
    · rintro ⟨row, _, h⟩
      exact ⟨row, fun _ => h⟩
  · rw [compareMembership_unset (Bool.not_eq_true _ ▸ set)]
    simp [LeafSound, set]

/-- For a present value, a leaf is sound exactly when its capability operand, if
it has one that resolves, is usable for the value's kind. -/
theorem evalRule_sound_iff (rule : IntakeRule) (item : IntakeItem) (context : IntakeContext)
    (resolved : ResolvedField) (kind : ValueKind)
    (hr : resolveField rule.field item context = .ok resolved) (hk : shape resolved = some kind) :
    LeafSound context rule kind (evalRule rule item context) ↔
      CapabilityUsable context rule kind := by
  by_cases literal : rule.value.isLiteral = true
  · refine ⟨fun _ reference _ hv => ?_, fun _ => leafSound_literal hr hk literal⟩
    rw [hv] at literal
    cases literal
  obtain ⟨reference, hv⟩ := isLiteral_eq_false_iff.mp (Bool.not_eq_true _ ▸ literal)
  have present := present_ne_absent hk
  rw [evalRule_capability hr present hv]
  cases hc : context.capabilities reference with
  | error e =>
      refine ⟨fun _ reference' allowed hv' hc' => ?_, fun _ => trivial⟩
      rw [hv] at hv'
      cases hv'
      rw [hc] at hc'
      cases hc'
  | ok allowed =>
      rw [leafSound_membership_iff hk hv hc]
      constructor
      · intro usable reference' allowed' hv' hc'
        rw [hv] at hv'
        cases hv'
        rw [hc] at hc'
        cases hc'
        exact usable
      · intro usable
        exact usable reference allowed hv hc

/-- A registry whose only custom field is a flag, and a capability with one account name. -/
def flagContext : IntakeContext where
  nowMs := 10000
  customFields := fun _ _ => .ok (.flag true)
  capabilities := fun _ => .ok [.str "Ada"]

theorem evalRule_sound_iff_flag :
    LeafSound flagContext ⟨.custom "flagged", .eq, .bool true⟩ .flag
      (evalRule ⟨.custom "flagged", .eq, .bool true⟩
        (.unfetched "frwiki" "edit" 0 10000) flagContext) :=
  (evalRule_sound_iff _ _ flagContext (.flag true) .flag rfl rfl).mpr
    fun _ _ h => nomatch h

/-- Two accepted rules about a present flag: an equality with a capability is
unknown, and the absence of the flag from a set of names is affirmed. -/
theorem evalRule_unsound_flag :
    validateRule ⟨.custom "flagged", .eq, .capabilityRef "admins"⟩ = .ok () ∧
    validateRule ⟨.custom "flagged", .notIn, .capabilityRef "admins"⟩ = .ok () ∧
    resolveField (.custom "flagged") (.unfetched "frwiki" "edit" 0 10000) flagContext =
      .ok (.flag true) ∧
    evalRule ⟨.custom "flagged", .eq, .capabilityRef "admins"⟩
      (.unfetched "frwiki" "edit" 0 10000) flagContext = .ok .unknown ∧
    evalRule ⟨.custom "flagged", .notIn, .capabilityRef "admins"⟩
      (.unfetched "frwiki" "edit" 0 10000) flagContext = .ok .true ∧
    operandFits .flag .notIn (.capabilityRef "admins") = false ∧
    ¬ SetComparable .flag [.str "Ada"] := by
  refine ⟨rfl, rfl, rfl, rfl, rfl, rfl, ?_⟩
  decide

end SP42.Intake

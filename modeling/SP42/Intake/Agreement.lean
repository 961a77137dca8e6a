import SP42.Intake.Verdict

/-!
The load-time table and the evaluator agree on the built-in fields: what one
accepts the other can compare. An accepted rule is evaluated by its row of the
table, a negative operator negates its positive one, and a resolved capability
stands for the literal list of its elements.
-/
namespace SP42.Intake

def CustomFree (c : IntakeCondition) : Prop :=
  ∀ r, Occurs r c → ∀ name, r.field ≠ .custom name

def CapabilitiesResolve (context : IntakeContext) (c : IntakeCondition) : Prop :=
  ∀ r reference, Occurs r c → r.value = .capabilityRef reference →
    ∃ allowed, context.capabilities reference = .ok allowed

def textOf : IntakeValue → Option String
  | .str text => some text
  | _ => none

def numberOf : IntakeValue → Option Int
  | .int number => some number
  | _ => none

/-- A capability set written in a rule about a field of the kind. -/
def literalList : ValueKind → CapabilitySet → IntakeValue
  | .number, allowed => .intList (allowed.filterMap numberOf)
  | _, allowed => .strList (allowed.filterMap textOf)

theorem eq_map_str {kind : ValueKind} (hk : kind = .text ∨ kind = .textList) {allowed : CapabilitySet}
    (fit : ∀ element ∈ allowed, elementFits kind element = true) :
    allowed = (allowed.filterMap textOf).map .str := by
  induction allowed with
  | nil => rfl
  | cons value rest ih =>
      obtain ⟨head, tail⟩ := List.forall_mem_cons.mp fit
      have same := ih tail
      cases value with
      | str text => exact congrArg (IntakeValue.str text :: ·) same
      | _ => rcases hk with rfl | rfl <;> cases head

theorem eq_map_int {allowed : CapabilitySet}
    (fit : ∀ element ∈ allowed, elementFits .number element = true) :
    allowed = (allowed.filterMap numberOf).map .int := by
  induction allowed with
  | nil => rfl
  | cons value rest ih =>
      obtain ⟨head, tail⟩ := List.forall_mem_cons.mp fit
      have same := ih tail
      cases value with
      | int number => exact congrArg (IntakeValue.int number :: ·) same
      | _ => cases head

theorem setContains_text (text : String) (items : List String) :
    setContains (.text text) (items.map .str) = items.contains text := by
  rw [Bool.eq_iff_iff]
  simp [setContains]

theorem setContains_number (number : Int) (items : List Int) :
    setContains (.number number) (items.map .int) = items.contains number := by
  rw [Bool.eq_iff_iff]
  simp [setContains]

theorem setContains_textList (actual items : List String) :
    setContains (.textList actual) (items.map .str) =
      items.all fun wanted => actual.contains wanted := by
  simp only [setContains, List.all_map, Function.comp_def]

/-- Comparing with a set of the field's element type is comparing with its literal list. -/
theorem compareDirect_literalList {resolved : ResolvedField} {kind : ValueKind} {op : IntakeOp}
    {allowed : CapabilitySet} (hk : shape resolved = some kind) (set : op = .in_ ∨ op = .notIn)
    (listed : kind = .text ∨ kind = .number ∨ kind = .textList)
    (fit : ∀ element ∈ allowed, elementFits kind element = true) (field : IntakeField)
    (nowMs : Int) :
    compareDirect field resolved (literalList kind allowed) op nowMs =
      .ok (compareMembership resolved allowed op) := by
  cases resolved with
  | text actual =>
      cases hk
      have contains : setContains (.text actual) allowed =
          (allowed.filterMap textOf).contains actual := by
        conv_lhs => rw [eq_map_str (.inl rfl) fit]
        exact setContains_text actual _
      rcases set with rfl | rfl <;> (simp only [compareMembership, contains]; rfl)
  | number actual =>
      cases hk
      have contains : setContains (.number actual) allowed =
          (allowed.filterMap numberOf).contains actual := by
        conv_lhs => rw [eq_map_int fit]
        exact setContains_number actual _
      rcases set with rfl | rfl <;> (simp only [compareMembership, contains]; rfl)
  | textList actual =>
      cases hk
      have contains : setContains (.textList actual) allowed =
          (allowed.filterMap textOf).all fun wanted => actual.contains wanted := by
        conv_lhs => rw [eq_map_str (.inr rfl) fit]
        exact setContains_textList actual _
      rcases set with rfl | rfl <;> (simp only [compareMembership, contains]; rfl)
  | flag actual => cases hk; simp at listed
  | instant actual => cases hk; simp at listed
  | absent => cases hk

section AcceptedRule

variable {rule : IntakeRule} {spec : FieldSpec} {context : IntakeContext}

/-- An accepted rule about a built-in field never fails on its own account. -/
theorem evalRule_builtin_ok (hs : fieldSpec rule.field = some spec)
    (fits : operandFits spec.kind rule.op rule.value = true)
    (resolves : ∀ reference, rule.value = .capabilityRef reference →
      ∃ allowed, context.capabilities reference = .ok allowed) (item : IntakeItem) :
    ∃ t, evalRule rule item context = .ok t := by
  obtain ⟨resolved, hr, absent | hk⟩ := resolveField_builtin hs item context
  · exact ⟨.unknown, evalRule_absent (absent ▸ hr)⟩
  have present := present_ne_absent hk
  by_cases literal : rule.value.isLiteral = true
  · obtain ⟨b, answer⟩ := compareDirect_fits hk fits literal rule.field context.nowMs
    exact ⟨truth b, by rw [evalRule_literal hr present literal, answer]⟩
  · obtain ⟨reference, hv⟩ := isLiteral_eq_false_iff.mp (Bool.not_eq_true _ ▸ literal)
    obtain ⟨allowed, hc⟩ := resolves reference hv
    exact ⟨_, by rw [evalRule_capability hr present hv, hc]⟩

theorem evalRule_negative (hs : fieldSpec rule.field = some spec)
    (fits : operandFits spec.kind rule.op rule.value = true) {pos : IntakeOp}
    (hp : rule.op.positive = some pos) (item : IntakeItem) :
    evalRule rule item context =
      triNot <$> evalRule { rule with op := pos } item context := by
  obtain ⟨resolved, hr, absent | hk⟩ := resolveField_builtin hs item context
  all_goals
    have same : resolveField ({ rule with op := pos } : IntakeRule).field item context =
      .ok resolved := hr
  · subst absent
    rw [evalRule_absent hr, evalRule_absent same]
    rfl
  have present := present_ne_absent hk
  by_cases literal : rule.value.isLiteral = true
  · rw [evalRule_literal hr present literal, evalRule_literal same present literal]
    exact compareDirect_negative hk fits literal hp rule.field context.nowMs
  · obtain ⟨reference, hv⟩ := isLiteral_eq_false_iff.mp (Bool.not_eq_true _ ▸ literal)
    rw [evalRule_capability hr present hv, evalRule_capability same present hv]
    cases context.capabilities reference with
    | error e => rfl
    | ok allowed =>
        simp only [compareMembership_negative hp resolved allowed]
        rfl

theorem evalRule_literalList (hs : fieldSpec rule.field = some spec)
    (fits : operandFits spec.kind rule.op rule.value = true) {reference : String}
    {allowed : CapabilitySet} (hv : rule.value = .capabilityRef reference)
    (hc : context.capabilities reference = .ok allowed)
    (fit : ∀ element ∈ allowed, elementFits spec.kind element = true) (item : IntakeItem) :
    evalRule { rule with value := literalList spec.kind allowed } item context =
      evalRule rule item context := by
  rw [hv, operandFits_capabilityRef] at fits
  obtain ⟨set, listed⟩ := fits
  obtain ⟨resolved, hr, absent | hk⟩ := resolveField_builtin hs item context
  all_goals
    have same : resolveField ({ rule with value := literalList spec.kind allowed } :
      IntakeRule).field item context = .ok resolved := hr
  · subst absent
    rw [evalRule_absent hr, evalRule_absent same]
  have present := present_ne_absent hk
  have literal : (literalList spec.kind allowed).isLiteral = true := by
    cases spec.kind <;> rfl
  rw [evalRule_capability hr present hv, hc, evalRule_literal same present literal]
  exact compareDirect_literalList hk set listed fit rule.field context.nowMs

end AcceptedRule

/-- The table and the evaluator agree on every accepted pipeline of built-in fields. -/
theorem evaluateIntake_agrees (sha256Hex : ByteArray → String) (p : IntakePipeline)
    (compiled : CompiledPipeline) (context : IntakeContext) (item : IntakeItem)
    (accepted : compilePipeline sha256Hex p = .ok compiled) (builtin : CustomFree p.condition)
    (resolves : CapabilitiesResolve context p.condition) :
    (∃ outcome matched, evaluateIntake item compiled context =
      .ok (.routed outcome p.id matched compiled.configVersion)) ∧
    (∀ r pos, Occurs r p.condition → r.op.positive = some pos →
      evalRule r item context = triNot <$> evalRule { r with op := pos } item context) ∧
    (∀ r spec reference allowed, Occurs r p.condition → (r.op = .in_ ∨ r.op = .notIn) →
      fieldSpec r.field = some spec → r.value = .capabilityRef reference →
      context.capabilities reference = .ok allowed →
      (∀ element ∈ allowed, elementFits spec.kind element = true) →
      evalRule { r with value := literalList spec.kind allowed } item context =
        evalRule r item context) := by
  have valid := compilePipeline_valid accepted
  obtain ⟨_, hcompiled⟩ := (compilePipeline_ok_iff _ _ _).mp accepted
  have same : compiled.pipeline = p := by rw [hcompiled]
  have row : ∀ r, Occurs r p.condition → ∃ spec, fieldSpec r.field = some spec ∧
      operandFits spec.kind r.op r.value = true := by
    intro r hr
    cases hs : fieldSpec r.field with
    | none =>
        obtain ⟨name, custom⟩ := (fieldSpec_eq_none_iff _).mp hs
        exact absurd custom (builtin r hr name)
    | some spec =>
        rw [same, validateCondition_ok_iff] at valid
        exact ⟨spec, rfl, (validateRule_ok_iff r).mp (valid r hr) spec hs⟩
  refine ⟨?_, fun r pos hr hp => ?_, fun r spec reference allowed hr _ hs hv hc fit => ?_⟩
  · rcases misconfigured_or_routed context item valid with bad | ⟨t, matched, _, routed⟩
    · obtain ⟨r, hr, reason, failed⟩ :=
        (verdict_fails_iff _ _ _).mp ((isMisconfigured_iff valid).mp bad)
      rw [same] at hr
      obtain ⟨spec, hs, fits⟩ := row r hr
      obtain ⟨t, answer⟩ := evalRule_builtin_ok hs fits (fun ref => resolves r ref hr) item
      rw [failed] at answer
      cases answer
    · rw [same] at routed
      exact ⟨_, matched, routed⟩
  · obtain ⟨spec, hs, fits⟩ := row r hr
    exact evalRule_negative hs fits hp item
  · obtain ⟨spec', hs', fits⟩ := row r hr
    rw [hs] at hs'
    cases hs'
    exact evalRule_literalList hs fits hv hc fit item

/-- Editors of a list of accounts, outside the pages of another. -/
def trustedEdits : IntakePipeline where
  id := "trusted"
  condition := .all [.rule ⟨.actorUsername, .in_, .capabilityRef "editors"⟩,
    .rule ⟨.pageId, .notIn, .intList [7]⟩]
  onPass := .admitTo "patrol"
  onFail := .drop
  onUnknown := none

/-- Whatever `sha256Hex` is elsewhere, this is its value on the bytes of `trustedEdits`. -/
def trustedEditsSha256 : ByteArray → String := fun _ => "863065a5eaf310118542a9c2a8d99729fdaf6d6fba3971f1fd5038f2be13c3ec"

/-- A context whose every capability is one account, and an edit by that account. -/
def adaContext : IntakeContext := ⟨10000, noCustomFields, fun _ => .ok [.str "Ada"]⟩

def adaEdit : IntakeItem :=
  { IntakeItem.unfetched "frwiki" "edit" 0 10000 with
    pageId := some 7, actor := ⟨some "Ada", none, false, none⟩ }

theorem evaluateIntake_agrees_trusted :
    (∃ outcome matched, evaluateIntake adaEdit
        ⟨trustedEdits, configDigest trustedEditsSha256 trustedEdits⟩ adaContext =
      .ok (.routed outcome "trusted" matched (configDigest trustedEditsSha256 trustedEdits))) ∧
    evalRule ⟨.pageId, .notIn, .intList [7]⟩ adaEdit adaContext =
      triNot <$> evalRule ⟨.pageId, .in_, .intList [7]⟩ adaEdit adaContext ∧
    evalRule ⟨.actorUsername, .in_, .strList ["Ada"]⟩ adaEdit adaContext =
      evalRule ⟨.actorUsername, .in_, .capabilityRef "editors"⟩ adaEdit adaContext := by
  have builtin : CustomFree trustedEdits.condition := by
    intro r hr name
    rcases hr with _ | ⟨hc, hr⟩
    rcases List.mem_pair.mp hc with rfl | rfl <;> cases hr <;> exact IntakeField.noConfusion
  obtain ⟨routed, negative, literal⟩ := evaluateIntake_agrees trustedEditsSha256 trustedEdits _
    adaContext adaEdit rfl builtin fun _ _ _ _ => ⟨_, rfl⟩
  refine ⟨routed, negative _ _ (.all (List.mem_cons_of_mem _ List.mem_cons_self) .rule) rfl,
    literal _ _ _ _ (.all List.mem_cons_self .rule) (.inl rfl) rfl rfl rfl ?_⟩
  decide

end SP42.Intake

import SP42.Intake.Contracts

/-!
The compatibility table of fields, operators and operands, and the load-time
check built on it. A custom field has no row: its shape belongs to the registry
that resolves it, so every rule about it passes here.
-/
namespace SP42.Intake

inductive ValueKind where
  | text
  | number
  | textList
  | flag
  | instant
  deriving DecidableEq, Repr

structure FieldSpec where
  kind : ValueKind
  ops : List IntakeOp
  deriving DecidableEq, Repr

def scalarOps : List IntakeOp := [.eq, .notEq, .in_, .notIn]
def listOps : List IntakeOp := [.in_, .notIn, .has, .notHas]
def flagOps : List IntakeOp := [.eq, .notEq]
def temporalOps : List IntakeOp := [.before, .after, .olderThan, .youngerThan]

def fieldSpec : IntakeField → Option FieldSpec
  | .eventType | .actorUsername => some ⟨.text, scalarOps⟩
  | .namespace_ | .pageId | .revisionId => some ⟨.number, scalarOps⟩
  | .actorRights => some ⟨.textList, listOps⟩
  | .actorIsBot => some ⟨.flag, flagOps⟩
  | .createdAt | .lastRevisionAt | .actorAccountCreatedAt | .observedAt =>
      some ⟨.instant, temporalOps⟩
  | .custom _ => none

/-- The config spelling of a field, as it appears in errors, paths and digests. -/
def label : IntakeField → String
  | .eventType => "event_type"
  | .namespace_ => "namespace"
  | .pageId => "page_id"
  | .revisionId => "revision_id"
  | .createdAt => "created_at"
  | .lastRevisionAt => "last_revision_at"
  | .actorUsername => "actor_username"
  | .actorRights => "actor_rights"
  | .actorIsBot => "actor_is_bot"
  | .actorAccountCreatedAt => "actor_account_created_at"
  | .observedAt => "observed_at"
  | .custom name => "custom:" ++ name

def opLabel : IntakeOp → String
  | .eq => "eq"
  | .notEq => "not_eq"
  | .in_ => "in"
  | .notIn => "not_in"
  | .has => "has"
  | .notHas => "not_has"
  | .before => "before"
  | .after => "after"
  | .olderThan => "older_than"
  | .youngerThan => "younger_than"

/-- A load-time defect of a rule, naming the field it checks. -/
inductive IntakeError where
  | operatorNotAllowed (field : String) (op : IntakeOp)
  | valueNotAllowed (field : String) (kind : ValueKind) (op : IntakeOp) (value : IntakeValue)
  deriving DecidableEq, Repr

/-- Whether an operand is the right shape for a kind under a given operator. -/
def operandFits (kind : ValueKind) (op : IntakeOp) : IntakeValue → Bool
  -- a capability reference stands in for a set operand, and only for one
  | .capabilityRef _ =>
      (op == .in_ || op == .notIn) && (kind == .text || kind == .number || kind == .textList)
  | value =>
    match op with
    | .eq | .notEq =>
      match kind, value with
      | .text, .str _ => true
      | .number, .int _ => true
      | .flag, .bool _ => true
      | _, _ => false
    | .in_ | .notIn =>
      match kind, value with
      | .text, .strList _ => true
      | .textList, .strList _ => true
      | .number, .intList _ => true
      | _, _ => false
    | .has | .notHas =>
      match kind, value with
      | .textList, .str _ => true
      | _, _ => false
    | .before | .after =>
      match kind, value with
      | .instant, .timestamp _ => true
      | _, _ => false
    | .olderThan | .youngerThan =>
      match kind, value with
      | .instant, .duration _ => true
      | _, _ => false

def validateRule (rule : IntakeRule) : Except IntakeError Unit :=
  match fieldSpec rule.field with
  | none => .ok ()
  | some spec =>
    if !spec.ops.contains rule.op then
      .error (.operatorNotAllowed (label rule.field) rule.op)
    else if !operandFits spec.kind rule.op rule.value then
      .error (.valueNotAllowed (label rule.field) spec.kind rule.op rule.value)
    else .ok ()

mutual
/-- The first offending rule in tree order is the one reported. -/
def validateCondition : IntakeCondition → Except IntakeError Unit
  | .all children => validateChildren children
  | .any children => validateChildren children
  | .not child => validateCondition child
  | .rule rule => validateRule rule

def validateChildren : List IntakeCondition → Except IntakeError Unit
  | [] => .ok ()
  | child :: rest => do
      validateCondition child
      validateChildren rest
end

/-- The operators the table gives a kind, whatever the field. -/
def opsOf : ValueKind → List IntakeOp
  | .text | .number => scalarOps
  | .textList => listOps
  | .flag => flagOps
  | .instant => temporalOps

theorem fieldSpec_ops {field : IntakeField} {spec : FieldSpec} (h : fieldSpec field = some spec) :
    spec.ops = opsOf spec.kind := by
  cases field <;> cases h <;> rfl

theorem fieldSpec_eq_none_iff (field : IntakeField) :
    fieldSpec field = none ↔ ∃ name, field = .custom name := by
  cases field <;> simp [fieldSpec]

/-- A literal operand only ever fits under an operator of the kind's own row. -/
theorem operandFits_op_mem {kind : ValueKind} {op : IntakeOp} {value : IntakeValue}
    (h : operandFits kind op value = true) : op ∈ opsOf kind := by
  cases kind <;> cases op <;> cases value <;> first | (cases h; done) | decide

theorem operandFits_capabilityRef {kind : ValueKind} {op : IntakeOp} {name : String} :
    operandFits kind op (.capabilityRef name) = true ↔
      (op = .in_ ∨ op = .notIn) ∧ (kind = .text ∨ kind = .number ∨ kind = .textList) := by
  simp [operandFits, or_assoc]

theorem validateRule_ok_iff (rule : IntakeRule) :
    validateRule rule = .ok () ↔
      ∀ spec, fieldSpec rule.field = some spec → operandFits spec.kind rule.op rule.value = true := by
  unfold validateRule
  cases h : fieldSpec rule.field with
  | none => simp
  | some spec =>
      simp only [Option.some.injEq, forall_eq']
      by_cases fits : operandFits spec.kind rule.op rule.value = true
      · have row : rule.op ∈ spec.ops := fieldSpec_ops h ▸ operandFits_op_mem fits
        simp [fits, row]
      · by_cases row : rule.op ∈ spec.ops <;> simp [fits, row]

/-- Every load-time error names the field of the rule it rejects. -/
theorem validateRule_error_field {rule : IntakeRule} {e : IntakeError}
    (h : validateRule rule = .error e) :
    (∃ op, e = .operatorNotAllowed (label rule.field) op) ∨
      ∃ kind op value, e = .valueNotAllowed (label rule.field) kind op value := by
  unfold validateRule at h
  cases hs : fieldSpec rule.field with
  | none => rw [hs] at h; cases h
  | some spec =>
      rw [hs] at h
      dsimp only at h
      split at h
      · cases h; exact .inl ⟨_, rfl⟩
      · split at h
        · cases h; exact .inr ⟨_, _, _, rfl⟩
        · cases h

theorem validateChildren_ok_iff (cs : List IntakeCondition) :
    validateChildren cs = .ok () ↔ ∀ c ∈ cs, validateCondition c = .ok () := by
  induction cs with
  | nil => simp [validateChildren]
  | cons c cs ih =>
      rw [validateChildren, List.forall_mem_cons, ← ih]
      cases h : validateCondition c with
      | error e => simp [bind, Except.bind]
      | ok u => simp [bind, Except.bind]

/-- A tree passes the load-time check exactly when each of its leaves does. -/
theorem validateCondition_ok_iff (c : IntakeCondition) :
    validateCondition c = .ok () ↔ ∀ r, Occurs r c → validateRule r = .ok () := by
  induction c with
  | all cs ih =>
      rw [validateCondition, validateChildren_ok_iff]
      constructor
      · intro h r hr
        cases hr with
        | all hc hr => exact (ih _ hc).mp (h _ hc) r hr
      · intro h c hc
        exact (ih c hc).mpr fun r hr => h r (.all hc hr)
  | any cs ih =>
      rw [validateCondition, validateChildren_ok_iff]
      constructor
      · intro h r hr
        cases hr with
        | any hc hr => exact (ih _ hc).mp (h _ hc) r hr
      · intro h c hc
        exact (ih c hc).mpr fun r hr => h r (.any hc hr)
  | not c ih =>
      rw [validateCondition, ih]
      constructor
      · intro h r hr
        cases hr with
        | not hr => exact h r hr
      · intro h r hr
        exact h r (.not hr)
  | rule r =>
      rw [validateCondition]
      constructor
      · intro h s hs
        cases hs with
        | rule => exact h
      · intro h
        exact h r .rule

end SP42.Intake

/-!
The canonical rendering of a pipeline, the bytes its digest hashes, and the
compiled pipeline that carries the digest. SHA-256 itself is a parameter: a
function from the hashed bytes to the lower-case hexadecimal text of the digest.
-/
namespace SP42.Intake

def joinNumbers (values : List Int) : String := ",".intercalate (values.map toString)

def canonicalValue : IntakeValue → String
  | .str text => "str:" ++ text
  | .int number => "int:" ++ toString number
  | .strList items => "strs:[" ++ ",".intercalate items ++ "]"
  | .intList items => "ints:[" ++ joinNumbers items ++ "]"
  | .bool flag => "bool:" ++ toString flag
  | .timestamp stamp => "ts:" ++ toString stamp
  | .duration duration => "dur:" ++ toString duration
  | .capabilityRef name => "cap:" ++ name

def canonicalRule (rule : IntakeRule) : String :=
  "rule(" ++ label rule.field ++ "," ++ opLabel rule.op ++ "," ++ canonicalValue rule.value ++ ")"

mutual
/-- An order-preserving rendering; the children are joined by commas. -/
def canonicalCondition : IntakeCondition → String
  | .all children => "all(" ++ ",".intercalate (canonicalChildren children) ++ ")"
  | .any children => "any(" ++ ",".intercalate (canonicalChildren children) ++ ")"
  | .not child => "not(" ++ canonicalCondition child ++ ")"
  | .rule rule => canonicalRule rule

def canonicalChildren : List IntakeCondition → List String
  | [] => []
  | child :: rest => canonicalCondition child :: canonicalChildren rest
end

def canonicalOutcome : IntakeOutcome → String
  | .admitTo routeTo => "admit:" ++ routeTo
  | .drop => "drop"
  | .reclassify pipeline => "reclassify:" ++ pipeline

/-- The parts of a pipeline in the order they are hashed. -/
def digestParts (p : IntakePipeline) : List String :=
  [p.id, canonicalCondition p.condition, canonicalOutcome p.onPass, canonicalOutcome p.onFail,
    (p.onUnknown.map canonicalOutcome).getD ""]

/-- The domain-separation prefix keeps these digests apart from any other use of the bytes. -/
def digestPrefix : String := "sp42/intake-pipeline/v1\x00"

/-- Every byte string fed to the hasher, in order: the prefix, then each part and its NUL. -/
def configDigestInput (p : IntakePipeline) : ByteArray :=
  (digestParts p).foldl (fun hasher part => hasher ++ part.toUTF8 ++ "\x00".toUTF8)
    digestPrefix.toUTF8

def configVersionLen : Nat := 16

def configDigest (sha256Hex : ByteArray → String) (p : IntakePipeline) : String :=
  String.ofList ((sha256Hex (configDigestInput p)).toList.take configVersionLen)

/-- A pipeline whose rules have been type-checked and whose version is pinned. -/
structure CompiledPipeline where
  pipeline : IntakePipeline
  configVersion : String

def compilePipeline (sha256Hex : ByteArray → String) (p : IntakePipeline) :
    Except IntakeError CompiledPipeline := do
  validateCondition p.condition
  .ok ⟨p, configDigest sha256Hex p⟩

@[simp] theorem canonicalChildren_eq_map (cs : List IntakeCondition) :
    canonicalChildren cs = cs.map canonicalCondition := by
  induction cs with
  | nil => rfl
  | cons c cs ih => rw [canonicalChildren, ih, List.map_cons]

theorem compilePipeline_ok_iff (sha256Hex : ByteArray → String) (p : IntakePipeline)
    (compiled : CompiledPipeline) :
    compilePipeline sha256Hex p = .ok compiled ↔
      validateCondition p.condition = .ok () ∧ compiled = ⟨p, configDigest sha256Hex p⟩ := by
  unfold compilePipeline
  cases validateCondition p.condition with
  | error e => simp [bind, Except.bind]
  | ok u => simp [bind, Except.bind, eq_comm]

theorem compilePipeline_valid {sha256Hex : ByteArray → String} {p : IntakePipeline}
    {compiled : CompiledPipeline} (accepted : compilePipeline sha256Hex p = .ok compiled) :
    validateCondition compiled.pipeline.condition = .ok () := by
  obtain ⟨valid, rfl⟩ := (compilePipeline_ok_iff _ _ _).mp accepted
  exact valid

end SP42.Intake

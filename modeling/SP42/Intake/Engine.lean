import SP42.Base.Machine
import SP42.Intake.Contracts
import SP42.Intake.Digest
import SP42.Lib.Kleene

/-!
The three-valued connectives of the evaluator, as its loops compute them, and
their agreement with strong Kleene logic. The one difference is deliberate: an
empty `triAny` is unknown, where an empty disjunction is false.
-/
namespace SP42.Intake

inductive Tri where
  | true
  | false
  | unknown
  deriving DecidableEq, Repr

/-- The loop of `tri_all`; `result` is `none` until the first value is seen. -/
def triAllLoop : Option Tri → List Tri → Tri
  | result, [] => result.getD .true
  | result, value :: rest =>
    match result.getD .true, value with
    | _, .false => .false
    | .false, _ => .false
    | .true, .unknown => triAllLoop (some .unknown) rest
    | .unknown, _ => triAllLoop (some .unknown) rest
    | .true, .true => triAllLoop (some .true) rest

def triAll (values : List Tri) : Tri := triAllLoop none values

def triAnyLoop : Option Tri → List Tri → Tri
  -- the empty case is a decision: nothing can be affirmed about no child at all
  | result, [] => result.getD .unknown
  | result, value :: rest =>
    match result.getD .false, value with
    | _, .true => .true
    | .true, _ => .true
    | .false, .unknown => triAnyLoop (some .unknown) rest
    | .unknown, _ => triAnyLoop (some .unknown) rest
    | .false, .false => triAnyLoop (some .false) rest

def triAny (values : List Tri) : Tri := triAnyLoop none values

def triNot : Tri → Tri
  | .true => .false
  | .false => .true
  | .unknown => .unknown

def truth (holds : Bool) : Tri := if holds then .true else .false

theorem triNot_truth (b : Bool) : triNot (truth b) = truth (!b) := by
  cases b <;> rfl

/-- The answer a verdict stands for. -/
def Tri.denote : Tri → Option Bool
  | .true => some Bool.true
  | .false => some Bool.false
  | .unknown => none

/-- `t.Refines u`: the verdict `u` keeps the answer of `t`, if `t` is one. -/
def Tri.Refines (t u : Tri) : Prop := Kleene.Refines t.denote u.denote

theorem Tri.Refines.refl (t : Tri) : t.Refines t := Kleene.Refines.refl _

theorem Tri.unknown_refines (t : Tri) : Tri.Refines .unknown t := Kleene.none_refines _

theorem Tri.Refines.eq {t u : Tri} (h : t.Refines u) (known : t ≠ .unknown) : u = t := by
  cases t with
  | true => cases u <;> simp_all [Tri.Refines, Kleene.Refines, Tri.denote]
  | false => cases u <;> simp_all [Tri.Refines, Kleene.Refines, Tri.denote]
  | unknown => exact absurd rfl known

theorem triNot_denote (t : Tri) : (triNot t).denote = Kleene.neg t.denote := by
  cases t <;> rfl

theorem triAllLoop_denote (t : Tri) (known : t ≠ .false) (values : List Tri) :
    (triAllLoop (some t) values).denote = Kleene.conj (t.denote :: values.map Tri.denote) := by
  induction values generalizing t with
  | nil => cases t <;> simp_all [triAllLoop, Kleene.conj, Tri.denote]
  | cons v vs ih =>
      rw [List.map_cons, Kleene.conj_cons, Kleene.conj_cons]
      have hu := ih .unknown (by simp)
      have ht := ih .true (by simp)
      rw [Kleene.conj_cons] at hu ht
      cases t <;> cases v <;> simp_all [triAllLoop, Tri.denote] <;>
        rcases Kleene.conj (vs.map Tri.denote) with _ | (_ | _) <;> rfl

theorem triAll_denote (values : List Tri) :
    (triAll values).denote = Kleene.conj (values.map Tri.denote) := by
  cases values with
  | nil => rfl
  | cons v vs =>
      cases v with
      | true => exact triAllLoop_denote .true (by simp) vs
      | false => simp [triAll, triAllLoop, Tri.denote, Kleene.conj]
      | unknown => exact triAllLoop_denote .unknown (by simp) vs

theorem triAnyLoop_dual (t : Tri) (values : List Tri) :
    triAnyLoop (some t) values = triNot (triAllLoop (some (triNot t)) (values.map triNot)) := by
  induction values generalizing t with
  | nil => cases t <;> rfl
  | cons v vs ih => cases t <;> cases v <;> simp [triAnyLoop, triAllLoop, triNot, ih]

theorem triAny_dual {values : List Tri} (inhabited : values ≠ []) :
    triAny values = triNot (triAll (values.map triNot)) := by
  cases values with
  | nil => exact absurd rfl inhabited
  | cons v vs =>
      cases v <;> simp [triAny, triAll, triAnyLoop, triAllLoop, triNot, triAnyLoop_dual]

theorem triAny_denote {values : List Tri} (inhabited : values ≠ []) :
    (triAny values).denote = Kleene.disj (values.map Tri.denote) := by
  rw [triAny_dual inhabited, triNot_denote, triAll_denote, Kleene.disj]
  simp [triNot_denote, Function.comp_def]

theorem triNot_mono {t u : Tri} (h : t.Refines u) : (triNot t).Refines (triNot u) := by
  unfold Tri.Refines
  rw [triNot_denote, triNot_denote]
  exact Kleene.neg_mono h

theorem denote_forall₂ {ts us : List Tri} (h : List.Forall₂ Tri.Refines ts us) :
    List.Forall₂ Kleene.Refines (ts.map Tri.denote) (us.map Tri.denote) := by
  rw [List.forall₂_map_left_iff, List.forall₂_map_right_iff]
  exact h

theorem triAll_mono {ts us : List Tri} (h : List.Forall₂ Tri.Refines ts us) :
    (triAll ts).Refines (triAll us) := by
  unfold Tri.Refines
  rw [triAll_denote, triAll_denote]
  exact Kleene.conj_mono (denote_forall₂ h)

theorem triAny_mono {ts us : List Tri} (h : List.Forall₂ Tri.Refines ts us) :
    (triAny ts).Refines (triAny us) := by
  cases h with
  | nil => exact Tri.Refines.refl _
  | cons hd tl =>
      unfold Tri.Refines
      rw [triAny_denote (List.cons_ne_nil _ _), triAny_denote (List.cons_ne_nil _ _)]
      exact Kleene.disj_mono (denote_forall₂ (.cons hd tl))

end SP42.Intake

/-!
The intake evaluator: field resolution, the two leaf comparisons, the walk over
the condition tree with its trail of fired rules, and the routed decision.
-/
namespace SP42.Intake

def optionalNumber (value : Option Int) : ResolvedField := value.elim .absent .number
def optionalInstant (value : Option Timestamp) : ResolvedField := value.elim .absent .instant

def resolveField (field : IntakeField) (item : IntakeItem) (context : IntakeContext) :
    Except IntakeMisconfiguration ResolvedField :=
  match field with
  | .eventType => .ok (.text item.eventType)
  | .namespace_ => .ok (.number item.namespace_)
  | .pageId => .ok (optionalNumber item.pageId)
  | .revisionId => .ok (optionalNumber item.revisionId)
  | .createdAt => .ok (optionalInstant item.createdAt)
  | .lastRevisionAt => .ok (optionalInstant item.lastRevisionAt)
  | .observedAt => .ok (.instant item.observedAt)
  | .actorUsername => .ok (item.actor.username.elim .absent .text)
  -- `none` stays absent and never becomes an empty list
  | .actorRights => .ok (item.actor.rights.elim .absent .textList)
  | .actorIsBot => .ok (.flag item.actor.isBot)
  | .actorAccountCreatedAt => .ok (optionalInstant item.actor.accountCreatedAt)
  | .custom name =>
      (context.customFields name item).mapError fun _ => .unregisteredCustomField name

/-- The `contains` of the membership comparison. -/
def setContains (resolved : ResolvedField) (allowed : CapabilitySet) : Bool :=
  match resolved with
  | .text text => allowed.any fun value => value == .str text
  | .number number => allowed.any fun value => value == .int number
  -- on a list the check is containment of the whole set
  | .textList items => allowed.all fun value => match value with
      | .str wanted => items.contains wanted
      | _ => false
  | _ => false

/-- Compare a resolved value against a set the capability resolver expanded. -/
def compareMembership (resolved : ResolvedField) (allowed : CapabilitySet) (op : IntakeOp) : Tri :=
  match op with
  | .in_ | .has => truth (setContains resolved allowed)
  | .notIn | .notHas => triNot (truth (setContains resolved allowed))
  | _ => .unknown

def describeResolved : ResolvedField → String
  | .text _ => "text"
  | .number _ => "number"
  | .textList _ => "text_list"
  | .flag _ => "flag"
  | .instant _ => "instant"
  | .absent => "absent"

/-- Compare a resolved value directly against a literal operand. -/
def compareDirect (field : IntakeField) (resolved : ResolvedField) (value : IntakeValue)
    (op : IntakeOp) (nowMs : Int) : Except IntakeMisconfiguration Tri :=
  match resolved, value, op with
  | .text actual, .str expected, .eq => .ok (truth (actual == expected))
  | .text actual, .str expected, .notEq => .ok (triNot (truth (actual == expected)))
  | .text actual, .strList expected, .in_ => .ok (truth (expected.contains actual))
  | .text actual, .strList expected, .notIn => .ok (triNot (truth (expected.contains actual)))
  | .number actual, .int expected, .eq => .ok (truth (actual == expected))
  | .number actual, .int expected, .notEq => .ok (triNot (truth (actual == expected)))
  | .number actual, .intList expected, .in_ => .ok (truth (expected.contains actual))
  | .number actual, .intList expected, .notIn => .ok (triNot (truth (expected.contains actual)))
  | .textList actual, .str expected, .has => .ok (truth (actual.contains expected))
  | .textList actual, .str expected, .notHas => .ok (triNot (truth (actual.contains expected)))
  | .textList actual, .strList expected, .in_ =>
      .ok (truth (expected.all fun wanted => actual.contains wanted))
  | .textList actual, .strList expected, .notIn =>
      .ok (triNot (truth (expected.all fun wanted => actual.contains wanted)))
  | .flag actual, .bool expected, .eq => .ok (truth (actual == expected))
  | .flag actual, .bool expected, .notEq => .ok (triNot (truth (actual == expected)))
  | .instant actual, .timestamp expected, .before =>
      .ok (truth (actual.isBefore (.fromEpochMs expected)))
  | .instant actual, .timestamp expected, .after =>
      .ok (truth (actual.isAfter (.fromEpochMs expected)))
  | .instant actual, .duration duration, .olderThan =>
      .ok (truth (decide (actual.epochMs < i64SaturatingSub nowMs duration)))
  | .instant actual, .duration duration, .youngerThan =>
      .ok (truth (decide (actual.epochMs > i64SaturatingSub nowMs duration)))
  | _, _, _ => .error (.unusableCustomField (label field) op (describeResolved resolved))

def evalRule (rule : IntakeRule) (item : IntakeItem) (context : IntakeContext) :
    Except IntakeMisconfiguration Tri := do
  let resolved ← resolveField rule.field item context
  if resolved.isAbsent then
    .ok .unknown
  else match rule.value with
    | .capabilityRef reference => do
        let allowed ← (context.capabilities reference).mapError fun _ =>
          .unresolvedCapability reference
        .ok (compareMembership resolved allowed rule.op)
    | value => compareDirect rule.field resolved value rule.op context.nowMs

mutual
/-- Walk a condition tree, appending to `matched` the rules that fired outside any `not`. -/
def evalCondition (condition : IntakeCondition) (item : IntakeItem) (context : IntakeContext)
    (matched : List String) : Except IntakeMisconfiguration (Tri × List String) :=
  match condition with
  | .all children => do
      let (values, fired) ← evalChildren children item context []
      .ok (triAll values, matched ++ fired)
  | .any children => do
      let (values, fired) ← evalChildren children item context []
      .ok (triAny values, matched ++ fired)
  | .not child => do
      -- what fired under a negation is evidence against the verdict
      let (verdict, _) ← evalCondition child item context []
      .ok (triNot verdict, matched)
  | .rule rule => do
      let verdict ← evalRule rule item context
      .ok (verdict, if verdict = .true
        then matched ++ [label rule.field ++ "." ++ opLabel rule.op] else matched)

/-- The loop over the children: every child is evaluated until one is misconfigured. -/
def evalChildren (children : List IntakeCondition) (item : IntakeItem) (context : IntakeContext)
    (fired : List String) : Except IntakeMisconfiguration (List Tri × List String) :=
  match children with
  | [] => .ok ([], fired)
  | child :: rest => do
      let (value, fired) ← evalCondition child item context fired
      let (values, fired) ← evalChildren rest item context fired
      .ok (value :: values, fired)
end

def routeVerdict (pipeline : IntakePipeline) : Tri → IntakeOutcome
  | .true => pipeline.onPass
  | .false => pipeline.onFail
  | .unknown => pipeline.unknownOutcome

def evaluateIntake (item : IntakeItem) (compiled : CompiledPipeline) (context : IntakeContext) :
    Except IntakeError IntakeDecision := do
  validateCondition compiled.pipeline.condition
  match evalCondition compiled.pipeline.condition item context [] with
  | .ok (verdict, matched) =>
      .ok (.routed (routeVerdict compiled.pipeline verdict) compiled.pipeline.id matched
        compiled.configVersion)
  | .error reason => .ok (.misconfigured compiled.pipeline.id reason)

mutual
/-- The meaning of a tree: the Kleene value of its leaves, without the trail. -/
def verdict (condition : IntakeCondition) (item : IntakeItem) (context : IntakeContext) :
    Except IntakeMisconfiguration Tri :=
  match condition with
  | .all children => triAll <$> verdicts children item context
  | .any children => triAny <$> verdicts children item context
  | .not child => triNot <$> verdict child item context
  | .rule rule => evalRule rule item context

def verdicts (children : List IntakeCondition) (item : IntakeItem) (context : IntakeContext) :
    Except IntakeMisconfiguration (List Tri) :=
  match children with
  | [] => .ok []
  | child :: rest => do
      let value ← verdict child item context
      let values ← verdicts rest item context
      .ok (value :: values)
end

end SP42.Intake

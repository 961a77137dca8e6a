import Mathlib.Data.List.Basic
import Mathlib.Tactic.Common

/-!
The intake contracts: the item envelope, the field, operator and value
vocabulary, the condition tree, and the routed decision. `none` in an item is a
fact the adapter never fetched, which is not the same as an empty or zero one.
-/
namespace SP42.Intake

/-- A UTC instant in epoch milliseconds. -/
structure Timestamp where
  epochMs : Int
  deriving DecidableEq, Repr

def Timestamp.fromEpochMs (ms : Int) : Timestamp := ⟨ms⟩
def Timestamp.isBefore (t u : Timestamp) : Bool := decide (t.epochMs < u.epochMs)
def Timestamp.isAfter (t u : Timestamp) : Bool := decide (t.epochMs > u.epochMs)

structure IntakeActor where
  username : Option String
  rights : Option (List String)
  isBot : Bool
  accountCreatedAt : Option Timestamp
  deriving DecidableEq, Repr

structure IntakeItem where
  wikiId : String
  eventType : String
  namespace_ : Int
  pageId : Option Int
  revisionId : Option Int
  createdAt : Option Timestamp
  lastRevisionAt : Option Timestamp
  actor : IntakeActor
  observedAt : Timestamp
  payloadRef : Option String
  deriving DecidableEq, Repr

/-- An item of an adapter that fetched none of the optional facts. -/
def IntakeItem.unfetched (wikiId eventType : String) (ns observedAtMs : Int) : IntakeItem :=
  ⟨wikiId, eventType, ns, none, none, none, none, ⟨none, none, false, none⟩, ⟨observedAtMs⟩, none⟩

inductive IntakeField where
  | eventType
  | namespace_
  | pageId
  | revisionId
  | createdAt
  | lastRevisionAt
  | actorUsername
  | actorRights
  | actorIsBot
  | actorAccountCreatedAt
  | observedAt
  | custom (name : String)
  deriving DecidableEq, Repr

inductive IntakeOp where
  | eq
  | notEq
  | in_
  | notIn
  | has
  | notHas
  | before
  | after
  | olderThan
  | youngerThan
  deriving DecidableEq, Repr

inductive IntakeValue where
  | str (text : String)
  | int (number : Int)
  | strList (items : List String)
  | intList (items : List Int)
  | bool (flag : Bool)
  | timestamp (ms : Int)
  | duration (ms : Int)
  | capabilityRef (name : String)
  deriving DecidableEq, Repr

structure IntakeRule where
  field : IntakeField
  op : IntakeOp
  value : IntakeValue
  deriving DecidableEq, Repr

/-- A composable predicate tree; `all []` is the unconditional arm. -/
inductive IntakeCondition where
  | all (children : List IntakeCondition)
  | any (children : List IntakeCondition)
  | not (child : IntakeCondition)
  | rule (rule : IntakeRule)
  deriving Repr

inductive IntakeOutcome where
  | admitTo (routeTo : String)
  | drop
  | reclassify (pipeline : String)
  deriving DecidableEq, Repr

structure IntakePipeline where
  id : String
  condition : IntakeCondition
  onPass : IntakeOutcome
  onFail : IntakeOutcome
  onUnknown : Option IntakeOutcome
  deriving Repr

/-- The default is applied here and nowhere else, and it never inherits `onFail`. -/
def IntakePipeline.unknownOutcome (p : IntakePipeline) : IntakeOutcome :=
  p.onUnknown.getD .drop

/-- Why a pipeline could not be evaluated. Each variant is about the ruleset or
its environment, never about the item. -/
inductive IntakeMisconfiguration where
  | unresolvedCapability (reference : String)
  | unregisteredCustomField (field : String)
  | invalidRule (detail : String)
  | unusableCustomField (field : String) (op : IntakeOp) (resolved : String)
  deriving DecidableEq, Repr

inductive IntakeDecision where
  | routed (outcome : IntakeOutcome) (pipelineId : String)
      (matchedRulePath : List String) (configVersion : String)
  | misconfigured (pipelineId : String) (reason : IntakeMisconfiguration)
  deriving DecidableEq, Repr

/-- A resolved field value; `absent` is distinct from a present empty value. -/
inductive ResolvedField where
  | text (value : String)
  | number (value : Int)
  | textList (items : List String)
  | flag (value : Bool)
  | instant (value : Timestamp)
  | absent
  deriving DecidableEq, Repr

def ResolvedField.isAbsent : ResolvedField → Bool
  | .absent => true
  | _ => false

inductive IntakeResolveError where
  | unregisteredField (name : String)
  | unresolvedCapability (name : String)
  deriving DecidableEq, Repr

/-- The elements of a resolved capability set, in the set's ascending order. -/
abbrev CapabilitySet := List IntakeValue

abbrev IntakeFieldResolver := String → IntakeItem → Except IntakeResolveError ResolvedField
abbrev CapabilityResolver := String → Except IntakeResolveError CapabilitySet

/-- The resolver of a deployment without custom fields rejects every name. -/
def noCustomFields : IntakeFieldResolver := fun field _ => .error (.unregisteredField field)

def noCapabilities : CapabilityResolver := fun reference => .error (.unresolvedCapability reference)

/-- Everything an evaluation needs from its caller; time is already resolved. -/
structure IntakeContext where
  nowMs : Int
  customFields : IntakeFieldResolver
  capabilities : CapabilityResolver

def IntakeContext.bare (nowMs : Int) : IntakeContext := ⟨nowMs, noCustomFields, noCapabilities⟩

/-- `Occurs r c`: the rule `r` is a leaf of the tree `c`, at any depth. -/
inductive Occurs (r : IntakeRule) : IntakeCondition → Prop
  | rule : Occurs r (.rule r)
  | all {c cs} : c ∈ cs → Occurs r c → Occurs r (.all cs)
  | any {c cs} : c ∈ cs → Occurs r c → Occurs r (.any cs)
  | not {c} : Occurs r c → Occurs r (.not c)

/-- Induction over a condition tree with one hypothesis for each child. -/
@[elab_as_elim, induction_eliminator]
theorem IntakeCondition.induction {motive : IntakeCondition → Prop}
    (all : ∀ cs, (∀ c ∈ cs, motive c) → motive (.all cs))
    (any : ∀ cs, (∀ c ∈ cs, motive c) → motive (.any cs))
    (not : ∀ c, motive c → motive (.not c))
    (rule : ∀ r, motive (.rule r)) : ∀ c, motive c := by
  refine @IntakeCondition.rec motive (fun cs => ∀ c ∈ cs, motive c) all any not rule ?_ ?_
  · intro c hc; cases hc
  · intro c cs hc hcs d hd
    rcases List.mem_cons.mp hd with rfl | hd
    · exact hc
    · exact hcs d hd

end SP42.Intake

import SP42.Base.Number

/-!
JSON values as the parser hands them over. An object is the list of its members; what is
modelled reads it by key.
-/
namespace SP42

inductive Json where
  | null
  | bool (value : Bool)
  | number (value : Int)
  | fraction (value : Rat)
  | string (text : Text)
  | array (items : List Json)
  | object (members : List (String × Json))

namespace Json

/-- `Value::get` with a key. -/
def get (key : String) : Json → Option Json
  | .object members => members.lookup key
  | _ => none

def asStr : Json → Option Text
  | .string text => some text
  | _ => none

def asArray : Json → Option (List Json)
  | .array items => some items
  | _ => none

def asObject : Json → Option (List (String × Json))
  | .object members => some members
  | _ => none

def asBool : Json → Option Bool
  | .bool value => some value
  | _ => none

/-- `Value::as_u64`. -/
def asU64 : Json → Option Nat
  | .number value => if 0 ≤ value ∧ value ≤ u64Max then some value.toNat else none
  | _ => none

mutual

/-- `Value::eq`: a map compares its members, which the parser keeps in order. -/
def same : Json → Json → Bool
  | .null, .null => true
  | .bool a, .bool b => a == b
  | .number a, .number b => a == b
  | .fraction a, .fraction b => a == b
  | .string a, .string b => a == b
  | .array a, .array b => sameItems a b
  | .object a, .object b => sameMembers a b
  | _, _ => false

def sameItems : List Json → List Json → Bool
  | [], [] => true
  | a :: as, b :: bs => same a b && sameItems as bs
  | _, _ => false

def sameMembers : List (String × Json) → List (String × Json) → Bool
  | [], [] => true
  | (key, a) :: as, (other, b) :: bs => key == other && same a b && sameMembers as bs
  | _, _ => false

end

mutual

theorem same_iff : ∀ a b : Json, same a b = true ↔ a = b
  | .null, b => by cases b <;> simp [same]
  | .bool a, b => by cases b <;> simp [same]
  | .number a, b => by cases b <;> simp [same]
  | .fraction a, b => by cases b <;> simp [same]
  | .string a, b => by cases b <;> simp [same]
  | .array a, b => by cases b <;> simp [same, sameItems_iff a]
  | .object a, b => by cases b <;> simp [same, sameMembers_iff a]

theorem sameItems_iff : ∀ as bs : List Json, sameItems as bs = true ↔ as = bs
  | [], bs => by cases bs <;> simp [sameItems]
  | a :: as, bs => by cases bs <;> simp [sameItems, same_iff a, sameItems_iff as]

theorem sameMembers_iff : ∀ as bs : List (String × Json), sameMembers as bs = true ↔ as = bs
  | [], bs => by cases bs <;> simp [sameMembers]
  | (key, a) :: as, bs => by
      cases bs <;> simp [sameMembers, same_iff a, sameMembers_iff as, Prod.ext_iff, and_assoc]

end

instance : DecidableEq Json := fun a b => decidable_of_iff _ (same_iff a b)

/-- A token of a pointer as the index of an array. -/
def parseIndex (token : Text) : Option Nat :=
  if token.head? = some '+' ∨ token.head? = some '0' ∧ token.length ≠ 1 then none
  else Text.parseDigits token

/-- `Value::pointer`, with the path cut into its tokens. -/
def pointer : List String → Json → Option Json
  | [], value => some value
  | token :: path, .object members => (members.lookup token).bind (pointer path)
  | token :: path, .array items =>
      (parseIndex token.toList).bind fun index => items[index]?.bind (pointer path)
  | _ :: _, _ => none

end Json

end SP42

import SP42.Wikibase.Diff

/-!
The snaks of a statement, read from its JSON, and the texts they are shown as. The parser reads the
main value, the qualifiers and the references of a statement from the JSON that it keeps.
-/
namespace SP42.Wikibase

inductive WikibaseValue where
  | string (text : Text)
  | entityId (id : Text)
  | monolingual (language text : Text)
  | time (time : Text) (precision : Option Nat)
  | quantity (amount : Text) (unit lowerBound upperBound : Option Text)
  | other (value : Json)

inductive WikibaseSnakKind where
  | value (value : WikibaseValue)
  | someValue
  | noValue

structure WikibaseSnak where
  property : Text
  kind : WikibaseSnakKind

structure WikibaseReference where
  snaks : List WikibaseSnak
  raw : Json

section Parsing

/-- The string under a key of a value, if there is a value. -/
def stringAt (value : Option Json) (key : String) : Option Text :=
  (value.bind (Json.get key)).bind Json.asStr

def parseDataValue (datavalue : Json) : WikibaseValue :=
  let value := datavalue.get "value"
  let inner (key : String) : Text := (stringAt value key).getD []
  match (datavalue.get "type").bind Json.asStr with
  | some type =>
      if type = "string".toList then .string ((value.bind Json.asStr).getD [])
      else if type = "wikibase-entityid".toList then .entityId (inner "id")
      else if type = "monolingualtext".toList then .monolingual (inner "language") (inner "text")
      else if type = "time".toList then
        .time (inner "time")
          (((value.bind (Json.get "precision")).bind Json.asU64).filter (· < 256))
      else if type = "quantity".toList then
        .quantity (inner "amount") ((stringAt value "unit").filter (· ≠ "1".toList))
          (stringAt value "lowerBound") (stringAt value "upperBound")
      else .other datavalue
  | none =>
      -- no type at all but a bare string
      match value.bind Json.asStr with
      | some text => .string text
      | none => .other datavalue

def parseSnak (fallbackProperty : Text) (snak : Json) : WikibaseSnak where
  property := (stringAt (some snak) "property").getD fallbackProperty
  kind :=
    if stringAt (some snak) "snaktype" = some "somevalue".toList then .someValue
    else if stringAt (some snak) "snaktype" = some "novalue".toList then .noValue
    else
      match snak.get "datavalue" with
      | some datavalue => .value (parseDataValue datavalue)
      | none => .noValue

/-- The properties of a snak map, as the list beside it orders them. -/
def orderedProperties (map : List (String × Json)) (order : Option Json) : List String :=
  match order.bind Json.asArray with
  | some order => (order.filterMap Json.asStr).map String.ofList
  | none => map.map Prod.fst

def parseSnakMap (snaks order : Option Json) : List WikibaseSnak :=
  match snaks.bind Json.asObject with
  | none => []
  | some map =>
      (orderedProperties map order).flatMap fun property =>
        (((map.lookup property).bind Json.asArray).getD []).map (parseSnak property.toList)

def parseReferences (references : Option Json) : List WikibaseReference :=
  ((references.bind Json.asArray).getD []).map fun reference =>
    ⟨parseSnakMap (reference.get "snaks") (reference.get "snaks-order"), reference⟩

def WikibaseStatement.value (statement : WikibaseStatement) : WikibaseSnak :=
  match statement.raw.get "mainsnak" with
  | none => ⟨statement.property.toList, .noValue⟩
  | some mainsnak => parseSnak statement.property.toList mainsnak

def WikibaseStatement.qualifiers (statement : WikibaseStatement) : List WikibaseSnak :=
  parseSnakMap (statement.raw.get "qualifiers") (statement.raw.get "qualifiers-order")

def WikibaseStatement.references (statement : WikibaseStatement) : List WikibaseReference :=
  parseReferences (statement.raw.get "references")

end Parsing

section Texts

structure ValueDisplay where
  text : Text
  item : Option Text

def unitEntityId (unit : Text) : Text := unit.rtakeWhile (· ≠ '/')

/-- `trim_start_matches('+')`. -/
def unsigned (amount : Text) : Text := amount.dropWhile (· = '+')

def quantityText (amount : Text) (unit lowerBound upperBound : Option Text) : Text :=
  unsigned amount ++
    (match lowerBound, upperBound with
      | some lower, some upper =>
          " [".toList ++ unsigned lower ++ "..".toList ++ unsigned upper ++ "]".toList
      | _, _ => []) ++
    match unit with
    | some unit => " ".toList ++ unitEntityId unit
    | none => []

variable (print : Json → Text)

/-- A value as it is displayed. JSON is printed by the serializer. -/
def renderSnakValue (snak : WikibaseSnak) : ValueDisplay :=
  match snak.kind with
  | .noValue => ⟨"(no value)".toList, none⟩
  | .someValue => ⟨"(unknown value)".toList, none⟩
  | .value (.string text) => ⟨text, none⟩
  | .value (.monolingual _ text) => ⟨text, none⟩
  | .value (.entityId id) => ⟨id, some id⟩
  | .value (.time time _) => ⟨unsigned time, none⟩
  | .value (.quantity amount unit lower upper) => ⟨quantityText amount unit lower upper, none⟩
  | .value (.other value) => ⟨print value, none⟩

def optionalTerm : Option Text → Text
  | none => "(none)".toList
  | some value => "“".toList ++ value ++ "”".toList

theorem optionalTerm_injective {old new : Option Text}
    (same : optionalTerm old = optionalTerm new) : old = new := by
  cases old with
  | none =>
      cases new with
      | none => rfl
      | some new => cases (List.cons.inj same).1
  | some old =>
      cases new with
      | none => cases (List.cons.inj same).1
      | some new => exact congrArg some (List.append_cancel_right (List.cons.inj same).2)

variable (labels : Text → Option Text)

def labeled (id : Text) : Text := (labels id).getD id

/-- A display with the label of its item. -/
def ValueDisplay.labeled (display : ValueDisplay) : Text :=
  match display.item with
  | some item => Wikibase.labeled labels item
  | none => display.text

def statementValueText (statement : WikibaseStatement) : Text :=
  (renderSnakValue print statement.value).labeled labels

def statementRowText (statement : WikibaseStatement) : Text :=
  labeled labels statement.property.toList ++ ": ".toList ++
    statementValueText print labels statement

def snakListText (snaks : List WikibaseSnak) : Text :=
  "[".toList ++ Text.join "; ".toList (snaks.map fun snak =>
    labeled labels snak.property ++ ": ".toList ++
      (renderSnakValue print snak).labeled labels) ++ "]".toList

def rankText : StatementRank → Text
  | .preferred => "preferred".toList
  | .normal => "normal".toList
  | .deprecated => "deprecated".toList

theorem rankText_injective {old new : StatementRank} (same : rankText old = rankText new) :
    old = new := by
  cases old <;> cases new <;> first | rfl | cases same

def referencesText (references : List WikibaseReference) : Text :=
  "[".toList ++ Text.join "; ".toList (references.map fun reference =>
    snakListText print labels reference.snaks) ++ "]".toList

end Texts

end SP42.Wikibase

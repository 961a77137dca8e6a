import SP42.Base.Json
import SP42.Lib.Entries
import Mathlib.Data.List.Chain
import Mathlib.Data.List.Range

/-!
The read model of a Wikibase entity, parsed from its JSON. A statement keeps its JSON
whole beside its id and its rank.
-/
namespace SP42.Wikibase

inductive WikibaseError where
  | invalidEntity (message : Text)
deriving DecidableEq

inductive StatementRank where
  | preferred
  | normal
  | deprecated
deriving DecidableEq

structure WikibaseStatement where
  id : Option Text
  property : String
  rank : StatementRank
  raw : Json
deriving DecidableEq

structure WikibaseSitelink where
  title : Text
  badges : List Text
deriving DecidableEq

def WikibaseSitelink.display (link : WikibaseSitelink) : Text :=
  if link.badges = [] then link.title
  else link.title ++ " [".toList ++ Text.join ", ".toList link.badges ++ "]".toList

structure WikibaseEntity where
  id : Text
  lastRevid : Option Nat
  labels : List (String × Text)
  descriptions : List (String × Text)
  aliases : List (String × List Text)
  statements : List (String × List WikibaseStatement)
  sitelinks : List (String × WikibaseSitelink)
  extra : List (String × Json)

/-- The members of an object, and none of anything else. -/
def membersOf (value : Option Json) : List (String × Json) :=
  (value.bind Json.asObject).getD []

section Parsing

def locateEntityObject (entityId : String) (doc : Json) : Except WikibaseError Json :=
  match (doc.get "entities").bind Json.asObject with
  | some entities =>
      match entities.lookup entityId with
      | some entity => .ok entity
      | none =>
          match entities with
          | [(_, entity)] => .ok entity
          | _ =>
              .error (.invalidEntity
                ("entity ".toList ++ entityId.toList ++ " not found".toList))
  | none =>
      if doc.asObject.isSome then .ok doc
      else .error (.invalidEntity "payload is not an entity document".toList)

def modeledOrBookkeepingKeys : List String :=
  ["id", "type", "labels", "descriptions", "aliases", "claims", "statements", "sitelinks",
    "lastrevid", "modified", "pageid", "ns"]

/-- The string under the key `value`, for terms and aliases. -/
def valueText (term : Json) : Option Text := (term.get "value").bind Json.asStr

def parseTermMap (terms : Option Json) : List (String × Text) :=
  Entries.pick (fun _ term => valueText term) (membersOf terms)

def aliasTexts (list : Json) : List Text :=
  (list.asArray.map fun items => items.filterMap valueText).getD []

def parseAliasMap (aliases : Option Json) : List (String × List Text) :=
  Entries.pick (fun _ list => some (aliasTexts list)) (membersOf aliases)

def sitelinkOf (link : Json) : Option WikibaseSitelink :=
  ((link.get "title").bind Json.asStr).map fun title =>
    { title
      badges := (((link.get "badges").bind Json.asArray).map fun badges =>
        badges.filterMap Json.asStr).getD [] }

def parseSitelinks (sitelinks : Option Json) : List (String × WikibaseSitelink) :=
  Entries.pick (fun _ link => sitelinkOf link) (membersOf sitelinks)

def parseStatementObject (property : String) (statement : Json) : WikibaseStatement where
  id := (statement.get "id").bind Json.asStr
  property := property
  rank :=
    match (statement.get "rank").bind Json.asStr with
    | some rank =>
        if rank = "preferred".toList then .preferred
        else if rank = "deprecated".toList then .deprecated
        else .normal
    | none => .normal
  raw := statement

/-- The statements under either of the two keys a serialization uses. -/
def claimsOf (entity : Json) : Option Json :=
  (entity.get "claims").orElse fun _ => entity.get "statements"

def statementItems (list : Json) : List Json := list.asArray.getD []

def parseEntityObject (requestedId : String) (entity : Json) : WikibaseEntity where
  id := ((entity.get "id").bind Json.asStr).getD requestedId.toList
  lastRevid := (entity.get "lastrevid").bind Json.asU64
  labels := parseTermMap (entity.get "labels")
  descriptions := parseTermMap (entity.get "descriptions")
  aliases := parseAliasMap (entity.get "aliases")
  statements :=
    Entries.pick (fun property list =>
      some ((statementItems list).map (parseStatementObject property)))
      (membersOf (claimsOf entity))
  sitelinks := parseSitelinks (entity.get "sitelinks")
  extra :=
    Entries.pick (fun key value =>
      if key ∉ modeledOrBookkeepingKeys ∧ key ≠ "title" then some value else none)
      (membersOf (some entity))

def parseEntity (entityId : String) (doc : Json) : Except WikibaseError WikibaseEntity :=
  (locateEntityObject entityId doc).map (parseEntityObject entityId)

def parseEntityContent (doc : Json) : Except WikibaseError WikibaseEntity :=
  match parseEntity "" doc with
  | .error reason => .error reason
  | .ok entity =>
      if entity.id = [] then .error (.invalidEntity "entity content carries no id".toList)
      else .ok entity

end Parsing

section Keyed

mutual

/-- Every object of the value names each of its keys once. -/
def Keyed : Json → Prop
  | .array items => KeyedItems items
  | .object members => Entries.Unique members ∧ KeyedMembers members
  | _ => True

def KeyedItems : List Json → Prop
  | [] => True
  | item :: rest => Keyed item ∧ KeyedItems rest

def KeyedMembers : List (String × Json) → Prop
  | [] => True
  | (_, value) :: rest => Keyed value ∧ KeyedMembers rest

end

theorem keyed_of_mem {members : List (String × Json)} (keyed : KeyedMembers members)
    {key : String} {value : Json} (held : (key, value) ∈ members) : Keyed value := by
  induction members with
  | nil => cases held
  | cons entry rest ih =>
      obtain ⟨first, later⟩ := keyed
      rcases List.mem_cons.mp held with same | inRest
      · cases same
        exact first
      · exact ih later inRest

theorem Keyed.get {entity value : Json} {key : String} (keyed : Keyed entity)
    (found : entity.get key = some value) : Keyed value := by
  cases entity with
  | object members => exact keyed_of_mem keyed.2 (Entries.mem_of_lookup found)
  | _ => cases found

theorem unique_membersOf {value : Option Json} (keyed : ∀ json ∈ value, Keyed json) :
    Entries.Unique (membersOf value) := by
  cases value with
  | none => exact List.nodup_nil
  | some json =>
      cases json with
      | object members => exact (keyed _ rfl).1
      | _ => exact List.nodup_nil

theorem lookup_membersOf (value : Option Json) (key : String) :
    (membersOf value).lookup key = value.bind (Json.get key) := by
  cases value with
  | none => rfl
  | some json => cases json <;> rfl

/-- What is read from one member of an object is read under its key. -/
theorem lookup_pick_membersOf {β : Type} {value : Option Json} (keyed : ∀ json ∈ value, Keyed json)
    (read : String → Json → Option β) (key : String) :
    (Entries.pick read (membersOf value)).lookup key =
      (value.bind (Json.get key)).bind (read key) := by
  rw [Entries.lookup_pick (unique_membersOf keyed), lookup_membersOf]

theorem unique_pick_membersOf {β : Type} {value : Option Json} (keyed : ∀ json ∈ value, Keyed json)
    (read : String → Json → Option β) : Entries.Unique (Entries.pick read (membersOf value)) :=
  (unique_membersOf keyed).pick read

theorem Keyed.claimsOf {entity : Json} (keyed : Keyed entity) :
    ∀ json ∈ claimsOf entity, Keyed json := by
  intro json found
  unfold Wikibase.claimsOf at found
  cases held : entity.get "claims" with
  | some claims =>
      rw [held] at found
      cases found
      exact keyed.get held
  | none =>
      rw [held] at found
      exact keyed.get found

/-- The entity of a document is keyed as the document is. -/
theorem Keyed.located {doc entity : Json} {entityId : String} (keyed : Keyed doc)
    (located : locateEntityObject entityId doc = .ok entity) : Keyed entity := by
  unfold locateEntityObject at located
  split at located
  · next entities wrapped =>
      obtain ⟨wrapper, held, object⟩ := Option.bind_eq_some_iff.mp wrapped
      have keyedWrapper := keyed.get held
      have isObject : wrapper = .object entities := by
        cases wrapper <;> cases object
        rfl
      subst isObject
      split at located
      · next found =>
          cases located
          exact keyed_of_mem keyedWrapper.2 (Entries.mem_of_lookup found)
      · split at located
        · cases located
          exact keyedWrapper.2.1
        · cases located
  · split at located
    · cases located
      exact keyed
    · cases located

end Keyed

end SP42.Wikibase

/-!
The diff of two revisions of an entity, and the places of their JSON it looks at.
-/
namespace SP42.Wikibase

structure TermChange where
  language : String
  before : Option Text
  after : Option Text

structure AliasChange where
  language : String
  before : List Text
  after : List Text

structure SitelinkChange where
  site : String
  before : Option Text
  after : Option Text

structure StatementChangeParts where
  value : Bool
  qualifiers : Bool
  rank : Bool
  references : Bool
  other : Bool

def StatementChangeParts.any (parts : StatementChangeParts) : Bool :=
  parts.value || parts.qualifiers || parts.rank || parts.references || parts.other

inductive StatementChange where
  | added (statement : WikibaseStatement)
  | removed (statement : WikibaseStatement)
  | changed (before after : WikibaseStatement) (parts : StatementChangeParts)
  | reordered (property : String)

structure UnknownEntityChange where
  key : String

structure EntityDiff where
  labels : List TermChange
  descriptions : List TermChange
  aliases : List AliasChange
  sitelinks : List SitelinkChange
  statements : List StatementChange
  other : List UnknownEntityChange

def EntityDiff.hasChanges (diff : EntityDiff) : Bool :=
  !(diff.labels.isEmpty && diff.descriptions.isEmpty && diff.aliases.isEmpty &&
    diff.sitelinks.isEmpty && diff.statements.isEmpty && diff.other.isEmpty)

section Statements

def rawPart (statement : WikibaseStatement) (key : String) : Option Json := statement.raw.get key

def statementChangeParts (before after : WikibaseStatement) : StatementChangeParts :=
  let parts : StatementChangeParts :=
    { value := rawPart before "mainsnak" ≠ rawPart after "mainsnak"
      qualifiers := rawPart before "qualifiers" ≠ rawPart after "qualifiers" ∨
        rawPart before "qualifiers-order" ≠ rawPart after "qualifiers-order"
      rank := before.rank ≠ after.rank
      references := rawPart before "references" ≠ rawPart after "references"
      other := false }
  if parts.any then parts else { parts with other := true }

/-- What the pass over the old statements of a property has found. -/
structure Pairing where
  consumedAfter : List Bool
  matchedPositions : List Nat
  changes : List StatementChange

/-- The first new statement that no old one has taken and that fits. -/
def firstFree (consumedAfter : List Bool) (after : List WikibaseStatement)
    (fits : WikibaseStatement → Bool) : Option Nat :=
  (after.zip consumedAfter).findIdx? fun entry => !entry.2 && fits entry.1

def pairedById (consumedAfter : List Bool) (after : List WikibaseStatement)
    (old : WikibaseStatement) : Option Nat :=
  old.id.bind fun id => firstFree consumedAfter after fun new => new.id == some id

def Pairing.take (pairing : Pairing) (index : Nat) (changes : List StatementChange) : Pairing where
  consumedAfter := pairing.consumedAfter.set index true
  matchedPositions := pairing.matchedPositions ++ [index]
  changes := pairing.changes ++ changes

def pairStep (after : List WikibaseStatement) (pairing : Pairing) (old : WikibaseStatement) :
    Pairing :=
  match pairedById pairing.consumedAfter after old with
  | some index =>
      pairing.take index (match after[index]? with
        | some new =>
            if old.raw ≠ new.raw then [.changed old new (statementChangeParts old new)] else []
        | none => [])
  | none =>
      match firstFree pairing.consumedAfter after fun new => new.raw == old.raw with
      | some index => pairing.take index []
      | none => { pairing with changes := pairing.changes ++ [.removed old] }

def unpaired (after : List WikibaseStatement) : Pairing where
  consumedAfter := List.replicate after.length false
  matchedPositions := []
  changes := []

/-- `windows(2).any(|pair| pair[0] > pair[1])`. -/
def outOfOrder (positions : List Nat) : Bool :=
  (positions.zip positions.tail).any fun pair => pair.1 > pair.2

def diffStatementLists (property : String) (before after : List WikibaseStatement) :
    List StatementChange :=
  let pairing := before.foldl (pairStep after) (unpaired after)
  pairing.changes ++
    ((after.zip pairing.consumedAfter).filterMap fun entry =>
      if entry.2 then none else some (.added entry.1)) ++
    if outOfOrder pairing.matchedPositions then [.reordered property] else []

end Statements

section Entities

def diffTermMaps (before after : List (String × Text)) : List TermChange :=
  Entries.changes (fun language old new => ⟨language, old, new⟩) before after

def diffEntities (old : Option WikibaseEntity) (new : WikibaseEntity) : EntityDiff :=
  let empty : WikibaseEntity :=
    { id := new.id, lastRevid := none, labels := [], descriptions := [], aliases := []
      statements := [], sitelinks := [], extra := [] }
  let old := old.getD empty
  { labels := diffTermMaps old.labels new.labels
    descriptions := diffTermMaps old.descriptions new.descriptions
    aliases := Entries.changes
      (fun language before after => ⟨language, before.getD [], after.getD []⟩)
      old.aliases new.aliases
    sitelinks := Entries.changes
      (fun site before after =>
        ⟨site, before.map WikibaseSitelink.display, after.map WikibaseSitelink.display⟩)
      old.sitelinks new.sitelinks
    statements :=
      (old.statements.flatMap fun entry =>
        diffStatementLists entry.1 entry.2 ((new.statements.lookup entry.1).getD [])) ++
      new.statements.flatMap fun entry =>
        if (old.statements.lookup entry.1).isSome then []
        else diffStatementLists entry.1 [] entry.2
    other := Entries.changes (fun key _ _ => ⟨key⟩) old.extra new.extra }

end Entities

end SP42.Wikibase

import SP42.Base.Json
import SP42.Lib.Address
import SP42.Live.Timestamp
import SP42.Scoring.Engine

/-!
The server's reading of a change from the stream: the record that the payload is deserialized
into, the filters, and the edit event.
-/
namespace SP42

/-- `Value::as_i64`. -/
def Json.asI64 : Json → Option Int
  | .number value => if i64Min ≤ value ∧ value ≤ i64Max then some value else none
  | _ => none

namespace Stream

open Live (StreamIngestorError normalizeUnixTimestampMs parseTimestampText)
open Scoring (EditorIdentity wikibaseItemContentModel wikibasePropertyContentModel)

structure EditEvent where
  wikiId : Text
  title : Text
  namespaceId : I32
  revId : Nat
  oldRevId : Option Nat
  performer : EditorIdentity
  timestampMs : Int
  isBot : FlagState
  isMinor : FlagState
  isNewPage : FlagState
  tags : List Text
  comment : Option Text
  byteDelta : I32
  isPatrolled : FlagState
  contentModel : Option String
  deriving DecidableEq

section Deserialize

variable {α β : Type}

def readI32 : Json → Option I32
  | .number value => if h : i32Min ≤ value ∧ value ≤ i32Max then some ⟨value, h⟩ else none
  | _ => none

def readOptional (read : Json → Option α) : Json → Option (Option α)
  | .null => some none
  | value => (read value).map some

def readTexts : Json → Option (List Text)
  | .array items => items.mapM Json.asStr
  | _ => none

/-- A field of a record, with what stands for it where the object has no such member. -/
def readField (payload : Json) (key : String) (missing : Option α) (read : Json → Option α) :
    Option α :=
  match payload.get key with
  | some value => read value
  | none => missing

/-- A record with the fields `new` and `old`, from an object or from an array of both. -/
def readNewOld (missing : Option α) (readNew : Json → Option α) (readOld : Json → Option β) :
    Json → Option (α × Option β)
  | .array [new, old] => do
      let new ← readNew new
      let old ← readOptional readOld old
      return (new, old)
  | .object members => do
      let new ← readField (.object members) "new" missing readNew
      let old ← readField (.object members) "old" (some none) (readOptional readOld)
      return (new, old)
  | _ => none

structure RevisionState where
  newRevId : Option Nat
  oldRevId : Option Nat

def RevisionState.read (value : Json) : Option RevisionState :=
  (readNewOld (some none) (readOptional Json.asU64) Json.asU64 value).map fun (new, old) =>
    ⟨new, old⟩

structure LengthState where
  newLength : I32
  oldLength : Option I32

def LengthState.read (value : Json) : Option LengthState :=
  (readNewOld none readI32 readI32 value).map fun (new, old) => ⟨new, old⟩

inductive TimestampValue where
  | numeric (value : Int)
  | text (value : Text)
  deriving DecidableEq

def TimestampValue.read (value : Json) : Option TimestampValue :=
  match value.asI64 with
  | some number => some (.numeric number)
  | none => value.asStr.map .text

def TimestampValue.toMs : TimestampValue → Except StreamIngestorError Int
  | .numeric value => .ok (normalizeUnixTimestampMs value)
  | .text value => parseTimestampText value

structure RecentChangeEvent where
  wiki : Text
  namespaceId : I32
  title : Text
  user : Text
  timestamp : TimestampValue
  bot : Bool
  minor : Bool
  changeType : Text
  comment : Option Text
  tags : List Text
  revision : Option RevisionState
  length : Option LengthState

def RecentChangeEvent.read (payload : Json) : Option RecentChangeEvent := do
  let wiki ← readField payload "wiki" none Json.asStr
  let namespaceId ← readField payload "namespace" none readI32
  let title ← readField payload "title" none Json.asStr
  let user ← readField payload "user" none Json.asStr
  let timestamp ← readField payload "timestamp" none TimestampValue.read
  let bot ← readField payload "bot" (some false) Json.asBool
  let minor ← readField payload "minor" (some false) Json.asBool
  let changeType ← readField payload "type" none Json.asStr
  let comment ← readField payload "comment" (some none) (readOptional Json.asStr)
  let tags ← readField payload "tags" (some []) readTexts
  let revision ← readField payload "revision" (some none) (readOptional RevisionState.read)
  let length ← readField payload "length" (some none) (readOptional LengthState.read)
  return { wiki, namespaceId, title, user, timestamp, bot, minor, changeType, comment, tags,
           revision, length }

end Deserialize

section ContentModel

def wikidataNamespaceDefault (namespaceId : I32) : Option String :=
  if namespaceId.val = 0 then some wikibaseItemContentModel
  else if namespaceId.val = 120 then some wikibasePropertyContentModel
  else none

def isWikidataHost (host : Text) : Bool :=
  host == "wikidata.org".toList || ".wikidata.org".toList.isSuffixOf host

/-- By the host of the wiki's API, where its address has one. -/
def defaultNamespaceContentModel (apiHost : Option Text) (namespaceId : I32) : Option String :=
  match apiHost with
  | none => none
  | some host => if isWikidataHost host then wikidataNamespaceDefault namespaceId else none

def isWikidataWiki (wikiId : Text) : Bool :=
  wikiId == "wikidatawiki".toList || wikiId == "testwikidatawiki".toList

def defaultNamespaceContentModelForWiki (wikiId : Text) (namespaceId : I32) : Option String :=
  if isWikidataWiki wikiId then wikidataNamespaceDefault namespaceId else none

end ContentModel

section Ingest

def supportedChangeTypes : List Text := ["edit".toList, "new".toList]

structure WikiConfig where
  wikiId : Text
  apiHost : Option Text
  namespaceAllowlist : List I32

structure StreamIngestorOptions where
  ignoreBots : Bool
  ignoreMinor : Bool
  allowedChangeTypes : List Text

structure StreamIngestor extends WikiConfig, StreamIngestorOptions

namespace StreamIngestor

def withOptions (config : WikiConfig) (options : StreamIngestorOptions) : StreamIngestor :=
  { config, options with }

def fromConfig (config : WikiConfig) : StreamIngestor :=
  withOptions config
    { ignoreBots := true, ignoreMinor := false, allowedChangeTypes := supportedChangeTypes }

end StreamIngestor

def isAllowedChangeType (allowedChangeTypes : List Text) (changeType : Text) : Bool :=
  supportedChangeTypes.contains changeType && allowedChangeTypes.contains changeType

def classifyEditor (user : Text) : EditorIdentity :=
  if user.head? = some '~' then .temporary user
  else if (Address.parse user).isSome then .anonymous user
  else .registered user

def computeByteDelta (newLength : I32) (oldLength : Option I32) : I32 :=
  I32.saturatingSub newLength (oldLength.getD I32.zero)

/-- The payload is no change, or one that lacks what an edit needs. -/
inductive IngestError where
  | json
  | invalid (error : StreamIngestorError)

/-- The filters that leave a change out. -/
def StreamIngestor.drops (self : StreamIngestor) (raw : RecentChangeEvent) : Bool :=
  raw.wiki != self.wikiId || !isAllowedChangeType self.allowedChangeTypes raw.changeType ||
    (self.ignoreBots && raw.bot) || (self.ignoreMinor && raw.minor) ||
    (!self.namespaceAllowlist.isEmpty && !self.namespaceAllowlist.contains raw.namespaceId)

def eventOf (apiHost : Option Text) (raw : RecentChangeEvent) (revId : Nat)
    (oldRevId : Option Nat) (timestampMs : Int) : EditEvent where
  contentModel := defaultNamespaceContentModel apiHost raw.namespaceId
  wikiId := raw.wiki
  title := raw.title
  namespaceId := raw.namespaceId
  revId := revId
  oldRevId := oldRevId
  performer := classifyEditor raw.user
  timestampMs := timestampMs
  isBot := .ofBool raw.bot
  isMinor := .ofBool raw.minor
  isNewPage := .ofBool (raw.changeType == "new".toList)
  tags := raw.tags
  comment := raw.comment.filter (· ≠ [])
  byteDelta := match raw.length with
    | some length => computeByteDelta length.newLength length.oldLength
    | none => I32.zero
  isPatrolled := .disabled

def StreamIngestor.ingest (self : StreamIngestor) (payload : Json) :
    Except IngestError (Option EditEvent) :=
  match RecentChangeEvent.read payload with
  | none => .error .json
  | some raw =>
      if self.drops raw then .ok none
      else
        match raw.revision with
        | none => .error (.invalid (.invalidPayload "revision object is required".toList))
        | some revision =>
            match revision.newRevId with
            | none => .error (.invalid (.invalidPayload "revision.new is required".toList))
            | some revId =>
                match raw.timestamp.toMs with
                | .error error => .error (.invalid error)
                | .ok timestampMs =>
                    .ok (some (eventOf self.apiHost raw revId revision.oldRevId timestampMs))

end Ingest

section Reading

variable {α : Type} {payload : Json} {key : String}

theorem asStr_eq_some {value : Json} {text : Text} (read : value.asStr = some text) :
    value = .string text := by
  cases value with
  | string other => exact congrArg Json.string (Option.some.inj read)
  | _ => cases read

theorem readI32_eq_some {value : Json} {n : I32} (read : readI32 value = some n) :
    value = .number n.val := by
  cases value with
  | number z =>
      unfold readI32 at read
      dsimp only at read
      split_ifs at read
      cases read
      rfl
  | _ => cases read

/-- A field that must be there. -/
theorem readField_required {read : Json → Option α} {field : α}
    (found : readField payload key none read = some field) :
    ∃ value, payload.get key = some value ∧ read value = some field := by
  unfold readField at found
  split at found
  · rename_i value here
    exact ⟨value, here, found⟩
  · cases found

theorem readText {text : Text} (found : readField payload key none Json.asStr = some text) :
    payload.get key = some (.string text) := by
  obtain ⟨value, here, read⟩ := readField_required found
  rw [here, asStr_eq_some read]

/-- A member that may be missing reads the same where a value of another kind counts as missing. -/
theorem readField_getD {read : Json → Option α} {missing field : α}
    (found : readField payload key (some missing) read = some field) :
    ((payload.get key).bind read).getD missing = field := by
  unfold readField at found
  split at found
  · rename_i value here
    rw [here, Option.bind_some, found]
    rfl
  · rename_i absent
    rw [absent]
    exact Option.some.inj found

/-- A field that may be missing or null. -/
theorem readField_optional {read : Json → Option α} {field : Option α}
    (found : readField payload key (some none) (readOptional read) = some field) :
    (payload.get key = none ∨ payload.get key = some .null) ∧ field = none ∨
      ∃ value inner, payload.get key = some value ∧ read value = some inner ∧
        field = some inner := by
  unfold readField at found
  split at found
  · rename_i value here
    unfold readOptional at found
    split at found
    · exact .inl ⟨.inr here, (Option.some.inj found).symm⟩
    · obtain ⟨inner, done, rfl⟩ := Option.map_eq_some_iff.mp found
      exact .inr ⟨value, inner, here, done, rfl⟩
  · rename_i absent
    exact .inl ⟨.inl absent, (Option.some.inj found).symm⟩

/-- It reads the same where a value of another kind counts as missing. -/
theorem readField_bind {read : Json → Option α} {field : Option α} (null : read .null = none)
    (found : readField payload key (some none) (readOptional read) = some field) :
    (payload.get key).bind read = field := by
  rcases readField_optional found with ⟨here | here, rfl⟩ | ⟨value, inner, here, done, rfl⟩
  · rw [here]
    rfl
  · rw [here]
    exact null
  · rw [here]
    exact done

/-- What the payload holds where a change is read from it. -/
structure Holds (payload : Json) (raw : RecentChangeEvent) : Prop where
  wiki : payload.get "wiki" = some (.string raw.wiki)
  namespaceId : payload.get "namespace" = some (.number raw.namespaceId.val)
  title : payload.get "title" = some (.string raw.title)
  user : payload.get "user" = some (.string raw.user)
  timestamp : (payload.get "timestamp").bind TimestampValue.read = some raw.timestamp
  bot : ((payload.get "bot").bind Json.asBool).getD false = raw.bot
  minor : ((payload.get "minor").bind Json.asBool).getD false = raw.minor
  changeType : payload.get "type" = some (.string raw.changeType)
  comment : (payload.get "comment").bind Json.asStr = raw.comment
  revision : (payload.get "revision").bind RevisionState.read = raw.revision
  length : readField payload "length" (some none) (readOptional LengthState.read) = some raw.length

theorem read_holds {raw : RecentChangeEvent} (read : RecentChangeEvent.read payload = some raw) :
    Holds payload raw := by
  unfold RecentChangeEvent.read at read
  obtain ⟨wiki, atWiki, read⟩ := Option.bind_eq_some_iff.mp read
  obtain ⟨namespaceId, atNamespace, read⟩ := Option.bind_eq_some_iff.mp read
  obtain ⟨title, atTitle, read⟩ := Option.bind_eq_some_iff.mp read
  obtain ⟨user, atUser, read⟩ := Option.bind_eq_some_iff.mp read
  obtain ⟨timestamp, atTimestamp, read⟩ := Option.bind_eq_some_iff.mp read
  obtain ⟨bot, atBot, read⟩ := Option.bind_eq_some_iff.mp read
  obtain ⟨minor, atMinor, read⟩ := Option.bind_eq_some_iff.mp read
  obtain ⟨changeType, atType, read⟩ := Option.bind_eq_some_iff.mp read
  obtain ⟨comment, atComment, read⟩ := Option.bind_eq_some_iff.mp read
  obtain ⟨tags, -, read⟩ := Option.bind_eq_some_iff.mp read
  obtain ⟨revision, atRevision, read⟩ := Option.bind_eq_some_iff.mp read
  obtain ⟨length, atLength, read⟩ := Option.bind_eq_some_iff.mp read
  cases read
  obtain ⟨number, here, integer⟩ := readField_required atNamespace
  obtain ⟨stamp, stampHere, moment⟩ := readField_required atTimestamp
  exact
    { wiki := readText atWiki
      namespaceId := by rw [here, readI32_eq_some integer]
      title := readText atTitle
      user := readText atUser
      timestamp := by rw [stampHere, Option.bind_some, moment]
      bot := readField_getD atBot
      minor := readField_getD atMinor
      changeType := readText atType
      comment := readField_bind rfl atComment
      revision := readField_bind rfl atRevision
      length := atLength }

/-- What lies behind an event: the change, its revision and its moment. -/
theorem ingest_eq_some {self : StreamIngestor} {event : EditEvent}
    (ingested : self.ingest payload = .ok (some event)) :
    ∃ raw revision revId timestampMs, Holds payload raw ∧ self.drops raw = false ∧
      raw.revision = some revision ∧ revision.newRevId = some revId ∧
      raw.timestamp.toMs = .ok timestampMs ∧
      event = eventOf self.apiHost raw revId revision.oldRevId timestampMs := by
  unfold StreamIngestor.ingest at ingested
  split at ingested
  · cases ingested
  · rename_i raw read
    split at ingested
    · cases ingested
    · rename_i kept
      split at ingested
      · cases ingested
      · rename_i revision here
        split at ingested
        · cases ingested
        · rename_i revId newest
          split at ingested
          · cases ingested
          · rename_i timestampMs moment
            cases ingested
            exact ⟨raw, revision, revId, timestampMs, read_holds read, Bool.eq_false_iff.mpr kept,
              here, newest, moment, rfl⟩

/-- A change that no filter drops is an edit or a new page. -/
theorem drops_eq_false {self : StreamIngestor} {raw : RecentChangeEvent}
    (kept : self.drops raw = false) :
    raw.changeType = "edit".toList ∨ raw.changeType = "new".toList := by
  unfold StreamIngestor.drops at kept
  simp only [Bool.or_eq_false_iff, Bool.not_eq_false'] at kept
  have allowed := kept.1.1.1.2
  unfold isAllowedChangeType at allowed
  have supported := List.contains_iff_mem.mp (Bool.and_eq_true_iff.mp allowed).1
  unfold supportedChangeTypes at supported
  simpa using supported

end Reading

end Stream

end SP42

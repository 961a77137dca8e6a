import SP42.Patrol.Rows
import SP42.Stream.Ingestor

/-!
The browser's reading of a change from the stream, which it puts into the queue at once.
-/
namespace SP42.Stream

open Scoring (EditorIdentity CompositeScore ScoringSignal SignalContribution
  deriveContentModelCapabilities)

structure StreamEvent where
  wiki : Text
  title : Text
  namespaceId : I32
  revId : Nat
  oldRevId : Option Nat
  user : Text
  bot : Bool
  minor : Bool
  newPage : Bool
  patrolled : Bool
  timestampMs : Int
  comment : Option Text
  lengthOld : Int
  lengthNew : Int
  deriving DecidableEq

/-- Arithmetic of `i64`, which overflows outside its range. -/
def checkedI64 (z : Int) : Option Int := if i64Min ≤ z ∧ z ≤ i64Max then some z else none

/-- `as i32` keeps the low bits of the difference. -/
def StreamEvent.byteDelta (self : StreamEvent) : Option I32 :=
  (checkedI64 (self.lengthNew - self.lengthOld)).map Patrol.wrap

/-- A length of the page, or zero. -/
def lengthOf (payload : Json) (key : String) : Int :=
  (((payload.get "length").bind fun length => length.get key).bind Json.asI64).getD 0

/-- The change without its moment, where the payload has what the browser needs. -/
def parseFields (payload : Json) : Option StreamEvent := do
  let changeType ← (payload.get "type").bind Json.asStr
  if changeType ≠ "edit".toList ∧ changeType ≠ "new".toList then none
  else
    let wiki ← (payload.get "wiki").bind Json.asStr
    let title ← (payload.get "title").bind Json.asStr
    let namespaceId ← (payload.get "namespace").bind Json.asI64
    let revision ← payload.get "revision"
    let revId ← (revision.get "new").bind Json.asU64
    let user ← (payload.get "user").bind Json.asStr
    return {
      wiki := wiki
      title := title
      namespaceId := Patrol.wrap namespaceId
      revId := revId
      oldRevId := (revision.get "old").bind Json.asU64
      user := user
      bot := ((payload.get "bot").bind Json.asBool).getD false
      minor := ((payload.get "minor").bind Json.asBool).getD false
      newPage := changeType == "new".toList
      patrolled := ((payload.get "patrolled").bind Json.asBool).getD false
      timestampMs := 0
      comment := ((payload.get "comment").bind Json.asStr).filter (· ≠ [])
      lengthOld := lengthOf payload "old"
      lengthNew := lengthOf payload "new" }

/-- The seconds are scaled once the rest is read; `none` is their overflow. -/
def parseStreamEvent (payload : Json) : Option (Option StreamEvent) :=
  match parseFields payload with
  | none => some none
  | some event =>
      (checkedI64 (((payload.get "timestamp").bind Json.asI64).getD 0 * 1000)).map
        fun timestampMs => some { event with timestampMs := timestampMs }

def isAnonChar (c : Char) : Bool := c.isDigit || c == '.' || c == ':'

def isAnon (user : Text) : Bool := user.all isAnonChar

def performerOf (user : Text) : EditorIdentity :=
  if isAnon user then .anonymous user
  else if user.head? = some '~' then .temporary user
  else .registered user

structure QueuedEdit where
  event : EditEvent
  score : CompositeScore
  deriving DecidableEq

def contribute (score : CompositeScore) (signal : ScoringSignal) (weight : I32)
    (note : Option Text) : CompositeScore :=
  ⟨Patrol.wrap (score.total.val + weight.val), score.contributions ++ [⟨signal, weight, note⟩]⟩

/-- The magnitude of the least number overflows. -/
def applyWikitextQuickSignals (event : StreamEvent) (performer : EditorIdentity)
    (score : CompositeScore) : Option CompositeScore := do
  let score :=
    if isAnon event.user then contribute score .anonymousUser (I32.saturate 20) none else score
  let score :=
    if performer.isTemporary then
      contribute score .anonymousUser (I32.saturate 20) (some "temporary account".toList)
    else score
  let magnitude ← I32.abs (← event.byteDelta)
  if 500 < magnitude.val then
    return contribute score .largeContentRemoval (I32.saturate 15) none
  else return score

def contentModelOf (event : StreamEvent) : Option String :=
  defaultNamespaceContentModelForWiki event.wiki event.namespaceId

def editEventOf (event : StreamEvent) (byteDelta : I32) : EditEvent where
  contentModel := contentModelOf event
  wikiId := event.wiki
  title := event.title
  namespaceId := event.namespaceId
  revId := event.revId
  oldRevId := event.oldRevId
  performer := performerOf event.user
  timestampMs := event.timestampMs
  isBot := .ofBool event.bot
  isMinor := .ofBool event.minor
  isNewPage := .ofBool event.newPage
  tags := []
  comment := event.comment
  byteDelta := byteDelta
  isPatrolled := .ofBool event.patrolled

/-- `none` is an overflow. -/
def streamEventToQueuedEdit (event : StreamEvent) : Option QueuedEdit := do
  let score ←
    if (deriveContentModelCapabilities (contentModelOf event)).entityDiff then some ⟨I32.zero, []⟩
    else applyWikitextQuickSignals event (performerOf event.user) ⟨I32.zero, []⟩
  let byteDelta ← event.byteDelta
  return { event := editEventOf event byteDelta, score := score }

section Parts

theorem wrap_val (n : I32) : Patrol.wrap n.val = n := Subtype.ext (Patrol.wrap_of_range n.property)

/-- The low bits are the saturated difference just where it is in range. -/
theorem wrap_eq_saturate {z : Int} (low : -2 ^ 32 < z) (high : z < 2 ^ 32) :
    Patrol.wrap z = I32.saturate z ↔ i32Min ≤ z ∧ z ≤ i32Max := by
  rw [Subtype.ext_iff]
  unfold Patrol.wrap I32.saturate i32Min i32Max
  dsimp only
  omega

theorem isAnon_tilde {user : Text} (temporary : user.head? = some '~') : isAnon user = false := by
  cases user with
  | nil => cases temporary
  | cons c rest =>
      cases temporary
      rfl

theorem parse_tilde {user : Text} (temporary : user.head? = some '~') :
    Address.parse user = none := by
  cases read : Address.parse user with
  | none => rfl
  | some address =>
      cases user with
      | nil => cases temporary
      | cons c rest =>
          cases temporary
          have inside := Address.parse_chars read '~' List.mem_cons_self
          unfold Address.IsAddressChar at inside
          exact absurd inside (by decide)

/-- Both take the editor for the same just where the browser's characters tell an address. -/
theorem performerOf_iff (user : Text) :
    performerOf user = classifyEditor user ↔ isAnon user = (Address.parse user).isSome := by
  unfold performerOf classifyEditor
  by_cases temporary : user.head? = some '~'
  · rw [isAnon_tilde temporary, parse_tilde temporary, if_pos temporary, if_pos temporary]
    exact iff_of_true rfl rfl
  · rw [if_neg temporary, if_neg temporary]
    cases isAnon user <;> cases (Address.parse user).isSome <;> simp

/-- The namespaces of entities on Wikidata. -/
def HoldsEntities (namespaceId : I32) : Prop := namespaceId.val = 0 ∨ namespaceId.val = 120

theorem wikidataNamespaceDefault_cases (namespaceId : I32) :
    HoldsEntities namespaceId ∧
        (deriveContentModelCapabilities (wikidataNamespaceDefault namespaceId)).entityDiff = true ∨
      ¬HoldsEntities namespaceId ∧ wikidataNamespaceDefault namespaceId = none := by
  unfold wikidataNamespaceDefault HoldsEntities
  split_ifs with item property
  · exact .inl ⟨.inl item, by decide⟩
  · exact .inl ⟨.inr property, by decide⟩
  · exact .inr ⟨by tauto, rfl⟩

theorem entityDiff_none : (deriveContentModelCapabilities none).entityDiff = false := rfl

def isWikidataApi (apiHost : Option Text) : Bool := apiHost.any isWikidataHost

theorem defaultNamespaceContentModel_eq (apiHost : Option Text) (namespaceId : I32) :
    defaultNamespaceContentModel apiHost namespaceId =
      if isWikidataApi apiHost then wikidataNamespaceDefault namespaceId else none := by
  cases apiHost <;> rfl

/-- The defaults by the API and by the wiki are the same, except for entities of a wiki that only
one of them takes for Wikidata. -/
theorem contentModel_iff (apiHost : Option Text) (wiki : Text) (namespaceId : I32) :
    defaultNamespaceContentModelForWiki wiki namespaceId =
        defaultNamespaceContentModel apiHost namespaceId ↔
      (HoldsEntities namespaceId → isWikidataApi apiHost = isWikidataWiki wiki) := by
  rw [defaultNamespaceContentModel_eq, defaultNamespaceContentModelForWiki]
  rcases wikidataNamespaceDefault_cases namespaceId with ⟨holds, entity⟩ | ⟨outside, absent⟩
  · have named : wikidataNamespaceDefault namespaceId ≠ none := by
      intro absent
      rw [absent, entityDiff_none] at entity
      cases entity
    rw [imp_iff_right holds]
    cases isWikidataApi apiHost <;> cases isWikidataWiki wiki <;>
      simp [named, named.symm]
  · rw [absent, ite_self, ite_self]
    exact iff_of_true rfl fun holds => absurd holds outside

theorem entityDiff_iff (wiki : Text) (namespaceId : I32) :
    (deriveContentModelCapabilities
        (defaultNamespaceContentModelForWiki wiki namespaceId)).entityDiff = true ↔
      isWikidataWiki wiki = true ∧ HoldsEntities namespaceId := by
  unfold defaultNamespaceContentModelForWiki
  rcases wikidataNamespaceDefault_cases namespaceId with ⟨holds, entity⟩ | ⟨outside, absent⟩
  · cases isWikidataWiki wiki with
    | true => exact iff_of_true entity ⟨rfl, holds⟩
    | false => exact iff_of_false Bool.false_ne_true (by rintro ⟨wrong, -⟩; cases wrong)
  · rw [absent, ite_self, entityDiff_none]
    exact iff_of_false Bool.false_ne_true fun both => outside both.2

end Parts

section Queued

variable {event : StreamEvent} {delta : I32}

theorem applyWikitextQuickSignals_isSome (known : event.byteDelta = some delta)
    (performer : EditorIdentity) (score : CompositeScore) :
    (applyWikitextQuickSignals event performer score).isSome = true ↔ delta.val ≠ i32Min := by
  unfold applyWikitextQuickSignals
  simp only [known, bind, Option.bind_some]
  by_cases least : delta.val = i32Min
  · rw [I32.abs_min least]
    exact iff_of_false Bool.false_ne_true fun other => other least
  · obtain ⟨magnitude, found, -⟩ := I32.abs_eq_some delta least
    rw [found, Option.bind_some]
    split <;> exact iff_of_true rfl least

/-- The edit is queued unless its change is the least number, which only entities are spared. -/
theorem streamEventToQueuedEdit_iff (known : event.byteDelta = some delta) (edit : EditEvent) :
    (∃ queued, streamEventToQueuedEdit event = some queued ∧ queued.event = edit) ↔
      (delta.val = i32Min → isWikidataWiki event.wiki = true ∧ HoldsEntities event.namespaceId) ∧
        editEventOf event delta = edit := by
  unfold streamEventToQueuedEdit
  rw [known]
  have scored := applyWikitextQuickSignals_isSome known (performerOf event.user) ⟨I32.zero, []⟩
  have spared := entityDiff_iff event.wiki event.namespaceId
  change (deriveContentModelCapabilities (contentModelOf event)).entityDiff = true ↔ _ at spared
  cases entity : (deriveContentModelCapabilities (contentModelOf event)).entityDiff with
  | true =>
      rw [if_pos rfl]
      rw [entity] at spared
      constructor
      · rintro ⟨queued, done, rfl⟩
        cases done
        exact ⟨fun _ => spared.mp rfl, rfl⟩
      · rintro ⟨-, rfl⟩
        exact ⟨_, rfl, rfl⟩
  | false =>
      rw [if_neg Bool.false_ne_true]
      rw [entity] at spared
      have unspared : ¬(isWikidataWiki event.wiki = true ∧ HoldsEntities event.namespaceId) :=
        fun both => Bool.false_ne_true (spared.mpr both)
      cases quick : applyWikitextQuickSignals event (performerOf event.user) ⟨I32.zero, []⟩ with
      | none =>
          rw [quick] at scored
          have least : delta.val = i32Min :=
            not_not.mp fun other => Bool.false_ne_true (scored.mpr other)
          refine iff_of_false ?_ fun both => unspared (both.1 least)
          rintro ⟨queued, done, -⟩
          cases done
      | some score =>
          rw [quick] at scored
          have other := scored.mp rfl
          constructor
          · rintro ⟨queued, done, rfl⟩
            cases done
            exact ⟨fun least => absurd least other, rfl⟩
          · rintro ⟨-, rfl⟩
            exact ⟨_, rfl, rfl⟩

end Queued

section Payload

variable {payload : Json} {raw : RecentChangeEvent}

theorem asI64_i32 (n : I32) : (Json.number n.val).asI64 = some n.val := by
  have bounds := n.property
  unfold Json.asI64 i64Min i64Max
  unfold i32Min i32Max at bounds
  exact if_pos (by omega)

/-- What the browser reads of a change. -/
def fieldsOf (payload : Json) (raw : RecentChangeEvent) (revId : Nat) (oldRevId : Option Nat)
    (timestampMs : Int) : StreamEvent where
  wiki := raw.wiki
  title := raw.title
  namespaceId := raw.namespaceId
  revId := revId
  oldRevId := oldRevId
  user := raw.user
  bot := raw.bot
  minor := raw.minor
  newPage := raw.changeType == "new".toList
  patrolled := ((payload.get "patrolled").bind Json.asBool).getD false
  timestampMs := timestampMs
  comment := raw.comment.filter (· ≠ [])
  lengthOld := lengthOf payload "old"
  lengthNew := lengthOf payload "new"

theorem newRevId_of_object {members : List (String × Json)} {revision : RevisionState}
    (read : RevisionState.read (.object members) = some revision) :
    ((Json.object members).get "new").bind Json.asU64 = revision.newRevId ∧
      ((Json.object members).get "old").bind Json.asU64 = revision.oldRevId := by
  obtain ⟨⟨new, old⟩, found, rfl⟩ := Option.map_eq_some_iff.mp read
  unfold readNewOld at found
  simp only [bind, Option.bind_eq_some_iff] at found
  obtain ⟨new', atNew, old', atOld, same⟩ := found
  cases same
  exact ⟨readField_bind rfl atNew, readField_bind rfl atOld⟩

/-- A revision in an array is read by the server only. -/
theorem parseFields_eq (holds : Holds payload raw) {revision : RevisionState} {revId : Nat}
    (kind : raw.changeType = "edit".toList ∨ raw.changeType = "new".toList)
    (here : raw.revision = some revision) (newest : revision.newRevId = some revId) :
    ((∀ items, payload.get "revision" ≠ some (.array items)) ∧
        parseFields payload = some (fieldsOf payload raw revId revision.oldRevId 0)) ∨
      ((∃ items, payload.get "revision" = some (.array items)) ∧ parseFields payload = none) := by
  obtain ⟨value, found, read⟩ := Option.bind_eq_some_iff.mp (holds.revision.trans here)
  have accepted : ¬(raw.changeType ≠ "edit".toList ∧ raw.changeType ≠ "new".toList) := by tauto
  unfold parseFields
  rw [holds.wiki, holds.title, holds.namespaceId, holds.user, holds.changeType, holds.bot,
    holds.minor, holds.comment, found]
  cases value with
  | object members =>
      obtain ⟨new, old⟩ := newRevId_of_object read
      refine .inl ⟨by nofun, ?_⟩
      simp only [bind, Option.bind_some, Json.asStr, asI64_i32, new, old, newest, if_neg accepted,
        wrap_val]
      rfl
  | array items =>
      refine .inr ⟨⟨items, rfl⟩, ?_⟩
      simp only [bind, Option.bind_some, Json.asStr, asI64_i32, if_neg accepted, Json.get,
        Option.bind_none]
  | _ => cases read

/-- The change of length as the server has it. -/
def serverDelta (raw : RecentChangeEvent) : I32 :=
  match raw.length with
  | some length => computeByteDelta length.newLength length.oldLength
  | none => I32.zero

theorem saturatingSub_eq_zero (a b : I32) : I32.saturatingSub a b = I32.zero ↔ a.val = b.val := by
  rw [Subtype.ext_iff]
  unfold I32.saturatingSub I32.saturate I32.zero i32Min i32Max
  dsimp only
  omega

theorem readOptional_i32 {value : Json} {length : Option I32}
    (read : readOptional readI32 value = some length) :
    value = .null ∧ length = none ∨ ∃ n : I32, value = .number n.val ∧ length = some n := by
  unfold readOptional at read
  split at read
  · exact .inl ⟨rfl, (Option.some.inj read).symm⟩
  · obtain ⟨n, integer, rfl⟩ := Option.map_eq_some_iff.mp read
    exact .inr ⟨n, readI32_eq_some integer, rfl⟩

theorem lengthOf_number {key : String} {value : Json} (here : payload.get "length" = some value)
    {n : I32} (found : value.get key = some (.number n.val)) : lengthOf payload key = n.val := by
  unfold lengthOf
  rw [here, Option.bind_some, found, Option.bind_some, asI64_i32]
  rfl

theorem lengthOf_missing {key : String} {value : Json} (here : payload.get "length" = some value)
    (absent : value.get key = none ∨ value.get key = some .null) : lengthOf payload key = 0 := by
  unfold lengthOf
  rw [here, Option.bind_some]
  rcases absent with absent | absent
  · rw [absent]
    rfl
  · rw [absent]
    rfl

/-- Lengths in an array are read by the server only. -/
theorem lengths_cases (holds : Holds payload raw) :
    (∃ new old : I32, lengthOf payload "new" = new.val ∧ lengthOf payload "old" = old.val ∧
        serverDelta raw = I32.saturatingSub new old ∧
        ∀ items, payload.get "length" ≠ some (.array items)) ∨
      lengthOf payload "new" = 0 ∧ lengthOf payload "old" = 0 ∧ ∃ new old,
        payload.get "length" = some (.array [.number new, old]) ∧
        (serverDelta raw = I32.zero ↔ old = .number new ∨ old = .null ∧ new = 0) := by
  rcases readField_optional holds.length with ⟨absent, length⟩ | ⟨value, length, here, read, known⟩
  · have zero (key : String) : lengthOf payload key = 0 := by
      unfold lengthOf
      rcases absent with absent | absent
      · rw [absent]
        rfl
      · rw [absent]
        rfl
    refine .inl ⟨I32.zero, I32.zero, zero "new", zero "old", ?_, ?_⟩
    · unfold serverDelta
      rw [length]
      rfl
    · intro items here
      rcases absent with absent | absent
      · rw [absent] at here
        cases here
      · rw [absent] at here
        cases here
  · obtain ⟨⟨new, old⟩, found, rfl⟩ := Option.map_eq_some_iff.mp read
    have delta : serverDelta raw = I32.saturatingSub new (old.getD I32.zero) := by
      unfold serverDelta
      rw [known]
      rfl
    unfold readNewOld at found
    split at found
    · rename_i atNew atOld
      simp only [bind, Option.bind_eq_some_iff] at found
      obtain ⟨new', readNew, old', readOld, same⟩ := found
      cases same
      refine .inr ⟨lengthOf_missing here (.inl rfl), lengthOf_missing here (.inl rfl), new.val,
        atOld, by rw [here, readI32_eq_some readNew], ?_⟩
      rw [delta, saturatingSub_eq_zero]
      rcases readOptional_i32 readOld with ⟨rfl, rfl⟩ | ⟨n, rfl, rfl⟩
      · exact ⟨fun zero => .inr ⟨rfl, zero⟩, by rintro (wrong | ⟨-, zero⟩); cases wrong; exact zero⟩
      · constructor
        · intro same
          exact .inl (congrArg Json.number same.symm)
        · rintro (same | ⟨wrong, -⟩)
          · exact (Json.number.inj same).symm
          · cases wrong
    · rename_i members
      simp only [bind, Option.bind_eq_some_iff] at found
      obtain ⟨new', readNew, old', readOld, same⟩ := found
      cases same
      obtain ⟨number, atNew, integer⟩ := readField_required readNew
      rw [readI32_eq_some integer] at atNew
      refine .inl ⟨new, old.getD I32.zero, lengthOf_number here atNew, ?_, delta, ?_⟩
      · rcases readField_optional readOld with ⟨absent, rfl⟩ | ⟨value, n, atOld, integer, rfl⟩
        · exact lengthOf_missing here absent
        · rw [readI32_eq_some integer] at atOld
          exact lengthOf_number here atOld
      · intro items array
        rw [here] at array
        cases array
    · cases found

/-- Seconds that are scaled without overflow, and not taken for milliseconds. -/
theorem seconds_iff (t : Int) :
    checkedI64 (t * 1000) = some (Live.normalizeUnixTimestampMs t) ↔
      -9223372036854775 ≤ t ∧ t ≤ 10000000000 := by
  unfold checkedI64 Live.normalizeUnixTimestampMs Live.mul64 i64Min i64Max
  split_ifs with range
  · rw [Option.some.injEq]
    omega
  · rw [Option.some.injEq]
    omega
  · exact iff_of_false nofun (by omega)

theorem read_number {t : Int} {timestamp : TimestampValue}
    (read : TimestampValue.read (.number t) = some timestamp) :
    (Json.number t).asI64 = some t ∧ timestamp = .numeric t := by
  unfold TimestampValue.read at read
  by_cases range : i64Min ≤ t ∧ t ≤ i64Max
  · have whole : (Json.number t).asI64 = some t := if_pos range
    rw [whole] at read
    exact ⟨whole, (Option.some.inj read).symm⟩
  · have none : (Json.number t).asI64 = none := if_neg range
    rw [none] at read
    cases read

end Payload

section Agreement

/-- The browser queues the event that the server has of the change, up to the tags and the
patrol flag, and nothing overflows. -/
def Inserts (payload : Json) (event : EditEvent) : Prop :=
  ∃ parsed queued, parseStreamEvent payload = some (some parsed) ∧
    streamEventToQueuedEdit parsed = some queued ∧
    { queued.event with tags := event.tags, isPatrolled := event.isPatrolled } = event

/-- Where both read a payload in the same way. -/
structure ReadAlike (apiHost : Option Text) (payload : Json) : Prop where
  seconds : ∀ t, payload.get "timestamp" = some (.number t) →
    -9223372036854775 ≤ t ∧ t ≤ 10000000000
  editor : ∀ user, payload.get "user" = some (.string user) →
    isAnon user = (Address.parse user).isSome
  contentModel : ∀ wiki namespaceId, payload.get "wiki" = some (.string wiki) →
    payload.get "namespace" = some (.number namespaceId) → namespaceId = 0 ∨ namespaceId = 120 →
      isWikidataApi apiHost = isWikidataWiki wiki
  revision : ∀ items, payload.get "revision" ≠ some (.array items)
  lengths : i32Min ≤ lengthOf payload "new" - lengthOf payload "old" ∧
    lengthOf payload "new" - lengthOf payload "old" ≤ i32Max
  magnitude : lengthOf payload "new" - lengthOf payload "old" = i32Min →
    ∃ wiki namespaceId, payload.get "wiki" = some (.string wiki) ∧
      payload.get "namespace" = some (.number namespaceId) ∧ isWikidataWiki wiki = true ∧
      (namespaceId = 0 ∨ namespaceId = 120)
  lengthItems : ∀ new old, payload.get "length" = some (.array [.number new, old]) →
    old = .number new ∨ old = .null ∧ new = 0

variable {payload : Json} {raw : RecentChangeEvent}

/-- The two events differ at most in these fields. -/
theorem editEventOf_iff (apiHost : Option Text) (revId : Nat) (oldRevId : Option Nat)
    (browserMs serverMs : Int) (delta : I32) :
    { editEventOf (fieldsOf payload raw revId oldRevId browserMs) delta with
        tags := raw.tags, isPatrolled := .disabled } =
      eventOf apiHost raw revId oldRevId serverMs ↔
    defaultNamespaceContentModelForWiki raw.wiki raw.namespaceId =
        defaultNamespaceContentModel apiHost raw.namespaceId ∧
      performerOf raw.user = classifyEditor raw.user ∧ browserMs = serverMs ∧
      delta = serverDelta raw := by
  rw [EditEvent.mk.injEq]
  constructor
  · rintro ⟨-, -, -, -, -, performer, moment, -, -, -, -, -, delta, -, model⟩
    exact ⟨model, performer, moment, delta⟩
  · rintro ⟨model, performer, moment, delta⟩
    exact ⟨rfl, rfl, rfl, rfl, rfl, performer, moment, rfl, rfl, rfl, rfl, rfl, delta, rfl, model⟩

/-- The difference that the browser takes fits into `i64`. -/
theorem byteDelta_eq (holds : Holds payload raw) {event : StreamEvent}
    (new : event.lengthNew = lengthOf payload "new")
    (old : event.lengthOld = lengthOf payload "old") :
    event.byteDelta =
      some (Patrol.wrap (lengthOf payload "new" - lengthOf payload "old")) := by
  have bounded : ∃ new old : I32, lengthOf payload "new" = new.val ∧
      lengthOf payload "old" = old.val := by
    rcases lengths_cases holds with ⟨new, old, atNew, atOld, -⟩ | ⟨atNew, atOld, -⟩
    · exact ⟨new, old, atNew, atOld⟩
    · exact ⟨I32.zero, I32.zero, atNew, atOld⟩
  obtain ⟨⟨m, lowM, highM⟩, ⟨n, lowN, highN⟩, atNew, atOld⟩ := bounded
  unfold StreamEvent.byteDelta checkedI64
  rw [new, old, atNew, atOld]
  unfold i32Min i32Max at *
  unfold i64Min i64Max
  dsimp only
  rw [if_pos (by omega)]
  rfl

/-- Both have one change of length just where the difference is in range, and lengths in an array
differ by nothing. -/
theorem delta_iff (holds : Holds payload raw) :
    Patrol.wrap (lengthOf payload "new" - lengthOf payload "old") = serverDelta raw ↔
      (i32Min ≤ lengthOf payload "new" - lengthOf payload "old" ∧
        lengthOf payload "new" - lengthOf payload "old" ≤ i32Max) ∧
      ∀ new old, payload.get "length" = some (.array [.number new, old]) →
        old = .number new ∨ old = .null ∧ new = 0 := by
  rcases lengths_cases holds with ⟨new, old, atNew, atOld, delta, noArray⟩ |
    ⟨atNew, atOld, new, old, here, zero⟩
  · rw [atNew, atOld, delta, I32.saturatingSub]
    have newRange := new.property
    have oldRange := old.property
    rw [wrap_eq_saturate]
    · exact (and_iff_left fun _ _ array => absurd array (noArray _)).symm
    · unfold i32Min i32Max at *
      omega
    · unfold i32Min i32Max at *
      omega
  · rw [atNew, atOld, eq_comm, sub_self]
    change serverDelta raw = I32.zero ↔ _
    rw [zero]
    constructor
    · intro same
      refine ⟨by decide, fun new' old' array => ?_⟩
      rw [here] at array
      cases array
      exact same
    · rintro ⟨-, same⟩
      exact same new old here

/-- What has to hold of the parts of a change. -/
structure PartsAgree (apiHost : Option Text) (payload : Json) (raw : RecentChangeEvent) (t : Int) :
    Prop where
  revision : ∀ items, payload.get "revision" ≠ some (.array items)
  scaled : checkedI64 (t * 1000) = some (Live.normalizeUnixTimestampMs t)
  weighed : (Patrol.wrap (lengthOf payload "new" - lengthOf payload "old")).val = i32Min →
    isWikidataWiki raw.wiki = true ∧ HoldsEntities raw.namespaceId
  contentModel : defaultNamespaceContentModelForWiki raw.wiki raw.namespaceId =
    defaultNamespaceContentModel apiHost raw.namespaceId
  performer : performerOf raw.user = classifyEditor raw.user
  delta : Patrol.wrap (lengthOf payload "new" - lengthOf payload "old") = serverDelta raw

theorem inserts_iff_parts (holds : Holds payload raw) {revision : RevisionState} {revId : Nat}
    {t : Int} (kind : raw.changeType = "edit".toList ∨ raw.changeType = "new".toList)
    (here : raw.revision = some revision) (newest : revision.newRevId = some revId)
    (seconds : (payload.get "timestamp").bind Json.asI64 = some t) (apiHost : Option Text) :
    Inserts payload
        (eventOf apiHost raw revId revision.oldRevId (Live.normalizeUnixTimestampMs t)) ↔
      PartsAgree apiHost payload raw t := by
  have parsed : parseStreamEvent payload = match parseFields payload with
      | none => some none
      | some event => (checkedI64 (t * 1000)).map fun ms =>
          some { event with timestampMs := ms } := by
    unfold parseStreamEvent
    rw [seconds]
    rfl
  have known (ms : Int) : (fieldsOf payload raw revId revision.oldRevId ms).byteDelta =
      some (Patrol.wrap (lengthOf payload "new" - lengthOf payload "old")) :=
    byteDelta_eq holds rfl rfl
  have same (ms : Int) := @editEventOf_iff payload raw apiHost revId revision.oldRevId ms
    (Live.normalizeUnixTimestampMs t)
    (Patrol.wrap (lengthOf payload "new" - lengthOf payload "old"))
  constructor
  · rintro ⟨live, queued, parse, queue, agree⟩
    rw [parsed] at parse
    rcases parseFields_eq holds kind here newest with ⟨object, fields⟩ | ⟨-, fields⟩
    · rw [fields] at parse
      obtain ⟨browserMs, product, one⟩ := Option.map_eq_some_iff.mp parse
      cases one
      obtain ⟨spared, edit⟩ := (streamEventToQueuedEdit_iff (known browserMs) queued.event).mp
        ⟨queued, queue, rfl⟩
      rw [← edit] at agree
      obtain ⟨model, performer, moment, delta⟩ := (same browserMs).mp agree
      exact ⟨object, moment ▸ product, spared, model, performer, delta⟩
    · rw [fields] at parse
      cases parse
  · intro parts
    rcases parseFields_eq holds kind here newest with ⟨-, fields⟩ | ⟨⟨items, array⟩, -⟩
    · obtain ⟨queued, queue, edit⟩ := (streamEventToQueuedEdit_iff
        (known (Live.normalizeUnixTimestampMs t)) _).mpr ⟨parts.weighed, rfl⟩
      refine ⟨_, queued, ?_, queue, ?_⟩
      · rw [parsed, fields, parts.scaled]
        rfl
      · rw [edit]
        exact (same _).mpr ⟨parts.contentModel, parts.performer, rfl, parts.delta⟩
    · exact absurd array (parts.revision items)

/-- An ingestor of the French Wikipedia with every filter open. -/
def openIngestor : StreamIngestor :=
  .withOptions ⟨"frwiki".toList, some "fr.wikipedia.org".toList, []⟩
    ⟨false, false, supportedChangeTypes⟩

def changeBy (user : String) : Json := .object [
  ("type", .string "edit".toList), ("wiki", .string "frwiki".toList),
  ("title", .string "Paris".toList), ("namespace", .number 0), ("user", .string user.toList),
  ("timestamp", .number 1700000000), ("comment", .string []),
  ("revision", .object [("new", .number 20), ("old", .number 10)]),
  ("length", .object [("new", .number 120), ("old", .number 100)])]

def editBy (performer : EditorIdentity) : EditEvent where
  wikiId := "frwiki".toList
  title := "Paris".toList
  namespaceId := I32.zero
  revId := 20
  oldRevId := some 10
  performer := performer
  timestampMs := 1700000000000
  isBot := .disabled
  isMinor := .disabled
  isNewPage := .disabled
  tags := []
  comment := none
  byteDelta := I32.saturate 20
  isPatrolled := .disabled
  contentModel := none

theorem ipv6_ingested : openIngestor.ingest (changeBy "2001:db8::1") =
    .ok (some (editBy (.anonymous "2001:db8::1".toList))) := by
  rfl

end Agreement

end SP42.Stream

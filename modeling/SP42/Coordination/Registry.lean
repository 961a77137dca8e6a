import SP42.Coordination.State

/-!
The server's registry of rooms. A call is cut where the source takes and
releases its lock, so each section below is one atomic step. A broadcast channel
is known by its number, and the codec of the payloads is a parameter.
-/
namespace SP42.Coordination

def presenceStaleAfterMs : Int := 60000
def roomIdleEvictAfterMs : Int := 5 * 60000

/-- The payload codec; the error is the text of the codec's own error. -/
structure Codec where
  encodeMessage : CoordinationMessage → Except String (List UInt8)
  decodeMessage : List UInt8 → Except String CoordinationMessage

structure CoordinationEnvelope where
  senderId : Nat
  payload : List UInt8
  deriving DecidableEq, Repr

structure CoordinationRoomState where
  sender : Nat
  state : CoordinationState
  presenceLastSeenMs : Std.ExtTreeMap String Int
  connectedClients : Nat
  publishedMessages : Nat
  acceptedMessages : Nat
  invalidMessages : Nat
  lastActivityMs : Option Int

structure CoordinationRoomMetrics where
  lastActivityMs : Option Int
  publishedMessages : Nat
  acceptedMessages : Nat
  invalidMessages : Nat
  deriving DecidableEq, Repr

structure CoordinationRoomSummary where
  wikiId : String
  connectedClients : Nat
  publishedMessages : Nat
  claimCount : Nat
  presenceCount : Nat
  flaggedEditCount : Nat
  scoreDeltaCount : Nat
  raceResolutionCount : Nat
  recentActionCount : Nat
  deriving DecidableEq, Repr

structure CoordinationRoomInspection where
  room : CoordinationRoomSummary
  state : Option CoordinationStateSummary
  metrics : CoordinationRoomMetrics
  deriving DecidableEq, Repr

abbrev Rooms := Std.ExtTreeMap String CoordinationRoomState

/-- The rooms, and the number of the next channel to be created. -/
structure CoordinationRegistry where
  rooms : Rooms
  nextChannel : Nat

def CoordinationRegistry.new : CoordinationRegistry := ⟨∅, 0⟩

def newRoomState (wikiId : String) (channel : Nat) : CoordinationRoomState where
  sender := channel
  state := .new wikiId
  presenceLastSeenMs := ∅
  connectedClients := 0
  publishedMessages := 0
  acceptedMessages := 0
  invalidMessages := 0
  lastActivityMs := none

def roomSummary (wikiId : String) (room : CoordinationRoomState) : CoordinationRoomSummary :=
  let summary := room.state.summary
  { wikiId := wikiId
    connectedClients := room.connectedClients
    publishedMessages := room.publishedMessages
    claimCount := summary.claims.length
    presenceCount := summary.presence.length
    flaggedEditCount := summary.flaggedEdits.length
    scoreDeltaCount := summary.scoreDeltas.length
    raceResolutionCount := summary.raceResolutions.length
    recentActionCount := summary.recentActions.length }

def trackPresenceHeartbeat (room : CoordinationRoomState) (message : CoordinationMessage)
    (currentTimeMs : Int) : CoordinationRoomState :=
  match message with
  | .presenceHeartbeat heartbeat =>
    if heartbeat.activeEditCount = 0 then
      { room with presenceLastSeenMs := room.presenceLastSeenMs.erase heartbeat.actor }
    else
      { room with
        presenceLastSeenMs := room.presenceLastSeenMs.insert heartbeat.actor currentTimeMs }
  | _ => room

def isStale (currentTimeMs lastSeenMs : Int) : Bool :=
  decide (presenceStaleAfterMs ≤ i64SaturatingSub currentTimeMs lastSeenMs)

def staleActors (room : CoordinationRoomState) (currentTimeMs : Int) : List String :=
  room.presenceLastSeenMs.toList.filterMap fun (actor, lastSeenMs) =>
    if isStale currentTimeMs lastSeenMs then some actor else none

def dropActor (room : CoordinationRoomState) (actor : String) : CoordinationRoomState :=
  { room with
    presenceLastSeenMs := room.presenceLastSeenMs.erase actor
    state := (room.state.removePresence actor).1 }

/-- Every actor not seen for the threshold leaves both maps. -/
def pruneStalePresence (room : CoordinationRoomState) (currentTimeMs : Int) :
    CoordinationRoomState :=
  (staleActors room currentTimeMs).foldl dropActor room

def roomIsStale (room : CoordinationRoomState) (currentTimeMs : Int) : Bool :=
  if room.connectedClients ≠ 0 then false
  else match room.lastActivityMs with
    | none => false
    | some lastActivityMs =>
        decide (roomIdleEvictAfterMs ≤ i64SaturatingSub currentTimeMs lastActivityMs)

def staleRooms (rooms : Rooms) (currentTimeMs : Int) : List String :=
  rooms.toList.filterMap fun (wikiId, room) =>
    if roomIsStale room currentTimeMs then some wikiId else none

/-- The rooms that are not stale; `retain` written as the removal of the others. -/
def pruneInactiveRooms (rooms : Rooms) (currentTimeMs : Int) : Rooms :=
  (staleRooms rooms currentTimeMs).foldl (fun rooms wikiId => rooms.erase wikiId) rooms

/-- The room of a wiki, created with a channel of its own when there is none. -/
def entryOrNew (registry : CoordinationRegistry) (wikiId : String) :
    CoordinationRegistry × CoordinationRoomState :=
  match registry.rooms[wikiId]? with
  | some room => (registry, room)
  | none =>
    let room := newRoomState wikiId registry.nextChannel
    (⟨registry.rooms.insert wikiId room, registry.nextChannel + 1⟩, room)

/-- What a decoded message does to its room. -/
def acceptMessage (room : CoordinationRoomState) (message : CoordinationMessage)
    (currentTimeMs : Int) : CoordinationRoomState :=
  let room := { room with acceptedMessages := saturatingSucc u64Max room.acceptedMessages }
  let room := trackPresenceHeartbeat room message currentTimeMs
  let room := { room with state := (room.state.apply message).1 }
  pruneStalePresence room currentTimeMs

namespace CoordinationRegistry

variable (codec : Codec)

/-- The write section of `room_sender`. -/
def createSender (registry : CoordinationRegistry) (wikiId : String) (currentTimeMs : Int) :
    CoordinationRegistry × Nat :=
  let registry := { registry with rooms := pruneInactiveRooms registry.rooms currentTimeMs }
  let (registry, room) := entryOrNew registry wikiId
  (registry, room.sender)

/-- The read section of `room_sender`, and its write section when there is no room yet. -/
def roomSender (registry : CoordinationRegistry) (wikiId : String) (currentTimeMs : Int) :
    CoordinationRegistry × Nat :=
  match registry.rooms[wikiId]? with
  | some room => (registry, room.sender)
  | none => registry.createSender wikiId currentTimeMs

def subscribe (registry : CoordinationRegistry) (wikiId : String) (currentTimeMs : Int) :
    CoordinationRegistry × Nat :=
  registry.roomSender wikiId currentTimeMs

/-- The locked section of `publish`: the message it folded, if the payload decodes. -/
def foldPayload (registry : CoordinationRegistry) (wikiId : String) (payload : List UInt8)
    (currentTimeMs : Int) : CoordinationRegistry × Option CoordinationMessage :=
  let rooms := pruneInactiveRooms registry.rooms currentTimeMs
  match rooms[wikiId]? with
  | none => ({ registry with rooms := rooms }, none)
  | some room =>
    let room := { room with
      publishedMessages := saturatingSucc u64Max room.publishedMessages
      lastActivityMs := some currentTimeMs }
    match codec.decodeMessage payload with
    | .ok message =>
        let room := acceptMessage room message currentTimeMs
        ({ registry with rooms := rooms.insert wikiId room }, some message)
    | .error _ =>
        let room := { room with invalidMessages := saturatingSucc u64Max room.invalidMessages }
        ({ registry with rooms := rooms.insert wikiId room }, none)

/-- What a publish did: the message folded into the room, and the envelope sent with its channel. -/
structure Published where
  folded : Option CoordinationMessage
  relayed : Option (Nat × CoordinationEnvelope)
  deriving DecidableEq, Repr

/-- Only a payload the server itself decoded is relayed. -/
def publish (registry : CoordinationRegistry) (wikiId : String) (envelope : CoordinationEnvelope)
    (senderMs currentTimeMs : Int) : CoordinationRegistry × Published :=
  let (registry, sender) := registry.roomSender wikiId senderMs
  let (registry, decoded) := registry.foldPayload codec wikiId envelope.payload currentTimeMs
  (registry, ⟨decoded, if decoded.isSome then some (sender, envelope) else none⟩)

def connectClient (registry : CoordinationRegistry) (wikiId : String) (currentTimeMs : Int) :
    CoordinationRegistry :=
  let registry := { registry with rooms := pruneInactiveRooms registry.rooms currentTimeMs }
  let (registry, room) := entryOrNew registry wikiId
  let room := { room with
    connectedClients := saturatingSucc u32Max room.connectedClients
    lastActivityMs := some currentTimeMs }
  { registry with
    rooms := registry.rooms.insert wikiId (pruneStalePresence room currentTimeMs) }

/-- Forget a client; a room nothing was ever published in goes with its last one. -/
def disconnectClient (registry : CoordinationRegistry) (wikiId : String) (currentTimeMs : Int) :
    CoordinationRegistry :=
  let rooms := pruneInactiveRooms registry.rooms currentTimeMs
  match rooms[wikiId]? with
  | none => { registry with rooms := rooms }
  | some room =>
    let room := { room with
      connectedClients := room.connectedClients - 1
      lastActivityMs := some currentTimeMs }
    let room := pruneStalePresence room currentTimeMs
    if room.connectedClients = 0 ∧ room.publishedMessages = 0 ∧ room.acceptedMessages = 0 ∧
        room.invalidMessages = 0 then
      { registry with rooms := (rooms.insert wikiId room).erase wikiId }
    else { registry with rooms := rooms.insert wikiId room }

/-- The common part of the calls that look at every room. -/
def pruneAll (registry : CoordinationRegistry) (currentTimeMs : Int) : CoordinationRegistry :=
  { registry with
    rooms := (pruneInactiveRooms registry.rooms currentTimeMs).map fun _ room =>
      pruneStalePresence room currentTimeMs }

/-- The common part of the calls that look at one room. -/
def pruneOne (registry : CoordinationRegistry) (wikiId : String) (currentTimeMs : Int) :
    CoordinationRegistry :=
  let rooms := pruneInactiveRooms registry.rooms currentTimeMs
  match rooms[wikiId]? with
  | none => { registry with rooms := rooms }
  | some room =>
      { registry with rooms := rooms.insert wikiId (pruneStalePresence room currentTimeMs) }

/-- The summaries come in the order of their wikis, which is the order of the map. -/
def snapshot (registry : CoordinationRegistry) (currentTimeMs : Int) :
    CoordinationRegistry × List CoordinationRoomSummary :=
  let registry := registry.pruneAll currentTimeMs
  (registry, registry.rooms.toList.map fun (wikiId, room) => roomSummary wikiId room)

def roomStateSummary (registry : CoordinationRegistry) (wikiId : String) (currentTimeMs : Int) :
    CoordinationRegistry × Option CoordinationStateSummary :=
  let registry := registry.pruneOne wikiId currentTimeMs
  (registry, registry.rooms[wikiId]?.map fun room => room.state.summary)

def inspection (wikiId : String) (room : CoordinationRoomState) : CoordinationRoomInspection where
  room := roomSummary wikiId room
  state := some room.state.summary
  metrics :=
    { lastActivityMs := room.lastActivityMs
      publishedMessages := room.publishedMessages
      acceptedMessages := room.acceptedMessages
      invalidMessages := room.invalidMessages }

def roomInspection (registry : CoordinationRegistry) (wikiId : String) (currentTimeMs : Int) :
    CoordinationRegistry × Option CoordinationRoomInspection :=
  let registry := registry.pruneOne wikiId currentTimeMs
  (registry, registry.rooms[wikiId]?.map fun room => inspection wikiId room)

def roomInspections (registry : CoordinationRegistry) (currentTimeMs : Int) :
    CoordinationRegistry × List CoordinationRoomInspection :=
  let registry := registry.pruneAll currentTimeMs
  (registry, registry.rooms.toList.map fun (wikiId, room) => inspection wikiId room)

end CoordinationRegistry

end SP42.Coordination

import SP42.Coordination.Rooms

/-!
Concurrent calls of the registry, cut at their lock sections. A publish takes a
room's sender in one section and folds its payload in a later one; a client
connects, subscribes and disconnects. Any section of any call may come next.
-/
namespace SP42.Coordination

/-- Where a client's calls stand. -/
inductive ClientPhase where
  | idle
  | connected (wikiId : String)
  | missed (wikiId : String)
  | obtained (wikiId : String) (sender : Nat)
  | subscribed (wikiId : String) (receiver : Nat)
  | gone
  deriving DecidableEq, Repr

/-- Where a publish stands between its sections. -/
inductive PublishPhase where
  | idle
  | missed (wikiId : String) (envelope : CoordinationEnvelope)
  | obtained (wikiId : String) (envelope : CoordinationEnvelope) (sender : Nat)
  | folded (sender : Nat) (envelope : CoordinationEnvelope)
  deriving DecidableEq, Repr

/-- The wiki whose room counts the client. -/
def ClientPhase.room : ClientPhase → Option String
  | .connected wikiId | .missed wikiId | .obtained wikiId _ | .subscribed wikiId _ => some wikiId
  | .idle | .gone => none

/-- The channel the client has from its wiki's room. -/
def ClientPhase.channel : ClientPhase → Option (String × Nat)
  | .obtained wikiId channel | .subscribed wikiId channel => some (wikiId, channel)
  | _ => none

def PublishPhase.channel : PublishPhase → Option (String × Nat)
  | .obtained wikiId _ channel => some (wikiId, channel)
  | _ => none

/-- The registry with the clients and the publishes under way. -/
structure Floor (ι π : Type) where
  registry : CoordinationRegistry
  clients : ι → ClientPhase
  publishes : π → PublishPhase

inductive Section (ι π : Type) where
  | connect (client : ι) (wikiId : String) (nowMs : Int)
  | subscribeRead (client : ι)
  | subscribeWrite (client : ι) (nowMs : Int)
  | subscribe (client : ι)
  | disconnect (client : ι) (nowMs : Int)
  | publishRead (task : π) (wikiId : String) (envelope : CoordinationEnvelope)
  | publishWrite (task : π) (nowMs : Int)
  | fold (task : π) (nowMs : Int)
  | send (task : π)
  | snapshot (nowMs : Int)
  | roomStateSummary (wikiId : String) (nowMs : Int)
  | roomInspection (wikiId : String) (nowMs : Int)
  | roomInspections (nowMs : Int)
  deriving DecidableEq, Repr

def lookup (registry : CoordinationRegistry) (wikiId : String) : Option Nat :=
  registry.rooms[wikiId]?.map CoordinationRoomState.sender

namespace Floor

variable {ι π : Type} [DecidableEq ι] [DecidableEq π]

def start : Floor ι π := ⟨.new, fun _ => .idle, fun _ => .idle⟩

def setClient (floor : Floor ι π) (client : ι) (phase : ClientPhase) : Floor ι π :=
  { floor with clients := Function.update floor.clients client phase }

def setPublish (floor : Floor ι π) (task : π) (phase : PublishPhase) : Floor ι π :=
  { floor with publishes := Function.update floor.publishes task phase }

/-- One lock section, with what it sends; a call that is not at that section does nothing. -/
def step (codec : Codec) (floor : Floor ι π) :
    Section ι π → Floor ι π × Option (Nat × CoordinationEnvelope)
  | .connect client wikiId nowMs =>
    match floor.clients client with
    | .idle =>
        let registry := floor.registry.connectClient wikiId nowMs
        ({ floor with registry := registry }.setClient client (.connected wikiId), none)
    | _ => (floor, none)
  | .subscribeRead client =>
    match floor.clients client with
    | .connected wikiId =>
      match lookup floor.registry wikiId with
      | some sender => (floor.setClient client (.obtained wikiId sender), none)
      | none => (floor.setClient client (.missed wikiId), none)
    | _ => (floor, none)
  | .subscribeWrite client nowMs =>
    match floor.clients client with
    | .missed wikiId =>
        let (registry, sender) := floor.registry.createSender wikiId nowMs
        ({ floor with registry := registry }.setClient client (.obtained wikiId sender), none)
    | _ => (floor, none)
  | .subscribe client =>
    match floor.clients client with
    | .obtained wikiId sender => (floor.setClient client (.subscribed wikiId sender), none)
    | _ => (floor, none)
  | .disconnect client nowMs =>
    match (floor.clients client).room with
    | some wikiId =>
        let registry := floor.registry.disconnectClient wikiId nowMs
        ({ floor with registry := registry }.setClient client .gone, none)
    | none => (floor, none)
  | .publishRead task wikiId envelope =>
    match floor.publishes task with
    | .idle =>
      match lookup floor.registry wikiId with
      | some sender => (floor.setPublish task (.obtained wikiId envelope sender), none)
      | none => (floor.setPublish task (.missed wikiId envelope), none)
    | _ => (floor, none)
  | .publishWrite task nowMs =>
    match floor.publishes task with
    | .missed wikiId envelope =>
        let (registry, sender) := floor.registry.createSender wikiId nowMs
        ({ floor with registry := registry }.setPublish task
          (.obtained wikiId envelope sender), none)
    | _ => (floor, none)
  | .fold task nowMs =>
    match floor.publishes task with
    | .obtained wikiId envelope sender =>
        let (registry, decoded) :=
          floor.registry.foldPayload codec wikiId envelope.payload nowMs
        ({ floor with registry := registry }.setPublish task
          (if decoded.isSome then .folded sender envelope else .idle), none)
    | _ => (floor, none)
  | .send task =>
    match floor.publishes task with
    | .folded sender envelope => (floor.setPublish task .idle, some (sender, envelope))
    | _ => (floor, none)
  | .snapshot nowMs => ({ floor with registry := (floor.registry.snapshot nowMs).1 }, none)
  | .roomStateSummary wikiId nowMs =>
      ({ floor with registry := (floor.registry.roomStateSummary wikiId nowMs).1 }, none)
  | .roomInspection wikiId nowMs =>
      ({ floor with registry := (floor.registry.roomInspection wikiId nowMs).1 }, none)
  | .roomInspections nowMs =>
      ({ floor with registry := (floor.registry.roomInspections nowMs).1 }, none)

end Floor

/-- The clients a wiki's room counts; none where there is no room. -/
def connectedTo (rooms : Rooms) (wikiId : String) : Nat :=
  rooms[wikiId]?.elim 0 CoordinationRoomState.connectedClients

/-- There is no room of the wiki, or only one that is evicted first. -/
def Vacant (rooms : Rooms) (wikiId : String) (nowMs : Int) : Prop :=
  ∀ room, rooms[wikiId]? = some room → roomIsStale room nowMs = true

/-- What was published is what was accepted and what was invalid; the counter stops at its maximum. -/
def Accounted (room : CoordinationRoomState) : Prop :=
  room.publishedMessages = min u64Max (room.acceptedMessages + room.invalidMessages)

/-- No room of the wiki is new, and those that stay keep their channel and their account. -/
def Carried (wikiId : String) (rooms rooms' : Rooms) : Prop :=
  ∀ room', rooms'[wikiId]? = some room' → ∃ room, rooms[wikiId]? = some room ∧
    room'.sender = room.sender ∧ (Accounted room → Accounted room')

section Effects

variable {rooms rooms' rooms'' : Rooms} {w k : String} {nowMs : Int}

theorem Carried.refl (w : String) (rooms : Rooms) : Carried w rooms rooms :=
  fun room held => ⟨room, held, rfl, id⟩

theorem Carried.trans (first : Carried w rooms rooms') (second : Carried w rooms' rooms'') :
    Carried w rooms rooms'' := by
  intro room'' held''
  obtain ⟨room', held', sender', account'⟩ := second room'' held''
  obtain ⟨room, held, sender, account⟩ := first room' held'
  exact ⟨room, held, sender'.trans sender, fun h => account' (account h)⟩

theorem not_stale_of_connected {room : CoordinationRoomState} (h : room.connectedClients ≠ 0) :
    roomIsStale room nowMs = false := by
  simp [roomIsStale, h]

theorem connected_of_stale {room : CoordinationRoomState} (h : roomIsStale room nowMs = true) :
    room.connectedClients = 0 := by
  by_contra some
  rw [not_stale_of_connected some] at h
  cases h

theorem pruneInactive_carried (w : String) (rooms : Rooms) (nowMs : Int) :
    Carried w rooms (pruneInactiveRooms rooms nowMs) :=
  fun room held => ⟨room, of_pruneInactive held, rfl, id⟩

/-- Only rooms nobody is connected to are evicted, so no client is lost. -/
theorem pruneInactive_connected (w : String) (rooms : Rooms) (nowMs : Int) :
    connectedTo (pruneInactiveRooms rooms nowMs) w = connectedTo rooms w := by
  unfold connectedTo
  cases held : rooms[w]? with
  | none =>
      cases after : (pruneInactiveRooms rooms nowMs)[w]? with
      | none => rfl
      | some room =>
          rw [of_pruneInactive after] at held
          cases held
  | some room =>
      by_cases stale : roomIsStale room nowMs = true
      · have gone : (pruneInactiveRooms rooms nowMs)[w]? = none := by
          rw [Option.eq_none_iff_forall_ne_some]
          intro other after
          obtain ⟨same, fresh⟩ := (pruneInactive_get rooms nowMs w other).mp after
          rw [held, Option.some.injEq] at same
          rw [← same, stale] at fresh
          cases fresh
        rw [gone]
        exact (connected_of_stale stale).symm
      · rw [(pruneInactive_get rooms nowMs w room).mpr ⟨held, Bool.eq_false_iff.mpr stale⟩]

theorem vacant_of_prune (h : (pruneInactiveRooms rooms nowMs)[w]? = none) : Vacant rooms w nowMs := by
  intro room held
  by_contra stale
  rw [(pruneInactive_get rooms nowMs w room).mpr ⟨held, Bool.eq_false_iff.mpr stale⟩] at h
  cases h

theorem connected_of_vacant (h : Vacant rooms w nowMs) : connectedTo rooms w = 0 := by
  unfold connectedTo
  cases held : rooms[w]? with
  | none => rfl
  | some room => exact connected_of_stale (h room held)

theorem insert_connected (rooms : Rooms) (k w : String) (room : CoordinationRoomState) :
    connectedTo (rooms.insert k room) w =
      if k = w then room.connectedClients else connectedTo rooms w := by
  unfold connectedTo
  rw [Std.ExtTreeMap.getElem?_insert]
  by_cases same : k = w <;> simp [same]

theorem erase_connected (rooms : Rooms) (k w : String) :
    connectedTo (rooms.erase k) w = if k = w then 0 else connectedTo rooms w := by
  unfold connectedTo
  rw [Std.ExtTreeMap.getElem?_erase]
  by_cases same : k = w <;> simp [same]

/-- Writing back a changed room of the wiki carries it, if its channel and account are kept. -/
theorem insert_carried {room room' : CoordinationRoomState} (held : rooms[k]? = some room)
    (sender : room'.sender = room.sender) (account : Accounted room → Accounted room') :
    Carried w rooms (rooms.insert k room') := by
  intro other found
  rcases of_insert found with ⟨rfl, rfl⟩ | old
  · exact ⟨room, held, sender, account⟩
  · exact ⟨other, old, rfl, id⟩

theorem prune_sender (room : CoordinationRoomState) (nowMs : Int) :
    (pruneStalePresence room nowMs).sender = room.sender := by
  obtain ⟨presence, lastSeen, frame⟩ := prune_frame room nowMs
  rw [frame]

theorem prune_connected (room : CoordinationRoomState) (nowMs : Int) :
    (pruneStalePresence room nowMs).connectedClients = room.connectedClients := by
  obtain ⟨presence, lastSeen, frame⟩ := prune_frame room nowMs
  rw [frame]

theorem prune_accounted (room : CoordinationRoomState) (nowMs : Int) :
    Accounted (pruneStalePresence room nowMs) ↔ Accounted room := by
  obtain ⟨presence, lastSeen, frame⟩ := prune_frame room nowMs
  rw [frame]
  rfl

end Effects

/-- The rooms carry on, and they count the same clients. -/
structure Quiet (rooms rooms' : Rooms) : Prop where
  carried : ∀ w, Carried w rooms rooms'
  connected : ∀ w, connectedTo rooms' w = connectedTo rooms w

/-- Every room carries on but that of the one wiki, which is a new one. -/
structure Opened (k : String) (nowMs : Int) (rooms rooms' : Rooms) : Prop where
  vacant : Vacant rooms k nowMs
  carried : ∀ w, k ≠ w → Carried w rooms rooms'
  accounted : ∀ room, rooms'[k]? = some room → Accounted room

section Calls

variable (registry : CoordinationRegistry) (k : String) (nowMs : Int)

theorem pruneInactive_quiet (rooms : Rooms) (nowMs : Int) :
    Quiet rooms (pruneInactiveRooms rooms nowMs) :=
  ⟨fun w => pruneInactive_carried w rooms nowMs, fun w => pruneInactive_connected w rooms nowMs⟩

theorem newRoom_accounted (w : String) (channel : Nat) : Accounted (newRoomState w channel) := by
  simp [Accounted, newRoomState]

/-- A room is looked up after the eviction: it is there, or it is opened. -/
theorem enter_cases :
    let pruned : CoordinationRegistry :=
      { registry with rooms := pruneInactiveRooms registry.rooms nowMs }
    (∃ room, registry.rooms[k]? = some room ∧ pruned.rooms[k]? = some room ∧
        entryOrNew pruned k = (pruned, room)) ∨
      (Vacant registry.rooms k nowMs ∧ entryOrNew pruned k =
        (⟨pruned.rooms.insert k (newRoomState k pruned.nextChannel), pruned.nextChannel + 1⟩,
          newRoomState k pruned.nextChannel)) := by
  intro pruned
  unfold entryOrNew
  cases held : pruned.rooms[k]? with
  | some room => exact .inl ⟨room, of_pruneInactive held, rfl, rfl⟩
  | none => exact .inr ⟨vacant_of_prune held, rfl⟩

theorem createSender_cases :
    let rooms' := (registry.createSender k nowMs).1.rooms
    (Quiet registry.rooms rooms' ∨ Opened k nowMs registry.rooms rooms') ∧
      (∀ w, connectedTo rooms' w = connectedTo registry.rooms w) ∧
      lookup (registry.createSender k nowMs).1 k = some (registry.createSender k nowMs).2 := by
  have quiet := pruneInactive_quiet registry.rooms nowMs
  unfold CoordinationRegistry.createSender lookup
  dsimp only
  obtain ⟨room, _, held, entered⟩ | ⟨vacant, entered⟩ := enter_cases registry k nowMs
  · rw [entered]
    exact ⟨.inl quiet, quiet.connected, by rw [held]; rfl⟩
  · rw [entered]
    refine ⟨.inr ⟨vacant, fun w other room held => ?_, fun room held => ?_⟩, fun w => ?_, ?_⟩
    · rcases of_insert held with ⟨same, _⟩ | old
      · exact absurd same other
      · exact quiet.carried w room old
    · rw [Std.ExtTreeMap.getElem?_insert_self, Option.some.injEq] at held
      rw [← held]
      exact newRoom_accounted k registry.nextChannel
    · rw [insert_connected, quiet.connected]
      split
      · next same =>
          rw [← same]
          exact (connected_of_vacant vacant).symm
      · rfl
    · rw [Std.ExtTreeMap.getElem?_insert_self]
      rfl

theorem connectClient_cases (room : connectedTo registry.rooms k < u32Max) :
    let rooms' := (registry.connectClient k nowMs).rooms
    ((∀ w, Carried w registry.rooms rooms') ∨ Opened k nowMs registry.rooms rooms') ∧
      ∀ w, connectedTo rooms' w = connectedTo registry.rooms w + if k = w then 1 else 0 := by
  have quiet := pruneInactive_quiet registry.rooms nowMs
  unfold CoordinationRegistry.connectClient
  dsimp only
  obtain ⟨old, before, held, entered⟩ | ⟨vacant, entered⟩ := enter_cases registry k nowMs
  · rw [entered]
    refine ⟨.inl fun w => ?_, fun w => ?_⟩
    · refine (quiet.carried w).trans (insert_carried held ?_ fun account => ?_)
      · rw [prune_sender]
      · rw [prune_accounted]
        exact account
    · rw [insert_connected, prune_connected, quiet.connected]
      by_cases same : k = w
      · subst same
        have counts : connectedTo registry.rooms k = old.connectedClients := by
          simp [connectedTo, before]
        simp only [if_true, saturatingSucc]
        omega
      · simp [same]
  · rw [entered]
    refine ⟨.inr ⟨vacant, fun w other room held => ?_, fun room held => ?_⟩, fun w => ?_⟩
    · rcases of_insert held with ⟨same, _⟩ | older
      · exact absurd same other
      · rcases of_insert older with ⟨same, _⟩ | oldest
        · exact absurd same other
        · exact quiet.carried w room oldest
    · rw [Std.ExtTreeMap.getElem?_insert_self, Option.some.injEq] at held
      rw [← held, prune_accounted]
      exact newRoom_accounted k registry.nextChannel
    · rw [insert_connected, insert_connected, prune_connected, quiet.connected]
      by_cases same : k = w
      · subst same
        rw [connected_of_vacant vacant]
        simp [newRoomState, saturatingSucc, u32Max]
      · simp [same]

theorem disconnectClient_cases :
    let rooms' := (registry.disconnectClient k nowMs).rooms
    (∀ w, Carried w registry.rooms rooms') ∧
      ∀ w, connectedTo rooms' w = connectedTo registry.rooms w - if k = w then 1 else 0 := by
  have quiet := pruneInactive_quiet registry.rooms nowMs
  unfold CoordinationRegistry.disconnectClient
  dsimp only
  cases held : (pruneInactiveRooms registry.rooms nowMs)[k]? with
  | none =>
      refine ⟨quiet.carried, fun w => ?_⟩
      by_cases same : k = w
      · subst same
        have nobody : connectedTo registry.rooms k = 0 :=
          connected_of_vacant (vacant_of_prune held)
        rw [quiet.connected, nobody]
        simp
      · simp [same, quiet.connected]
  | some room =>
      have counts : connectedTo registry.rooms k = room.connectedClients := by
        rw [← quiet.connected]
        simp [connectedTo, held]
      have written : ∀ w, Carried w registry.rooms ((pruneInactiveRooms registry.rooms nowMs).insert k
          (pruneStalePresence { room with
            connectedClients := room.connectedClients - 1
            lastActivityMs := some nowMs } nowMs)) := by
        intro w
        refine (quiet.carried w).trans (insert_carried held ?_ fun account => ?_)
        · rw [prune_sender]
        · rw [prune_accounted]
          exact account
      dsimp only
      split
      · next empty =>
          refine ⟨fun w => ?_, fun w => ?_⟩
          · -- the room goes with its last client
            refine (written w).trans fun other found => ?_
            rw [Std.ExtTreeMap.getElem?_erase] at found
            split at found
            · cases found
            · exact ⟨other, found, rfl, id⟩
          · rw [erase_connected, insert_connected, quiet.connected]
            rw [prune_connected] at empty
            by_cases same : k = w
            · subst same
              have last : room.connectedClients - 1 = 0 := empty.1
              simp only [if_true]
              omega
            · simp [same]
      · refine ⟨written, fun w => ?_⟩
        rw [insert_connected, prune_connected, quiet.connected]
        by_cases same : k = w
        · subst same
          simp [counts]
        · simp [same]

theorem acceptMessage_frame (room : CoordinationRoomState) (message : CoordinationMessage) :
    (acceptMessage room message nowMs).sender = room.sender ∧
      (acceptMessage room message nowMs).connectedClients = room.connectedClients ∧
      (acceptMessage room message nowMs).publishedMessages = room.publishedMessages ∧
      (acceptMessage room message nowMs).acceptedMessages =
        saturatingSucc u64Max room.acceptedMessages ∧
      (acceptMessage room message nowMs).invalidMessages = room.invalidMessages := by
  unfold acceptMessage
  obtain ⟨presence, lastSeen, frame⟩ := prune_frame
    { trackPresenceHeartbeat { room with
        acceptedMessages := saturatingSucc u64Max room.acceptedMessages } message nowMs with
      state := ((trackPresenceHeartbeat { room with
        acceptedMessages := saturatingSucc u64Max room.acceptedMessages } message nowMs).state.apply
          message).1 } nowMs
  dsimp only at frame ⊢
  rw [frame]
  unfold trackPresenceHeartbeat
  cases message with
  | presenceHeartbeat heartbeat => dsimp only; split <;> simp
  | _ => simp

theorem foldPayload_quiet (codec : Codec) (payload : List UInt8) :
    Quiet registry.rooms (registry.foldPayload codec k payload nowMs).1.rooms := by
  have quiet := pruneInactive_quiet registry.rooms nowMs
  unfold CoordinationRegistry.foldPayload
  dsimp only
  cases held : (pruneInactiveRooms registry.rooms nowMs)[k]? with
  | none => exact quiet
  | some room =>
      have counts : connectedTo registry.rooms k = room.connectedClients := by
        rw [← quiet.connected]
        simp [connectedTo, held]
      -- one more published, and one more accepted or invalid
      dsimp only
      cases decoded : codec.decodeMessage payload with
      | ok message =>
          obtain ⟨sender, connected, published, accepted, invalid⟩ := acceptMessage_frame nowMs
            { room with
              publishedMessages := saturatingSucc u64Max room.publishedMessages
              lastActivityMs := some nowMs } message
          refine ⟨fun w => (quiet.carried w).trans (insert_carried held sender ?_), fun w => ?_⟩
          · intro account
            unfold Accounted at account ⊢
            rw [published, accepted, invalid]
            dsimp only
            simp only [saturatingSucc]
            omega
          · rw [insert_connected, connected, quiet.connected]
            split
            · next same => rw [← same, counts]
            · rfl
      | error reason =>
          refine ⟨fun w => (quiet.carried w).trans (insert_carried held rfl ?_), fun w => ?_⟩
          · intro account
            unfold Accounted at account ⊢
            simp only [saturatingSucc]
            omega
          · rw [insert_connected, quiet.connected]
            split
            · next same => rw [← same, counts]
            · rfl

/-- A publish folds its message into the room that is there, if any. -/
theorem foldPayload_folds {codec : Codec} {payload : List UInt8} {message : CoordinationMessage}
    (h : (registry.foldPayload codec k payload nowMs).2 = some message) :
    ∃ room, registry.rooms[k]? = some room := by
  unfold CoordinationRegistry.foldPayload at h
  dsimp only at h
  cases held : (pruneInactiveRooms registry.rooms nowMs)[k]? with
  | none =>
      rw [held] at h
      cases h
  | some room => exact ⟨room, of_pruneInactive held⟩

theorem pruneAll_quiet : Quiet registry.rooms (registry.pruneAll nowMs).rooms := by
  have quiet := pruneInactive_quiet registry.rooms nowMs
  unfold CoordinationRegistry.pruneAll
  refine ⟨fun w room' held => ?_, fun w => ?_⟩
  · rw [Std.ExtTreeMap.getElem?_map] at held
    obtain ⟨room, found, rfl⟩ := Option.map_eq_some_iff.mp held
    obtain ⟨old, before, sender, account⟩ := quiet.carried w room found
    refine ⟨old, before, ?_, fun h => ?_⟩
    · rw [prune_sender]
      exact sender
    · rw [prune_accounted]
      exact account h
  · rw [← quiet.connected]
    unfold connectedTo
    rw [Std.ExtTreeMap.getElem?_map]
    cases (pruneInactiveRooms registry.rooms nowMs)[w]? with
    | none => rfl
    | some room => exact prune_connected room nowMs

theorem pruneOne_quiet : Quiet registry.rooms (registry.pruneOne k nowMs).rooms := by
  have quiet := pruneInactive_quiet registry.rooms nowMs
  unfold CoordinationRegistry.pruneOne
  dsimp only
  cases held : (pruneInactiveRooms registry.rooms nowMs)[k]? with
  | none => exact quiet
  | some room =>
      refine ⟨fun w => (quiet.carried w).trans (insert_carried held ?_ fun account => ?_),
        fun w => ?_⟩
      · rw [prune_sender]
      · rw [prune_accounted]
        exact account
      · rw [insert_connected, prune_connected, ← quiet.connected]
        split
        · next same =>
            subst same
            simp [connectedTo, held]
        · rfl

end Calls

end SP42.Coordination

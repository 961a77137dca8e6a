import SP42.Lib.Run
import SP42.Coordination.Registry

/-!
What a call on the registry can do to one room. The calls of the registry are
collected in one type; `step_rooms` inverts a call into the few ways a room can
evolve, and the invariants of rooms are derived from it alone.
-/
namespace SP42.Coordination

theorem mem_selected {α : Type} {map : Std.ExtTreeMap String α} {select : α → Bool} {key : String} :
    key ∈ (map.toList.filterMap fun (key, value) => if select value then some key else none) ↔
      ∃ value, map[key]? = some value ∧ select value = true := by
  rw [List.mem_filterMap]
  constructor
  · rintro ⟨⟨name, value⟩, member, kept⟩
    by_cases selected : select value = true
    · simp only [selected, if_true, Option.some.injEq] at kept
      subst kept
      exact ⟨value, Std.ExtTreeMap.mem_toList_iff_getElem?_eq_some.mp member, selected⟩
    · simp [selected] at kept
  · rintro ⟨value, held, selected⟩
    exact ⟨(key, value), Std.ExtTreeMap.mem_toList_iff_getElem?_eq_some.mpr held,
      by simp [selected]⟩

theorem mem_staleActors {room : CoordinationRoomState} {currentTimeMs : Int} {actor : String} :
    actor ∈ staleActors room currentTimeMs ↔ ∃ lastSeenMs,
      room.presenceLastSeenMs[actor]? = some lastSeenMs ∧ isStale currentTimeMs lastSeenMs = true :=
  mem_selected

theorem foldl_erase {α : Type} (map : Std.ExtTreeMap String α) (actors : List String)
    (actor : String) :
    (actors.foldl (fun map actor => map.erase actor) map)[actor]? =
      if actor ∈ actors then none else map[actor]? := by
  induction actors generalizing map with
  | nil => rfl
  | cons first rest ih =>
      rw [List.foldl_cons, ih, Std.ExtTreeMap.getElem?_erase]
      by_cases here : actor = first
      · subst here; simp
      · have other : ¬ first = actor := fun h => here h.symm
        simp [here, other]

/-- Dropping actors erases them from both maps and leaves the rest of the room alone. -/
theorem foldl_dropActor (room : CoordinationRoomState) (actors : List String) :
    actors.foldl dropActor room = { room with
      presenceLastSeenMs :=
        actors.foldl (fun map actor => map.erase actor) room.presenceLastSeenMs
      state := { room.state with
        presence := actors.foldl (fun map actor => map.erase actor) room.state.presence } } := by
  induction actors generalizing room with
  | nil => rfl
  | cons first rest ih => rw [List.foldl_cons, ih]; rfl

section Prune

variable (room : CoordinationRoomState) (currentTimeMs : Int)

theorem prune_lastSeen (actor : String) :
    (pruneStalePresence room currentTimeMs).presenceLastSeenMs[actor]? =
      if actor ∈ staleActors room currentTimeMs then none
      else room.presenceLastSeenMs[actor]? := by
  rw [pruneStalePresence, foldl_dropActor]
  exact foldl_erase _ _ _

theorem prune_presence (actor : String) :
    (pruneStalePresence room currentTimeMs).state.presence[actor]? =
      if actor ∈ staleActors room currentTimeMs then none else room.state.presence[actor]? := by
  rw [pruneStalePresence, foldl_dropActor]
  exact foldl_erase _ _ _

/-- Pruning presence touches nothing but presence. -/
theorem prune_frame :
    ∃ presence lastSeen, pruneStalePresence room currentTimeMs = { room with
      presenceLastSeenMs := lastSeen
      state := { room.state with presence := presence } } := by
  rw [pruneStalePresence, foldl_dropActor]
  exact ⟨_, _, rfl⟩

/-- Who is still listed after a pruning was seen within the threshold. -/
theorem prune_fresh {actor : String} {lastSeenMs : Int}
    (h : (pruneStalePresence room currentTimeMs).presenceLastSeenMs[actor]? = some lastSeenMs) :
    currentTimeMs - lastSeenMs < presenceStaleAfterMs := by
  rw [prune_lastSeen] at h
  by_cases stale : actor ∈ staleActors room currentTimeMs
  · simp [stale] at h
  · simp only [stale, if_false] at h
    have kept : ¬ isStale currentTimeMs lastSeenMs = true :=
      fun old => stale (mem_staleActors.mpr ⟨lastSeenMs, h, old⟩)
    rw [isStale, decide_eq_true_iff, le_i64SaturatingSub (by decide) (by decide)] at kept
    omega

end Prune

theorem track_frame (room : CoordinationRoomState) (message : CoordinationMessage)
    (currentTimeMs : Int) :
    (trackPresenceHeartbeat room message currentTimeMs).state = room.state := by
  unfold trackPresenceHeartbeat
  cases message with
  | presenceHeartbeat heartbeat => dsimp only; split <;> rfl
  | _ => rfl

/-- The calls of the registry, with the clock at their sections. -/
inductive RegistryCall where
  | publish (wikiId : String) (envelope : CoordinationEnvelope) (senderMs nowMs : Int)
  | subscribe (wikiId : String) (nowMs : Int)
  | connectClient (wikiId : String) (nowMs : Int)
  | disconnectClient (wikiId : String) (nowMs : Int)
  | snapshot (nowMs : Int)
  | roomStateSummary (wikiId : String) (nowMs : Int)
  | roomInspection (wikiId : String) (nowMs : Int)
  | roomInspections (nowMs : Int)
  deriving DecidableEq, Repr

inductive RegistryAnswer where
  | published (result : CoordinationRegistry.Published)
  | channel (sender : Nat)
  | snapshot (rooms : List CoordinationRoomSummary)
  | summary (state : Option CoordinationStateSummary)
  | inspection (room : Option CoordinationRoomInspection)
  | inspections (rooms : List CoordinationRoomInspection)
  | done
  deriving DecidableEq, Repr

def CoordinationRegistry.step (codec : Codec) (registry : CoordinationRegistry) :
    RegistryCall → CoordinationRegistry × RegistryAnswer
  | .publish wikiId envelope senderMs nowMs =>
      let (registry, result) := registry.publish codec wikiId envelope senderMs nowMs
      (registry, .published result)
  | .subscribe wikiId nowMs =>
      let (registry, sender) := registry.subscribe wikiId nowMs
      (registry, .channel sender)
  | .connectClient wikiId nowMs => (registry.connectClient wikiId nowMs, .done)
  | .disconnectClient wikiId nowMs => (registry.disconnectClient wikiId nowMs, .done)
  | .snapshot nowMs =>
      let (registry, rooms) := registry.snapshot nowMs
      (registry, .snapshot rooms)
  | .roomStateSummary wikiId nowMs =>
      let (registry, state) := registry.roomStateSummary wikiId nowMs
      (registry, .summary state)
  | .roomInspection wikiId nowMs =>
      let (registry, room) := registry.roomInspection wikiId nowMs
      (registry, .inspection room)
  | .roomInspections nowMs =>
      let (registry, rooms) := registry.roomInspections nowMs
      (registry, .inspections rooms)

/-- `Evolves codec call w room room'`: the ways the call can change the room of `w`. -/
inductive Evolves (codec : Codec) :
    RegistryCall → String → CoordinationRoomState → CoordinationRoomState → Prop
  | same {call w room} : Evolves codec call w room room
  | pruned {call w room} (nowMs : Int) :
      Evolves codec call w room (pruneStalePresence room nowMs)
  | accepted {w envelope senderMs nowMs room message} :
      codec.decodeMessage envelope.payload = .ok message →
      Evolves codec (.publish w envelope senderMs nowMs) w room
        (acceptMessage { room with
          publishedMessages := saturatingSucc u64Max room.publishedMessages
          lastActivityMs := some nowMs } message nowMs)
  | rejected {w envelope senderMs nowMs room reason} :
      codec.decodeMessage envelope.payload = .error reason →
      Evolves codec (.publish w envelope senderMs nowMs) w room { room with
        publishedMessages := saturatingSucc u64Max room.publishedMessages
        lastActivityMs := some nowMs
        invalidMessages := saturatingSucc u64Max room.invalidMessages }
  | connected {w nowMs room} :
      Evolves codec (.connectClient w nowMs) w room (pruneStalePresence { room with
        connectedClients := saturatingSucc u32Max room.connectedClients
        lastActivityMs := some nowMs } nowMs)
  | disconnected {w nowMs room} :
      Evolves codec (.disconnectClient w nowMs) w room (pruneStalePresence { room with
        connectedClients := room.connectedClients - 1
        lastActivityMs := some nowMs } nowMs)

/-- The room is in the registry, or it is one the registry would create. -/
def RoomOf (registry : CoordinationRegistry) (w : String) (room : CoordinationRoomState) : Prop :=
  registry.rooms[w]? = some room ∨ ∃ channel, room = newRoomState w channel

theorem mem_staleRooms {rooms : Rooms} {nowMs : Int} {w : String} :
    w ∈ staleRooms rooms nowMs ↔ ∃ room, rooms[w]? = some room ∧ roomIsStale room nowMs = true :=
  @mem_selected _ rooms (fun room => roomIsStale room nowMs) w

/-- Exactly the stale rooms are evicted. -/
theorem pruneInactive_get (rooms : Rooms) (nowMs : Int) (w : String)
    (room : CoordinationRoomState) :
    (pruneInactiveRooms rooms nowMs)[w]? = some room ↔
      rooms[w]? = some room ∧ roomIsStale room nowMs = false := by
  rw [pruneInactiveRooms, foldl_erase]
  by_cases member : w ∈ staleRooms rooms nowMs
  · obtain ⟨other, held, stale⟩ := mem_staleRooms.mp member
    simp only [member, if_true, held, Option.some.injEq]
    constructor
    · intro h; cases h
    · rintro ⟨rfl, fresh⟩
      rw [stale] at fresh
      cases fresh
  · simp only [member, if_false]
    constructor
    · intro held
      refine ⟨held, Bool.eq_false_iff.mpr fun stale => member (mem_staleRooms.mpr ⟨room, held, stale⟩)⟩
    · intro h
      exact h.1

theorem of_pruneInactive {rooms : Rooms} {nowMs : Int} {w : String} {room : CoordinationRoomState}
    (h : (pruneInactiveRooms rooms nowMs)[w]? = some room) : rooms[w]? = some room := by
  exact ((pruneInactive_get rooms nowMs w room).mp h).1

theorem of_insert {rooms : Rooms} {k w : String} {held room : CoordinationRoomState}
    (h : (rooms.insert k held)[w]? = some room) :
    (k = w ∧ held = room) ∨ rooms[w]? = some room := by
  rw [Std.ExtTreeMap.getElem?_insert] at h
  by_cases same : k = w
  · simp only [same, Std.ReflCmp.compare_self, if_true, Option.some.injEq] at h
    exact .inl ⟨same, h⟩
  · simp only [Std.LawfulEqCmp.compare_eq_iff_eq, same, if_false] at h
    exact .inr h

section Rooms

variable {codec : Codec} {registry : CoordinationRegistry} {w : String}
  {room' : CoordinationRoomState}

theorem entryOrNew_room (registry : CoordinationRegistry) (k : String) :
    RoomOf registry k (entryOrNew registry k).2 := by
  unfold entryOrNew
  cases held : registry.rooms[k]? with
  | some room => exact .inl held
  | none => exact .inr ⟨_, rfl⟩

theorem entryOrNew_rooms {k : String} (h : (entryOrNew registry k).1.rooms[w]? = some room') :
    RoomOf registry w room' := by
  unfold entryOrNew at h
  cases held : registry.rooms[k]? with
  | some room => rw [held] at h; exact .inl h
  | none =>
      rw [held] at h
      rcases of_insert h with ⟨rfl, new⟩ | old
      · exact .inr ⟨_, new.symm⟩
      · exact .inl old

/-- Evicting idle rooms first only takes rooms away. -/
theorem RoomOf.of_pruned {nowMs : Int} {room : CoordinationRoomState}
    (h : RoomOf { registry with rooms := pruneInactiveRooms registry.rooms nowMs } w room) :
    RoomOf registry w room := h.imp of_pruneInactive id

theorem roomSender_rooms {k : String} {nowMs : Int}
    (h : (registry.roomSender k nowMs).1.rooms[w]? = some room') : RoomOf registry w room' := by
  unfold CoordinationRegistry.roomSender at h
  cases held : registry.rooms[k]? with
  | some room => rw [held] at h; exact .inl h
  | none => rw [held] at h; exact (entryOrNew_rooms h).of_pruned

theorem foldPayload_rooms {k : String} {envelope : CoordinationEnvelope} {senderMs nowMs : Int}
    (h : (registry.foldPayload codec k envelope.payload nowMs).1.rooms[w]? = some room') :
    ∃ room, registry.rooms[w]? = some room ∧
      Evolves codec (.publish k envelope senderMs nowMs) w room room' := by
  unfold CoordinationRegistry.foldPayload at h
  dsimp only at h
  cases held : (pruneInactiveRooms registry.rooms nowMs)[k]? with
  | none =>
      rw [held] at h
      exact ⟨room', of_pruneInactive h, .same⟩
  | some room =>
      rw [held] at h
      cases decoded : codec.decodeMessage envelope.payload with
      | ok message =>
          rw [decoded] at h
          rcases of_insert h with ⟨rfl, rfl⟩ | old
          · exact ⟨room, of_pruneInactive held, .accepted decoded⟩
          · exact ⟨room', of_pruneInactive old, .same⟩
      | error reason =>
          rw [decoded] at h
          rcases of_insert h with ⟨rfl, rfl⟩ | old
          · exact ⟨room, of_pruneInactive held, .rejected decoded⟩
          · exact ⟨room', of_pruneInactive old, .same⟩

theorem pruneAll_rooms {nowMs : Int} (h : (registry.pruneAll nowMs).rooms[w]? = some room') :
    ∃ room, registry.rooms[w]? = some room ∧ room' = pruneStalePresence room nowMs := by
  unfold CoordinationRegistry.pruneAll at h
  rw [Std.ExtTreeMap.getElem?_map] at h
  obtain ⟨room, held, rfl⟩ := Option.map_eq_some_iff.mp h
  exact ⟨room, of_pruneInactive held, rfl⟩

theorem pruneOne_rooms {k : String} {nowMs : Int}
    (h : (registry.pruneOne k nowMs).rooms[w]? = some room') :
    ∃ room, registry.rooms[w]? = some room ∧
      (room' = room ∨ room' = pruneStalePresence room nowMs) := by
  unfold CoordinationRegistry.pruneOne at h
  dsimp only at h
  cases held : (pruneInactiveRooms registry.rooms nowMs)[k]? with
  | none => rw [held] at h; exact ⟨room', of_pruneInactive h, .inl rfl⟩
  | some room =>
      rw [held] at h
      rcases of_insert h with ⟨rfl, rfl⟩ | old
      · exact ⟨room, of_pruneInactive held, .inr rfl⟩
      · exact ⟨room', of_pruneInactive old, .inl rfl⟩

/-- The room that is looked at is always pruned. -/
theorem pruneOne_room {nowMs : Int} (h : (registry.pruneOne w nowMs).rooms[w]? = some room') :
    ∃ room, registry.rooms[w]? = some room ∧ room' = pruneStalePresence room nowMs := by
  unfold CoordinationRegistry.pruneOne at h
  dsimp only at h
  cases held : (pruneInactiveRooms registry.rooms nowMs)[w]? with
  | none =>
      rw [held] at h
      dsimp only at h
      rw [held] at h
      cases h
  | some room =>
      rw [held] at h
      dsimp only at h
      rw [Std.ExtTreeMap.getElem?_insert_self] at h
      exact ⟨room, of_pruneInactive held, (Option.some.inj h).symm⟩

/-- Every room after a call evolved from a room before it, or from a new one. -/
theorem step_rooms {call : RegistryCall}
    (h : (registry.step codec call).1.rooms[w]? = some room') :
    ∃ room, RoomOf registry w room ∧ Evolves codec call w room room' := by
  cases call with
  | publish k envelope senderMs nowMs =>
      obtain ⟨room, held, evolves⟩ := @foldPayload_rooms codec _ w room' k envelope senderMs nowMs h
      exact ⟨room, roomSender_rooms held, evolves⟩
  | subscribe k nowMs => exact ⟨room', roomSender_rooms h, .same⟩
  | connectClient k nowMs =>
      rcases of_insert h with ⟨rfl, rfl⟩ | old
      · exact ⟨_, (entryOrNew_room _ k).of_pruned, .connected⟩
      · exact ⟨room', (entryOrNew_rooms old).of_pruned, .same⟩
  | disconnectClient k nowMs =>
      change (registry.disconnectClient k nowMs).rooms[w]? = some room' at h
      unfold CoordinationRegistry.disconnectClient at h
      dsimp only at h
      cases held : (pruneInactiveRooms registry.rooms nowMs)[k]? with
      | none => rw [held] at h; exact ⟨room', .inl (of_pruneInactive h), .same⟩
      | some room =>
          rw [held] at h
          dsimp only at h
          split at h
          · rw [Std.ExtTreeMap.getElem?_erase] at h
            by_cases same : k = w
            · simp [same] at h
            · simp only [Std.LawfulEqCmp.compare_eq_iff_eq, same, if_false] at h
              rcases of_insert h with ⟨here, _⟩ | old
              · exact absurd here same
              · exact ⟨room', .inl (of_pruneInactive old), .same⟩
          · rcases of_insert h with ⟨rfl, rfl⟩ | old
            · exact ⟨room, .inl (of_pruneInactive held), .disconnected⟩
            · exact ⟨room', .inl (of_pruneInactive old), .same⟩
  | snapshot nowMs =>
      obtain ⟨room, held, rfl⟩ := pruneAll_rooms h
      exact ⟨room, .inl held, .pruned nowMs⟩
  | roomStateSummary k nowMs =>
      obtain ⟨room, held, rfl | rfl⟩ := pruneOne_rooms h
      · exact ⟨_, .inl held, .same⟩
      · exact ⟨room, .inl held, .pruned nowMs⟩
  | roomInspection k nowMs =>
      obtain ⟨room, held, rfl | rfl⟩ := pruneOne_rooms h
      · exact ⟨_, .inl held, .same⟩
      · exact ⟨room, .inl held, .pruned nowMs⟩
  | roomInspections nowMs =>
      obtain ⟨room, held, rfl⟩ := pruneAll_rooms h
      exact ⟨room, .inl held, .pruned nowMs⟩

end Rooms

end SP42.Coordination

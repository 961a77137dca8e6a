import SP42.Coordination.Rooms

/-!
Presence in a room: the reducer shows an actor, the server remembers when it was
last heard, and pruning reads the memory only. The two agree as long as the
heartbeats published in a room are about its own wiki, which is the check the
reducer makes and the memory does not.
-/
namespace SP42.Coordination

/-- The call publishes no heartbeat of a foreign wiki. -/
def OwnHeartbeats (codec : Codec) : RegistryCall → Prop
  | .publish wikiId envelope _ _ => ∀ heartbeat,
      codec.decodeMessage envelope.payload = .ok (.presenceHeartbeat heartbeat) →
        heartbeat.wikiId = wikiId
  | _ => True

/-- One of the calls accepted, at `nowMs`, an active heartbeat of the actor for the wiki. -/
def HeardAt (codec : Codec) (calls : List RegistryCall) (wikiId actor : String) (nowMs : Int) :
    Prop :=
  ∃ envelope senderMs heartbeat, .publish wikiId envelope senderMs nowMs ∈ calls ∧
    codec.decodeMessage envelope.payload = .ok (.presenceHeartbeat heartbeat) ∧
    heartbeat.wikiId = wikiId ∧ heartbeat.actor = actor ∧ heartbeat.activeEditCount ≠ 0

/-- The room remembers exactly the actors it shows, each from a heartbeat it heard. -/
structure InStep (heard : String → Int → Prop) (wikiId : String) (room : CoordinationRoomState) :
    Prop where
  wiki : room.state.wikiId = wikiId
  sameActors : ∀ actor : String,
    room.presenceLastSeenMs[actor]?.isSome = room.state.presence[actor]?.isSome
  ownActor : ∀ (actor : String) (heartbeat : PresenceHeartbeat),
    room.state.presence[actor]? = some heartbeat → heartbeat.actor = actor
  heardFrom : ∀ (actor : String) (lastSeenMs : Int),
    room.presenceLastSeenMs[actor]? = some lastSeenMs → heard actor lastSeenMs

theorem newRoom_inStep (heard : String → Int → Prop) (wikiId : String) (channel : Nat) :
    InStep heard wikiId (newRoomState wikiId channel) where
  wiki := rfl
  sameActors actor := by simp [newRoomState, CoordinationState.new]
  ownActor actor heartbeat h := by simp [newRoomState, CoordinationState.new] at h
  heardFrom actor lastSeenMs h := by simp [newRoomState] at h

section InStep

variable {heard heard' : String → Int → Prop} {wikiId : String} {room : CoordinationRoomState}

theorem InStep.mono (h : InStep heard wikiId room)
    (more : ∀ actor nowMs, heard actor nowMs → heard' actor nowMs) : InStep heard' wikiId room :=
  ⟨h.wiki, h.sameActors, h.ownActor, fun actor t held => more actor t (h.heardFrom actor t held)⟩

theorem prune_inStep (h : InStep heard wikiId room) (nowMs : Int) :
    InStep heard wikiId (pruneStalePresence room nowMs) where
  wiki := by
    obtain ⟨presence, lastSeen, frame⟩ := prune_frame room nowMs
    rw [frame]
    exact h.wiki
  sameActors actor := by
    rw [prune_lastSeen, prune_presence]
    by_cases stale : actor ∈ staleActors room nowMs
    · simp [stale]
    · simpa [stale] using h.sameActors actor
  ownActor actor heartbeat held := by
    rw [prune_presence] at held
    by_cases stale : actor ∈ staleActors room nowMs
    · simp [stale] at held
    · exact h.ownActor actor heartbeat (by simpa [stale] using held)
  heardFrom actor lastSeenMs held := by
    rw [prune_lastSeen] at held
    by_cases stale : actor ∈ staleActors room nowMs
    · simp [stale] at held
    · exact h.heardFrom actor lastSeenMs (by simpa [stale] using held)

theorem track_lastSeen (room : CoordinationRoomState) (heartbeat : PresenceHeartbeat) (nowMs : Int)
    (actor : String) :
    (trackPresenceHeartbeat room (.presenceHeartbeat heartbeat) nowMs).presenceLastSeenMs[actor]? =
      if heartbeat.actor = actor then if heartbeat.activeEditCount = 0 then none else some nowMs
      else room.presenceLastSeenMs[actor]? := by
  unfold trackPresenceHeartbeat
  by_cases gone : heartbeat.activeEditCount = 0
  · by_cases same : heartbeat.actor = actor <;>
      simp [gone, same, Std.ExtTreeMap.getElem?_erase]
  · by_cases same : heartbeat.actor = actor <;>
      simp [gone, same, Std.ExtTreeMap.getElem?_insert]

/-- A heartbeat of the room's wiki moves both maps together. -/
theorem heartbeat_inStep (h : InStep heard wikiId room) {heartbeat : PresenceHeartbeat}
    (nowMs : Int) (own : heartbeat.wikiId = wikiId)
    (active : heartbeat.activeEditCount ≠ 0 → heard heartbeat.actor nowMs) :
    InStep heard wikiId { trackPresenceHeartbeat room (.presenceHeartbeat heartbeat) nowMs with
      state := (room.state.apply (.presenceHeartbeat heartbeat)).1 } := by
  have wiki : heartbeat.wikiId = room.state.wikiId := own.trans h.wiki.symm
  refine ⟨by simpa using h.wiki, fun actor => ?_, fun actor shown held => ?_,
    fun actor lastSeenMs held => ?_⟩
  · rw [track_lastSeen, apply_presence]
    by_cases same : heartbeat.actor = actor
    · by_cases gone : heartbeat.activeEditCount = 0 <;> simp [wiki, same, gone]
    · simpa [same] using h.sameActors actor
  · rw [apply_presence] at held
    by_cases same : heartbeat.actor = actor
    · by_cases gone : heartbeat.activeEditCount = 0
      · simp [wiki, same, gone] at held
      · simp only [wiki, same, gone, and_self, if_true, if_false, Option.some.injEq] at held
        rw [← held]
        exact same
    · exact h.ownActor actor shown (by simpa [same] using held)
  · rw [track_lastSeen] at held
    by_cases same : heartbeat.actor = actor
    · by_cases gone : heartbeat.activeEditCount = 0
      · simp [same, gone] at held
      · simp only [same, gone, if_true, if_false, Option.some.injEq] at held
        rw [← held, ← same]
        exact active gone
    · exact h.heardFrom actor lastSeenMs (by simpa [same] using held)

/-- Rooms with the same wiki and the same two maps are in step together. -/
theorem InStep.congr {other : CoordinationRoomState} (h : InStep heard wikiId room)
    (wiki : other.state.wikiId = room.state.wikiId)
    (lastSeen : other.presenceLastSeenMs = room.presenceLastSeenMs)
    (presence : ∀ actor : String, other.state.presence[actor]? = room.state.presence[actor]?) :
    InStep heard wikiId other := by
  refine ⟨wiki.trans h.wiki, fun actor => ?_, fun actor heartbeat held => ?_,
    fun actor lastSeenMs held => ?_⟩
  · rw [lastSeen, presence]
    exact h.sameActors actor
  · exact h.ownActor actor heartbeat (presence actor ▸ held)
  · exact h.heardFrom actor lastSeenMs (lastSeen ▸ held)

theorem accept_inStep (h : InStep heard wikiId room) (message : CoordinationMessage) (nowMs : Int)
    (own : ∀ heartbeat, message = .presenceHeartbeat heartbeat → heartbeat.wikiId = wikiId)
    (active : ∀ heartbeat, message = .presenceHeartbeat heartbeat →
      heartbeat.activeEditCount ≠ 0 → heard heartbeat.actor nowMs) :
    InStep heard wikiId (acceptMessage room message nowMs) := by
  have counted : InStep heard wikiId { room with
      acceptedMessages := saturatingSucc u64Max room.acceptedMessages } :=
    h.congr rfl rfl fun _ => rfl
  apply prune_inStep
  rw [track_frame]
  cases message with
  | presenceHeartbeat heartbeat =>
      exact heartbeat_inStep counted nowMs (own heartbeat rfl) (active heartbeat rfl)
  | _ =>
      refine counted.congr (apply_wikiId _ _) rfl fun actor => ?_
      rw [apply_presence]

/-- What a call without foreign heartbeats can do to a room keeps it in step. -/
theorem evolves_inStep {codec : Codec} {call : RegistryCall} {past : List RegistryCall}
    {room' : CoordinationRoomState} (evolves : Evolves codec call wikiId room room')
    (own : OwnHeartbeats codec call) (h : InStep (HeardAt codec past wikiId) wikiId room) :
    InStep (HeardAt codec (past ++ [call]) wikiId) wikiId room' := by
  have older : InStep (HeardAt codec (past ++ [call]) wikiId) wikiId room := by
    refine h.mono fun actor nowMs heard => ?_
    obtain ⟨envelope, senderMs, heartbeat, member, rest⟩ := heard
    exact ⟨envelope, senderMs, heartbeat, List.mem_append_left _ member, rest⟩
  cases evolves with
  | same => exact older
  | pruned nowMs => exact prune_inStep older nowMs
  | @accepted _ envelope senderMs nowMs _ message decoded =>
      have counted : InStep _ wikiId { room with
          publishedMessages := saturatingSucc u64Max room.publishedMessages
          lastActivityMs := some nowMs } := older.congr rfl rfl fun _ => rfl
      refine accept_inStep counted message nowMs (fun heartbeat is => own heartbeat (is ▸ decoded))
        fun heartbeat is active => ?_
      exact ⟨envelope, senderMs, heartbeat, List.mem_append_right _ List.mem_cons_self,
        is ▸ decoded, own heartbeat (is ▸ decoded), rfl, active⟩
  | rejected decoded => exact older.congr rfl rfl fun _ => rfl
  | @connected _ nowMs _ =>
      have joined : InStep _ wikiId { room with
          connectedClients := saturatingSucc u32Max room.connectedClients
          lastActivityMs := some nowMs } := older.congr rfl rfl fun _ => rfl
      exact prune_inStep joined nowMs
  | @disconnected _ nowMs _ =>
      have left : InStep _ wikiId { room with
          connectedClients := room.connectedClients - 1
          lastActivityMs := some nowMs } := older.congr rfl rfl fun _ => rfl
      exact prune_inStep left nowMs

end InStep

/-- Every room of the registry is in step. -/
def RoomsInStep (codec : Codec) (past : List RegistryCall) (registry : CoordinationRegistry) :
    Prop :=
  ∀ w room, registry.rooms[w]? = some room → InStep (HeardAt codec past w) w room

theorem step_inStep {codec : Codec} {past : List RegistryCall} {registry : CoordinationRegistry}
    (h : RoomsInStep codec past registry) {call : RegistryCall} (own : OwnHeartbeats codec call) :
    RoomsInStep codec (past ++ [call]) (registry.step codec call).1 := by
  intro w room' held
  obtain ⟨room, held | ⟨channel, rfl⟩, evolves⟩ := step_rooms held
  · exact evolves_inStep evolves own (h w room held)
  · exact evolves_inStep evolves own (newRoom_inStep _ w channel)

theorem run_inStep (codec : Codec) (calls : List RegistryCall)
    (own : ∀ call ∈ calls, OwnHeartbeats codec call) :
    RoomsInStep codec calls
      (Run.final (CoordinationRegistry.step codec) CoordinationRegistry.new calls) := by
  have history := @Run.history_invariant _ _ _ (CoordinationRegistry.step codec)
    (fun past registry => (∀ e ∈ past, OwnHeartbeats codec e.1) →
      RoomsInStep codec (past.map Prod.fst) registry) ?_ [] CoordinationRegistry.new ?_ calls
  · rw [List.nil_append, Run.trace_inputs] at history
    refine history fun e he => own e.1 ?_
    rw [← @Run.trace_inputs _ _ _ (CoordinationRegistry.step codec) CoordinationRegistry.new calls]
    exact List.mem_map_of_mem he
  · intro past registry call ih allowed
    rw [List.map_append]
    have before := ih fun e he => allowed e (List.mem_append_left _ he)
    exact step_inStep before (allowed _ (List.mem_append_right _ List.mem_cons_self))
  · intro _ w room held
    simp [CoordinationRegistry.new] at held

/-- A room that is shown after a look at its presence shows only actors heard within the threshold. -/
theorem summary_fresh {codec : Codec} {past : List RegistryCall} {registry : CoordinationRegistry}
    (h : RoomsInStep codec past registry) {w : String} {nowMs : Int}
    {summary : CoordinationStateSummary} (shown : (registry.roomStateSummary w nowMs).2 = some summary)
    {heartbeat : PresenceHeartbeat} (listed : heartbeat ∈ summary.presence) :
    ∃ heardMs, HeardAt codec past w heartbeat.actor heardMs ∧
      nowMs - heardMs < presenceStaleAfterMs := by
  obtain ⟨room', held, rfl⟩ := Option.map_eq_some_iff.mp shown
  obtain ⟨room, before, rfl⟩ := pruneOne_room held
  have pruned := prune_inStep (h w room before) nowMs
  obtain ⟨⟨actor, _⟩, member, rfl⟩ := List.mem_map.mp listed
  have present := Std.ExtTreeMap.mem_toList_iff_getElem?_eq_some.mp member
  rw [pruned.ownActor actor _ present]
  have remembered := pruned.sameActors actor
  rw [present] at remembered
  obtain ⟨heardMs, seen⟩ := Option.isSome_iff_exists.mp remembered
  exact ⟨heardMs, pruned.heardFrom actor heardMs seen, prune_fresh room nowMs seen⟩

/-- In every registry reached without foreign heartbeats, each room remembers exactly
the actors it shows, and whoever is shown at a time was heard within the threshold. -/
theorem presence_in_step (codec : Codec) (calls : List RegistryCall)
    (own : ∀ call ∈ calls, OwnHeartbeats codec call) :
    let registry := Run.final (CoordinationRegistry.step codec) CoordinationRegistry.new calls
    (∀ (w : String) (room : CoordinationRoomState), registry.rooms[w]? = some room →
      ∀ actor : String, actor ∈ room.presenceLastSeenMs ↔ actor ∈ room.state.presence) ∧
    ∀ w nowMs summary, (registry.roomStateSummary w nowMs).2 = some summary →
      ∀ heartbeat ∈ summary.presence, ∃ heardMs,
        HeardAt codec calls w heartbeat.actor heardMs ∧ nowMs - heardMs < presenceStaleAfterMs := by
  intro registry
  have inStep : RoomsInStep codec calls registry := run_inStep codec calls own
  refine ⟨fun w room held actor => ?_, fun w nowMs summary shown heartbeat listed =>
    summary_fresh inStep shown listed⟩
  rw [Std.ExtTreeMap.mem_iff_isSome_getElem?, Std.ExtTreeMap.mem_iff_isSome_getElem?,
    (inStep w room held).sameActors actor]

/-- A string of fewer than 32 bytes in MessagePack. -/
def fixstr (text : String) : List UInt8 :=
  let bytes := text.toUTF8.data.toList
  (0xa0 + UInt8.ofNat bytes.length) :: bytes

/-- The MessagePack bytes of a heartbeat with short texts and a count below 128. -/
def heartbeatBytes (heartbeat : PresenceHeartbeat) : List UInt8 :=
  [0x81] ++ fixstr "PresenceHeartbeat" ++ [0x83] ++ fixstr "wiki_id" ++ fixstr heartbeat.wikiId ++
    fixstr "actor" ++ fixstr heartbeat.actor ++ fixstr "active_edit_count" ++
    [UInt8.ofNat heartbeat.activeEditCount]

def adaPresent : PresenceHeartbeat := ⟨"frwiki", "Ada", 1⟩
def adaGoneElsewhere : PresenceHeartbeat := ⟨"enwiki", "Ada", 0⟩
def carolPresentElsewhere : PresenceHeartbeat := ⟨"enwiki", "Carol", 1⟩

/-- What the codec does with the heartbeats above. -/
def heartbeatCodec : Codec where
  encodeMessage
    | .presenceHeartbeat heartbeat => .ok (heartbeatBytes heartbeat)
    | _ => .error "not a sampled message"
  decodeMessage bytes :=
    match [adaPresent, adaGoneElsewhere, carolPresentElsewhere].find? fun heartbeat =>
        heartbeatBytes heartbeat == bytes with
    | some heartbeat => .ok (.presenceHeartbeat heartbeat)
    | none => .error "not a sampled message"

def heartbeatCall (heartbeat : PresenceHeartbeat) (senderId : Nat) (nowMs : Int) : RegistryCall :=
  .publish "frwiki" ⟨senderId, heartbeatBytes heartbeat⟩ nowMs nowMs

theorem presence_in_step_ada :
    ∃ room, (Run.final (CoordinationRegistry.step heartbeatCodec) CoordinationRegistry.new
        [.connectClient "frwiki" 0, heartbeatCall adaPresent 1 0]).rooms["frwiki"]? = some room ∧
      "Ada" ∈ room.presenceLastSeenMs ∧
      ("Ada" ∈ room.presenceLastSeenMs ↔ "Ada" ∈ room.state.presence) := by
  refine ⟨_, rfl, by decide, ?_⟩
  refine (presence_in_step heartbeatCodec [.connectClient "frwiki" 0, heartbeatCall adaPresent 1 0]
    ?_).1 "frwiki" _ rfl "Ada"
  intro call member
  rcases List.mem_pair.mp member with rfl | rfl
  · trivial
  · intro heartbeat decoded
    have same : (Except.ok (.presenceHeartbeat adaPresent) : Except String CoordinationMessage) =
        .ok (.presenceHeartbeat heartbeat) := decoded
    cases same
    rfl

/-- A foreign heartbeat takes Ada out of the memory and leaves her on display for
good; another puts Carol into the memory of a room that never shows her. -/
theorem presence_out_of_step :
    ((Run.final (CoordinationRegistry.step heartbeatCodec) CoordinationRegistry.new
        [.connectClient "frwiki" 0, heartbeatCall adaPresent 1 0,
          heartbeatCall adaGoneElsewhere 2 1]).rooms["frwiki"]?.map fun room =>
      (room.state.presenceActors, room.presenceLastSeenMs.keys)) = some (["Ada"], []) ∧
    ((Run.final (CoordinationRegistry.step heartbeatCodec) CoordinationRegistry.new
        [.connectClient "frwiki" 0, heartbeatCall adaPresent 1 0,
          heartbeatCall adaGoneElsewhere 2 1]).roomStateSummary "frwiki" 120001).2.map (·.presence) =
      some [adaPresent] ∧
    ((Run.final (CoordinationRegistry.step heartbeatCodec) CoordinationRegistry.new
        [.connectClient "frwiki" 0, heartbeatCall carolPresentElsewhere 2 1]).rooms["frwiki"]?.map
      fun room => (room.state.presenceActors, room.presenceLastSeenMs.keys)) =
      some ([], ["Carol"]) := by
  refine ⟨?_, ?_, ?_⟩
  · decide
  · decide
  · decide

end SP42.Coordination

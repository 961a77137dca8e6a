import SP42.Coordination.Presence
import SP42.Coordination.Sections

/-!
Delivery and accounting over every interleaving of the registry's sections. A
client that holds a room's channel keeps the room; a publish that holds a sender
does not, so a room opened in between takes its message away from its channel.
-/
namespace SP42.Coordination

variable {ι π : Type}

/-- The section opens a room of the wiki, there being none or only a stale one. -/
def Opens (floor : Floor ι π) : Section ι π → String → Prop
  | .connect client wikiId nowMs, w =>
      floor.clients client = .idle ∧ wikiId = w ∧ Vacant floor.registry.rooms w nowMs
  | .subscribeWrite client nowMs, w =>
      floor.clients client = .missed w ∧ Vacant floor.registry.rooms w nowMs
  | .publishWrite task nowMs, w =>
      (∃ envelope, floor.publishes task = .missed w envelope) ∧
        Vacant floor.registry.rooms w nowMs
  | _, _ => False

/-- No room is opened while a publish to its wiki is between taking a sender and folding,
and no client connects where the room's counter is at its maximum. -/
structure Undisturbed (floor : Floor ι π) (action : Section ι π) : Prop where
  room : ∀ client wikiId nowMs, action = .connect client wikiId nowMs →
    connectedTo floor.registry.rooms wikiId < u32Max
  sender : ∀ wikiId, Opens floor action wikiId →
    ∀ task sender, (floor.publishes task).channel ≠ some (wikiId, sender)

/-- The room counts the clients that connected to the wiki and did not disconnect. -/
def Counted (floor : Floor ι π) (w : String) : Prop :=
  ∃ members : Finset ι, (∀ client, client ∈ members ↔ (floor.clients client).room = some w) ∧
    members.card = connectedTo floor.registry.rooms w

/-- What holds of a wiki's room and of the clients and publishes that deal with it. -/
structure Kept (floor : Floor ι π) (w : String) : Prop where
  members : Counted floor w
  receivers : ∀ client channel, (floor.clients client).channel = some (w, channel) →
    ∀ room, floor.registry.rooms[w]? = some room → room.sender = channel
  senders : ∀ task channel, (floor.publishes task).channel = some (w, channel) →
    ∀ room, floor.registry.rooms[w]? = some room → room.sender = channel
  accounted : ∀ room, floor.registry.rooms[w]? = some room → Accounted room

theorem start_kept (w : String) : Kept (Floor.start : Floor ι π) w where
  members := by
    refine ⟨∅, fun client => ?_, ?_⟩
    · simp [Floor.start, ClientPhase.room]
    · simp [Floor.start, CoordinationRegistry.new, connectedTo]
  receivers := by
    intro client channel held
    simp [Floor.start, ClientPhase.channel] at held
  senders := by
    intro task channel held
    simp [Floor.start, PublishPhase.channel] at held
  accounted := by
    intro room held
    simp [Floor.start, CoordinationRegistry.new] at held

theorem room_of_channel {phase : ClientPhase} {w : String} {channel : Nat}
    (h : phase.channel = some (w, channel)) : phase.room = some w := by
  cases phase with
  | obtained wikiId sender =>
      simp only [ClientPhase.channel, Option.some.injEq, Prod.mk.injEq] at h
      exact congrArg some h.1
  | subscribed wikiId receiver =>
      simp only [ClientPhase.channel, Option.some.injEq, Prod.mk.injEq] at h
      exact congrArg some h.1
  | _ => cases h

section Rooms

variable {floor : Floor ι π} {w : String}

/-- A client of the room is counted, so the room is there and not stale. -/
theorem Kept.present (h : Kept floor w) {client : ι} (here : (floor.clients client).room = some w) :
    0 < connectedTo floor.registry.rooms w := by
  obtain ⟨members, mem, card⟩ := h.members
  rw [← card]
  exact Finset.card_pos.mpr ⟨client, (mem client).mpr here⟩

theorem room_of_connected {rooms : Rooms} (h : 0 < connectedTo rooms w) :
    ∃ room, rooms[w]? = some room := by
  unfold connectedTo at h
  cases held : rooms[w]? with
  | none => simp [held] at h
  | some room => exact ⟨room, rfl⟩

theorem opens_vacant {action : Section ι π} (h : Opens floor action w) :
    connectedTo floor.registry.rooms w = 0 := by
  cases action with
  | connect client wikiId nowMs => exact connected_of_vacant h.2.2
  | subscribeWrite client nowMs => exact connected_of_vacant h.2
  | publishWrite task nowMs => exact connected_of_vacant h.2
  | _ => cases h

variable [DecidableEq ι] [DecidableEq π]

/-- A section carries a wiki's room on, or it opens one. -/
theorem step_rooms_cases (codec : Codec) (floor : Floor ι π) (action : Section ι π)
    (ok : Undisturbed floor action) (w : String) :
    let rooms' := (floor.step codec action).1.registry.rooms
    Carried w floor.registry.rooms rooms' ∨
      (Opens floor action w ∧ ∀ room, rooms'[w]? = some room → Accounted room) := by
  have refl := Carried.refl w floor.registry.rooms
  cases action with
  | connect client wikiId nowMs =>
      cases phase : floor.clients client with
      | idle =>
          have space := ok.room client wikiId nowMs rfl
          simp only [Floor.step, phase, Floor.setClient, Opens]
          obtain ⟨carried | opened, _⟩ := connectClient_cases floor.registry wikiId nowMs space
          · exact .inl (carried w)
          · by_cases same : wikiId = w
            · subst same
              exact .inr ⟨⟨trivial, rfl, opened.vacant⟩, opened.accounted⟩
            · exact .inl (opened.carried w same)
      | _ => simpa only [Floor.step, phase] using .inl refl
  | subscribeWrite client nowMs =>
      cases phase : floor.clients client with
      | missed wikiId =>
          simp only [Floor.step, phase, Floor.setClient, Opens]
          obtain ⟨quiet | opened, _⟩ := createSender_cases floor.registry wikiId nowMs
          · exact .inl (quiet.carried w)
          · by_cases same : wikiId = w
            · subst same
              exact .inr ⟨⟨rfl, opened.vacant⟩, opened.accounted⟩
            · exact .inl (opened.carried w same)
      | _ => simpa only [Floor.step, phase] using .inl refl
  | publishWrite task nowMs =>
      cases phase : floor.publishes task with
      | missed wikiId envelope =>
          simp only [Floor.step, phase, Floor.setPublish, Opens]
          obtain ⟨quiet | opened, _⟩ := createSender_cases floor.registry wikiId nowMs
          · exact .inl (quiet.carried w)
          · by_cases same : wikiId = w
            · subst same
              exact .inr ⟨⟨⟨envelope, rfl⟩, opened.vacant⟩, opened.accounted⟩
            · exact .inl (opened.carried w same)
      | _ => simpa only [Floor.step, phase] using .inl refl
  | disconnect client nowMs =>
      cases phase : (floor.clients client).room with
      | none => simpa only [Floor.step, phase] using .inl refl
      | some wikiId =>
          simp only [Floor.step, phase, Floor.setClient]
          exact .inl ((disconnectClient_cases floor.registry wikiId nowMs).1 w)
  | fold task nowMs =>
      cases phase : floor.publishes task with
      | obtained wikiId envelope sender =>
          simp only [Floor.step, phase, Floor.setPublish]
          exact .inl ((foldPayload_quiet floor.registry wikiId nowMs codec _).carried w)
      | _ => simpa only [Floor.step, phase] using .inl refl
  | snapshot nowMs => exact .inl ((pruneAll_quiet floor.registry nowMs).carried w)
  | roomStateSummary wikiId nowMs => exact .inl ((pruneOne_quiet floor.registry wikiId nowMs).carried w)
  | roomInspection wikiId nowMs => exact .inl ((pruneOne_quiet floor.registry wikiId nowMs).carried w)
  | roomInspections nowMs => exact .inl ((pruneAll_quiet floor.registry nowMs).carried w)
  | subscribeRead client =>
      refine .inl ?_
      simp only [Floor.step]
      split
      · split <;> exact refl
      · exact refl
  | subscribe client =>
      refine .inl ?_
      simp only [Floor.step]
      split <;> exact refl
  | publishRead task wikiId envelope =>
      refine .inl ?_
      simp only [Floor.step]
      split
      · split <;> exact refl
      · exact refl
  | send task =>
      refine .inl ?_
      simp only [Floor.step]
      split <;> exact refl

end Rooms

section Members

variable {floor next : Floor ι π} {w : String}

/-- The count is right as long as neither side of it changes. -/
theorem Counted.frame (h : Counted floor w)
    (rooms : ∀ client, (next.clients client).room = (floor.clients client).room)
    (count : connectedTo next.registry.rooms w = connectedTo floor.registry.rooms w) :
    Counted next w := by
  obtain ⟨members, mem, card⟩ := h
  refine ⟨members, fun client => ?_, ?_⟩
  · rw [mem, rooms]
  · rw [card, count]

variable [DecidableEq ι]

theorem update_room {clients : ι → ClientPhase} {client : ι} {phase : ClientPhase}
    (same : phase.room = (clients client).room) (other : ι) :
    (Function.update clients client phase other).room = (clients other).room := by
  by_cases here : other = client
  · subst here
    simpa using same
  · simp [here]

/-- Connecting to the wiki's room adds one to both sides. -/
theorem Counted.join (h : Counted floor w) {client : ι} {wikiId : String}
    (idle : floor.clients client = .idle) {registry : CoordinationRegistry}
    (count : connectedTo registry.rooms w =
      connectedTo floor.registry.rooms w + if wikiId = w then 1 else 0) :
    Counted ({ floor with registry := registry }.setClient client (.connected wikiId)) w := by
  obtain ⟨members, mem, card⟩ := h
  have outside : client ∉ members := by
    rw [mem, idle]
    simp [ClientPhase.room]
  by_cases same : wikiId = w
  · subst same
    refine ⟨insert client members, fun other => ?_, ?_⟩
    · by_cases here : other = client
      · subst here
        simp [Floor.setClient, ClientPhase.room]
      · simp [Floor.setClient, here, mem]
    · rw [Finset.card_insert_of_notMem outside, card]
      simpa [Floor.setClient] using count.symm
  · refine ⟨members, fun other => ?_, ?_⟩
    · by_cases here : other = client
      · subst here
        simp [Floor.setClient, ClientPhase.room, outside, same]
      · simp [Floor.setClient, here, mem]
    · rw [card]
      simpa [Floor.setClient, same] using count.symm

/-- Disconnecting takes one from both sides. -/
theorem Counted.leave (h : Counted floor w) {client : ι} {wikiId : String}
    (here : (floor.clients client).room = some wikiId) {registry : CoordinationRegistry}
    (count : connectedTo registry.rooms w =
      connectedTo floor.registry.rooms w - if wikiId = w then 1 else 0) :
    Counted ({ floor with registry := registry }.setClient client .gone) w := by
  obtain ⟨members, mem, card⟩ := h
  by_cases same : wikiId = w
  · subst same
    refine ⟨members.erase client, fun other => ?_, ?_⟩
    · by_cases self : other = client
      · subst self
        simp [Floor.setClient, ClientPhase.room]
      · simp [Floor.setClient, self, mem]
    · rw [Finset.card_erase_of_mem ((mem client).mpr here), card]
      simpa [Floor.setClient] using count.symm
  · have outside : client ∉ members := by
      rw [mem, here]
      simpa using same
    refine ⟨members, fun other => ?_, ?_⟩
    · by_cases self : other = client
      · subst self
        simp [Floor.setClient, ClientPhase.room, outside]
      · simp [Floor.setClient, self, mem]
    · rw [card]
      simpa [Floor.setClient, same] using count.symm

theorem step_counted [DecidableEq π] (codec : Codec) {action : Section ι π} (ok : Undisturbed floor action)
    (h : Counted floor w) : Counted (floor.step codec action).1 w := by
  cases action with
  | connect client wikiId nowMs =>
      cases phase : floor.clients client with
      | idle =>
          simp only [Floor.step, phase]
          have space := ok.room client wikiId nowMs rfl
          exact h.join phase ((connectClient_cases floor.registry wikiId nowMs space).2 w)
      | _ => simpa only [Floor.step, phase] using h
  | disconnect client nowMs =>
      cases phase : (floor.clients client).room with
      | none => simpa only [Floor.step, phase] using h
      | some wikiId =>
          simp only [Floor.step, phase]
          exact h.leave phase ((disconnectClient_cases floor.registry wikiId nowMs).2 w)
  | subscribeRead client =>
      cases phase : floor.clients client with
      | connected wikiId =>
          simp only [Floor.step, phase]
          split
          · exact h.frame (update_room (by rw [phase]; rfl)) rfl
          · exact h.frame (update_room (by rw [phase]; rfl)) rfl
      | _ => simpa only [Floor.step, phase] using h
  | subscribeWrite client nowMs =>
      cases phase : floor.clients client with
      | missed wikiId =>
          simp only [Floor.step, phase]
          refine h.frame (fun other => ?_)
            ((createSender_cases floor.registry wikiId nowMs).2.1 w)
          exact update_room (by rw [phase]; rfl) other
      | _ => simpa only [Floor.step, phase] using h
  | subscribe client =>
      cases phase : floor.clients client with
      | obtained wikiId sender =>
          simp only [Floor.step, phase]
          exact h.frame (update_room (by rw [phase]; rfl)) rfl
      | _ => simpa only [Floor.step, phase] using h
  | publishRead task wikiId envelope =>
      simp only [Floor.step]
      split
      · split <;> exact h
      · exact h
  | publishWrite task nowMs =>
      cases phase : floor.publishes task with
      | missed wikiId envelope =>
          simp only [Floor.step, phase]
          exact h.frame (fun other => rfl)
            ((createSender_cases floor.registry wikiId nowMs).2.1 w)
      | _ => simpa only [Floor.step, phase] using h
  | fold task nowMs =>
      cases phase : floor.publishes task with
      | obtained wikiId envelope sender =>
          simp only [Floor.step, phase]
          exact h.frame (fun other => rfl)
            ((foldPayload_quiet floor.registry wikiId nowMs codec _).connected w)
      | _ => simpa only [Floor.step, phase] using h
  | send task =>
      simp only [Floor.step]
      split <;> exact h
  | snapshot nowMs =>
      exact h.frame (fun other => rfl) ((pruneAll_quiet floor.registry nowMs).connected w)
  | roomStateSummary wikiId nowMs =>
      exact h.frame (fun other => rfl) ((pruneOne_quiet floor.registry wikiId nowMs).connected w)
  | roomInspection wikiId nowMs =>
      exact h.frame (fun other => rfl) ((pruneOne_quiet floor.registry wikiId nowMs).connected w)
  | roomInspections nowMs =>
      exact h.frame (fun other => rfl) ((pruneAll_quiet floor.registry nowMs).connected w)

end Members

section Channels

variable {floor : Floor ι π} {w : String}

theorem update_channel {κ φ : Type} [DecidableEq κ] {phases : κ → φ} {key other : κ} {phase : φ}
    {channelOf : φ → Option (String × Nat)} {channel : Nat}
    (h : channelOf (Function.update phases key phase other) = some (w, channel)) :
    channelOf phase = some (w, channel) ∨ channelOf (phases other) = some (w, channel) := by
  by_cases here : other = key
  · subst here
    exact .inl (by simpa using h)
  · exact .inr (by simpa [here] using h)

variable [DecidableEq ι] [DecidableEq π]

/-- A channel a client has is one it had, or the one of the room that is there. -/
theorem step_receivers (codec : Codec) (action : Section ι π) {client : ι} {channel : Nat}
    (h : ((floor.step codec action).1.clients client).channel = some (w, channel)) :
    (floor.clients client).channel = some (w, channel) ∨
      lookup (floor.step codec action).1.registry w = some channel := by
  cases action with
  | connect other wikiId nowMs =>
      simp only [Floor.step] at h
      split at h
      · rcases update_channel h with new | old
        · cases new
        · exact .inl old
      · exact .inl h
  | subscribeRead other =>
      simp only [Floor.step] at h ⊢
      split at h
      · next wikiId phase =>
          split at h
          · next sender found =>
              rcases update_channel h with new | old
              · simp only [ClientPhase.channel, Option.some.injEq, Prod.mk.injEq] at new
                obtain ⟨rfl, rfl⟩ := new
                exact .inr found
              · exact .inl old
          · rcases update_channel h with new | old
            · cases new
            · exact .inl old
      · exact .inl h
  | subscribeWrite other nowMs =>
      simp only [Floor.step] at h ⊢
      split at h
      · next wikiId phase =>
          rcases update_channel h with new | old
          · simp only [ClientPhase.channel, Option.some.injEq, Prod.mk.injEq] at new
            obtain ⟨rfl, rfl⟩ := new
            exact .inr (createSender_cases floor.registry wikiId nowMs).2.2
          · exact .inl old
      · exact .inl h
  | subscribe other =>
      simp only [Floor.step] at h
      split at h
      · next wikiId sender phase =>
          rcases update_channel h with new | old
          · by_cases here : client = other
            · subst here
              rw [phase]
              exact .inl new
            · simp only [Floor.setClient, Function.update_of_ne here] at h
              exact .inl h
          · exact .inl old
      · exact .inl h
  | disconnect other nowMs =>
      simp only [Floor.step] at h
      split at h
      · rcases update_channel h with new | old
        · cases new
        · exact .inl old
      · exact .inl h
  | publishRead task wikiId envelope =>
      simp only [Floor.step] at h
      split at h
      · split at h <;> exact .inl h
      · exact .inl h
  | publishWrite task nowMs =>
      simp only [Floor.step] at h
      split at h <;> exact .inl h
  | fold task nowMs =>
      simp only [Floor.step] at h
      split at h <;> exact .inl h
  | send task =>
      simp only [Floor.step] at h
      split at h <;> exact .inl h
  | _ => exact .inl h

/-- A sender a publish has is one it had, or the one of the room that is there. -/
theorem step_senders (codec : Codec) (action : Section ι π) {task : π} {channel : Nat}
    (h : ((floor.step codec action).1.publishes task).channel = some (w, channel)) :
    (floor.publishes task).channel = some (w, channel) ∨
      lookup (floor.step codec action).1.registry w = some channel := by
  cases action with
  | publishRead other wikiId envelope =>
      simp only [Floor.step] at h ⊢
      split at h
      · next phase =>
          split at h
          · next sender found =>
              rcases update_channel h with new | old
              · simp only [PublishPhase.channel, Option.some.injEq, Prod.mk.injEq] at new
                obtain ⟨rfl, rfl⟩ := new
                exact .inr found
              · exact .inl old
          · rcases update_channel h with new | old
            · cases new
            · exact .inl old
      · exact .inl h
  | publishWrite other nowMs =>
      simp only [Floor.step] at h ⊢
      split at h
      · next wikiId envelope phase =>
          rcases update_channel h with new | old
          · simp only [PublishPhase.channel, Option.some.injEq, Prod.mk.injEq] at new
            obtain ⟨rfl, rfl⟩ := new
            exact .inr (createSender_cases floor.registry wikiId nowMs).2.2
          · exact .inl old
      · exact .inl h
  | fold other nowMs =>
      simp only [Floor.step] at h
      split at h
      · rcases update_channel h with new | old
        · split at new <;> cases new
        · exact .inl old
      · exact .inl h
  | send other =>
      simp only [Floor.step] at h
      split at h
      · rcases update_channel h with new | old
        · cases new
        · exact .inl old
      · exact .inl h
  | connect client wikiId nowMs =>
      simp only [Floor.step] at h
      split at h <;> exact .inl h
  | subscribeRead client =>
      simp only [Floor.step] at h
      split at h
      · split at h <;> exact .inl h
      · exact .inl h
  | subscribeWrite client nowMs =>
      simp only [Floor.step] at h
      split at h <;> exact .inl h
  | subscribe client =>
      simp only [Floor.step] at h
      split at h <;> exact .inl h
  | disconnect client nowMs =>
      simp only [Floor.step] at h
      split at h <;> exact .inl h
  | _ => exact .inl h

end Channels

section Delivery

variable [DecidableEq ι] [DecidableEq π] {floor : Floor ι π}

theorem step_kept (codec : Codec) {action : Section ι π} (ok : Undisturbed floor action)
    {w : String} (h : Kept floor w) : Kept (floor.step codec action).1 w := by
  refine ⟨step_counted codec ok h.members, ?_, ?_, ?_⟩
  · intro client channel held room there
    rcases step_receivers codec action held with before | found
    · rcases step_rooms_cases codec floor action ok w with carried | ⟨opens, _⟩
      · obtain ⟨old, was, sender, _⟩ := carried room there
        rw [sender]
        exact h.receivers client channel before old was
      · -- the client keeps its room from being opened anew
        have present := h.present (room_of_channel before)
        rw [opens_vacant opens] at present
        cases present
    · unfold lookup at found
      rw [there] at found
      exact Option.some.inj found
  · intro task channel held room there
    rcases step_senders codec action held with before | found
    · rcases step_rooms_cases codec floor action ok w with carried | ⟨opens, _⟩
      · obtain ⟨old, was, sender, _⟩ := carried room there
        rw [sender]
        exact h.senders task channel before old was
      · exact absurd before (ok.sender w opens task channel)
    · unfold lookup at found
      rw [there] at found
      exact Option.some.inj found
  · intro room there
    rcases step_rooms_cases codec floor action ok w with carried | ⟨_, accounted⟩
    · obtain ⟨old, was, _, account⟩ := carried room there
      exact account (h.accounted old was)
    · exact accounted room there

/-- One section does what the registry promises: a room with a client who stays keeps its
channel, the counters add up, and a message that is folded goes to the channel that every
subscribed client of the room receives from, where the publish sends it next. -/
structure Delivers (codec : Codec) (floor : Floor ι π) (action : Section ι π) : Prop where
  room : ∀ client wikiId, (floor.clients client).room = some wikiId →
    ((floor.step codec action).1.clients client).room = some wikiId →
    ∃ channel, lookup floor.registry wikiId = some channel ∧
      lookup (floor.step codec action).1.registry wikiId = some channel
  counters : ∀ (wikiId : String) (room : CoordinationRoomState), (floor.step codec action).1.registry.rooms[wikiId]? =
    some room → room.publishedMessages < u64Max →
    room.publishedMessages = room.acceptedMessages + room.invalidMessages
  folded : ∀ task nowMs wikiId envelope sender message, action = .fold task nowMs →
    floor.publishes task = .obtained wikiId envelope sender →
    (floor.registry.foldPayload codec wikiId envelope.payload nowMs).2 = some message →
    (floor.step codec action).1.publishes task = .folded sender envelope ∧
      ∀ client receiver, floor.clients client = .subscribed wikiId receiver → receiver = sender
  sent : ∀ task sender envelope, action = .send task →
    floor.publishes task = .folded sender envelope →
    (floor.step codec action).2 = some (sender, envelope)

theorem delivers_of_kept (codec : Codec) {action : Section ι π} (ok : Undisturbed floor action)
    (h : ∀ w, Kept floor w) : Delivers codec floor action where
  room := by
    intro client wikiId before after
    obtain ⟨room, was⟩ := room_of_connected ((h wikiId).present before)
    obtain ⟨room', there⟩ := room_of_connected ((step_kept codec ok (h wikiId)).present after)
    refine ⟨room.sender, by simp [lookup, was], ?_⟩
    rcases step_rooms_cases codec floor action ok wikiId with carried | ⟨opens, _⟩
    · obtain ⟨old, held, sender, _⟩ := carried room' there
      rw [was, Option.some.injEq] at held
      rw [lookup, there, Option.map_some, sender, held]
    · have present := (h wikiId).present before
      rw [opens_vacant opens] at present
      cases present
  counters := by
    intro wikiId room there below
    have account := (step_kept codec ok (h wikiId)).accounted room there
    unfold Accounted at account
    omega
  folded := by
    intro task nowMs wikiId envelope sender message here phase decoded
    subst here
    refine ⟨by simp [Floor.step, phase, decoded, Floor.setPublish], ?_⟩
    intro client receiver subscribed
    obtain ⟨room, there⟩ := foldPayload_folds floor.registry wikiId nowMs decoded
    have received := (h wikiId).receivers client receiver (by rw [subscribed]; rfl) room there
    have obtained := (h wikiId).senders task sender (by rw [phase]; rfl) room there
    exact received.symm.trans obtained
  sent := by
    intro task sender envelope here phase
    subst here
    simp [Floor.step, phase]

/-- In every interleaving in which no room is opened under a publish that already has
a sender for it, every section delivers. -/
theorem registry_delivers (codec : Codec) (actions : List (Section ι π))
    (ok : Run.Along (Floor.step codec) Undisturbed Floor.start actions) :
    Run.Along (Floor.step codec) (Delivers codec) Floor.start actions :=
  @Run.along_invariant _ _ _ (Floor.step codec) Undisturbed (Delivers codec)
    (fun floor => ∀ w, Kept floor w)
    (fun _ _ ok kept w => step_kept codec ok (kept w))
    (fun _ _ ok kept => delivers_of_kept codec ok kept) Floor.start start_kept actions ok

end Delivery

/-- The times the sections run at, where they look at the clock. -/
def Section.nowMs : Section ι π → Option Int
  | .connect _ _ nowMs | .subscribeWrite _ nowMs | .disconnect _ nowMs | .publishWrite _ nowMs
  | .fold _ nowMs | .snapshot nowMs | .roomStateSummary _ nowMs | .roomInspection _ nowMs
  | .roomInspections nowMs => some nowMs
  | .subscribeRead _ | .subscribe _ | .publishRead _ _ _ | .send _ => none

def openSignal : ReviewSignal := ⟨"frwiki", ⟨"frwiki", "Exemple", 42, .open_, 0, 0, none, 0⟩⟩

/-- The MessagePack bytes of the signal above. -/
def signalBytes : List UInt8 :=
  [0x81] ++ fixstr "ReviewSignal" ++ [0x82] ++ fixstr "wiki_id" ++ fixstr "frwiki" ++
    fixstr "session" ++ [0x87] ++ fixstr "wiki_id" ++ fixstr "frwiki" ++ fixstr "title" ++
    fixstr "Exemple" ++ fixstr "rev_id" ++ [42] ++ fixstr "status" ++ fixstr "open" ++
    fixstr "pending_prompts" ++ [0] ++ fixstr "findings" ++ [0] ++ fixstr "updated_at_ms" ++ [0]

/-- What the codec does with the signal above. -/
def signalCodec : Codec where
  encodeMessage message :=
    if message = .reviewSignal openSignal then .ok signalBytes else .error "not a sampled message"
  decodeMessage bytes :=
    if bytes = signalBytes then .ok (.reviewSignal openSignal) else .error "not a sampled message"

/-- The server's own envelope, which no client sent. -/
def serverEnvelope : CoordinationEnvelope := ⟨0, signalBytes⟩

def signalActions : List (Section Nat Nat) :=
  [.connect 1 "frwiki" 0, .subscribeRead 1, .subscribe 1, .publishRead 1 "frwiki" serverEnvelope,
    .fold 1 1, .send 1]

theorem registry_delivers_signal :
    Run.Along (Floor.step signalCodec) (Delivers signalCodec) Floor.start signalActions := by
  apply registry_delivers
  have silent : ∀ {floor : Floor Nat Nat} {action : Section Nat Nat},
      (∀ client wikiId nowMs, action ≠ .connect client wikiId nowMs) →
      (∀ wikiId, ¬ Opens floor action wikiId) → Undisturbed floor action :=
    fun connects opens => ⟨fun client wikiId nowMs same => absurd same (connects client wikiId nowMs),
      fun wikiId opened => absurd opened (opens wikiId)⟩
  refine ⟨⟨?_, ?_⟩, silent (by simp) ?_, silent (by simp) ?_, silent (by simp) ?_,
    silent (by simp) ?_, silent (by simp) ?_, trivial⟩
  · intro client wikiId nowMs same
    cases same
    decide
  · intro wikiId _ task sender held
    cases held
  all_goals exact fun _ opens => opens

/-- The room a late publish took its channel from is evicted for the client who connects, and
the message is folded into the new room and sent where the client does not listen. -/
def lateActions : List (Section Nat Nat) :=
  [.publishRead 1 "frwiki" serverEnvelope, .publishWrite 1 0, .fold 1 0, .send 1,
    .publishRead 2 "frwiki" serverEnvelope, .connect 1 "frwiki" 300000, .subscribeRead 1,
    .subscribe 1, .fold 2 300000]

set_option maxRecDepth 4000 in
theorem registry_misses_subscriber :
    (lateActions.filterMap Section.nowMs).Pairwise (· ≤ ·) ∧
      ¬ Run.Along (Floor.step signalCodec) (Delivers signalCodec) Floor.start lateActions := by
  refine ⟨by decide, fun delivers => ?_⟩
  have late := @Run.along_at _ _ _ (Floor.step signalCodec) _ _ (lateActions.take 8) []
    (.fold 2 300000) delivers
  have receives := (late.folded 2 300000 "frwiki" serverEnvelope 0 (.reviewSignal openSignal) rfl
    (by decide) (by decide)).2 1 1 (by decide)
  cases receives

end SP42.Coordination

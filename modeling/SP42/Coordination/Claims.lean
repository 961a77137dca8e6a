import SP42.Lib.Register
import SP42.Coordination.Rooms

/-!
The claim and the resolution of a revision are a register: claims write it, a
resolution pins it. A state that folded some messages therefore shows, for every
revision, the last resolution among them, or without one the last claim.
-/
namespace SP42.Coordination

/-- The winner the message names for the revision, if it is a resolution of it. -/
def resolutionOf (wikiId : String) (revId : Nat) : CoordinationMessage → Option String
  | .raceResolution resolution =>
    if resolution.wikiId = wikiId ∧ resolution.revId = revId then some resolution.winningActor
    else none
  | _ => none

/-- The actor who claims the revision with the message, if it is a claim of it. -/
def claimOf (wikiId : String) (revId : Nat) : CoordinationMessage → Option String
  | .editClaim claim =>
    if claim.wikiId = wikiId ∧ claim.revId = revId then some claim.actor else none
  | _ => none

def writeOf (wikiId : String) (revId : Nat) (message : CoordinationMessage) :
    Option (Register.Write String) :=
  ((resolutionOf wikiId revId message).map .pin).or ((claimOf wikiId revId message).map .set)

/-- The state shows the register's content for the revision. -/
structure Shows (wikiId : String) (revId : Nat) (cell : Register.Cell String)
    (state : CoordinationState) : Prop where
  claim : state.claimFor revId = cell.value.map fun actor => ⟨wikiId, revId, actor⟩
  resolution : state.raceResolution revId = cell.pinned.map fun winner => ⟨wikiId, revId, winner⟩

/-- The state is one of the wiki that folded the messages, as far as claims and resolutions go. -/
structure Folded (wikiId : String) (messages : List CoordinationMessage)
    (state : CoordinationState) : Prop where
  wiki : state.wikiId = wikiId
  shows : ∀ revId,
    Shows wikiId revId (Register.settle (messages.filterMap (writeOf wikiId revId))) state

section Kinds

variable {wikiId : String} {revId : Nat} {message : CoordinationMessage} {actor : String}

theorem resolutionOf_actor (h : resolutionOf wikiId revId message = some actor) :
    messageActor message = some actor := by
  unfold resolutionOf at h
  split at h
  · split at h
    · exact h
    · cases h
  · cases h

theorem claimOf_actor (h : claimOf wikiId revId message = some actor) :
    messageActor message = some actor := by
  unfold claimOf at h
  split at h
  · split at h
    · exact h
    · cases h
  · cases h

theorem writeOf_pinned (wikiId : String) (revId : Nat) (message : CoordinationMessage) :
    (writeOf wikiId revId message).bind Register.Write.pinned =
      resolutionOf wikiId revId message := by
  cases message with
  | raceResolution resolution =>
      by_cases own : resolution.wikiId = wikiId ∧ resolution.revId = revId <;>
        simp [writeOf, resolutionOf, claimOf, own, Register.Write.pinned]
  | editClaim claim =>
      by_cases own : claim.wikiId = wikiId ∧ claim.revId = revId <;>
        simp [writeOf, resolutionOf, claimOf, own, Register.Write.pinned]
  | _ => rfl

theorem writeOf_wanted (wikiId : String) (revId : Nat) (message : CoordinationMessage) :
    (writeOf wikiId revId message).bind Register.Write.wanted = claimOf wikiId revId message := by
  cases message with
  | raceResolution resolution =>
      by_cases own : resolution.wikiId = wikiId ∧ resolution.revId = revId <;>
        simp [writeOf, resolutionOf, claimOf, own, Register.Write.wanted]
  | editClaim claim =>
      by_cases own : claim.wikiId = wikiId ∧ claim.revId = revId <;>
        simp [writeOf, resolutionOf, claimOf, own, Register.Write.wanted]
  | _ => rfl

end Kinds

theorem new_folded (wikiId : String) : Folded wikiId [] (.new wikiId) := by
  refine ⟨rfl, fun revId => ⟨?_, ?_⟩⟩
  · simp [CoordinationState.new, CoordinationState.claimFor, Register.settle]
  · simp [CoordinationState.new, CoordinationState.raceResolution, Register.settle]

section Apply

variable {wikiId : String} {revId : Nat} {cell : Register.Cell String} {state : CoordinationState}

theorem applyEditClaim_shows (claim : EditClaim) (own : claim.wikiId = wikiId)
    (h : Shows wikiId revId cell state) :
    Shows wikiId revId (if claim.revId = revId then cell.write (.set claim.actor) else cell)
      (state.applyEditClaim claim) := by
  by_cases same : claim.revId = revId
  · subst same
    have admits : ((state.raceResolution claim.revId).all fun resolution =>
        resolution.winningActor == claim.actor) =
        cell.pinned.all fun winner => decide (winner = claim.actor) := by
      rw [h.resolution]
      cases cell.pinned <;> rfl
    rw [if_pos rfl, CoordinationState.applyEditClaim, Register.Cell.write, admits]
    split
    · refine ⟨?_, h.resolution⟩
      simp [CoordinationState.claimFor, ← own]
    · exact h
  · rw [if_neg same, CoordinationState.applyEditClaim]
    split
    · refine ⟨?_, h.resolution⟩
      have others := h.claim
      simpa [CoordinationState.claimFor, Std.ExtTreeMap.getElem?_insert, same] using others
    · exact h

theorem applyRaceResolution_shows (resolution : RaceResolution) (own : resolution.wikiId = wikiId)
    (h : Shows wikiId revId cell state) :
    Shows wikiId revId
      (if resolution.revId = revId then cell.write (.pin resolution.winningActor) else cell)
      (state.applyRaceResolution resolution) := by
  obtain ⟨claim, pinned⟩ := h
  by_cases same : resolution.revId = revId
  · subst same own
    rw [if_pos rfl]
    constructor
    · simp [CoordinationState.applyRaceResolution, CoordinationState.claimFor, Register.Cell.write]
    · simp [CoordinationState.applyRaceResolution, CoordinationState.raceResolution,
        Register.Cell.write]
  · rw [if_neg same]
    constructor
    · simpa [CoordinationState.applyRaceResolution, CoordinationState.claimFor,
        Std.ExtTreeMap.getElem?_insert, same] using claim
    · simpa [CoordinationState.applyRaceResolution, CoordinationState.raceResolution,
        Std.ExtTreeMap.getElem?_insert, same] using pinned

/-- A message writes the register of its revision and no other. -/
theorem apply_shows (wiki : state.wikiId = wikiId) (h : Shows wikiId revId cell state)
    (message : CoordinationMessage) :
    Shows wikiId revId ((writeOf wikiId revId message).elim cell cell.write)
      (state.apply message).1 := by
  by_cases own : messageWikiId message = state.wikiId
  · unfold CoordinationState.apply
    rw [if_neg (not_not.mpr own)]
    cases message with
    | editClaim claim =>
        have mine : claim.wikiId = wikiId := own.trans wiki
        have written := applyEditClaim_shows claim mine h
        by_cases same : claim.revId = revId <;>
          simpa [writeOf, resolutionOf, claimOf, mine, same] using written
    | raceResolution resolution =>
        have mine : resolution.wikiId = wikiId := own.trans wiki
        have written := applyRaceResolution_shows resolution mine h
        by_cases same : resolution.revId = revId <;>
          simpa [writeOf, resolutionOf, claimOf, mine, same] using written
    | presenceHeartbeat heartbeat =>
        dsimp only
        unfold CoordinationState.applyPresenceHeartbeat
        split
        · exact ⟨h.claim, h.resolution⟩
        · exact ⟨h.claim, h.resolution⟩
    | _ => exact ⟨h.claim, h.resolution⟩
  · rw [apply_foreign state message own]
    have nothing : writeOf wikiId revId message = none := by
      rw [wiki] at own
      cases message with
      | editClaim claim =>
          have foreign : claim.wikiId ≠ wikiId := own
          simp [writeOf, resolutionOf, claimOf, foreign]
      | raceResolution resolution =>
          have foreign : resolution.wikiId ≠ wikiId := own
          simp [writeOf, resolutionOf, claimOf, foreign]
      | _ => rfl
    rw [nothing]
    exact h

end Apply

section Folded

variable {wikiId : String} {messages : List CoordinationMessage}

theorem apply_folded {state : CoordinationState} (h : Folded wikiId messages state)
    (message : CoordinationMessage) :
    Folded wikiId (messages ++ [message]) (state.apply message).1 := by
  refine ⟨(apply_wikiId state message).trans h.wiki, fun revId => ?_⟩
  have written := apply_shows h.wiki (h.shows revId) message
  cases write : writeOf wikiId revId message with
  | none => simpa [List.filterMap_append, write] using written
  | some last =>
      rw [write] at written
      rw [List.filterMap_append, List.filterMap_cons, write]
      exact (Register.settle_append _ last).symm ▸ written

/-- On the server the counters and the presence memory do not matter here. -/
theorem acceptMessage_folded {room : CoordinationRoomState} (h : Folded wikiId messages room.state)
    (message : CoordinationMessage) (nowMs : Int) :
    Folded wikiId (messages ++ [message]) (acceptMessage room message nowMs).state := by
  have folded := apply_folded h message
  unfold acceptMessage
  obtain ⟨presence, lastSeen, frame⟩ := prune_frame
    { trackPresenceHeartbeat { room with
        acceptedMessages := saturatingSucc u64Max room.acceptedMessages } message nowMs with
      state := ((trackPresenceHeartbeat { room with
        acceptedMessages := saturatingSucc u64Max room.acceptedMessages } message nowMs).state.apply
          message).1 } nowMs
  dsimp only at frame ⊢
  rw [frame, track_frame]
  exact ⟨folded.wiki, fun revId => ⟨(folded.shows revId).claim, (folded.shows revId).resolution⟩⟩

theorem Folded.resolution {state : CoordinationState} (h : Folded wikiId messages state)
    (revId : Nat) :
    state.raceResolution revId = (messages.filterMap (resolutionOf wikiId revId)).getLast?.map
      fun winner => ⟨wikiId, revId, winner⟩ := by
  rw [(h.shows revId).resolution, (Register.settle_eq _).1, List.filterMap_filterMap]
  simp only [writeOf_pinned]

theorem Folded.claim {state : CoordinationState} (h : Folded wikiId messages state) (revId : Nat) :
    state.claimFor revId = ((messages.filterMap (resolutionOf wikiId revId)).getLast?.or
      (messages.filterMap (claimOf wikiId revId)).getLast?).map
        fun actor => ⟨wikiId, revId, actor⟩ := by
  rw [(h.shows revId).claim, (Register.settle_eq _).2, List.filterMap_filterMap,
    List.filterMap_filterMap]
  simp only [writeOf_pinned, writeOf_wanted]

end Folded

end SP42.Coordination

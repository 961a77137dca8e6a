import Mathlib
import SP42.Coordination.Reducer

/-!
Which messages of a room may change places. Every message writes one slot of the state: the claim
and the resolution of a revision, an actor's presence, a flag, a score, or the list of actions.
Messages of different slots commute, so only the order within each slot decides the state.
-/
namespace SP42.Coordination

open CoordinationState

section Slots

/-- What a message reads and writes. A claim looks at the resolution of its revision. -/
inductive Slot where
  | claim (revId : Nat)
  | presence (actor : String)
  | flagged (revId : Nat)
  | score (revId : Nat)
  | actions
  | signal (signal : ReviewSignal)
  deriving DecidableEq

def slotOf : CoordinationMessage → Slot
  | .editClaim claim => .claim claim.revId
  | .raceResolution resolution => .claim resolution.revId
  | .presenceHeartbeat heartbeat => .presence heartbeat.actor
  | .flaggedEdit flagged => .flagged flagged.revId
  | .scoreDelta delta => .score delta.revId
  | .actionBroadcast _ => .actions
  | .reviewSignal signal => .signal signal

variable {κ α : Type} [Ord κ] [Std.TransOrd κ] [Std.LawfulEqOrd κ]

theorem insert_swap (entries : Std.ExtTreeMap κ α) {key other : κ} (apart : key ≠ other)
    (entry stored : α) : (entries.insert other stored).insert key entry =
      (entries.insert key entry).insert other stored := by
  refine Std.ExtTreeMap.ext_getElem? fun k => ?_
  simp only [Std.ExtTreeMap.getElem?_insert, Std.LawfulEqCmp.compare_eq_iff_eq]
  rcases eq_or_ne key k with rfl | first
  · simp [apart.symm]
  · simp [first]

theorem insert_erase_swap (entries : Std.ExtTreeMap κ α) {key other : κ} (apart : key ≠ other)
    (entry : α) : (entries.erase other).insert key entry = (entries.insert key entry).erase other := by
  refine Std.ExtTreeMap.ext_getElem? fun k => ?_
  simp only [Std.ExtTreeMap.getElem?_insert, Std.ExtTreeMap.getElem?_erase,
    Std.LawfulEqCmp.compare_eq_iff_eq]
  rcases eq_or_ne key k with rfl | first
  · simp [apart.symm]
  · simp [first]

theorem erase_swap (entries : Std.ExtTreeMap κ α) (key other : κ) :
    (entries.erase other).erase key = (entries.erase key).erase other := by
  refine Std.ExtTreeMap.ext_getElem? fun k => ?_
  simp only [Std.ExtTreeMap.getElem?_erase]
  split <;> split <;> rfl

/-- The message of the room's own wiki, written into the state. -/
def written (state : CoordinationState) : CoordinationMessage → CoordinationState
  | .editClaim claim => state.applyEditClaim claim
  | .presenceHeartbeat heartbeat => state.applyPresenceHeartbeat heartbeat
  | .flaggedEdit flagged =>
      { state with flaggedEdits := state.flaggedEdits.insert flagged.revId flagged }
  | .scoreDelta delta => state.applyScoreDelta delta
  | .raceResolution resolution => state.applyRaceResolution resolution
  | .actionBroadcast action => state.applyActionBroadcast action
  | .reviewSignal _ => state

theorem apply_written {state : CoordinationState} {message : CoordinationMessage}
    (own : messageWikiId message = state.wikiId) : (state.apply message).1 = written state message := by
  unfold CoordinationState.apply
  rw [if_neg (not_not.mpr own)]
  cases message <;> rfl

theorem applyEditClaim_eq (state : CoordinationState) (claim : EditClaim) :
    state.applyEditClaim claim = { state with
      claims := if (state.raceResolution claim.revId).all fun resolution =>
          resolution.winningActor == claim.actor
        then state.claims.insert claim.revId claim else state.claims } := by
  unfold applyEditClaim
  split <;> rfl

theorem applyPresenceHeartbeat_eq (state : CoordinationState) (heartbeat : PresenceHeartbeat) :
    state.applyPresenceHeartbeat heartbeat = { state with
      presence := if heartbeat.activeEditCount = 0 then state.presence.erase heartbeat.actor
        else state.presence.insert heartbeat.actor heartbeat } := by
  unfold applyPresenceHeartbeat
  split <;> rfl

theorem claims_commute (state : CoordinationState) {claim other : EditClaim}
    (apart : claim.revId ≠ other.revId) :
    (state.applyEditClaim other).applyEditClaim claim =
      (state.applyEditClaim claim).applyEditClaim other := by
  unfold applyEditClaim raceResolution
  split_ifs <;> simp_all [insert_swap _ apart]

theorem claim_resolution_commute (state : CoordinationState) {claim : EditClaim}
    {resolution : RaceResolution} (apart : claim.revId ≠ resolution.revId) :
    (state.applyRaceResolution resolution).applyEditClaim claim =
      (state.applyEditClaim claim).applyRaceResolution resolution := by
  unfold applyEditClaim applyRaceResolution raceResolution
  have kept : (state.raceResolutions.insert resolution.revId resolution)[claim.revId]? =
      state.raceResolutions[claim.revId]? := by
    simp [Std.ExtTreeMap.getElem?_insert, apart.symm]
  simp only [kept]
  split_ifs
  · simp [insert_swap _ apart]
  · rfl

theorem resolutions_commute (state : CoordinationState) {resolution other : RaceResolution}
    (apart : resolution.revId ≠ other.revId) :
    (state.applyRaceResolution other).applyRaceResolution resolution =
      (state.applyRaceResolution resolution).applyRaceResolution other := by
  simp [applyRaceResolution, insert_swap _ apart]

theorem presence_commute (state : CoordinationState) {heartbeat other : PresenceHeartbeat}
    (apart : heartbeat.actor ≠ other.actor) :
    (state.applyPresenceHeartbeat other).applyPresenceHeartbeat heartbeat =
      (state.applyPresenceHeartbeat heartbeat).applyPresenceHeartbeat other := by
  unfold applyPresenceHeartbeat
  split_ifs
  · simp [erase_swap _ heartbeat.actor]
  · simp [insert_erase_swap _ apart.symm]
  · simp [insert_erase_swap _ apart]
  · simp [insert_swap _ apart]

theorem scores_commute (state : CoordinationState) {delta other : ScoreDelta}
    (apart : delta.revId ≠ other.revId) :
    (state.applyScoreDelta other).applyScoreDelta delta =
      (state.applyScoreDelta delta).applyScoreDelta other := by
  unfold applyScoreDelta scoreDelta
  simp [Std.ExtTreeMap.getElem?_insert, apart, apart.symm, insert_swap _ apart]

theorem written_commute (state : CoordinationState) {message other : CoordinationMessage}
    (apart : slotOf message ≠ slotOf other) :
    written (written state other) message = written (written state message) other := by
  cases message <;> cases other
  case editClaim.editClaim claim other =>
    exact claims_commute state fun same => apart (congrArg Slot.claim same)
  case editClaim.raceResolution claim resolution =>
    exact claim_resolution_commute state fun same => apart (congrArg Slot.claim same)
  case raceResolution.editClaim resolution claim =>
    exact (claim_resolution_commute state fun same => apart (congrArg Slot.claim same.symm)).symm
  case raceResolution.raceResolution resolution other =>
    exact resolutions_commute state fun same => apart (congrArg Slot.claim same)
  case presenceHeartbeat.presenceHeartbeat heartbeat other =>
    exact presence_commute state fun same => apart (congrArg Slot.presence same)
  case scoreDelta.scoreDelta delta other =>
    exact scores_commute state fun same => apart (congrArg Slot.score same)
  case flaggedEdit.flaggedEdit flagged other =>
    have keys : flagged.revId ≠ other.revId := fun same => apart (congrArg Slot.flagged same)
    simp [written, insert_swap _ keys]
  all_goals first
    | rfl
    | exact absurd rfl apart
    | (simp only [written, applyEditClaim_eq, applyPresenceHeartbeat_eq] <;> rfl)

theorem apply_commute (state : CoordinationState) {message other : CoordinationMessage}
    (apart : slotOf message ≠ slotOf other) :
    ((state.apply other).1.apply message).1 = ((state.apply message).1.apply other).1 := by
  by_cases own : messageWikiId message = state.wikiId
  · by_cases also : messageWikiId other = state.wikiId
    · have later : messageWikiId message = (state.apply other).1.wikiId := by
        rw [apply_wikiId, own]
      have later' : messageWikiId other = (state.apply message).1.wikiId := by
        rw [apply_wikiId, also]
      rw [apply_written later, apply_written later', apply_written own, apply_written also,
        written_commute state apart]
    · have later : messageWikiId other ≠ (state.apply message).1.wikiId := by rwa [apply_wikiId]
      rw [apply_foreign state other also, apply_foreign _ other later]
  · have later : messageWikiId message ≠ (state.apply other).1.wikiId := by rwa [apply_wikiId]
    rw [apply_foreign state message own, apply_foreign _ message later]

end Slots

section Orders

variable {messages reordered : List CoordinationMessage}

theorem perm_of_slots (same : ∀ slot, messages.filter (slotOf · = slot) =
    reordered.filter (slotOf · = slot)) : messages.Perm reordered := by
  refine List.perm_iff_count.mpr fun message => ?_
  have own := congrArg (List.count message) (same (slotOf message))
  rwa [List.count_filter (by simp), List.count_filter (by simp)] at own

/-- How many messages are accepted does not depend on their order. -/
theorem accepted_eq (state : CoordinationState) (messages : List CoordinationMessage) :
    (Run.trace CoordinationState.apply state messages).countP Prod.snd =
      messages.countP fun message => messageWikiId message = state.wikiId := by
  induction messages generalizing state with
  | nil => rfl
  | cons message messages ih =>
      rw [Run.trace, List.countP_cons, List.countP_cons, ih, apply_wikiId]
      by_cases own : messageWikiId message = state.wikiId
      · simp [apply_own state message own, own]
      · simp [apply_foreign state message own, own]

/-- Two orders of the messages that agree on every slot fold into one state, with one count. -/
theorem applyMany_of_slots (state : CoordinationState)
    (same : ∀ slot, messages.filter (slotOf · = slot) = reordered.filter (slotOf · = slot)) :
    state.applyMany messages = state.applyMany reordered := by
  rw [applyMany_eq, applyMany_eq, accepted_eq, accepted_eq, (perm_of_slots same).countP_eq]
  have commute : ∀ state message other, slotOf message ≠ slotOf other →
      ((CoordinationState.apply state other).1.apply message).1 =
        ((CoordinationState.apply state message).1.apply other).1 :=
    fun state _ _ apart => apply_commute state apart
  rw [Run.final_of_slots commute same state]

/-- A claim, the resolution of its revision and a heartbeat, delivered in two orders. -/
theorem applyMany_of_slots_heartbeat :
    (CoordinationState.new "frwiki").applyMany
        [.editClaim ⟨"frwiki", 7, "Ana"⟩, .presenceHeartbeat ⟨"frwiki", "Ben", 1⟩,
          .raceResolution ⟨"frwiki", 7, "Ben"⟩] =
      (CoordinationState.new "frwiki").applyMany
        [.presenceHeartbeat ⟨"frwiki", "Ben", 1⟩, .editClaim ⟨"frwiki", 7, "Ana"⟩,
          .raceResolution ⟨"frwiki", 7, "Ben"⟩] := by
  refine applyMany_of_slots _ fun slot => ?_
  cases slot <;> simp [List.filter_cons, slotOf]

end Orders

end SP42.Coordination

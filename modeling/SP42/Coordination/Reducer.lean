import SP42.Lib.Run
import SP42.Coordination.Claims

/-!
What holds in every state the reducer can reach: whatever is stored belongs to
the wiki and is stored under its own key, a resolution keeps its winner's claim,
and the recent actions are the end of what was accepted. A resolution of the wiki
decides its revision's claim wherever it stands among the messages.
-/
namespace SP42.Coordination

open CoordinationState (new)

section Filed

variable {κ α : Type} [Ord κ] [Std.TransOrd κ]

/-- Every entry belongs to the wiki and is stored under its own key. -/
def Filed (wikiId : String) (wikiOf : α → String) (keyOf : α → κ) (entries : Std.ExtTreeMap κ α) :
    Prop :=
  ∀ key entry, entries[key]? = some entry → wikiOf entry = wikiId ∧ keyOf entry = key

variable {wikiId : String} {wikiOf : α → String} {keyOf : α → κ} {entries : Std.ExtTreeMap κ α}

theorem filed_empty : Filed wikiId wikiOf keyOf (∅ : Std.ExtTreeMap κ α) := by
  intro key entry found
  simp at found

theorem filed_insert [Std.LawfulEqOrd κ] (h : Filed wikiId wikiOf keyOf entries) {key : κ} {entry : α}
    (own : wikiOf entry = wikiId) (under : keyOf entry = key) :
    Filed wikiId wikiOf keyOf (entries.insert key entry) := by
  intro other stored found
  rw [Std.ExtTreeMap.getElem?_insert] at found
  split at found
  · next same =>
      cases found
      exact ⟨own, under.trans (Std.LawfulEqCmp.eq_of_compare same)⟩
  · exact h other stored found

theorem filed_erase (h : Filed wikiId wikiOf keyOf entries) (key : κ) :
    Filed wikiId wikiOf keyOf (entries.erase key) := by
  intro other stored found
  rw [Std.ExtTreeMap.getElem?_erase] at found
  split at found
  · cases found
  · exact h other stored found

end Filed

/-- The entries of the state are the wiki's own, and each resolved revision is its winner's. -/
structure WellKept (wikiId : String) (state : CoordinationState) : Prop where
  wiki : state.wikiId = wikiId
  claims : Filed wikiId EditClaim.wikiId EditClaim.revId state.claims
  presence : Filed wikiId PresenceHeartbeat.wikiId PresenceHeartbeat.actor state.presence
  flaggedEdits : Filed wikiId FlaggedEdit.wikiId FlaggedEdit.revId state.flaggedEdits
  scoreDeltas : Filed wikiId ScoreDelta.wikiId ScoreDelta.revId state.scoreDeltas
  raceResolutions : Filed wikiId RaceResolution.wikiId RaceResolution.revId state.raceResolutions
  recentActions : ∀ action ∈ state.recentActions, action.wikiId = wikiId
  winner : ∀ revId resolution, state.raceResolution revId = some resolution →
    (state.claimFor revId).map EditClaim.actor = some resolution.winningActor

section Keeps

variable {wikiId : String} {state : CoordinationState}

theorem new_wellKept (wikiId : String) : WellKept wikiId (new wikiId) where
  wiki := rfl
  claims := filed_empty
  presence := filed_empty
  flaggedEdits := filed_empty
  scoreDeltas := filed_empty
  raceResolutions := filed_empty
  recentActions := by
    intro action member
    cases member
  winner := by
    intro revId resolution found
    simp [new, CoordinationState.raceResolution] at found

theorem applyEditClaim_wellKept (h : WellKept wikiId state) {claim : EditClaim}
    (own : claim.wikiId = wikiId) : WellKept wikiId (state.applyEditClaim claim) := by
  unfold CoordinationState.applyEditClaim
  split
  · next admitted =>
      refine { h with claims := filed_insert h.claims own rfl, winner := ?_ }
      intro revId resolution found
      simp only [CoordinationState.claimFor, Std.ExtTreeMap.getElem?_insert]
      split
      · next same =>
          -- the guard admits the claim of a resolved revision to its winner only
          have here : claim.revId = revId := Std.LawfulEqCmp.eq_of_compare same
          have resolved : state.raceResolution claim.revId = some resolution := here ▸ found
          rw [resolved] at admitted
          have wins : resolution.winningActor = claim.actor := by simpa using admitted
          simp [wins]
      · exact h.winner revId resolution found
  · exact h

theorem applyPresenceHeartbeat_wellKept (h : WellKept wikiId state) {heartbeat : PresenceHeartbeat}
    (own : heartbeat.wikiId = wikiId) :
    WellKept wikiId (state.applyPresenceHeartbeat heartbeat) := by
  unfold CoordinationState.applyPresenceHeartbeat
  split
  · exact { h with presence := filed_erase h.presence heartbeat.actor }
  · exact { h with presence := filed_insert h.presence own rfl }

theorem applyScoreDelta_wellKept (h : WellKept wikiId state) {delta : ScoreDelta}
    (own : delta.wikiId = wikiId) : WellKept wikiId (state.applyScoreDelta delta) := by
  unfold CoordinationState.applyScoreDelta
  cases stored : state.scoreDelta delta.revId with
  | none => exact { h with scoreDeltas := filed_insert h.scoreDeltas own rfl }
  | some current =>
      -- the merged delta is filed where the stored one was
      obtain ⟨wiki, under⟩ := h.scoreDeltas delta.revId current stored
      exact { h with scoreDeltas := filed_insert h.scoreDeltas wiki under }

theorem applyRaceResolution_wellKept (h : WellKept wikiId state) {resolution : RaceResolution}
    (own : resolution.wikiId = wikiId) :
    WellKept wikiId (state.applyRaceResolution resolution) := by
  refine { h with
    claims := filed_insert h.claims own rfl
    raceResolutions := filed_insert h.raceResolutions own rfl
    winner := ?_ }
  intro revId stored found
  by_cases same : resolution.revId = revId
  · subst same
    simp only [CoordinationState.applyRaceResolution, CoordinationState.raceResolution,
      Std.ExtTreeMap.getElem?_insert_self, Option.some.injEq] at found
    subst found
    simp [CoordinationState.applyRaceResolution, CoordinationState.claimFor]
  · have before : state.raceResolution revId = some stored := by
      simpa [CoordinationState.applyRaceResolution, CoordinationState.raceResolution,
        Std.ExtTreeMap.getElem?_insert, same] using found
    have kept := h.winner revId stored before
    simpa [CoordinationState.applyRaceResolution, CoordinationState.claimFor,
      Std.ExtTreeMap.getElem?_insert, same] using kept

theorem applyActionBroadcast_wellKept (h : WellKept wikiId state) {action : ActionBroadcast}
    (own : action.wikiId = wikiId) : WellKept wikiId (state.applyActionBroadcast action) := by
  refine { h with recentActions := ?_ }
  intro other member
  rcases List.mem_append.mp (List.mem_of_mem_drop member) with old | new
  · exact h.recentActions other old
  · rw [List.mem_singleton.mp new]
    exact own

theorem apply_wellKept (h : WellKept wikiId state) (message : CoordinationMessage) :
    WellKept wikiId (state.apply message).1 := by
  by_cases own : messageWikiId message = state.wikiId
  · unfold CoordinationState.apply
    rw [if_neg (not_not.mpr own)]
    have mine : messageWikiId message = wikiId := own.trans h.wiki
    cases message with
    | actionBroadcast action => exact applyActionBroadcast_wellKept h mine
    | editClaim claim => exact applyEditClaim_wellKept h mine
    | scoreDelta delta => exact applyScoreDelta_wellKept h mine
    | presenceHeartbeat heartbeat => exact applyPresenceHeartbeat_wellKept h mine
    | flaggedEdit flagged =>
        exact { h with flaggedEdits := filed_insert h.flaggedEdits mine rfl }
    | raceResolution resolution => exact applyRaceResolution_wellKept h mine
    | reviewSignal signal => exact h
  · rw [apply_foreign state message own]
    exact h

/-- A message is refused only when it is of another wiki, and then nothing happens. -/
theorem apply_rejected (message : CoordinationMessage) (h : (state.apply message).2 = false) :
    (state.apply message).1 = state := by
  by_cases own : messageWikiId message = state.wikiId
  · rw [apply_own state message own] at h
    cases h
  · rw [apply_foreign state message own]

end Keeps

section History

/-- The action of a message that the reducer accepted. -/
def acceptedAction : CoordinationMessage × Bool → Option ActionBroadcast
  | (.actionBroadcast action, true) => some action
  | _ => none

/-- The state shows the end of the accepted actions. -/
def ShowsRecent (past : List (CoordinationMessage × Bool)) (state : CoordinationState) : Prop :=
  state.recentActions = (past.filterMap acceptedAction).rtake recentActionLimit

theorem rtake_append_singleton {α : Type} (limit : Nat) (items : List α) (item : α) :
    (items.rtake limit ++ [item]).rtake limit = (items ++ [item]).rtake limit := by
  simp only [List.rtake, List.length_append, List.length_drop, List.length_singleton]
  rw [← List.drop_append_of_le_length (by omega), List.drop_drop]
  congr 1
  omega

/-- An accepted action comes last among the recent ones, and nothing else touches them. -/
theorem apply_recentActions (state : CoordinationState) (message : CoordinationMessage) :
    (state.apply message).1.recentActions =
      (acceptedAction (message, (state.apply message).2)).elim state.recentActions
        fun action => (state.recentActions ++ [action]).rtake recentActionLimit := by
  by_cases own : messageWikiId message = state.wikiId
  · rw [apply_own state message own]
    unfold CoordinationState.apply
    rw [if_neg (not_not.mpr own)]
    cases message with
    | editClaim claim =>
        simp only [CoordinationState.applyEditClaim]
        split <;> rfl
    | presenceHeartbeat heartbeat =>
        simp only [CoordinationState.applyPresenceHeartbeat]
        split <;> rfl
    | _ => rfl
  · rw [apply_foreign state message own]
    cases message <;> rfl

theorem apply_showsRecent (past : List (CoordinationMessage × Bool)) (state : CoordinationState)
    (message : CoordinationMessage) (h : ShowsRecent past state) :
    ShowsRecent (past ++ [(message, (state.apply message).2)]) (state.apply message).1 := by
  unfold ShowsRecent at h ⊢
  rw [apply_recentActions, List.filterMap_append]
  cases accepted : acceptedAction (message, (state.apply message).2) with
  | none => simpa [List.filterMap_cons, accepted] using h
  | some action =>
      have recent := rtake_append_singleton recentActionLimit (past.filterMap acceptedAction) action
      rw [← h] at recent
      simpa [List.filterMap_cons, accepted] using recent

end History

section Folding

variable {wikiId : String}

/-- Folding many messages is the run of the reducer, and its count the number of accepted ones. -/
theorem applyMany_eq (state : CoordinationState) (messages : List CoordinationMessage) :
    state.applyMany messages = (Run.final CoordinationState.apply state messages,
      (Run.trace CoordinationState.apply state messages).countP Prod.snd) := by
  have counted : ∀ (count : Nat) (state : CoordinationState),
      messages.foldl (fun reached message =>
        ((CoordinationState.apply reached.1 message).1,
          reached.2 + if (CoordinationState.apply reached.1 message).2 then 1 else 0))
        (state, count) =
      (Run.final CoordinationState.apply state messages,
        count + (Run.trace CoordinationState.apply state messages).countP Prod.snd) := by
    induction messages with
    | nil =>
        intro count state
        rfl
    | cons message messages ih =>
        intro count state
        rw [List.foldl_cons, ih]
        simp only [Run.final, Run.trace, List.countP_cons]
        congr 1
        omega
  exact (counted 0 state).trans (by rw [Nat.zero_add])

theorem applyMany_folded (wikiId : String) (messages : List CoordinationMessage) :
    Folded wikiId messages ((new wikiId).applyMany messages).1 := by
  have folded := @Run.history_invariant _ _ _ CoordinationState.apply
    (fun past state => Folded wikiId (past.map Prod.fst) state)
    (fun past state message h => by
      simpa using apply_folded h message) [] (new wikiId) (new_folded wikiId) messages
  rw [applyMany_eq]
  simpa [Run.trace_inputs] using folded

/-- The messages that resolve the revision, of whichever wiki they are. -/
def isResolutionFor (revId : Nat) : CoordinationMessage → Bool
  | .raceResolution resolution => resolution.revId == revId
  | _ => false

/-- The resolutions of the revision that the reducer of the wiki accepts. -/
def isOwnResolutionFor (wikiId : String) (revId : Nat) (message : CoordinationMessage) : Bool :=
  isResolutionFor revId message && messageWikiId message == wikiId

theorem isOwnResolutionFor_eq (wikiId : String) (revId : Nat) (message : CoordinationMessage) :
    isOwnResolutionFor wikiId revId message = (resolutionOf wikiId revId message).isSome := by
  cases message with
  | raceResolution resolution =>
      by_cases wiki : resolution.wikiId = wikiId <;> by_cases rev : resolution.revId = revId <;>
        simp [isOwnResolutionFor, isResolutionFor, resolutionOf, messageWikiId, wiki, rev]
  | _ => rfl

/-- The only resolution of the wiki for a revision names its claim, in any order of the messages. -/
theorem claim_of_only_resolution {messages reordered : List CoordinationMessage}
    {resolution : RaceResolution} (own : resolution.wikiId = wikiId)
    (only : messages.countP (isOwnResolutionFor wikiId resolution.revId) = 1)
    (there : .raceResolution resolution ∈ messages) (perm : messages.Perm reordered) :
    ((new wikiId).applyMany reordered).1.claimFor resolution.revId =
      some ⟨wikiId, resolution.revId, resolution.winningActor⟩ := by
  have names : resolutionOf wikiId resolution.revId (.raceResolution resolution) =
      some resolution.winningActor := by
    simp [resolutionOf, own]
  have one : (reordered.filterMap (resolutionOf wikiId resolution.revId)).length = 1 := by
    rw [List.length_filterMap_eq_countP, ← perm.countP_eq, ← only]
    congr 1
    funext message
    exact (isOwnResolutionFor_eq wikiId resolution.revId message).symm
  obtain ⟨winner, single⟩ := List.length_eq_one_iff.mp one
  have wins : resolution.winningActor = winner := by
    have listed : resolution.winningActor ∈
        reordered.filterMap (resolutionOf wikiId resolution.revId) :=
      List.mem_filterMap.mpr ⟨_, perm.mem_iff.mp there, names⟩
    rw [single] at listed
    exact List.mem_singleton.mp listed
  rw [(applyMany_folded wikiId reordered).claim resolution.revId, single, wins]
  rfl

end Folding

/-- In every reachable state the entries are the wiki's own under their own keys, the
recent actions are the last accepted ones, a refused message changes nothing, and the
only resolution the wiki has for a revision decides its claim in every order. -/
theorem reducer_invariant_and_finality (wikiId : String) (messages : List CoordinationMessage) :
    let state := ((new wikiId).applyMany messages).1
    WellKept wikiId state ∧
      state.recentActions = ((Run.trace CoordinationState.apply (new wikiId) messages).filterMap
        acceptedAction).rtake recentActionLimit ∧
      (∀ message, (state.apply message).2 = false → (state.apply message).1 = state) ∧
      ∀ resolution : RaceResolution, resolution.wikiId = wikiId →
        messages.countP (isOwnResolutionFor wikiId resolution.revId) = 1 →
        .raceResolution resolution ∈ messages →
        ∀ reordered, messages.Perm reordered →
          ((new wikiId).applyMany reordered).1.claimFor resolution.revId =
            some ⟨wikiId, resolution.revId, resolution.winningActor⟩ := by
  intro state
  have reached : state = Run.final CoordinationState.apply (new wikiId) messages :=
    congrArg Prod.fst (applyMany_eq (new wikiId) messages)
  refine ⟨?_, ?_, fun message => apply_rejected message, ?_⟩
  · rw [reached]
    exact @Run.final_invariant _ _ _ CoordinationState.apply (fun _ => True) (WellKept wikiId)
      (fun state message _ h => apply_wellKept h message) _ (new_wellKept wikiId) messages
      fun _ _ => trivial
  · have shown := @Run.history_invariant _ _ _ CoordinationState.apply ShowsRecent
      apply_showsRecent [] (new wikiId) rfl messages
    rw [List.nil_append] at shown
    rw [reached]
    exact shown
  · intro resolution own only there reordered perm
    exact claim_of_only_resolution own only there perm

/-- The only resolution of revision 42 names another wiki: it is refused, and the claim stays. -/
theorem claim_ignores_foreign_resolution :
    ¬ ∀ (wikiId : String) (messages reordered : List CoordinationMessage)
        (resolution : RaceResolution),
      messages.countP (isResolutionFor resolution.revId) = 1 →
      .raceResolution resolution ∈ messages → messages.Perm reordered →
        (((new wikiId).applyMany reordered).1.claimFor resolution.revId).map EditClaim.actor =
          some resolution.winningActor := by
  intro decides
  let messages : List CoordinationMessage :=
    [.editClaim ⟨"frwiki", 42, "Alice"⟩, .raceResolution ⟨"enwiki", 42, "Bob"⟩]
  have claimed := decides "frwiki" messages messages ⟨"enwiki", 42, "Bob"⟩ (by decide)
    (by decide) (List.Perm.refl _)
  revert claimed
  decide

end SP42.Coordination

import Mathlib
import SP42.Base.Machine
import SP42.Review.Session

/-!
The coordination payloads exchanged in a wiki's room. Every kind names its wiki;
four kinds also name an actor, which the server may rewrite to the session's.
-/
namespace SP42.Coordination

open SP42.Review (ReviewSessionSnapshot)

inductive Action where
  | rollback
  | revert
  | warn
  | report
  | markPatrolled
  deriving DecidableEq, Repr

structure ReviewSignal where
  wikiId : String
  session : ReviewSessionSnapshot
  deriving DecidableEq, Repr

structure ActionBroadcast where
  wikiId : String
  revId : Nat
  action : Action
  actor : String
  deriving DecidableEq, Repr

structure EditClaim where
  wikiId : String
  revId : Nat
  actor : String
  deriving DecidableEq, Repr

structure ScoreDelta where
  wikiId : String
  revId : Nat
  delta : Int
  reason : String
  deriving DecidableEq, Repr

structure PresenceHeartbeat where
  wikiId : String
  actor : String
  activeEditCount : Nat
  deriving DecidableEq, Repr

structure FlaggedEdit where
  wikiId : String
  revId : Nat
  score : Int
  reason : String
  deriving DecidableEq, Repr

structure RaceResolution where
  wikiId : String
  revId : Nat
  winningActor : String
  deriving DecidableEq, Repr

inductive CoordinationMessage where
  | actionBroadcast (action : ActionBroadcast)
  | editClaim (claim : EditClaim)
  | scoreDelta (delta : ScoreDelta)
  | presenceHeartbeat (heartbeat : PresenceHeartbeat)
  | flaggedEdit (flagged : FlaggedEdit)
  | raceResolution (resolution : RaceResolution)
  | reviewSignal (signal : ReviewSignal)
  deriving DecidableEq, Repr

def messageWikiId : CoordinationMessage → String
  | .actionBroadcast action => action.wikiId
  | .editClaim claim => claim.wikiId
  | .scoreDelta delta => delta.wikiId
  | .presenceHeartbeat heartbeat => heartbeat.wikiId
  | .flaggedEdit flagged => flagged.wikiId
  | .raceResolution resolution => resolution.wikiId
  | .reviewSignal signal => signal.wikiId

/-- The actor a message speaks for, in the four kinds that have one. -/
def messageActor : CoordinationMessage → Option String
  | .actionBroadcast action => some action.actor
  | .editClaim claim => some claim.actor
  | .presenceHeartbeat heartbeat => some heartbeat.actor
  | .raceResolution resolution => some resolution.winningActor
  | _ => none

/-- The rewrite of an authenticated socket's message to its session's username. -/
def rewriteActor (actor : String) : CoordinationMessage → CoordinationMessage
  | .actionBroadcast action => .actionBroadcast { action with actor := actor }
  | .editClaim claim => .editClaim { claim with actor := actor }
  | .presenceHeartbeat presence => .presenceHeartbeat { presence with actor := actor }
  | .raceResolution resolution => .raceResolution { resolution with winningActor := actor }
  | other => other

theorem messageActor_rewriteActor (actor : String) (m : CoordinationMessage) :
    messageActor (rewriteActor actor m) = (messageActor m).map fun _ => actor := by
  cases m <;> rfl

end SP42.Coordination

/-!
The deterministic reducer of a room's messages, shared by the server and its
clients. Claims and resolutions are kept by revision, presence by actor; a
message of another wiki is refused and changes nothing.
-/
namespace SP42.Coordination

structure CoordinationState where
  wikiId : String
  claims : Std.ExtTreeMap Nat EditClaim
  presence : Std.ExtTreeMap String PresenceHeartbeat
  flaggedEdits : Std.ExtTreeMap Nat FlaggedEdit
  scoreDeltas : Std.ExtTreeMap Nat ScoreDelta
  raceResolutions : Std.ExtTreeMap Nat RaceResolution
  recentActions : List ActionBroadcast

structure CoordinationStateSummary where
  wikiId : String
  claims : List EditClaim
  presence : List PresenceHeartbeat
  flaggedEdits : List FlaggedEdit
  scoreDeltas : List ScoreDelta
  raceResolutions : List RaceResolution
  recentActions : List ActionBroadcast
  deriving DecidableEq, Repr

def recentActionLimit : Nat := 25

namespace CoordinationState

def new (wikiId : String) : CoordinationState := ⟨wikiId, ∅, ∅, ∅, ∅, ∅, []⟩

def claimFor (state : CoordinationState) (revId : Nat) : Option EditClaim := state.claims[revId]?

def presenceFor (state : CoordinationState) (actor : String) : Option PresenceHeartbeat :=
  state.presence[actor]?

def presenceActors (state : CoordinationState) : List String := state.presence.keys

def removePresence (state : CoordinationState) (actor : String) : CoordinationState × Bool :=
  ({ state with presence := state.presence.erase actor }, state.presence.contains actor)

def flaggedEdit (state : CoordinationState) (revId : Nat) : Option FlaggedEdit :=
  state.flaggedEdits[revId]?

def scoreDelta (state : CoordinationState) (revId : Nat) : Option ScoreDelta :=
  state.scoreDeltas[revId]?

def raceResolution (state : CoordinationState) (revId : Nat) : Option RaceResolution :=
  state.raceResolutions[revId]?

def applyEditClaim (state : CoordinationState) (claim : EditClaim) : CoordinationState :=
  if (state.raceResolution claim.revId).all fun resolution =>
      resolution.winningActor == claim.actor then
    { state with claims := state.claims.insert claim.revId claim }
  else state

def applyPresenceHeartbeat (state : CoordinationState) (heartbeat : PresenceHeartbeat) :
    CoordinationState :=
  if heartbeat.activeEditCount = 0 then
    { state with presence := state.presence.erase heartbeat.actor }
  else { state with presence := state.presence.insert heartbeat.actor heartbeat }

/-- The deltas of a revision add up, and their reasons are kept in order. -/
def applyScoreDelta (state : CoordinationState) (delta : ScoreDelta) : CoordinationState :=
  let merged := match state.scoreDelta delta.revId with
    | some current =>
        { current with
          delta := i32SaturatingAdd current.delta delta.delta
          reason := current.reason ++ " | " ++ delta.reason }
    | none => delta
  { state with scoreDeltas := state.scoreDeltas.insert delta.revId merged }

def applyRaceResolution (state : CoordinationState) (resolution : RaceResolution) :
    CoordinationState :=
  { state with
    claims := state.claims.insert resolution.revId
      ⟨resolution.wikiId, resolution.revId, resolution.winningActor⟩
    raceResolutions := state.raceResolutions.insert resolution.revId resolution }

def applyActionBroadcast (state : CoordinationState) (action : ActionBroadcast) :
    CoordinationState :=
  let actions := state.recentActions ++ [action]
  { state with recentActions := actions.drop (actions.length - recentActionLimit) }

/-- Fold a message into the state; `false` is a message of another wiki. -/
def apply (state : CoordinationState) (message : CoordinationMessage) : CoordinationState × Bool :=
  if messageWikiId message ≠ state.wikiId then (state, false)
  else match message with
    | .editClaim claim => (state.applyEditClaim claim, true)
    | .presenceHeartbeat heartbeat => (state.applyPresenceHeartbeat heartbeat, true)
    | .flaggedEdit flagged =>
        ({ state with flaggedEdits := state.flaggedEdits.insert flagged.revId flagged }, true)
    | .scoreDelta delta => (state.applyScoreDelta delta, true)
    | .raceResolution resolution => (state.applyRaceResolution resolution, true)
    | .actionBroadcast action => (state.applyActionBroadcast action, true)
    -- the signal is a hint to fetch again; the review store stays the source of truth
    | .reviewSignal _ => (state, true)

/-- Fold messages in order and count the accepted ones. -/
def applyMany (state : CoordinationState) (messages : List CoordinationMessage) :
    CoordinationState × Nat :=
  messages.foldl (fun (state, count) message =>
    let (state, applied) := state.apply message
    (state, count + if applied then 1 else 0)) (state, 0)

/-- The values come in the order of their keys. -/
def summary (state : CoordinationState) : CoordinationStateSummary where
  wikiId := state.wikiId
  claims := state.claims.toList.map Prod.snd
  presence := state.presence.toList.map Prod.snd
  flaggedEdits := state.flaggedEdits.toList.map Prod.snd
  scoreDeltas := state.scoreDeltas.toList.map Prod.snd
  raceResolutions := state.raceResolutions.toList.map Prod.snd
  recentActions := state.recentActions

end CoordinationState

section Apply

variable (state : CoordinationState) (message : CoordinationMessage)

theorem apply_foreign (h : messageWikiId message ≠ state.wikiId) :
    state.apply message = (state, false) := by
  unfold CoordinationState.apply
  rw [if_pos h]

@[simp] theorem apply_wikiId : (state.apply message).1.wikiId = state.wikiId := by
  unfold CoordinationState.apply
  split
  · rfl
  · cases message with
    | editClaim claim =>
        simp only [CoordinationState.applyEditClaim]
        split <;> rfl
    | presenceHeartbeat heartbeat =>
        simp only [CoordinationState.applyPresenceHeartbeat]
        split <;> rfl
    | _ => rfl

theorem apply_own (h : messageWikiId message = state.wikiId) : (state.apply message).2 = true := by
  unfold CoordinationState.apply
  rw [if_neg (not_not.mpr h)]
  cases message <;> rfl

/-- A heartbeat of the wiki decides its actor's presence, and no other message touches any. -/
theorem apply_presence (actor : String) :
    (state.apply message).1.presence[actor]? = match message with
      | .presenceHeartbeat heartbeat =>
        if heartbeat.wikiId = state.wikiId ∧ heartbeat.actor = actor then
          if heartbeat.activeEditCount = 0 then none else some heartbeat
        else state.presence[actor]?
      | _ => state.presence[actor]? := by
  by_cases own : messageWikiId message = state.wikiId
  · cases message with
    | presenceHeartbeat heartbeat =>
        have wiki : heartbeat.wikiId = state.wikiId := own
        by_cases gone : heartbeat.activeEditCount = 0
        · by_cases same : heartbeat.actor = actor <;>
            simp [CoordinationState.apply, CoordinationState.applyPresenceHeartbeat, messageWikiId,
              wiki, gone, same, Std.ExtTreeMap.getElem?_erase]
        · by_cases same : heartbeat.actor = actor <;>
            simp [CoordinationState.apply, CoordinationState.applyPresenceHeartbeat, messageWikiId,
              wiki, gone, same, Std.ExtTreeMap.getElem?_insert]
    | editClaim claim =>
        simp only [CoordinationState.apply, CoordinationState.applyEditClaim, own, ne_eq,
          not_true_eq_false, if_false]
        split <;> rfl
    | _ => simp [CoordinationState.apply, own, CoordinationState.applyScoreDelta,
        CoordinationState.applyRaceResolution, CoordinationState.applyActionBroadcast]
  · rw [apply_foreign state message own]
    cases message with
    | presenceHeartbeat heartbeat =>
        have foreign : heartbeat.wikiId ≠ state.wikiId := own
        simp [foreign]
    | _ => rfl

end Apply

end SP42.Coordination

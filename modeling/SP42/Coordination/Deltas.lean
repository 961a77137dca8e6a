import SP42.Coordination.Reducer
import SP42.Lib.Saturation

/-!
The score delta a room has for a revision, and when the order of the messages decides it.
-/
namespace SP42.Coordination

section Accumulated

/-- What a message adds to the delta of a revision in a wiki's room. -/
def deltaOf (wikiId : String) (revId : Nat) : CoordinationMessage → Option Int
  | .scoreDelta delta =>
      if delta.wikiId = wikiId ∧ delta.revId = revId then some delta.delta else none
  | _ => none

def CoordinationState.accumulated (state : CoordinationState) (revId : Nat) : Option Int :=
  (state.scoreDelta revId).map ScoreDelta.delta

/-- A delta of the wire is an `i32`. -/
def Typed (message : CoordinationMessage) : Prop :=
  ∀ delta, message = .scoreDelta delta → i32Min ≤ delta.delta ∧ delta.delta ≤ i32Max

/-- The delta after some more; the first one is stored as it is. -/
def addAll : Option Int → List Int → Option Int
  | some delta, deltas => some (Saturation.total i32Min i32Max delta deltas)
  | none, [] => none
  | none, delta :: deltas => some (Saturation.total i32Min i32Max delta deltas)

theorem addAll_append (held : Option Int) (deltas more : List Int) :
    addAll held (deltas ++ more) = addAll (addAll held deltas) more := by
  cases held with
  | some delta => exact congrArg some (Saturation.total_append deltas more)
  | none =>
      cases deltas with
      | nil => rfl
      | cons delta deltas => exact congrArg some (Saturation.total_append deltas more)

theorem addAll_nil (held : Option Int) : addAll held [] = held := by
  cases held <;> rfl

theorem applyScoreDelta_accumulated (state : CoordinationState) (revId : Nat) (delta : ScoreDelta) :
    (state.applyScoreDelta delta).accumulated revId =
      addAll (state.accumulated revId) (if delta.revId = revId then [delta.delta] else []) := by
  by_cases same : delta.revId = revId
  · subst same
    rw [if_pos rfl]
    unfold CoordinationState.applyScoreDelta CoordinationState.accumulated
    cases stored : state.scoreDelta delta.revId <;> simp [CoordinationState.scoreDelta, addAll,
      Saturation.total, Saturation.add, i32SaturatingAdd]
  · rw [if_neg same, addAll_nil]
    simp [CoordinationState.applyScoreDelta, CoordinationState.accumulated,
      CoordinationState.scoreDelta, Std.ExtTreeMap.getElem?_insert, same]

/-- Only a delta of the revision touches the revision's delta. -/
theorem apply_accumulated (state : CoordinationState) (revId : Nat) (message : CoordinationMessage) :
    (state.apply message).1.accumulated revId =
      addAll (state.accumulated revId) (deltaOf state.wikiId revId message).toList := by
  have kept : state.accumulated revId = addAll (state.accumulated revId) [] :=
    (addAll_nil _).symm
  by_cases own : messageWikiId message = state.wikiId
  · cases message with
    | scoreDelta delta =>
        have wiki : delta.wikiId = state.wikiId := own
        have applied : (state.apply (.scoreDelta delta)).1 = state.applyScoreDelta delta := by
          unfold CoordinationState.apply
          rw [if_neg (not_not.mpr own)]
        rw [applied, applyScoreDelta_accumulated]
        congr 1
        by_cases same : delta.revId = revId <;> simp [deltaOf, wiki, same]
    | editClaim claim =>
        unfold CoordinationState.apply CoordinationState.applyEditClaim
        rw [if_neg (not_not.mpr own)]
        dsimp only
        split <;> exact kept
    | presenceHeartbeat heartbeat =>
        unfold CoordinationState.apply CoordinationState.applyPresenceHeartbeat
        rw [if_neg (not_not.mpr own)]
        dsimp only
        split <;> exact kept
    | _ =>
        unfold CoordinationState.apply
        rw [if_neg (not_not.mpr own)]
        exact kept
  · rw [apply_foreign state message own]
    cases message with
    | scoreDelta delta =>
        have foreign : ¬ (delta.wikiId = state.wikiId ∧ delta.revId = revId) := fun both => own both.1
        have nothing : deltaOf state.wikiId revId (.scoreDelta delta) = none := if_neg foreign
        rw [nothing]
        exact kept
    | _ => exact kept

/-- After a run the delta is what its deltas of the revision add up to, in their order. -/
theorem run_accumulated (state : CoordinationState) (revId : Nat)
    (messages : List CoordinationMessage) :
    (Run.final CoordinationState.apply state messages).accumulated revId =
      addAll (state.accumulated revId) (messages.filterMap (deltaOf state.wikiId revId)) := by
  induction messages generalizing state with
  | nil => exact (addAll_nil _).symm
  | cons message messages ih =>
      have first := apply_accumulated state revId message
      calc (Run.final CoordinationState.apply state (message :: messages)).accumulated revId
          = addAll ((state.apply message).1.accumulated revId)
              (messages.filterMap (deltaOf state.wikiId revId)) := by
            rw [← apply_wikiId state message]
            exact ih (state.apply message).1
        _ = addAll (state.accumulated revId)
              ((message :: messages).filterMap (deltaOf state.wikiId revId)) := by
            rw [first, ← addAll_append]
            cases added : deltaOf state.wikiId revId message <;> simp [added]

end Accumulated

section Orders

variable {wikiId : String} {revId : Nat}

/-- The delta a new room has for the revision after some messages. -/
def roomDelta (wikiId : String) (revId : Nat) (messages : List CoordinationMessage) : Option Int :=
  ((CoordinationState.new wikiId).applyMany messages).1.accumulated revId

theorem typed_deltaOf {message : CoordinationMessage} (typed : Typed message) {delta : Int}
    (adds : deltaOf wikiId revId message = some delta) : i32Min ≤ delta ∧ delta ≤ i32Max := by
  unfold deltaOf at adds
  split at adds
  · next scored =>
      split at adds
      · cases adds
        exact typed scored rfl
      · cases adds
  · cases adds

theorem roomDelta_eq {messages : List CoordinationMessage}
    (typed : ∀ message ∈ messages, Typed message) :
    roomDelta wikiId revId messages =
      if messages.filterMap (deltaOf wikiId revId) = [] then none
      else some (Saturation.total i32Min i32Max 0 (messages.filterMap (deltaOf wikiId revId))) := by
  have empty : (CoordinationState.new wikiId).accumulated revId = none := by
    simp [CoordinationState.new, CoordinationState.accumulated, CoordinationState.scoreDelta]
  have added : roomDelta wikiId revId messages =
      addAll none (messages.filterMap (deltaOf wikiId revId)) := by
    unfold roomDelta
    rw [applyMany_eq, run_accumulated, empty]
    rfl
  rw [added]
  cases deltas : messages.filterMap (deltaOf wikiId revId) with
  | nil => rfl
  | cons delta rest =>
      -- the first delta is in range, so that adding it to zero does not change it
      obtain ⟨message, member, adds⟩ : ∃ message ∈ messages, deltaOf wikiId revId message = some delta :=
        List.mem_filterMap.mp (deltas ▸ List.mem_cons_self)
      obtain ⟨above, below⟩ := typed_deltaOf (typed message member) adds
      have first : Saturation.add i32Min i32Max 0 delta = delta := by
        unfold Saturation.add
        omega
      rw [if_neg (List.cons_ne_nil _ _)]
      exact congrArg (fun start => some (Saturation.total i32Min i32Max start rest)) first.symm

end Orders

section Examples

/-- A delta of revision 7. -/
def scored (delta : Int) : CoordinationMessage := .scoreDelta ⟨"frwiki", 7, delta, "r"⟩

theorem typed_scored {deltas : List Int} (typed : ∀ delta ∈ deltas, i32Min ≤ delta ∧ delta ≤ i32Max) :
    ∀ message ∈ deltas.map scored, Typed message := by
  intro message member
  obtain ⟨delta, listed, rfl⟩ := List.mem_map.mp member
  intro stored same
  cases same
  exact typed delta listed

end Examples

end SP42.Coordination

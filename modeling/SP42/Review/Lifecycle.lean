import SP42.Lib.Run
import SP42.Review.Session

/-!
The routes' use of a stored session: the reopen gate with its conflict response, the
open-or-resume decision, and the drain behind a poll, where `none` is a page with no stored
session. The calls are one type, so that a run is a list of them. The queue of the operator's
feedback is a first-in first-out stock, and the balance of one call is that of a whole run.
-/
namespace SP42.Review

/-- A refusal of a route: its HTTP status and the two fields of its body. -/
structure RouteError where
  status : Nat
  error : String
  code : String
  deriving DecidableEq, Repr

def reopenGateError (session : ReviewSession) (reopenRequested : Bool) (title : String) :
    Except RouteError Unit :=
  match session.gateReopen reopenRequested with
  | .error _ => .error
      { status := 409
        error := "the operator ended the review of " ++ title ++ "; do not reopen uninvited — " ++
          "pass reopen=true only when the operator asks for further review"
        code := "review-session-operator-ended" }
  | .ok () => .ok ()

/-- Resume the stored session after the gate; without one there is nothing to resume. -/
def openOrResume (entry : Option ReviewSession) (reopenRequested : Bool) (title : String)
    (revId : Nat) (nowMs : Int) :
    Option ReviewSession × Except RouteError (Option ReviewSessionSnapshot) :=
  match entry with
  | none => (none, .ok none)
  | some session =>
    match reopenGateError session reopenRequested title with
    | .error refused => (some session, .error refused)
    | .ok () =>
      let session := session.resume revId nowMs
      (some session, .ok (some session.snapshot))

/-- Drain the stored session; the title is read from it. -/
def drainFeedback (entry : Option ReviewSession) (nowMs : Int) :
    Option ReviewSession × Option (ReviewFeedbackTake × String) :=
  match entry with
  | none => (none, none)
  | some session =>
    let (session, take) := session.takeFeedback nowMs
    (some session, some (take, session.title))

def reviewSessionContractVersion : Nat := 1

structure ReviewPollResponse where
  contractVersion : Nat
  status : ReviewPollStatus
  prompts : List ReviewPrompt
  sessionEnded : Bool
  endedBy : Option ReviewEndedBy
  nextStep : String
  deriving DecidableEq, Repr

def pollResponse (take : ReviewFeedbackTake) (title : String) : ReviewPollResponse :=
  let status := pollStatus take
  let nextStep := pollNextStep take title
  let (prompts, sessionEnded, endedBy) : List ReviewPrompt × Bool × Option ReviewEndedBy :=
    match take with
    | .waiting => ([], false, none)
    | .feedback prompts sessionEnded endedBy => (prompts, sessionEnded, endedBy)
    | .ended endedBy => ([], true, some endedBy)
  ⟨reviewSessionContractVersion, status, prompts, sessionEnded, endedBy, nextStep⟩

def missingPollResponse : ReviewPollResponse where
  contractVersion := reviewSessionContractVersion
  status := .missing
  prompts := []
  sessionEnded := false
  endedBy := none
  nextStep := "No review session is open for this page. Run `sp42-cli review open` first."

/-- A call that reaches a stored session. -/
inductive ReviewCall where
  | queuePrompts (prompts : List ReviewPrompt) (endSession : Bool) (nowMs : Int)
  | takeFeedback (nowMs : Int)
  | end_ (by_ : ReviewEndedBy) (nowMs : Int)
  | resume (revId : Nat) (nowMs : Int)
  | openOrResume (reopenRequested : Bool) (title : String) (revId : Nat) (nowMs : Int)
  | attachFindings (reportRevId : Nat) (findings : List ReviewFindingMarker) (nowMs : Int)
  | agentReply (text : String) (nowMs : Int)
  deriving DecidableEq, Repr

inductive ReviewAnswer where
  | queued (result : Except SessionEnded Unit)
  | taken (take : ReviewFeedbackTake)
  | opened (result : Except RouteError (Option ReviewSessionSnapshot))
  | attached (result : Except FindingsRevisionMismatch Nat)
  | done
  deriving DecidableEq, Repr

/-- One call on the stored session, with what it answers. -/
def ReviewSession.step (session : ReviewSession) : ReviewCall → ReviewSession × ReviewAnswer
  | .queuePrompts prompts endSession nowMs =>
      let (session, result) := session.queuePrompts prompts endSession nowMs
      (session, .queued result)
  | .takeFeedback nowMs =>
      let (session, take) := session.takeFeedback nowMs
      (session, .taken take)
  | .end_ by_ nowMs => (session.end_ by_ nowMs, .done)
  | .resume revId nowMs => (session.resume revId nowMs, .done)
  | .openOrResume reopenRequested title revId nowMs =>
      let (entry, result) := openOrResume (some session) reopenRequested title revId nowMs
      (entry.getD session, .opened result)
  | .attachFindings reportRevId findings nowMs =>
      let (session, result) := session.attachFindings reportRevId findings nowMs
      (session, .attached result)
  | .agentReply text nowMs => (session.agentReply text nowMs, .done)

/-- Opening a stored session is refused by the gate or resumes it. -/
theorem step_openOrResume (session : ReviewSession) (reopenRequested : Bool) (title : String)
    (revId : Nat) (nowMs : Int) :
    (session.step (.openOrResume reopenRequested title revId nowMs)).1 =
      if session.endedBy = some .operator ∧ reopenRequested = false then session
      else session.resume revId nowMs := by
  by_cases refused : session.endedBy = some .operator ∧ reopenRequested = false <;>
    simp [ReviewSession.step, openOrResume, reopenGateError, ReviewSession.gateReopen, refused]

def ReviewFeedbackTake.prompts : ReviewFeedbackTake → List ReviewPrompt
  | .feedback prompts _ _ => prompts
  | _ => []

/-- The poll response hands over exactly the prompts that were drained. -/
@[simp] theorem pollResponse_prompts (take : ReviewFeedbackTake) (title : String) :
    (pollResponse take title).prompts = take.prompts := by
  cases take <;> rfl

theorem pollResponse_ended_iff (take : ReviewFeedbackTake) (title : String) :
    (pollResponse take title).status = .ended ↔ ∃ endedBy, take = .ended endedBy := by
  cases take <;> simp [pollResponse, pollStatus]

/-- The prompts a call accepted into the queue. -/
def acceptedPrompts : ReviewCall × ReviewAnswer → List ReviewPrompt
  | (.queuePrompts prompts _ _, .queued (.ok _)) => prompts
  | _ => []

/-- The prompts a call handed to the agent. -/
def deliveredPrompts : ReviewCall × ReviewAnswer → List ReviewPrompt
  | (_, .taken take) => take.prompts
  | _ => []

theorem takeFeedback_balance (session : ReviewSession) (nowMs : Int) :
    (session.takeFeedback nowMs).2.prompts ++ (session.takeFeedback nowMs).1.queuedPrompts =
      session.queuedPrompts := by
  unfold ReviewSession.takeFeedback
  by_cases queued : session.queuedPrompts = []
  · cases session.endedBy with
    | none => simp [queued, ReviewFeedbackTake.prompts]
    | some endedBy =>
        by_cases ended : session.status = .ended <;>
          simp [queued, ended, ReviewFeedbackTake.prompts]
  · simp [queued, ReviewFeedbackTake.prompts]

theorem queuePrompts_balance (session : ReviewSession) (prompts : List ReviewPrompt)
    (endSession : Bool) (nowMs : Int) :
    (session.queuePrompts prompts endSession nowMs).1.queuedPrompts =
      session.queuedPrompts ++ acceptedPrompts (.queuePrompts prompts endSession nowMs,
        .queued (session.queuePrompts prompts endSession nowMs).2) := by
  unfold ReviewSession.queuePrompts
  by_cases ended : session.status = .ended <;> simp [ended, acceptedPrompts]

/-- One call delivers from the front of the queue and accepts at its end. -/
theorem step_balance (session : ReviewSession) (call : ReviewCall) :
    deliveredPrompts (call, (session.step call).2) ++ (session.step call).1.queuedPrompts =
      session.queuedPrompts ++ acceptedPrompts (call, (session.step call).2) := by
  cases call with
  | queuePrompts prompts endSession nowMs =>
      exact queuePrompts_balance session prompts endSession nowMs
  | takeFeedback nowMs =>
      have taken := takeFeedback_balance session nowMs
      simpa [ReviewSession.step, deliveredPrompts, acceptedPrompts] using taken
  | end_ by_ nowMs =>
      by_cases ended : session.status = .ended <;>
        simp [ReviewSession.step, ReviewSession.end_, deliveredPrompts, acceptedPrompts, ended]
  | resume revId nowMs => simp [ReviewSession.step, ReviewSession.resume, deliveredPrompts,
      acceptedPrompts]
  | openOrResume reopen title revId nowMs =>
      have kept : (session.step (.openOrResume reopen title revId nowMs)).1.queuedPrompts =
          session.queuedPrompts := by
        rw [step_openOrResume]
        split <;> rfl
      rw [kept]
      simp [ReviewSession.step, deliveredPrompts, acceptedPrompts]
  | attachFindings reportRevId findings nowMs =>
      by_cases stale : reportRevId = session.revId <;>
        simp [ReviewSession.step, ReviewSession.attachFindings, deliveredPrompts, acceptedPrompts,
          stale]
  | agentReply text nowMs => simp [ReviewSession.step, ReviewSession.agentReply, deliveredPrompts,
      acceptedPrompts]

theorem takeFeedback_ended {session : ReviewSession} {nowMs : Int} {endedBy : ReviewEndedBy}
    (h : (session.takeFeedback nowMs).2 = .ended endedBy) : session.queuedPrompts = [] := by
  by_contra queued
  simp [ReviewSession.takeFeedback, queued] at h

/-- Over any run of a session, the delivered batches followed by what is still
queued are the accepted prompts in order, and a poll that reports the end comes
after every accepted prompt was delivered. -/
theorem feedback_exactly_once (wikiId title : String) (revId : Nat) (openedMs : Int)
    (calls : List ReviewCall) :
    let opened := ReviewSession.open_ wikiId title revId openedMs
    let history := Run.trace ReviewSession.step opened calls
    let session := Run.final ReviewSession.step opened calls
    history.flatMap deliveredPrompts ++ session.queuedPrompts =
        history.flatMap acceptedPrompts ∧
      ∀ nowMs endedBy, (session.takeFeedback nowMs).2 = .ended endedBy →
        history.flatMap deliveredPrompts = history.flatMap acceptedPrompts := by
  intro opened history session
  have balance := @Run.conserves _ _ _ _ _ ReviewSession.queuedPrompts _ _ step_balance opened calls
  refine ⟨balance, fun nowMs endedBy h => ?_⟩
  have drained : session.queuedPrompts = [] := takeFeedback_ended h
  have final : history.flatMap deliveredPrompts ++ session.queuedPrompts =
      history.flatMap acceptedPrompts := balance
  rw [drained, List.append_nil] at final
  exact final

end SP42.Review

/-!
The lifecycle of a review session. Status and attribution agree in every
reachable state, the findings on display are those of the last report accepted
for the pinned revision, and a session the operator closed stays closed until
somebody asks for a reopen.
-/
namespace SP42.Review

/-- Status, attribution and queue tell the same story. -/
structure Coherent (session : ReviewSession) : Prop where
  ended : session.status = .ended ↔ session.endedBy.isSome = true
  feedback : session.status = .feedback ↔ session.status ≠ .ended ∧ session.queuedPrompts ≠ []

theorem open_coherent (wikiId title : String) (revId : Nat) (nowMs : Int) :
    Coherent (ReviewSession.open_ wikiId title revId nowMs) :=
  ⟨by simp [ReviewSession.open_], by simp [ReviewSession.open_]⟩

theorem resume_coherent (session : ReviewSession) (revId : Nat) (nowMs : Int) :
    Coherent (session.resume revId nowMs) := by
  by_cases queued : session.queuedPrompts = []
  · exact ⟨by simp [ReviewSession.resume, queued], by simp [ReviewSession.resume, queued]⟩
  · exact ⟨by simp [ReviewSession.resume, queued], by simp [ReviewSession.resume, queued]⟩

section Coherent

variable {session : ReviewSession} (coherent : Coherent session)
include coherent

theorem queuePrompts_coherent (prompts : List ReviewPrompt) (endSession : Bool) (nowMs : Int) :
    Coherent (session.queuePrompts prompts endSession nowMs).1 := by
  by_cases ended : session.status = .ended
  · simpa [ReviewSession.queuePrompts, ended] using coherent
  have unattributed : session.endedBy = none := by
    have := mt coherent.ended.mpr ended
    simpa using this
  cases endSession with
  | true =>
      exact ⟨by simp [ReviewSession.queuePrompts, ended], by simp [ReviewSession.queuePrompts, ended]⟩
  | false =>
      by_cases queued : session.queuedPrompts ++ prompts = []
      · have empty : session.queuedPrompts = [] := (List.append_eq_nil_iff.mp queued).1
        have unheard : session.status ≠ .feedback := fun h => (coherent.feedback.mp h).2 empty
        exact ⟨by simp [ReviewSession.queuePrompts, ended, queued, unattributed],
          by simp [ReviewSession.queuePrompts, ended, queued, unheard]⟩
      · exact ⟨by simp [ReviewSession.queuePrompts, ended, queued, unattributed],
          by simp [ReviewSession.queuePrompts, ended, queued]⟩

theorem takeFeedback_coherent (nowMs : Int) : Coherent (session.takeFeedback nowMs).1 := by
  by_cases queued : session.queuedPrompts = []
  · have kept : (session.takeFeedback nowMs).1 = session := by
      unfold ReviewSession.takeFeedback
      cases session.endedBy <;> simp [queued]
    rw [kept]
    exact coherent
  by_cases ended : session.status = .ended
  · have attributed := coherent.ended.mp ended
    exact ⟨by simp [ReviewSession.takeFeedback, queued, ended, attributed],
      by simp [ReviewSession.takeFeedback, queued, ended]⟩
  · have unattributed : session.endedBy = none := by
      have := mt coherent.ended.mpr ended
      simpa using this
    exact ⟨by simp [ReviewSession.takeFeedback, queued, ended, unattributed],
      by simp [ReviewSession.takeFeedback, queued, ended]⟩

theorem end_coherent (by_ : ReviewEndedBy) (nowMs : Int) : Coherent (session.end_ by_ nowMs) := by
  by_cases ended : session.status = .ended
  · simpa [ReviewSession.end_, ended] using coherent
  · exact ⟨by simp [ReviewSession.end_, ended], by simp [ReviewSession.end_, ended]⟩

theorem attachFindings_coherent (reportRevId : Nat) (findings : List ReviewFindingMarker)
    (nowMs : Int) : Coherent (session.attachFindings reportRevId findings nowMs).1 := by
  by_cases stale : reportRevId = session.revId
  · exact ⟨by simpa [ReviewSession.attachFindings, stale] using coherent.ended,
      by simpa [ReviewSession.attachFindings, stale] using coherent.feedback⟩
  · simpa [ReviewSession.attachFindings, stale] using coherent

theorem step_coherent (call : ReviewCall) : Coherent (session.step call).1 := by
  cases call with
  | queuePrompts prompts endSession nowMs => exact queuePrompts_coherent coherent prompts endSession nowMs
  | takeFeedback nowMs => exact takeFeedback_coherent coherent nowMs
  | end_ by_ nowMs => exact end_coherent coherent by_ nowMs
  | resume revId nowMs => exact resume_coherent session revId nowMs
  | openOrResume reopen title revId nowMs =>
      rw [step_openOrResume]
      split
      · exact coherent
      · exact resume_coherent session revId nowMs
  | attachFindings reportRevId findings nowMs =>
      exact attachFindings_coherent coherent reportRevId findings nowMs
  | agentReply text nowMs => exact ⟨coherent.ended, coherent.feedback⟩

end Coherent

/-- The revision and the markers of a report the session accepted. -/
def acceptedReport : ReviewCall × ReviewAnswer → Option (Nat × List ReviewFindingMarker)
  | (.attachFindings reportRevId findings _, .attached (.ok _)) => some (reportRevId, findings)
  | _ => none

/-- The last report accepted in the history. -/
def latestReport (past : List (ReviewCall × ReviewAnswer)) :
    Option (Nat × List ReviewFindingMarker) := past.reverse.findSome? acceptedReport

/-- The findings on display, if any, are those of the last report, made for the pinned revision. -/
def FindingsCurrent (past : List (ReviewCall × ReviewAnswer)) (session : ReviewSession) : Prop :=
  session.findings = [] ∨ latestReport past = some (session.revId, session.findings)

theorem latestReport_append (past : List (ReviewCall × ReviewAnswer))
    (e : ReviewCall × ReviewAnswer) :
    latestReport (past ++ [e]) = (acceptedReport e).or (latestReport past) := by
  unfold latestReport
  rw [List.reverse_append, List.reverse_singleton, List.singleton_append, List.findSome?_cons]
  cases acceptedReport e <;> rfl

theorem resume_current {past : List (ReviewCall × ReviewAnswer)} {session : ReviewSession}
    (current : FindingsCurrent past session) (revId : Nat) (nowMs : Int) :
    FindingsCurrent past (session.resume revId nowMs) := by
  by_cases same : session.revId = revId
  · simpa [FindingsCurrent, ReviewSession.resume, same] using current
  · exact .inl (by simp [ReviewSession.resume, same])

/-- A call that accepts no report and keeps revision and findings keeps the display current. -/
theorem current_of_same {past : List (ReviewCall × ReviewAnswer)} {session after : ReviewSession}
    {e : ReviewCall × ReviewAnswer} (current : FindingsCurrent past session)
    (silent : acceptedReport e = none) (revId : after.revId = session.revId)
    (findings : after.findings = session.findings) : FindingsCurrent (past ++ [e]) after := by
  unfold FindingsCurrent
  rw [latestReport_append, silent, revId, findings]
  exact current

theorem step_current (past : List (ReviewCall × ReviewAnswer)) (session : ReviewSession)
    (call : ReviewCall) (current : FindingsCurrent past session) :
    FindingsCurrent (past ++ [(call, (session.step call).2)]) (session.step call).1 := by
  cases call with
  | queuePrompts prompts endSession nowMs =>
      by_cases ended : session.status = .ended <;>
        exact current_of_same current rfl (by simp [ReviewSession.step, ReviewSession.queuePrompts,
          ended]) (by simp [ReviewSession.step, ReviewSession.queuePrompts, ended])
  | takeFeedback nowMs =>
      have kept : (session.takeFeedback nowMs).1.revId = session.revId ∧
          (session.takeFeedback nowMs).1.findings = session.findings := by
        unfold ReviewSession.takeFeedback
        by_cases queued : session.queuedPrompts = []
        · cases session.endedBy <;> simp [queued]
        · simp [queued]
      exact current_of_same current rfl kept.1 kept.2
  | end_ by_ nowMs =>
      by_cases ended : session.status = .ended <;>
        exact current_of_same current rfl (by simp [ReviewSession.step, ReviewSession.end_, ended])
          (by simp [ReviewSession.step, ReviewSession.end_, ended])
  | resume revId nowMs =>
      exact current_of_same (resume_current current revId nowMs) rfl rfl rfl
  | openOrResume reopen title revId nowMs =>
      rw [step_openOrResume]
      split
      · exact current_of_same current rfl rfl rfl
      · exact current_of_same (resume_current current revId nowMs) rfl rfl rfl
  | attachFindings reportRevId findings nowMs =>
      by_cases same : reportRevId = session.revId
      · right
        rw [latestReport_append]
        simp [ReviewSession.step, ReviewSession.attachFindings, same, acceptedReport]
      · have silent : acceptedReport (.attachFindings reportRevId findings nowMs,
            (session.step (.attachFindings reportRevId findings nowMs)).2) = none := by
          simp [ReviewSession.step, ReviewSession.attachFindings, same, acceptedReport]
        exact current_of_same current silent
          (by simp [ReviewSession.step, ReviewSession.attachFindings, same])
          (by simp [ReviewSession.step, ReviewSession.attachFindings, same])
  | agentReply text nowMs => exact current_of_same current rfl rfl rfl

/-- A call that is not an explicit request to reopen. -/
def ReviewCall.Uninvited : ReviewCall → Prop
  | .resume _ _ => False
  | .openOrResume reopenRequested _ _ _ => reopenRequested = false
  | _ => True

def ClosedByOperator (session : ReviewSession) : Prop :=
  session.status = .ended ∧ session.endedBy = some .operator

/-- The call offers no prompt, or is refused with the operator's name. -/
def RefusesPrompts (e : ReviewCall × ReviewAnswer) : Prop :=
  ∀ prompts endSession nowMs, e.1 = .queuePrompts prompts endSession nowMs →
    e.2 = .queued (.error ⟨.operator⟩)

theorem step_closed (session : ReviewSession) (call : ReviewCall) (uninvited : call.Uninvited)
    (closed : ClosedByOperator session) : ClosedByOperator (session.step call).1 := by
  obtain ⟨ended, operator⟩ := closed
  cases call with
  | queuePrompts prompts endSession nowMs =>
      simp [ReviewSession.step, ReviewSession.queuePrompts, ClosedByOperator, ended, operator]
  | takeFeedback nowMs =>
      by_cases queued : session.queuedPrompts = [] <;>
        simp [ReviewSession.step, ReviewSession.takeFeedback, ClosedByOperator, queued, ended,
          operator]
  | end_ by_ nowMs =>
      simp [ReviewSession.step, ReviewSession.end_, ClosedByOperator, ended, operator]
  | resume revId nowMs => exact uninvited.elim
  | openOrResume reopen title revId nowMs =>
      have refused : session.endedBy = some .operator ∧ reopen = false := ⟨operator, uninvited⟩
      rw [step_openOrResume, if_pos refused]
      exact ⟨ended, operator⟩
  | attachFindings reportRevId findings nowMs =>
      by_cases same : reportRevId = session.revId <;>
        simp [ReviewSession.step, ReviewSession.attachFindings, ClosedByOperator, same, ended,
          operator]
  | agentReply text nowMs => exact ⟨ended, operator⟩

theorem step_refuses (session : ReviewSession) (call : ReviewCall)
    (closed : ClosedByOperator session) : RefusesPrompts (call, (session.step call).2) := by
  obtain ⟨ended, operator⟩ := closed
  intro prompts endSession nowMs offered
  dsimp only at offered
  rw [offered]
  simp [ReviewSession.step, ReviewSession.queuePrompts, ended, operator]

theorem operator_closes {session : ReviewSession} (unended : session.status ≠ .ended) (nowMs : Int)
    (prompts : List ReviewPrompt) : ClosedByOperator (session.end_ .operator nowMs) ∧
      ClosedByOperator (session.queuePrompts prompts true nowMs).1 := by
  constructor
  · simp [ClosedByOperator, ReviewSession.end_, unended]
  · simp [ClosedByOperator, ReviewSession.queuePrompts, unended]

/-- The lifecycle of a review session, in every state a run can reach. -/
theorem session_lifecycle (wikiId title : String) (revId : Nat) (openedMs : Int)
    (calls : List ReviewCall) :
    let opened := ReviewSession.open_ wikiId title revId openedMs
    let history := Run.trace ReviewSession.step opened calls
    let session := Run.final ReviewSession.step opened calls
    Coherent session ∧ FindingsCurrent history session ∧
      (session.status ≠ .ended → ∀ nowMs prompts,
        ClosedByOperator (session.end_ .operator nowMs) ∧
        ClosedByOperator (session.queuePrompts prompts true nowMs).1) ∧
      (session.endedBy = some .operator → ∀ more : List ReviewCall, (∀ c ∈ more, c.Uninvited) →
        ClosedByOperator (Run.final ReviewSession.step session more) ∧
        ∀ e ∈ Run.trace ReviewSession.step session more, RefusesPrompts e) := by
  intro opened history session
  have coherent : Coherent session :=
    @Run.final_invariant _ _ _ ReviewSession.step (fun _ => True) Coherent
      (fun _ call _ h => step_coherent h call) _ (open_coherent wikiId title revId openedMs) calls
      fun _ _ => trivial
  have current : FindingsCurrent ([] ++ history) session := Run.history_invariant
    (fun past s call h => step_current past s call h) (.inl rfl) calls
  refine ⟨coherent, current, operator_closes, fun operator more uninvited => ?_⟩
  have closed : ClosedByOperator session := ⟨coherent.ended.mpr (by rw [operator]; rfl), operator⟩
  constructor
  · exact Run.final_invariant step_closed closed more uninvited
  · exact Run.trace_invariant step_closed (fun s call _ h => step_refuses s call h) closed more
      uninvited

end SP42.Review

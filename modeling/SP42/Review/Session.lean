import Mathlib.Data.List.Basic
import Mathlib.Tactic.Common

/-!
The pure core of an interactive review session: one record per reviewed page,
the operator's queue of feedback prompts, the findings overlay pinned to a
revision, and who closed the session. Methods of the source that mutate the
session return the new one beside their result.
-/
namespace SP42.Review

inductive ReviewEndedBy where
  | operator
  | agent
  deriving DecidableEq, Repr

inductive ReviewSessionStatus where
  | open_
  | feedback
  | ended
  deriving DecidableEq, Repr

inductive ReviewPromptKind where
  | block
  | text
  | message
  deriving DecidableEq, Repr

structure ReviewAnchor where
  blockOrdinal : Nat
  refId : Option String
  selectedText : Option String
  deriving DecidableEq, Repr

structure ReviewFindingMarker where
  refId : String
  verdict : String
  claim : String
  detail : Option String
  deriving DecidableEq, Repr

structure FindingsRevisionMismatch where
  sessionRev : Nat
  deriving DecidableEq, Repr

structure ReviewPrompt where
  kind : ReviewPromptKind
  prompt : String
  anchor : Option ReviewAnchor
  deriving DecidableEq, Repr

inductive ReviewChatRole where
  | operator
  | agent
  deriving DecidableEq, Repr

structure ReviewChatEntry where
  role : ReviewChatRole
  text : String
  atMs : Int
  deriving DecidableEq, Repr

structure ReviewSession where
  wikiId : String
  title : String
  revId : Nat
  status : ReviewSessionStatus
  queuedPrompts : List ReviewPrompt
  findings : List ReviewFindingMarker
  chat : List ReviewChatEntry
  endedBy : Option ReviewEndedBy
  createdAtMs : Int
  updatedAtMs : Int
  deriving DecidableEq, Repr

/-- The result of draining a session's queued feedback. -/
inductive ReviewFeedbackTake where
  | waiting
  | feedback (prompts : List ReviewPrompt) (sessionEnded : Bool) (endedBy : Option ReviewEndedBy)
  | ended (endedBy : ReviewEndedBy)
  deriving DecidableEq, Repr

structure ReopenRefused where
  deriving DecidableEq, Repr

structure SessionEnded where
  endedBy : ReviewEndedBy
  deriving DecidableEq, Repr

structure ReviewSessionSnapshot where
  wikiId : String
  title : String
  revId : Nat
  status : ReviewSessionStatus
  pendingPrompts : Nat
  findings : Nat
  endedBy : Option ReviewEndedBy
  updatedAtMs : Int
  deriving DecidableEq, Repr

namespace ReviewSession

def open_ (wikiId title : String) (revId : Nat) (nowMs : Int) : ReviewSession where
  wikiId := wikiId
  title := title
  revId := revId
  status := .open_
  queuedPrompts := []
  findings := []
  chat := []
  endedBy := none
  createdAtMs := nowMs
  updatedAtMs := nowMs

/-- A session the operator ended refuses a plain reopen. -/
def gateReopen (session : ReviewSession) (reopenRequested : Bool) : Except ReopenRefused Unit :=
  if session.endedBy = some .operator ∧ reopenRequested = false then .error ⟨⟩ else .ok ()

/-- Open again after the gate; another revision drops the findings of the old one. -/
def resume (session : ReviewSession) (revId : Nat) (nowMs : Int) : ReviewSession :=
  { session with
    status := if session.queuedPrompts = [] then .open_ else .feedback
    endedBy := none
    findings := if session.revId ≠ revId then [] else session.findings
    revId := revId
    updatedAtMs := nowMs }

def attachFindings (session : ReviewSession) (reportRevId : Nat)
    (findings : List ReviewFindingMarker) (nowMs : Int) :
    ReviewSession × Except FindingsRevisionMismatch Nat :=
  if reportRevId ≠ session.revId then (session, .error ⟨session.revId⟩)
  else ({ session with findings := findings, updatedAtMs := nowMs }, .ok findings.length)

def queuePrompts (session : ReviewSession) (prompts : List ReviewPrompt) (endSession : Bool)
    (nowMs : Int) : ReviewSession × Except SessionEnded Unit :=
  if session.status = .ended then
    -- hand-built states without an attribution fall back to the conservative gate
    (session, .error ⟨session.endedBy.getD .operator⟩)
  else
    let queued := session.queuedPrompts ++ prompts
    ({ session with
        queuedPrompts := queued
        status := if endSession then .ended else if queued ≠ [] then .feedback else session.status
        endedBy := if endSession then some .operator else session.endedBy
        updatedAtMs := nowMs }, .ok ())

/-- Drain the queue: prompts queued before an end are delivered before the end is. -/
def takeFeedback (session : ReviewSession) (nowMs : Int) : ReviewSession × ReviewFeedbackTake :=
  if session.queuedPrompts ≠ [] then
    let sessionEnded := decide (session.status = .ended)
    ({ session with
        queuedPrompts := []
        status := if sessionEnded then session.status else .open_
        updatedAtMs := nowMs },
      .feedback session.queuedPrompts sessionEnded session.endedBy)
  else match session.endedBy with
    | some endedBy =>
        (session, if session.status = .ended then .ended endedBy else .waiting)
    | none => (session, .waiting)

def agentReply (session : ReviewSession) (text : String) (nowMs : Int) : ReviewSession :=
  { session with chat := session.chat ++ [⟨.agent, text, nowMs⟩], updatedAtMs := nowMs }

/-- Close the session; the first closer keeps the attribution. -/
def end_ (session : ReviewSession) (by_ : ReviewEndedBy) (nowMs : Int) : ReviewSession :=
  if session.status = .ended then session
  else { session with status := .ended, endedBy := some by_, updatedAtMs := nowMs }

def snapshot (session : ReviewSession) : ReviewSessionSnapshot where
  wikiId := session.wikiId
  title := session.title
  revId := session.revId
  status := session.status
  pendingPrompts := session.queuedPrompts.length
  findings := session.findings.length
  endedBy := session.endedBy
  updatedAtMs := session.updatedAtMs

end ReviewSession

inductive ReviewPollStatus where
  | waiting
  | feedback
  | ended
  | missing
  deriving DecidableEq, Repr

def pollStatus : ReviewFeedbackTake → ReviewPollStatus
  | .waiting => .waiting
  | .feedback _ _ _ => .feedback
  | .ended _ => .ended

def pollNextStep (take : ReviewFeedbackTake) (title : String) : String :=
  match take with
  | .waiting => "No feedback on \"" ++ title ++ "\" yet. Poll again (the wait is safe to re-run; " ++
      "queued feedback is never lost)."
  | .feedback _ false _ => "Apply the operator's feedback on \"" ++ title ++
      "\", then poll again with an agent reply summarizing what changed."
  | .feedback _ true _ => "Final feedback batch: the operator ended the review of \"" ++ title ++
      "\". Apply the feedback and deliver remaining updates in chat; do not reopen unless asked."
  | .ended .operator => "The operator ended the review of \"" ++ title ++
      "\". Stop polling and do not reopen uninvited; deliver any remaining updates in chat."
  | .ended .agent => "Review of \"" ++ title ++
      "\" was ended by the agent. Stop polling; open a new session if further review is needed."

end SP42.Review

import SP42.Actions.Executor

/-!
The execute route: one action of a reviewer, from the checked request to the report and
the log entry.
-/
namespace SP42.Actions

open Citation (HttpResponse)

/-- Goes on with a result, or ends with the error. -/
def chain {ε α β : Type} (first : Acting (Except ε α)) (next : α → Acting (Except ε β)) :
    Acting (Except ε β) := do
  match ← first with
  | .error reason => pure (.error reason)
  | .ok value => next value

/-- What a wiki's configuration says about citation templates. -/
structure WikiConfig where
  wikiId : Text
  citationNeeded : Option Text
  citationConcerns : CitationConcernKind → Option Text

section Execute

variable (library : ActionLibrary) (config : WikiConfig) (date : Text)
  (payload : SessionActionExecutionRequest)

def invalidInput (message : String) : ActionError := codedError message "invalid-input"

def executeRollbackAction : Acting (Except ActionError HttpResponse) :=
  chain (executeFetchToken library .rollback) fun token =>
    executeRollback library (payload.title.getD []) (payload.targetUser.getD []) token
      payload.summary

/-- The revisions a patrol marks: the batch, or the one revision. -/
def patrolRevIds : List Nat :=
  match payload.batchRevIds with
  | some (first :: rest) => first :: rest
  | _ => [payload.revId]

/-- The calls after the first, up to the first that fails. -/
def patrolRest (token : Text) (response : HttpResponse) :
    List Nat → Acting (Except ActionError HttpResponse)
  | [] => pure (.ok response)
  | rid :: rest =>
      chain (executePatrol library rid token) fun response => patrolRest token response rest

def patrolBatch (token : Text) : List Nat → Acting (Except ActionError HttpResponse)
  | [] => pure (.error (invalidInput "rev_ids is empty"))
  | first :: rest =>
      chain (executePatrol library first token) fun response =>
        patrolRest library token response rest

def executePatrolAction : Acting (Except ActionError HttpResponse) :=
  chain (executeFetchToken library .patrol) fun token =>
    patrolBatch library token (patrolRevIds payload)

def executeUndoAction : Acting (Except ActionError HttpResponse) :=
  chain (executeFetchToken library .csrf) fun token =>
    match payload.undoAfterRevId with
    | none => pure (.error (invalidInput "undo actions require undo_after_rev_id to be present"))
    | some undoAfterRevId =>
        executeUndo library (payload.title.getD []) payload.revId undoAfterRevId token
          payload.summary

/-- The patrol after a save, whose failure is only logged. -/
def patrolOriginalEditIfPossible (revId : Nat) : Acting Unit := do
  match ← executeFetchToken library .patrol with
  | .error _ => pure ()
  | .ok token => do
      let _ ← executePatrol library revId token
      pure ()

def saveRequest (title text token summary : Text) (revId : Nat) : WikiPageSaveRequest where
  title := title
  text := text
  token := token
  summary := some summary
  baserevid := some revId
  tags := []
  watchlist := none
  createOnly := false
  minor := false

/-- The save of a content action, and the patrol behind it. -/
def saveAndPatrol (title text token summary : Text) : Acting (Except ActionError HttpResponse) :=
  chain (executeWikiPageSave library (saveRequest title text token summary payload.revId))
    fun saved => do
      patrolOriginalEditIfPossible library payload.revId
      pure (.ok saved)

def citationNeededTemplate : Except ActionError Text :=
  match config.citationNeeded with
  | some template => .ok template
  | none =>
      .error
        { message := "citation-needed tagging is not configured for wiki ".toList ++ config.wikiId
          code := some "citation-needed-not-enabled".toList
          httpStatus := some 400
          retryable := false }

def textParam (selectedText : Text) : Text :=
  if '=' ∈ selectedText then "1=".toList ++ selectedText else selectedText

def applyCitationTemplate (pageText selectedText template : Text) : Except ActionError Text :=
  replaceExactlyOnce pageText selectedText
    (['{', '{'] ++ template ++ '|' :: textParam selectedText ++ "|date=".toList ++ date ++
      ['}', '}'])

def executeTagCitationNeededAction : Acting (Except ActionError HttpResponse) :=
  chain (executeFetchToken library .csrf) fun token =>
    let title := payload.title.getD []
    let selectedText := payload.selectedText.getD []
    if Text.trim selectedText = [] then
      pure (.error (invalidInput "selected_text is required for citation tagging"))
    else
      chain (pure (citationNeededTemplate config)) fun template =>
        chain (fetchPageWikitext library title) fun pageText =>
          chain (pure (applyCitationTemplate date pageText selectedText template)) fun updated =>
            saveAndPatrol library payload title updated token (payload.summary.getD
              ("SP42: ".toList ++ ['{', '{'] ++ template ++ "|date=".toList ++ date ++ ['}', '}']))

def actionErrorFromEditor : Parsoid.WikitextEditorError → ActionError
  | .unavailable message retryable =>
      { message := "wikitext editor unavailable: ".toList ++ message
        code := some "editor-unavailable".toList
        httpStatus := some 502
        retryable := retryable }
  | .missingTarget message =>
      { message := "wikitext edit target missing: ".toList ++ message
        code := some "editor-missing-target".toList
        httpStatus := some 404
        retryable := false }
  | .notConfigured wikiId =>
      { message := "wikitext editing is not configured for wiki \x60".toList ++ wikiId ++ "\x60".toList
        code := some "editor-not-configured".toList
        httpStatus := some 400
        retryable := false }
  | .unsupported message =>
      { message := "unsupported wikitext edit: ".toList ++ message
        code := some "editor-unsupported".toList
        httpStatus := some 400
        retryable := false }

def actionErrorFromRefusal (refusal : Parsoid.WikitextEditRefusal) : ActionError where
  message := match refusal with
    | .ordinalOutOfRange requested available =>
        "node ordinal ".toList ++ Text.ofNat requested ++ " is out of range; the revision has ".toList ++
          Text.ofNat available ++ " node(s) of that kind".toList
    | .nodeDrifted expected found =>
        "node anchor drifted; expected \x60".toList ++ expected ++ "\x60 but found \x60".toList ++ found ++
          "\x60".toList
  code := some (match refusal with
    | .ordinalOutOfRange _ _ => "node-out-of-range".toList
    | .nodeDrifted _ _ => "node-drift".toList)
  httpStatus := some 409
  retryable := false

def replaceNodeOrRefuse (title : Text) (locator : Parsoid.WikitextNodeLocator)
    (replacement : Text) : Acting (Except ActionError Text) := do
  let answer ← Dialogue.put (.replaceNode title payload.revId locator replacement)
  pure (match answer.node with
    | .error error => .error (actionErrorFromEditor error)
    | .ok (.applied newWikitext) => .ok newWikitext
    | .ok (.refused refusal) => .error (actionErrorFromRefusal refusal))

def nodeAnchoredReplacement (title : Text) (locator : Parsoid.WikitextNodeLocator) :
    Acting (Except ActionError Text) :=
  match payload.replacementText with
  | none =>
      pure (.error
        { invalidInput "replacement_text is required for node-anchored inline edit" with
          httpStatus := some 400 })
  | some replacement => replaceNodeOrRefuse payload title locator replacement

def inlineText (title : Text) : Acting (Except ActionError Text) :=
  match payload.nodeLocator with
  | some locator => nodeAnchoredReplacement payload title locator
  | none =>
      let original := payload.selectedText.getD []
      let replacement := payload.replacementText.getD []
      if Text.trim original = [] then
        pure (.error (invalidInput "selected_text (original) is required for inline edit"))
      else
        chain (fetchPageWikitext library title) fun pageText =>
          pure (replaceExactlyOnce pageText original replacement)

def executeInlineEditAction : Acting (Except ActionError HttpResponse) :=
  chain (executeFetchToken library .csrf) fun token =>
    let title := payload.title.getD []
    chain (inlineText library payload title) fun updated =>
      saveAndPatrol library payload title updated token
        (payload.summary.getD "SP42: inline edit".toList)

def citationConcernTemplate (kind : CitationConcernKind) : Except ActionError Text :=
  match config.citationConcerns kind with
  | some template => .ok template
  | none =>
      .error
        { message := "flag citation (".toList ++ kind.label ++ ") is not configured for wiki ".toList ++
            config.wikiId
          code := some "citation-concern-not-enabled".toList
          httpStatus := some 400
          retryable := false }

def reasonParam (reason : Option Text) : Text :=
  match reason.map Text.trim with
  | some (c :: value) => "|reason=".toList ++ c :: value
  | _ => []

def applyConcernTemplate (pageText selectedText template : Text) : Except ActionError Text :=
  replaceExactlyOnce pageText selectedText
    (['{', '{'] ++ template ++ '|' :: textParam selectedText ++ "|date=".toList ++ date ++
      reasonParam payload.reason ++ ['}', '}'])

def executeFlagCitationAction : Acting (Except ActionError HttpResponse) :=
  match payload.concernKind with
  | none => pure (.error (invalidInput "concern_kind is required for flag citation"))
  | some .failedVerification =>
      pure (.error
        { message := "flag citation (failed-verification) needs an insert-after-<ref> anchor, ".toList ++
            "not implemented yet; only partial-support flags ship in this release".toList
          code := some "citation-concern-anchor-not-implemented".toList
          httpStatus := some 501
          retryable := false })
  | some kind =>
      let title := payload.title.getD []
      let selectedText := payload.selectedText.getD []
      if Text.trim selectedText = [] then
        pure (.error (invalidInput "selected_text is required for flag citation"))
      else
        chain (pure (citationConcernTemplate config kind)) fun template =>
          chain (executeFetchToken library .csrf) fun token =>
            chain (fetchPageWikitext library title) fun pageText =>
              chain (pure (applyConcernTemplate date payload pageText selectedText template))
                fun updated =>
                  saveAndPatrol library payload title updated token (payload.summary.getD
                    ("SP42: ".toList ++ ['{', '{'] ++ template ++ "|date=".toList ++ date ++
                      "\x7d\x7d (".toList ++ kind.label ++ ")".toList))

def executeSessionAction : Acting (Except ActionError HttpResponse) :=
  match payload.kind with
  | .rollback => executeRollbackAction library payload
  | .patrol => executePatrolAction library payload
  | .undo => executeUndoAction library payload
  | .tagCitationNeeded => executeTagCitationNeededAction library config date payload
  | .inlineEdit => executeInlineEditAction library payload
  | .flagCitation => executeFlagCitationAction library config date payload

end Execute

section Report

structure SessionActionExecutionResponse where
  wikiId : Text
  kind : SessionActionKind
  revId : Nat
  accepted : Bool
  actor : Option Text
  httpStatus : Option Nat
  apiCode : Option Text
  retryable : Bool
  warnings : List Text
  result : Option Text
  message : Option Text

/-- Who asks, and when. -/
structure ActionContext where
  username : Option Text
  csrf : Except HttpError Unit
  capabilities : Capabilities
  config : Except HttpError WikiConfig
  date : Text
  executedAtMs : Int

structure ActionLogOutcome where
  accepted : Bool
  httpStatus : Option Nat
  apiCode : Option Text
  retryable : Bool
  warnings : List Text
  result : Option Text
  responsePreview : Option Text
  error : Option Text

variable (library : ActionLibrary) (payload : SessionActionExecutionRequest)

def buildActionLogEntry (executedAtMs : Int) (outcome : ActionLogOutcome) :
    ActionExecutionLogEntry where
  executedAtMs := executedAtMs
  wikiId := payload.wikiId
  kind := payload.kind
  revId := payload.revId
  title := payload.title
  targetUser := payload.targetUser
  summary := payload.summary
  accepted := outcome.accepted
  httpStatus := outcome.httpStatus
  apiCode := outcome.apiCode
  retryable := outcome.retryable
  warnings := outcome.warnings
  result := outcome.result
  responsePreview := outcome.responsePreview
  error := outcome.error

def noChange : Text := "no change — the edit may have already been reverted".toList

def truncateResponseBody (body : List UInt8) : Text := truncated 1000 (library.utf8Lossy body)

def actionResponsePayload (actor : Text) (response : HttpResponse)
    (summary : ActionResponseSummary) (responsePreview : Text) : SessionActionExecutionResponse where
  wikiId := payload.wikiId
  kind := payload.kind
  revId := payload.revId
  accepted := !summary.nochange
  actor := some actor
  httpStatus := some response.status
  apiCode := summary.apiCode
  retryable := summary.retryable
  warnings := if summary.nochange then summary.warnings ++ [noChange] else summary.warnings
  result := summary.result
  message :=
    if summary.nochange then some noChange
    else some ("MediaWiki HTTP ".toList ++ Text.ofNat response.status ++ ' ' :: responsePreview)

/-- The status of an error response; what is no status becomes a bad gateway. -/
def errorStatus (httpStatus : Option Nat) : Nat :=
  match httpStatus with
  | some status => if 100 ≤ status ∧ status < 1000 then status else 502
  | none => 502

def actionErrorResponse (error : ActionError) : HttpError where
  status := errorStatus error.httpStatus
  error := "wiki action failed: ".toList ++ error.message
  code := error.code
  httpStatus := error.httpStatus
  retryable := some error.retryable
  auditWarning := none

def recordActionSideEffects (entry : ActionExecutionLogEntry) : Acting (Option Text) := do
  let answer ← Dialogue.put (.record entry)
  pure answer.auditWarning

def handleActionSuccess (actor : Text) (executedAtMs : Int) (response : HttpResponse) :
    Acting (Except HttpError SessionActionExecutionResponse) := do
  let responsePreview := truncateResponseBody library response.body
  match parseActionResponseSummary library response payload.kind.label with
  | .error error => pure (.error (actionErrorResponse error))
  | .ok summary =>
      let report := actionResponsePayload payload actor response summary responsePreview
      if summary.nochange then pure (.ok report)
      else do
        let warning ← recordActionSideEffects (buildActionLogEntry payload executedAtMs
          { accepted := true
            httpStatus := some response.status
            apiCode := summary.apiCode
            retryable := summary.retryable
            warnings := summary.warnings
            result := summary.result
            responsePreview := some responsePreview
            error := none })
        pure (.ok (match warning with
          | some warning =>
              { report with
                warnings := report.warnings ++ ["public audit write failed: ".toList ++ warning] }
          | none => report))

def handleActionFailure (executedAtMs : Int) (error : ActionError) : Acting HttpError := do
  let apiError := actionErrorResponse error
  let warning ← recordActionSideEffects (buildActionLogEntry payload executedAtMs
    { accepted := false
      httpStatus := some (error.httpStatus.getD apiError.status)
      apiCode := error.code
      retryable := error.retryable
      warnings := []
      result := none
      responsePreview := none
      error := some apiError.error })
  pure { apiError with auditWarning := warning }

def postExecuteAction (context : ActionContext) :
    Acting (Except HttpError SessionActionExecutionResponse) :=
  match context.username with
  | none => pure (.error (unauthorizedError "No authenticated bridge session is active."))
  | some actor =>
      chain (pure context.csrf) fun _ =>
        chain (pure (validateActionRequest payload context.capabilities)) fun _ =>
          if payload.kind = .undo ∧ payload.undoAfterRevId = none then
            pure (.error (invalidPayload "undo_after_rev_id is required for undo"))
          else
            chain (pure context.config) fun config => do
              match ← executeSessionAction library config context.date payload with
              | .ok response =>
                  handleActionSuccess library payload actor context.executedAtMs response
              | .error error => do
                  let failed ← handleActionFailure payload context.executedAtMs error
                  pure (.error failed)

end Report

end SP42.Actions

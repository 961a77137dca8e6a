import SP42.Base.Json
import SP42.Citation.Panel
import SP42.Lib.Dialogue
import SP42.Lib.Search
import SP42.Parsoid.NodeEdit

/-!
The request of a reviewer's action and what the server checks before anything is sent.
-/
namespace SP42.Actions

inductive SessionActionKind where
  | rollback
  | patrol
  | undo
  | tagCitationNeeded
  | inlineEdit
  | flagCitation
  deriving DecidableEq

def SessionActionKind.label : SessionActionKind → Text
  | .rollback => "rollback".toList
  | .patrol => "patrol".toList
  | .undo => "undo".toList
  | .tagCitationNeeded => "tag-citation-needed".toList
  | .inlineEdit => "inline-edit".toList
  | .flagCitation => "flag-citation".toList

inductive CitationConcernKind where
  | partialSupport
  | failedVerification
  deriving DecidableEq

def CitationConcernKind.label : CitationConcernKind → Text
  | .partialSupport => "partial-support".toList
  | .failedVerification => "failed-verification".toList

structure SessionActionExecutionRequest where
  wikiId : Text
  kind : SessionActionKind
  revId : Nat
  title : Option Text
  targetUser : Option Text
  undoAfterRevId : Option Nat
  summary : Option Text
  selectedText : Option Text
  batchRevIds : Option (List Nat)
  replacementText : Option Text
  nodeLocator : Option Parsoid.WikitextNodeLocator
  concernKind : Option CitationConcernKind
  reason : Option Text

structure ActionError where
  message : Text
  code : Option Text
  httpStatus : Option Nat
  retryable : Bool
  deriving DecidableEq

/-- A response that is an error: the status and the fields of its body. -/
structure HttpError where
  status : Nat
  error : Text
  code : Option Text
  httpStatus : Option Nat
  retryable : Option Bool
  auditWarning : Option Text

def plainError (status : Nat) (message : String) : HttpError where
  status := status
  error := message.toList
  code := none
  httpStatus := none
  retryable := none
  auditWarning := none

def invalidPayload (message : String) : HttpError := plainError 400 message

def forbiddenError (message : String) : HttpError := plainError 403 message

def unauthorizedError (message : String) : HttpError := plainError 401 message

/-- What the capability report grants. -/
structure Capabilities where
  canPatrol : Bool
  canRollback : Bool
  canUndo : Bool
  canEdit : Bool

section Validation

/-- `is_none_or(str::is_empty)`. -/
def missing (field : Option Text) : Bool := field.all fun text => text.isEmpty

def requireCapability (granted : Bool) (name : String) : Except HttpError Unit :=
  if granted then .ok ()
  else .error (forbiddenError
    ("The authenticated session does not currently have " ++ name ++ " capability on this wiki."))

def require (holds : Bool) (message : String) : Except HttpError Unit :=
  if holds then .ok () else .error (invalidPayload message)

def validatePatrolRequest (payload : SessionActionExecutionRequest) (capabilities : Capabilities) :
    Except HttpError Unit := do
  require (payload.batchRevIds ≠ some []) "batch_rev_ids must be non-empty when present"
  requireCapability capabilities.canPatrol "patrol"

def validateFlagCitationPayload (payload : SessionActionExecutionRequest)
    (capabilities : Capabilities) : Except HttpError Unit := do
  require (!missing payload.title) "title is required for flag citation"
  require (!missing payload.selectedText) "selected_text is required for flag citation"
  require payload.concernKind.isSome "concern_kind is required for flag citation"
  require payload.nodeLocator.isNone "node_locator is not supported for flag citation"
  requireCapability capabilities.canEdit "edit"

def validateTarget (payload : SessionActionExecutionRequest) : Except HttpError Unit :=
  match payload.nodeLocator with
  | some locator => do
      require (Text.trim locator.expectedText ≠ []) "node_locator.expected_text must not be empty"
      require payload.replacementText.isSome
        "replacement_text is required for node-anchored inline edit"
  | none =>
      require (!missing payload.selectedText)
        "selected_text or node_locator is required for inline edit"

def validateActionRequest (payload : SessionActionExecutionRequest)
    (capabilities : Capabilities) : Except HttpError Unit := do
  require (Text.trim payload.wikiId ≠ []) "wiki_id is required"
  require (payload.revId ≠ 0) "rev_id must be non-zero"
  match payload.kind with
  | .rollback => do
      require (!missing payload.title) "title is required for rollback"
      require (!missing payload.targetUser) "target_user is required for rollback"
      requireCapability capabilities.canRollback "rollback"
  | .patrol => validatePatrolRequest payload capabilities
  | .undo => do
      require (!missing payload.title) "title is required for undo"
      require payload.undoAfterRevId.isSome "undo_after_rev_id is required for undo"
      requireCapability capabilities.canUndo "undo"
  | .tagCitationNeeded => do
      require (!missing payload.title) "title is required for citation tagging"
      require (!missing payload.selectedText) "selected_text is required for citation tagging"
      require payload.nodeLocator.isNone "node_locator is not supported for citation tagging"
      requireCapability capabilities.canEdit "edit"
  | .inlineEdit => do
      require (!missing payload.title) "title is required for inline edit"
      validateTarget payload
      requireCapability capabilities.canEdit "edit"
  | .flagCitation => validateFlagCitationPayload payload capabilities

end Validation

end SP42.Actions

/-!
The calls to the wiki: tokens, page text and the writes, and how an answer is checked. The
wiki may answer anything.
-/
namespace SP42.Actions

open Citation (HttpResponse)

inductive TokenKind where
  | rollback
  | patrol
  | csrf
  deriving DecidableEq

def tokenFieldName : TokenKind → String
  | .rollback => "rollbacktoken"
  | .patrol => "patroltoken"
  | .csrf => "csrftoken"

structure WikiPageSaveRequest where
  title : Text
  text : Text
  token : Text
  summary : Option Text
  baserevid : Option Nat
  tags : List Text
  watchlist : Option Text
  createOnly : Bool
  minor : Bool

/-- A request that changes the wiki. -/
inductive Write where
  | rollback (title user token : Text) (summary : Option Text)
  | patrol (revId : Nat) (token : Text)
  | undo (title : Text) (undoRevId undoAfterRevId : Nat) (token : Text) (summary : Option Text)
  | save (request : WikiPageSaveRequest)

structure ActionExecutionLogEntry where
  executedAtMs : Int
  wikiId : Text
  kind : SessionActionKind
  revId : Nat
  title : Option Text
  targetUser : Option Text
  summary : Option Text
  accepted : Bool
  httpStatus : Option Nat
  apiCode : Option Text
  retryable : Bool
  warnings : List Text
  result : Option Text
  responsePreview : Option Text
  error : Option Text

/-- What the server asks of others: the wiki, the node editor and its own records. -/
inductive Call where
  | token (kind : TokenKind)
  | page (title : Text)
  | write (write : Write)
  | replaceNode (title : Text) (revId : Nat) (locator : Parsoid.WikitextNodeLocator)
      (replacement : Text)
  | record (entry : ActionExecutionLogEntry)

structure Answer where
  http : Except Text HttpResponse
  node : Except Parsoid.WikitextEditorError Parsoid.WikitextEditOutcome
  auditWarning : Option Text

abbrev Acting := Dialogue Call Answer

/-- What the server uses of its libraries. -/
structure ActionLibrary where
  fromSlice : List UInt8 → Except Text Json
  shapeError : Json → Text
  utf8Lossy : List UInt8 → Text
  display : Json → Text

section Errors

def actionError (message : Text) : ActionError where
  message := message
  code := none
  httpStatus := none
  retryable := false

def codedError (message code : String) : ActionError where
  message := message.toList
  code := some code.toList
  httpStatus := none
  retryable := false

def isRetryableActionApiError (code : Text) : Bool :=
  ["maxlag", "readonly", "ratelimited", "internal_api_error_DBQueryError",
    "internal_api_error_DBConnectionError", "internal_api_error_Exception", "failed-save"].any
    fun known => known.toList == code

/-- The first characters of a text, with dots where more follow. -/
def truncated (limit : Nat) (text : Text) : Text :=
  if text.length > limit then text.take limit ++ "...".toList else text

def summarizeResponseBody (library : ActionLibrary) (body : List UInt8) : Text :=
  let trimmed := Text.trim (library.utf8Lossy body)
  if trimmed = [] then "empty response body".toList else truncated 120 trimmed

end Errors

section Bodies

/-- The fields of a structure read from JSON: by name from an object, by place from an
array that is not too long. A null is no value. -/
def fieldsOf (size : Nat) : Json → Option (String → Nat → Option Json)
  | .object members => some fun name _ => (members.lookup name).filter (· ≠ .null)
  | .array items =>
      if items.length ≤ size then some fun _ place => items[place]?.filter (· ≠ .null) else none
  | _ => none

/-- An optional string: absent, a string, or a value of the wrong type. -/
def optionalText : Option Json → Option (Option Text)
  | none => some none
  | some (.string text) => some (some text)
  | some _ => none

structure MediaWikiApiError where
  code : Text
  info : Option Text
  details : Option Text

structure MediaWikiActionResponse where
  warnings : Option Json
  error : Option MediaWikiApiError
  rollback : Option Json
  patrol : Option Json
  edit : Option Json

def readApiError (value : Json) : Option MediaWikiApiError := do
  let field ← fieldsOf 3 value
  let code ← (field "code" 0).bind Json.asStr
  let info ← optionalText (field "info" 1)
  let details ← optionalText (field "details" 2)
  some { code, info, details }

def readActionResponse (value : Json) : Option MediaWikiActionResponse := do
  let field ← fieldsOf 5 value
  let error ← match field "error" 1 with
    | none => some none
    | some value => (readApiError value).map some
  some
    { warnings := field "warnings" 0
      error := error
      rollback := field "rollback" 2
      patrol := field "patrol" 3
      edit := field "edit" 4 }

variable (library : ActionLibrary)

def MediaWikiActionResponse.result (response : MediaWikiActionResponse) : Option Text :=
  match response.rollback, response.patrol, response.edit with
  | some rollback, _, _ => some ("rollback=".toList ++ library.display rollback)
  | none, some patrol, _ => some ("patrol=".toList ++ library.display patrol)
  | none, none, some edit => some ("edit=".toList ++ library.display edit)
  | none, none, none => none

mutual

def parseWarningLines : Json → List Text
  | .string line => [line]
  | .array values => values.filterMap Json.asStr
  | .object members => warningLinesOf members
  | value => [library.display value]

def warningLinesOf : List (String × Json) → List Text
  | [] => []
  | (_, value) :: rest => parseWarningLines value ++ warningLinesOf rest

end

structure ActionResponseSummary where
  status : Nat
  warnings : List Text
  result : Option Text
  error : Option Text
  apiCode : Option Text
  retryable : Bool
  nochange : Bool

def apiErrorMessage (actionLabel : Text) (error : MediaWikiApiError) : Text :=
  let failed := actionLabel ++ " failed with API error \x60".toList ++ error.code ++ "\x60".toList
  let message := match error.info with
    | some info => if Text.trim info ≠ [] then failed ++ ": ".toList ++ info else failed
    | none => failed
  match error.details with
  | some details =>
      if Text.trim details ≠ [] then message ++ " (".toList ++ details ++ ")".toList else message
  | none => message

def parseActionResponseSummary (response : HttpResponse) (actionLabel : Text) :
    Except ActionError ActionResponseSummary :=
  let invalid (reason : Text) : ActionError :=
    actionError (actionLabel ++ " response is not valid JSON: ".toList ++ reason)
  match library.fromSlice response.body with
  | .error reason => .error (invalid reason)
  | .ok value =>
      match readActionResponse value with
      | none => .error (invalid (library.shapeError value))
      | some parsed =>
          .ok
            { status := response.status
              warnings := (parsed.warnings.map (parseWarningLines library)).getD []
              result := parsed.result library
              error := parsed.error.map (apiErrorMessage actionLabel)
              apiCode := parsed.error.map MediaWikiApiError.code
              retryable := parsed.error.any fun error => isRetryableActionApiError error.code
              nochange := (parsed.edit.bind (Json.get "nochange")).isSome }

def validateActionResponse (response : HttpResponse) (actionLabel : Text) :
    Except ActionError Unit :=
  match parseActionResponseSummary library response actionLabel with
  | .error reason => .error reason
  | .ok summary =>
      match summary.error with
      | some error =>
          .error
            { message := error
              code := summary.apiCode
              httpStatus := some summary.status
              retryable := summary.retryable }
      | none => .ok ()

/-- `execute_request`, once the answer is there. -/
def checkStatus (actionLabel : Text) (http : Except Text HttpResponse) :
    Except ActionError HttpResponse :=
  match http with
  | .error reason =>
      .error { message := reason, code := none, httpStatus := none, retryable := true }
  | .ok response =>
      if 200 ≤ response.status ∧ response.status < 300 then .ok response
      else
        .error
          { message := actionLabel ++ " failed with HTTP ".toList ++ Text.ofNat response.status ++
              ": ".toList ++ summarizeResponseBody library response.body
            code := none
            httpStatus := some response.status
            retryable := response.status ≥ 500 ∨ response.status = 429 }

/-- The answer to a write, when nothing in it speaks of an error. -/
def checkWrite (actionLabel : Text) (http : Except Text HttpResponse) :
    Except ActionError HttpResponse :=
  match checkStatus library actionLabel http with
  | .error reason => .error reason
  | .ok response => (validateActionResponse library response actionLabel).map fun _ => response

end Bodies

section Requests

def ensure (holds : Bool) (message : String) : Except ActionError Unit :=
  if holds then .ok () else .error (actionError message.toList)

def required (field : Text) (name : String) : Except ActionError Unit :=
  ensure (Text.trim field ≠ []) (name ++ " is required")

def buildRollbackRequest (title user token : Text) (summary : Option Text) :
    Except ActionError Write := do
  required title "title"
  required user "user"
  required token "token"
  .ok (.rollback title user token summary)

def buildPatrolRequest (revId : Nat) (token : Text) : Except ActionError Write := do
  ensure (revId ≠ 0) "rev_id must be non-zero"
  required token "token"
  .ok (.patrol revId token)

def buildUndoRequest (title : Text) (undoRevId undoAfterRevId : Nat) (token : Text)
    (summary : Option Text) : Except ActionError Write := do
  required title "title"
  ensure (undoRevId ≠ 0) "undo_rev_id must be non-zero"
  ensure (undoAfterRevId ≠ 0) "undo_after_rev_id must be non-zero"
  ensure (undoAfterRevId < undoRevId) "undo_rev_id must be newer than undo_after_rev_id"
  required token "token"
  .ok (.undo title undoRevId undoAfterRevId token summary)

def buildWikiPageSaveRequest (request : WikiPageSaveRequest) : Except ActionError Write := do
  required request.title "title"
  required request.text "text"
  required request.token "token"
  .ok (.save request)

variable (library : ActionLibrary)

def executeWrite (actionLabel : Text) (built : Except ActionError Write) :
    Acting (Except ActionError HttpResponse) :=
  match built with
  | .error reason => pure (.error reason)
  | .ok write => do
      let answer ← Dialogue.put (.write write)
      pure (checkWrite library actionLabel answer.http)

def executeRollback (title user token : Text) (summary : Option Text) :
    Acting (Except ActionError HttpResponse) :=
  executeWrite library "rollback".toList (buildRollbackRequest title user token summary)

def executePatrol (revId : Nat) (token : Text) : Acting (Except ActionError HttpResponse) :=
  executeWrite library "patrol".toList (buildPatrolRequest revId token)

def executeUndo (title : Text) (undoRevId undoAfterRevId : Nat) (token : Text)
    (summary : Option Text) : Acting (Except ActionError HttpResponse) :=
  executeWrite library "undo".toList (buildUndoRequest title undoRevId undoAfterRevId token summary)

def executeWikiPageSave (request : WikiPageSaveRequest) :
    Acting (Except ActionError HttpResponse) :=
  executeWrite library "page save".toList (buildWikiPageSaveRequest request)

def parseTokenResponse (kind : TokenKind) (response : HttpResponse) : Except ActionError Text :=
  let invalid (reason : Text) : ActionError :=
    actionError ("token response is not valid JSON: ".toList ++ reason)
  let read (value : Json) : Option (Option Text) := do
    let top ← fieldsOf 1 value
    let query ← (top "query" 0).bind (fieldsOf 1)
    let tokens ← (query "tokens" 0).bind (fieldsOf 3)
    let rollback ← optionalText (tokens "rollbacktoken" 0)
    let patrol ← optionalText (tokens "patroltoken" 1)
    let csrf ← optionalText (tokens "csrftoken" 2)
    some (match kind with
      | .rollback => rollback
      | .patrol => patrol
      | .csrf => csrf)
  match library.fromSlice response.body with
  | .error reason => .error (invalid reason)
  | .ok value =>
      match read value with
      | none => .error (invalid (library.shapeError value))
      | some none =>
          .error (actionError
            ("token response does not contain \x60".toList ++ (tokenFieldName kind).toList ++ "\x60".toList))
      | some (some token) =>
          if Text.trim token = [] then
            .error (actionError
              ("token field \x60".toList ++ (tokenFieldName kind).toList ++ "\x60 is empty".toList))
          else .ok token

def executeFetchToken (kind : TokenKind) : Acting (Except ActionError Text) := do
  let answer ← Dialogue.put (.token kind)
  pure (match checkStatus library "token query".toList answer.http with
    | .error reason => .error reason
    | .ok response => parseTokenResponse library kind response)

def readPage (title : Text) (http : Except Text HttpResponse) : Except ActionError Text :=
  match http with
  | .error reason =>
      .error
        { message := "page fetch failed: ".toList ++ reason
          code := none
          httpStatus := none
          retryable := true }
  | .ok response =>
      if 200 ≤ response.status ∧ response.status < 300 then
        match library.fromSlice response.body with
        | .error reason => .error (actionError ("page JSON failed: ".toList ++ reason))
        | .ok value =>
            match (value.pointer
                ["query", "pages", "0", "revisions", "0", "slots", "main", "content"]).bind
                Json.asStr with
            | some content => .ok content
            | none =>
                .error
                  { message := "page content not found for: ".toList ++ title
                    code := some "missing-content".toList
                    httpStatus := none
                    retryable := false }
      else
        .error
          { message := "page fetch HTTP ".toList ++ Text.ofNat response.status
            code := none
            httpStatus := some response.status
            retryable := response.status ≥ 500 }

def fetchPageWikitext (title : Text) : Acting (Except ActionError Text) := do
  let answer ← Dialogue.put (.page title)
  pure (readPage library title answer.http)

end Requests

section Replacement

/-- `str::matches(…).count()` of a nonempty needle, behind the characters to skip. -/
def countMatches (needle : Text) : Nat → Text → Nat
  | _, [] => 0
  | skip + 1, _ :: rest => countMatches needle skip rest
  | 0, c :: rest =>
      if needle.isPrefixOf (c :: rest) then countMatches needle (needle.length - 1) rest + 1
      else countMatches needle 0 rest

def replaceExactlyOnce (haystack needle replacement : Text) : Except ActionError Text :=
  if needle = [] then
    .error (codedError "replacement target text must not be empty" "invalid-input")
  else
    match countMatches needle 0 haystack, Search.find needle haystack with
    | 1, some start =>
        .ok (haystack.take start ++ replacement ++ haystack.drop (start + needle.length))
    | 0, _ => .error (codedError "selected text not found in page content" "text-not-found")
    | occurrences, _ =>
        .error
          { message := "selected text occurs ".toList ++ Text.ofNat occurrences ++
              " times in page content; refusing ambiguous replacement".toList
            code := some "text-ambiguous".toList
            httpStatus := none
            retryable := false }

end Replacement

end SP42.Actions

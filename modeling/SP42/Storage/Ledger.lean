import Mathlib
import SP42.Actions.Executor
import SP42.Storage.Envelope
import SP42.Storage.PublicDocuments

/-!
The public audit ledger: a page of the wiki that every recorded action reads, extends by one
entry and saves again. Calls of many actions ask the wiki in any order of turns, and a first use
creates the page beside them. What keeps the ledger append-only is the revision that a save names.
-/
namespace SP42.Storage

open Actions (ActionError ActionLibrary ActionExecutionLogEntry SessionActionExecutionRequest
  SessionActionKind WikiPageSaveRequest fieldsOf optionalText)
open Citation (HttpResponse)

structure StorageLibrary (Value : Type) where
  actions : ActionLibrary
  json : JsonLibrary Value
  documents : DocumentLibrary Value

/-- The errors of the storage calls: those of a payload, of the transport, and a write conflict. -/
inductive StorageFailure where
  | payload (error : WikiStorageError)
  | transport (message : Text)
  | conflict (title message : Text)
  deriving DecidableEq

def StorageFailure.display : StorageFailure → Text
  | .payload (.invalidInput message) => "wiki storage input is invalid: ".toList ++ message
  | .payload (.serialize message) => "wiki storage serialization failed: ".toList ++ message
  | .transport message => "wiki storage transport failed: ".toList ++ message
  | .conflict title message =>
      "wiki storage write conflict on ".toList ++ quoted title ++ ": ".toList ++ message

def displayActionError (error : ActionError) : Text :=
  "wiki action failed: ".toList ++ error.message

section Loading

structure WikiStorageRevisionRecord where
  revid : Nat
  content : Option Text
  deriving DecidableEq

structure WikiStoragePageRecord where
  title : Text
  pageid : Option Nat
  missing : Option Bool
  revisions : Option (List WikiStorageRevisionRecord)
  deriving DecidableEq

structure WikiStorageLoadedDocument (Value : Type) where
  title : Text
  exists_ : Bool
  pageId : Option Nat
  revisionId : Option Nat
  body : Option Text
  envelope : Option (WikiStoragePayloadEnvelope Value)

/-- An optional field: absent, or read. -/
def readOptional {α : Type} (read : Json → Option α) : Option Json → Option (Option α)
  | none => some none
  | some value => (read value).map some

def readRevisionRecord (value : Json) : Option WikiStorageRevisionRecord := do
  let field ← fieldsOf 2 value
  let revid ← (field "revid" 0).bind Json.asU64
  let slots ← (field "slots" 1).bind (fieldsOf 1)
  let main ← (slots "main" 0).bind (fieldsOf 1)
  let content ← optionalText (main "content" 0)
  some { revid, content }

def readPageRecord (value : Json) : Option WikiStoragePageRecord := do
  let field ← fieldsOf 4 value
  let title ← (field "title" 0).bind Json.asStr
  let pageid ← readOptional Json.asU64 (field "pageid" 1)
  let missing ← readOptional Json.asBool (field "missing" 2)
  let revisions ← readOptional (fun value => value.asArray.bind (·.mapM readRevisionRecord))
    (field "revisions" 3)
  some { title, pageid, missing, revisions }

def readQueryResponse (value : Json) : Option (List WikiStoragePageRecord) := do
  let top ← fieldsOf 1 value
  let query ← (top "query" 0).bind (fieldsOf 1)
  let pages ← (query "pages" 0).bind Json.asArray
  pages.mapM readPageRecord

variable {Value : Type} (library : StorageLibrary Value)

/-- The first page of a response. -/
def respondedPage (requestedTitle : Text) (response : HttpResponse) :
    Except StorageFailure WikiStoragePageRecord :=
  if ¬ (200 ≤ response.status ∧ response.status < 300) then
    .error (.transport ("wiki document fetch returned HTTP ".toList ++
      Text.ofNat response.status ++ " for ".toList ++ quoted requestedTitle))
  else
    match library.actions.fromSlice response.body with
    | .error message => .error (.payload (.serialize message))
    | .ok value =>
        match readQueryResponse value with
        | none => .error (.payload (.serialize (library.actions.shapeError value)))
        | some [] => .error (.transport "wiki document query returned no pages".toList)
        | some (page :: _) => .ok page

def WikiStoragePageRecord.shown (page : WikiStoragePageRecord) : Option WikiStorageRevisionRecord :=
  page.revisions.bind List.head?

def parsedEnvelope (body : Option Text) :
    Except StorageFailure (Option (WikiStoragePayloadEnvelope Value)) :=
  match body with
  | none => .ok none
  | some body =>
      match parseWikiStoragePayloadEnvelope library.json body with
      | .ok envelope => .ok (some envelope)
      | .error error => .error (.payload error)

def parseWikiStorageDocumentResponse (requestedTitle : Text) (response : HttpResponse) :
    Except StorageFailure (WikiStorageLoadedDocument Value) :=
  match respondedPage library requestedTitle response with
  | .error failure => .error failure
  | .ok page =>
      let body := page.shown.bind WikiStorageRevisionRecord.content
      (parsedEnvelope library body).map fun envelope =>
        { title := page.title
          exists_ := !page.missing.getD false
          pageId := page.pageid
          revisionId := page.shown.map WikiStorageRevisionRecord.revid
          body, envelope }

end Loading

section Calls

/-- What is asked of the wiki: a page with its revision, a token, or a write. -/
inductive StorageCall where
  | load (title : Text)
  | token (kind : Actions.TokenKind)
  | write (write : Actions.Write)

abbrev Storing := Dialogue StorageCall (Except Text HttpResponse)

/-- `?` behind a call: its error ends the program, in the words of `display`. -/
def andThen {ε α β : Type} (display : ε → Text) (first : Storing (Except ε α))
    (next : α → Storing (Except Text β)) : Storing (Except Text β) :=
  first >>= fun result =>
    match result with
    | .error error => pure (.error (display error))
    | .ok value => next value

structure WikiStorageWriteRequest (Value : Type) where
  document : WikiStorageDocument
  humanSummary : List Text
  data : Value
  token : Text
  baserevid : Option Nat
  tags : List Text
  watchlist : Option Text
  createOnly : FlagState
  minor : FlagState
  summary : Option Text

structure WikiStorageWriteOutcome where
  title : Text
  baserevid : Option Nat
  httpStatus : Nat
  result : Option Text

variable {Value : Type} (library : StorageLibrary Value)

def loadedFrom (title : Text) (http : Except Text HttpResponse) :
    Except StorageFailure (WikiStorageLoadedDocument Value) :=
  match http with
  | .error message => .error (.transport message)
  | .ok response => parseWikiStorageDocumentResponse library title response

def loadWikiStorageDocument (title : Text) :
    Storing (Except StorageFailure (WikiStorageLoadedDocument Value)) :=
  if blank title then pure (.error (.payload (.invalidInput "title is required".toList)))
  else Dialogue.put (.load title) >>= fun http => pure (loadedFrom library title http)

def isConflictCode (code : Option Text) : Bool :=
  ["editconflict", "articleexists", "pagedeleted", "missingtitle"].any fun known =>
    code == some known.toList

def mapWikiStorageWriteError (title : Text) (error : ActionError) : StorageFailure :=
  if isConflictCode error.code then .conflict title error.message else .transport error.message

def executeWikiPageSave (request : WikiPageSaveRequest) :
    Storing (Except ActionError HttpResponse) :=
  match Actions.buildWikiPageSaveRequest request with
  | .error reason => pure (.error reason)
  | .ok write => Dialogue.put (.write write) >>= fun http =>
      pure (Actions.checkWrite library.actions "page save".toList http)

def fetchedToken (http : Except Text HttpResponse) : Except ActionError Text :=
  match Actions.checkStatus library.actions "token query".toList http with
  | .error reason => .error reason
  | .ok response => Actions.parseTokenResponse library.actions .csrf response

def fetchCsrfToken : Storing (Except ActionError Text) :=
  Dialogue.put (.token .csrf) >>= fun http => pure (fetchedToken library http)

def savedPage (request : WikiStorageWriteRequest Value) (text : Text) : WikiPageSaveRequest where
  title := request.document.title
  text := text
  token := request.token
  summary := request.summary
  baserevid := request.baserevid
  tags := request.tags
  watchlist := request.watchlist
  createOnly := request.createOnly.isEnabled
  minor := request.minor.isEnabled

def writeOutcome (request : WikiStorageWriteRequest Value)
    (saved : Except ActionError HttpResponse) :
    Except StorageFailure WikiStorageWriteOutcome :=
  match saved with
  | .error error => .error (mapWikiStorageWriteError request.document.title error)
  | .ok response =>
      match Actions.parseActionResponseSummary library.actions response "page save".toList with
      | .error error => .error (.transport (displayActionError error))
      | .ok summary =>
          .ok
            { title := request.document.title
              baserevid := request.baserevid
              httpStatus := response.status
              result := summary.result }

def saveWikiStorageDocument (request : WikiStorageWriteRequest Value) :
    Storing (Except StorageFailure WikiStorageWriteOutcome) :=
  match renderWikiStorageDocumentPage library.json request.document request.humanSummary
      request.data with
  | .error error => pure (.error (.payload error))
  | .ok text => executeWikiPageSave library (savedPage request text) >>= fun saved =>
      pure (writeOutcome library request saved)

end Calls

section Documents

variable {Value : Type} (library : StorageLibrary Value)

structure ResolvedPublicStorageDocument (Value : Type) where
  document : WikiStorageDocument
  loaded : WikiStorageLoadedDocument Value
  payload : PublicStorageDocumentData
  defaulted : FlagState

/-- A document without a payload is taken for its default. -/
def publicPayloadForLoadedDocument (document : WikiStorageDocument)
    (loaded : WikiStorageLoadedDocument Value) :
    Except Text (PublicStorageDocumentData × FlagState) :=
  match loaded.envelope with
  | some envelope =>
      ((parsePublicStorageDocument library.documents document.kind envelope.data).map
        fun payload => (payload, .disabled)).mapError PublicDocumentError.display
  | none =>
      ((defaultPublicStorageDocument library.documents document.kind).map
        fun payload => (payload, .enabled)).mapError PublicDocumentError.display

def resolvedAs (document : WikiStorageDocument) (loaded : WikiStorageLoadedDocument Value)
    (defaulted : FlagState → FlagState) : Except Text (ResolvedPublicStorageDocument Value) :=
  (publicPayloadForLoadedDocument library document loaded).map fun found =>
    { document, loaded, payload := found.1, defaulted := defaulted found.2 }

def tokenFailure (error : ActionError) : Text :=
  "csrf token fetch failed: ".toList ++ displayActionError error

/-- The request that creates the page of a document. -/
def bootstrapRequest (document : WikiStorageDocument) (payload : PublicStorageDocumentData)
    (data : Value) (token : Text) : WikiStorageWriteRequest Value where
  document := document
  humanSummary := publicDocumentHumanSummary payload
  data := data
  token := token
  baserevid := none
  tags := []
  watchlist := none
  createOnly := .enabled
  minor := .disabled
  summary := some "Bootstrap SP42 public document".toList

def StorageFailure.isConflict : StorageFailure → Bool
  | .conflict _ _ => true
  | _ => false

/-- Behind the save of a first use: a conflict is as good as a success, for the page is there. -/
def reloadAfter (document : WikiStorageDocument)
    (saved : Except StorageFailure WikiStorageWriteOutcome) :
    Storing (Except Text (ResolvedPublicStorageDocument Value)) :=
  let reloaded := andThen StorageFailure.display (loadWikiStorageDocument library document.title)
    fun loaded => pure (resolvedAs library document loaded fun _ => .enabled)
  match saved with
  | .error failure => if failure.isConflict then reloaded else pure (.error failure.display)
  | .ok _ => reloaded

def bootstrapAndReload (document : WikiStorageDocument) (payload : PublicStorageDocumentData) :
    Storing (Except Text (ResolvedPublicStorageDocument Value)) :=
  andThen tokenFailure (fetchCsrfToken library) fun token =>
    match intoJsonValue library.documents payload with
    | .error error => pure (.error error.display)
    | .ok data =>
        saveWikiStorageDocument library (bootstrapRequest document payload data token) >>=
          reloadAfter library document

def loadOrBootstrapPublicStorageDocument (config : WikiConfig) (document : WikiStorageDocument)
    (bootstrapActor : Option Text) : Storing (Except Text (ResolvedPublicStorageDocument Value)) :=
  andThen StorageFailure.display (loadWikiStorageDocument library document.title) fun loaded =>
    if loaded.exists_ then pure (resolvedAs library document loaded id)
    else
      match bootstrapPublicStorageDocument library.documents document.kind config
          (bootstrapActor <|> ownerUsernameFromTitle document.title) with
      | .error error => pure (.error error.display)
      | .ok payload => bootstrapAndReload library document payload

end Documents

section Appending

def actionVerb : SessionActionKind → String
  | .rollback => "Rollback"
  | .patrol => "Patrol"
  | .undo => "Undo"
  | .tagCitationNeeded => "Citation needed"
  | .inlineEdit => "Inline edit"
  | .flagCitation => "Flag citation"

/-- An optional part of a sentence. -/
def phrase (part : Option Text) (before after : String) : Text :=
  part.elim [] fun text => before.toList ++ text ++ after.toList

def actionFeedbackForEntry (entry : ActionExecutionLogEntry) : Text :=
  let rationale := phrase (entry.summary.filter fun value => !blank value) " rationale: " ""
  let opening := (actionVerb entry.kind).toList ++ " on ".toList ++ entry.wikiId ++
    " rev ".toList ++ Text.ofNat entry.revId
  if entry.accepted then
    opening ++ " accepted".toList ++ phrase (entry.httpStatus.map Text.ofNat) " with HTTP " "" ++
      phrase entry.result " (" ")" ++ phrase entry.responsePreview " " "" ++ rationale ++ ".".toList
  else
    opening ++ " failed".toList ++ phrase entry.apiCode " with code \x60" "\x60" ++
      phrase entry.error ": " "" ++ rationale ++ ".".toList

def stripPrefix (start text : Text) : Option Text :=
  if start.isPrefixOf text then some (text.drop start.length) else none

/-- The parts of a list in the text, without the blank ones. -/
def trimmedParts (separator : Char) (text : Text) : List Text :=
  ((text.splitOn separator).map Text.trim).filter (· ≠ [])

/-- `str::parse::<u32>`. -/
def parseU32 (text : Text) : Option Nat := (Text.parseU64 text).filter (· ≤ u32Max)

/-- The part of a rationale that a piece of the summary states. -/
def reasoningPart (reasoning : PublicAuditLedgerReasoning) (part : Text) :
    PublicAuditLedgerReasoning :=
  if part = "obvious-vandalism".toList then { reasoning with obviousVandalism := .enabled }
  else match stripPrefix "duplicate-cluster=".toList part with
  | some value => { reasoning with duplicateClusterSize := parseU32 value }
  | none =>
      match stripPrefix "trusted-source=".toList part with
      | some value => { reasoning with matchedTrustedSources := trimmedParts '+' value }
      | none =>
          match stripPrefix "rules=".toList part with
          | some value => { reasoning with appliedRuleSources := trimmedParts '+' value }
          | none => reasoning

def auditHeuristicReasoningFromSummary (summary : Option Text) :
    Option PublicAuditLedgerReasoning :=
  ((summary.bind (stripPrefix "SP42 rationale: ".toList)).map Text.trim).filter (· ≠ []) |>.map
    fun summary => (trimmedParts ';' summary).foldl reasoningPart ⟨[], [], none, .disabled⟩

def auditEntry (username : Text) (payload : SessionActionExecutionRequest)
    (entry : ActionExecutionLogEntry) : PublicAuditLedgerEntry where
  timestampMs := entry.executedAtMs
  actor := username
  action := payload.kind.label
  summary := actionFeedbackForEntry entry
  revId := some payload.revId
  title := payload.title
  targetUser := payload.targetUser
  accepted := .ofBool entry.accepted
  httpStatus := entry.httpStatus
  apiCode := entry.apiCode
  retryable := .ofBool entry.retryable
  warnings := entry.warnings
  result := entry.result
  error := entry.error
  heuristicReasoning := auditHeuristicReasoningFromSummary entry.summary

def PublicAuditLedgerDocument.push (ledger : PublicAuditLedgerDocument)
    (entry : PublicAuditLedgerEntry) : PublicAuditLedgerDocument :=
  { ledger with entries := ledger.entries ++ [entry] }

variable {Value : Type} (library : StorageLibrary Value)

/-- The request that adds an entry, on the revision that the ledger was read from. -/
def appendRequest (document : WikiStorageDocument) (payload : SessionActionExecutionRequest)
    (ledger : PublicAuditLedgerDocument) (baserevid : Option Nat) (data : Value) (token : Text) :
    WikiStorageWriteRequest Value where
  document := document
  humanSummary := publicDocumentHumanSummary (.auditLedger ledger)
  data := data
  token := token
  baserevid := baserevid
  tags := []
  watchlist := none
  createOnly := .disabled
  minor := .disabled
  summary := some ("Record SP42 ".toList ++ payload.kind.label ++ " on rev ".toList ++
    Text.ofNat payload.revId)

def recordEntry (document : WikiStorageDocument) (payload : SessionActionExecutionRequest)
    (ledger : PublicAuditLedgerDocument) (baserevid : Option Nat) : Storing (Except Text Unit) :=
  andThen tokenFailure (fetchCsrfToken library) fun token =>
    match intoJsonValue library.documents (.auditLedger ledger) with
    | .error error => pure (.error error.display)
    | .ok data =>
        andThen StorageFailure.display
          (saveWikiStorageDocument library
            (appendRequest document payload ledger baserevid data token)) fun _ => pure (.ok ())

/-- The append behind an executed action, once the document of its period is resolved. -/
def appendPublicAuditEntry (config : WikiConfig) (document : WikiStorageDocument) (username : Text)
    (payload : SessionActionExecutionRequest) (entry : ActionExecutionLogEntry) :
    Storing (Except Text Unit) :=
  andThen id (loadOrBootstrapPublicStorageDocument library config document (some username))
    fun resolved =>
      match resolved.payload with
      | .auditLedger ledger =>
          recordEntry library document payload (ledger.push (auditEntry username payload entry))
            resolved.loaded.revisionId
      | _ => pure (.error
          "resolved public audit document did not decode as an audit ledger".toList)

end Appending

section Page

/-- A revision of the page: the call that made it, if it was one of these, and whether it created
the page. -/
structure Revision where
  revid : Nat
  text : Text
  call : Option Nat
  creates : Bool
  deriving DecidableEq

/-- What is decided outside: the answer, whether a write reaches the wiki, and the id that the
revision gets there. -/
structure StorageEvent where
  answer : Except Text HttpResponse
  reached : Bool
  revid : Nat

/-- A page is created where there is none, and a save that names a revision needs it to be the
latest. -/
def accepts (history : List Revision) (request : WikiPageSaveRequest) : Bool :=
  (!request.createOnly || history.isEmpty) &&
    request.baserevid.all fun base => history.getLast?.any fun last => last.revid == base

def StorageEvent.lands (event : StorageEvent) (history : List Revision)
    (request : WikiPageSaveRequest) : Bool := event.reached && accepts history request

def revisionOf (call : Nat) (event : StorageEvent) (request : WikiPageSaveRequest) : Revision where
  revid := event.revid
  text := request.text
  call := some call
  creates := request.createOnly

def servePage (call : Nat) (history : List Revision) (asked : StorageCall) (event : StorageEvent) :
    List Revision × Except Text HttpResponse :=
  match asked with
  | .write (.save request) =>
      (if event.lands history request then history ++ [revisionOf call event request] else history,
        event.answer)
  | _ => (history, event.answer)

/-- An absent page is missing, and a page that is there is shown in one of its revisions, the
latest or an earlier one, with its content. -/
def ShownFrom (history : List Revision) (page : WikiStoragePageRecord) : Prop :=
  match page.shown with
  | none => history = [] ∧ page.missing = some true
  | some record => ∃ revision ∈ history,
      record.revid = revision.revid ∧ record.content = some revision.text

variable {Value : Type} (library : StorageLibrary Value) (document : WikiStorageDocument)

/-- The payload that a text of the page holds. -/
def payloadOf (text : Text) : Option PublicStorageDocumentData :=
  (parseWikiStoragePayloadEnvelope library.json text).toOption.bind fun envelope =>
    (parsePublicStorageDocument library.documents document.kind envelope.data).toOption

def entriesOf (text : Text) : Option (List PublicAuditLedgerEntry) :=
  match payloadOf library document text with
  | some (.auditLedger ledger) => some ledger.entries
  | _ => none

/-- A text that was rendered from a payload is read as that payload. -/
def ReadsBack (text : Text) : Prop :=
  ∀ payload data, intoJsonValue library.documents payload = .ok data →
    renderWikiStorageDocumentPage library.json document (publicDocumentHumanSummary payload) data =
      .ok text → payloadOf library document text = some payload

def checkedSave (event : StorageEvent) : Except ActionError HttpResponse :=
  Actions.checkWrite library.actions "page save".toList event.answer

/-- What is asked of the wiki, and of the text of a save: a new revision has an id of its own and
reads back, an answer without an error tells of a save that landed, and a refused creation names a
conflict only where the page exists. -/
structure Honest (history : List Revision) (request : WikiPageSaveRequest) (event : StorageEvent) :
    Prop where
  fresh : event.lands history request = true → event.revid ∉ history.map Revision.revid
  legible : event.lands history request = true → ReadsBack library document request.text
  landed : ∀ response, checkedSave library event = .ok response → event.lands history request = true
  conflict : ∀ error, checkedSave library event = .error error → isConflictCode error.code = true →
    request.createOnly = true → history ≠ []

def allowedAnswer (history : List Revision) (asked : StorageCall) (event : StorageEvent) : Prop :=
  match asked with
  | .load title => ∀ response page, event.answer = .ok response →
      respondedPage library title response = .ok page → ShownFrom history page
  | .token _ => True
  | .write (.save request) => Honest library document history request event
  | .write _ => True

/-- The wiki's side of one page, for one of the calls. -/
def pageStore (call : Nat) :
    Store (List Revision) StorageCall (Except Text HttpResponse) StorageEvent where
  serve := servePage call
  allowed := allowedAnswer library document

end Page

section Calls

/-- A call of the server that touches the ledger: the append behind an action, or a first look. -/
inductive LedgerCall where
  | append (username : Text) (payload : SessionActionExecutionRequest)
      (entry : ActionExecutionLogEntry)
  | view (bootstrapActor : Option Text)

variable {Value : Type} (library : StorageLibrary Value) (config : WikiConfig)
  (document : WikiStorageDocument)

def LedgerCall.program : LedgerCall → Storing (Except Text Unit)
  | .append username payload entry =>
      appendPublicAuditEntry library config document username payload entry
  | .view bootstrapActor =>
      andThen id (loadOrBootstrapPublicStorageDocument library config document bootstrapActor)
        fun _ => pure (.ok ())

def LedgerCall.entry : LedgerCall → Option PublicAuditLedgerEntry
  | .append username payload entry => some (auditEntry username payload entry)
  | .view _ => none

/-- The entries of the latest revision. -/
def latestEntries (history : List Revision) : List PublicAuditLedgerEntry :=
  (history.getLast?.bind fun last => entriesOf library document last.text).getD []

/-- What a revision adds to the ledger: nothing where it creates the page, else its call's entry. -/
def added (calls : Nat → LedgerCall) (revision : Revision) : List PublicAuditLedgerEntry :=
  if revision.creates then [] else (revision.call.bind fun call => (calls call).entry).toList

/-- Every revision behind the past ones holds the entries of the one before it and what it adds. -/
def Extending (calls : Nat → LedgerCall) (past history : List Revision) : Prop :=
  ∀ before revision after, history = before ++ revision :: after → past.length ≤ before.length →
    entriesOf library document revision.text =
      some (latestEntries library document before ++ added calls revision)

/-- The revisions with which a call added its entry. -/
def posts (call : Nat) (history : List Revision) : List Revision :=
  history.filter fun revision => revision.call = some call ∧ revision.creates = false

/-- Where the page was before the calls: read as a ledger in its latest revision, if any. -/
structure Legible (past : List Revision) : Prop where
  distinct : (past.map Revision.revid).Nodup
  foreign : ∀ revision ∈ past, revision.call = none
  ledger : ∀ last, past.getLast? = some last → (entriesOf library document last.text).isSome

structure Sound (calls : Nat → LedgerCall) (past history : List Revision) : Prop where
  keeps : past <+: history
  distinct : (history.map Revision.revid).Nodup
  extending : Extending library document calls past history
  ledger : ∀ last, history.getLast? = some last → (entriesOf library document last.text).isSome
  once : ∀ call, (posts call history).length ≤ 1

end Calls

section Rendering

variable {Value : Type} {library : StorageLibrary Value} {document : WikiStorageDocument}
  {humanSummary : List Text} {data : Value} {printed : Text}

/-- A page with no `<` in what is printed on it is read as the envelope it was rendered from. -/
theorem parse_rendered
    (prints : library.json.toStringPretty (envelopeOf document data) = .ok printed)
    (reads : library.json.fromStr printed = .ok (envelopeOf document data))
    (object : ∃ fields, printed = '{' :: fields ++ ['}']) (plain : '<' ∉ printed)
    (heads : ∀ piece ∈ lastLevel document.title :: document.description :: humanSummary,
      '<' ∉ piece)
    {text : Text}
    (rendered : renderWikiStorageDocumentPage library.json document humanSummary data = .ok text) :
    parseWikiStoragePayloadEnvelope library.json text = .ok (envelopeOf document data) := by
  unfold renderWikiStorageDocumentPage at rendered
  rw [prints] at rendered
  obtain ⟨fields, shape⟩ := object
  have beginHead := @headLines_free payloadBeginMarker document humanSummary
    "!-- SP42:BEGIN --".toList (by decide) fun piece member =>
      @marker_not_plain _ "!-- SP42:BEGIN --".toList _ (by decide) (heads piece member)
  have endHead := @headLines_free payloadEndMarker document humanSummary
    "!-- SP42:END --".toList (by decide) fun piece member =>
      @marker_not_plain _ "!-- SP42:END --".toList _ (by decide) (heads piece member)
  obtain ⟨begin_, end_, beginAt, endAt, ordered, between⟩ :=
    @payload_between printed (headLines document humanSummary) (List.cons_ne_nil _ _) beginHead
      endHead (@marker_not_plain _ "!-- SP42:END --".toList _ (by decide) plain)
  have opening : ¬ openingTag <:+: printed :=
    @marker_not_plain _ "syntaxhighlight lang=\"json\"".toList _ (by decide) plain
  have closing : ¬ closingTag <:+: printed :=
    @marker_not_plain _ "/syntaxhighlight".toList _ (by decide) plain
  rw [← Except.ok.inj rendered, parseWikiStoragePayloadEnvelope, beginAt, endAt]
  dsimp only
  rw [if_neg (Nat.not_le.mpr ordered), between, unwrap_payload shape opening closing, reads]

end Rendering

section Histories

variable {Value : Type} {library : StorageLibrary Value} {document : WikiStorageDocument}
  {calls : Nat → LedgerCall} {past history : List Revision} {revision : Revision}

theorem posts_snoc (call : Nat) :
    posts call (history ++ [revision]) = posts call history ++
      if revision.call = some call ∧ revision.creates = false then [revision] else [] := by
  unfold posts
  rw [List.filter_append, List.filter_singleton]
  congr 1
  by_cases own : revision.call = some call ∧ revision.creates = false <;> simp [own]

/-- A history that ends in a new revision is split behind it or before it. -/
theorem snoc_split {before after : List Revision} {middle : Revision}
    (split : history ++ [revision] = before ++ middle :: after) :
    (history = before ∧ revision = middle) ∨ ∃ rest, history = before ++ middle :: rest := by
  rcases List.eq_nil_or_concat after with rfl | ⟨rest, last, rfl⟩
  · obtain ⟨front, back⟩ := List.append_inj' split rfl
    exact .inl ⟨front, List.singleton_inj.mp back⟩
  · rw [List.concat_eq_append, ← List.cons_append, ← List.append_assoc] at split
    exact .inr ⟨rest, (List.append_inj' split rfl).1⟩

theorem sound_start (legible : Legible library document past) :
    Sound library document calls past past where
  keeps := List.prefix_rfl
  distinct := legible.distinct
  extending := by
    intro before revision after split long
    rw [split, List.length_append, List.length_cons] at long
    omega
  ledger := legible.ledger
  once := by
    intro call
    have none_ : posts call past = [] := by
      refine List.filter_eq_nil_iff.mpr fun revision member => ?_
      simp [legible.foreign revision member]
    rw [none_]
    exact Nat.zero_le 1

/-- A new revision that holds what it should, the first of its call. -/
theorem Sound.snoc (sound : Sound library document calls past history)
    (fresh : revision.revid ∉ history.map Revision.revid)
    (holds : entriesOf library document revision.text =
      some (latestEntries library document history ++ added calls revision))
    (first : ∀ call, revision.call = some call → revision.creates = false →
      posts call history = []) :
    Sound library document calls past (history ++ [revision]) where
  keeps := sound.keeps.trans (List.prefix_append _ _)
  distinct := by
    rw [List.map_append, List.map_singleton]
    exact List.nodup_append.mpr ⟨sound.distinct, List.nodup_singleton _, by
      rintro id member _ last rfl
      exact fresh (List.mem_singleton.mp last ▸ member)⟩
  extending := by
    intro before middle after split long
    rcases snoc_split split with ⟨rfl, rfl⟩ | ⟨rest, earlier⟩
    · exact holds
    · exact sound.extending before middle rest earlier long
  ledger := by
    intro last found
    rw [List.getLast?_concat] at found
    rw [← Option.some.inj found, holds]
    rfl
  once := by
    intro call
    rw [posts_snoc]
    split
    · next own =>
        rw [first call own.1 own.2]
        exact Nat.le_refl 1
    · rw [List.append_nil]
      exact sound.once call

/-- Where the ids are distinct, the revision with the id of the latest is the latest. -/
theorem Sound.latest (sound : Sound library document calls past history)
    (member : revision ∈ history) {last : Revision} (found : history.getLast? = some last)
    (same : last.revid = revision.revid) : last = revision :=
  List.inj_on_of_nodup_map sound.distinct (List.mem_of_getLast? found) member same

end Histories

section Terms

variable {Value : Type} (library : StorageLibrary Value) (document : WikiStorageDocument)
  (calls : Nat → LedgerCall) (past : List Revision)

/-- The history has grown, and not by an entry of the call. -/
abbrev Since (call : Nat) (s t : List Revision) : Prop := s <+: t ∧ posts call t = posts call s

theorem Since.trans {call : Nat} {s t u : List Revision} (first : Since call s t)
    (second : Since call t u) : Since call s u :=
  ⟨first.1.trans second.1, second.2.trans first.2⟩

/-- The history only grows, and each call alone adds the revisions of its own. -/
def ledgerTerms (call : Nat) : Terms (List Revision) where
  inv := Sound library document calls past
  rely := Since call
  give s t := s <+: t ∧ ∀ other, other ≠ call → posts other t = posts other s
  refl _ := ⟨List.prefix_rfl, rfl⟩
  trans _ _ _ := Since.trans

variable {library document calls past} {call : Nat}

theorem ledgerTerms_leaves (i j : Nat) (s t : List Revision) (apart : i ≠ j)
    (given : (ledgerTerms library document calls past j).give s t) :
    (ledgerTerms library document calls past i).rely s t :=
  ⟨given.1, given.2 i apart⟩

abbrev Meets (library : StorageLibrary Value) (document : WikiStorageDocument)
    (calls : Nat → LedgerCall) (past : List Revision) (call : Nat) {α : Type}
    (Ends : α → List Revision → Prop) (program : Storing α) (history : List Revision) : Prop :=
  Dialogue.Holds (pageStore library document call) (ledgerTerms library document calls past call)
    Ends program history

/-- A program whose results are described only where they are no error. -/
abbrev Yields {α ε : Type} (P : α → List Revision → Prop) (result : Except ε α)
    (history : List Revision) : Prop := ∀ value, result = .ok value → P value history

theorem meets_error {α : Type} {P : α → List Revision → Prop} {message : Text}
    {history : List Revision} : Meets library document calls past call (Yields P)
      (pure (.error message) : Storing (Except Text α)) history := by
  intro t _ _ value found
  cases found

theorem meets_andThen {ε α β : Type} {display : ε → Text} {first : Storing (Except ε α)}
    {next : α → Storing (Except Text β)} {P : β → List Revision → Prop} {history : List Revision}
    (h : Meets library document calls past call (Yields fun value t =>
      Sound library document calls past t →
        Meets library document calls past call (Yields P) (next value) t) first history) :
    Meets library document calls past call (Yields P) (andThen display first next) history := by
  refine Dialogue.Holds.bind (h.mono fun result t ends inv => ?_)
  cases result with
  | error error => exact meets_error
  | ok value => exact ends value rfl inv

/-- A read or a token changes nothing. -/
theorem meets_quiet {α : Type} {Ends : α → List Revision → Prop} {asked : StorageCall}
    {next : Except Text HttpResponse → Storing α} {history : List Revision}
    (quiet : ∀ t event, (servePage call t asked event).1 = t)
    (h : ∀ t event, Since call history t →
      allowedAnswer library document t asked event →
      Meets library document calls past call Ends (next (servePage call t asked event).2) t) :
    Meets library document calls past call Ends (Dialogue.put asked >>= next) history := by
  refine Dialogue.holds_put_bind.mpr fun t moved inv event allowed => ?_
  have same : ((pageStore library document call).serve t asked event).1 = t := quiet t event
  rw [same]
  exact ⟨inv, ⟨List.prefix_rfl, fun _ _ => rfl⟩, h t event moved allowed⟩

/-- The document was read from one of the revisions of the page. -/
def Shown (library : StorageLibrary Value) (history : List Revision)
    (loaded : WikiStorageLoadedDocument Value) : Prop :=
  ∃ revision ∈ history, loaded.revisionId = some revision.revid ∧ ∃ envelope,
    loaded.envelope = some envelope ∧
      parseWikiStoragePayloadEnvelope library.json revision.text = .ok envelope

theorem Shown.later {history t : List Revision} {loaded : WikiStorageLoadedDocument Value}
    (shown : Shown library history loaded) (grown : history <+: t) : Shown library t loaded := by
  obtain ⟨revision, member, rest⟩ := shown
  exact ⟨revision, grown.subset member, rest⟩

/-- What a document says that was parsed from a page as the wiki shows it. -/
theorem parse_shown {title : Text} {response : HttpResponse} {history : List Revision}
    {loaded : WikiStorageLoadedDocument Value}
    (parsed : parseWikiStorageDocumentResponse library title response = .ok loaded)
    (reports : ∀ page, respondedPage library title response = .ok page → ShownFrom history page) :
    (loaded.exists_ = false ∧ history = []) ∨ Shown library history loaded := by
  unfold parseWikiStorageDocumentResponse at parsed
  cases responded : respondedPage library title response with
  | error failure =>
      rw [responded] at parsed
      cases parsed
  | ok page =>
      have shown := reports page responded
      rw [responded] at parsed
      dsimp only at parsed
      unfold ShownFrom at shown
      cases found : page.shown with
      | none =>
          rw [found] at shown
          obtain ⟨empty, missing⟩ := shown
          rw [found] at parsed
          cases parsed
          exact .inl ⟨by simp [missing], empty⟩
      | some record =>
          rw [found] at shown
          obtain ⟨revision, member, id, content⟩ := shown
          rw [found, Option.bind_some, content, parsedEnvelope] at parsed
          cases envelope : parseWikiStoragePayloadEnvelope library.json revision.text with
          | error error =>
              rw [envelope] at parsed
              cases parsed
          | ok envelope' =>
              rw [envelope] at parsed
              cases parsed
              exact .inr ⟨revision, member, congrArg some id, envelope', rfl, envelope⟩

theorem load_meets {title : Text} {history : List Revision} :
    Meets library document calls past call
      (Yields fun loaded t => Since call history t ∧
        ((loaded.exists_ = false ∧ history = []) ∨ Shown library t loaded))
      (loadWikiStorageDocument library title) history := by
  unfold loadWikiStorageDocument
  split
  · intro t _ _ value found
    cases found
  · refine meets_quiet (fun _ _ => rfl) fun t event moved allowed => ?_
    intro u later _ loaded found
    change loadedFrom library title event.answer = .ok loaded at found
    cases answer : event.answer with
    | error message =>
        rw [answer] at found
        cases found
    | ok response =>
        rw [answer] at found
        refine ⟨Since.trans moved later, ?_⟩
        rcases parse_shown found fun page responded => allowed response page answer responded with
          ⟨absent, empty⟩ | shown
        · exact .inl ⟨absent, List.prefix_nil.mp (empty ▸ moved.1)⟩
        · exact .inr (shown.later later.1)

theorem token_meets {history : List Revision} :
    Meets library document calls past call
      (fun _ t => Since call history t)
      (fetchCsrfToken library) history := by
  refine meets_quiet (fun _ _ => rfl) fun t _ moved _ => ?_
  intro u later _
  exact Since.trans moved later

theorem build_ok {request : WikiPageSaveRequest} {write : Actions.Write}
    (built : Actions.buildWikiPageSaveRequest request = .ok write) : write = .save request := by
  unfold Actions.buildWikiPageSaveRequest Actions.required Actions.ensure at built
  split_ifs at built <;> cases built
  rfl

theorem build_error {request : WikiPageSaveRequest} {reason : ActionError}
    (built : Actions.buildWikiPageSaveRequest request = .error reason) : reason.code = none := by
  unfold Actions.buildWikiPageSaveRequest Actions.required Actions.ensure at built
  split_ifs at built <;> cases built <;> rfl

theorem mapped_conflict {title : Text} {error : ActionError} :
    (mapWikiStorageWriteError title error).isConflict = isConflictCode error.code := by
  unfold mapWikiStorageWriteError
  split
  · next conflict => rw [conflict]; rfl
  · next other =>
      rw [Bool.not_eq_true] at other
      rw [other]
      rfl

theorem posts_other {history : List Revision} {event : StorageEvent} {request : WikiPageSaveRequest}
    {other : Nat} (apart : other ≠ call) :
    posts other (history ++ [revisionOf call event request]) = posts other history := by
  rw [posts_snoc, if_neg (fun own => apart (Option.some.inj own.1).symm), List.append_nil]

theorem save_asks {request : WikiStorageWriteRequest Value} {text : Text} {write : Actions.Write}
    (rendered : renderWikiStorageDocumentPage library.json request.document request.humanSummary
      request.data = .ok text)
    (built : Actions.buildWikiPageSaveRequest (savedPage request text) = .ok write) :
    saveWikiStorageDocument library request = .ask (.write write) fun http =>
      pure (writeOutcome library request
        (Actions.checkWrite library.actions "page save".toList http)) := by
  unfold saveWikiStorageDocument executeWikiPageSave
  rw [rendered]
  dsimp only
  rw [built]
  rfl

/-- How a save ends. It is not sent, or it lands and adds a revision that must hold what it should,
or it is refused. -/
theorem save_meets {request : WikiStorageWriteRequest Value}
    {Ends : Except StorageFailure WikiStorageWriteOutcome → List Revision → Prop}
    {history : List Revision}
    (unsent : ∀ failure t, failure.isConflict = false →
      Since call history t → Ends (.error failure) t)
    (holds : ∀ text t event, renderWikiStorageDocumentPage library.json request.document
        request.humanSummary request.data = .ok text →
      Since call history t →
      Sound library document calls past t → ReadsBack library document text →
      accepts t (savedPage request text) = true →
      entriesOf library document text = some (latestEntries library document t ++
        added calls (revisionOf call event (savedPage request text))) ∧
      (request.createOnly = .disabled → posts call t = []))
    (landed : ∀ outcome text t event u,
      Since call history t →
      Since call
        (t ++ [revisionOf call event (savedPage request text)]) u → Ends outcome u)
    (refused : ∀ failure t u, Since call history t →
      Since call t u →
      (failure.isConflict = true → request.createOnly = .enabled → t ≠ []) →
      Ends (.error failure) u) :
    Meets library document calls past call Ends (saveWikiStorageDocument library request)
      history := by
  unfold saveWikiStorageDocument
  cases rendered : renderWikiStorageDocumentPage library.json request.document request.humanSummary
      request.data with
  | error error => exact fun t moved _ => unsent _ t rfl moved
  | ok text =>
      dsimp only
      unfold executeWikiPageSave
      cases built : Actions.buildWikiPageSaveRequest (savedPage request text) with
      | error reason =>
          intro t moved _
          refine unsent _ t ?_ moved
          rw [mapped_conflict, build_error built]
          rfl
      | ok write =>
          obtain rfl := build_ok built
          refine Dialogue.holds_put_bind.mpr fun t moved inv event honest => ?_
          change Honest library document t (savedPage request text) event at honest
          have outcome : (pageStore library document call).serve t
              (.write (.save (savedPage request text))) event =
              (if event.lands t (savedPage request text) then
                t ++ [revisionOf call event (savedPage request text)] else t, event.answer) := rfl
          rw [outcome]
          by_cases lands : event.lands t (savedPage request text) = true
          · rw [if_pos lands]
            have accepted : accepts t (savedPage request text) = true :=
              (Bool.and_eq_true_iff.mp lands).2
            obtain ⟨entries, first⟩ := holds text t event rendered moved inv (honest.legible lands)
              accepted
            refine ⟨inv.snoc (honest.fresh lands) entries ?_,
              ⟨List.prefix_append _ _, fun other apart => posts_other apart⟩,
              fun u later _ => landed _ text t event u moved later⟩
            intro other own saves
            obtain rfl := Option.some.inj own
            refine first ?_
            change request.createOnly.isEnabled = false at saves
            cases flag : request.createOnly with
            | disabled => rfl
            | enabled =>
                rw [flag] at saves
                cases saves
          · rw [if_neg lands]
            refine ⟨inv, ⟨List.prefix_rfl, fun _ _ => rfl⟩, fun u later _ => ?_⟩
            change Ends (writeOutcome library request (checkedSave library event)) u
            cases answer : checkedSave library event with
            | ok response => exact absurd (honest.landed response answer) lands
            | error error =>
                refine refused _ t u moved later fun conflict creates => ?_
                rw [mapped_conflict] at conflict
                refine honest.conflict error answer conflict ?_
                change request.createOnly.isEnabled = true
                rw [creates]
                rfl

/-- What a call knows of a document that it resolved: the revision it was read from. -/
def Resolved (library : StorageLibrary Value) (document : WikiStorageDocument) (call : Nat)
    (start : List Revision) (resolved : ResolvedPublicStorageDocument Value)
    (history : List Revision) : Prop :=
  posts call history = posts call start ∧ ∃ revision ∈ history,
    resolved.loaded.revisionId = some revision.revid ∧
      payloadOf library document revision.text = some resolved.payload

theorem resolved_meets {history start : List Revision} {loaded : WikiStorageLoadedDocument Value}
    {defaulted : FlagState → FlagState} (shown : Shown library history loaded)
    (kept : posts call history = posts call start) :
    Meets library document calls past call (Yields (Resolved library document call start))
      (pure (resolvedAs library document loaded defaulted)) history := by
  intro t later _ resolved found
  obtain ⟨revision, member, id, envelope, some_, parsed⟩ := shown.later later.1
  unfold resolvedAs publicPayloadForLoadedDocument at found
  rw [some_] at found
  dsimp only at found
  cases payload : parsePublicStorageDocument library.documents document.kind envelope.data with
  | error error =>
      rw [payload] at found
      cases found
  | ok data =>
      rw [payload] at found
      cases found
      refine ⟨later.2.trans kept, revision, member, id, ?_⟩
      unfold payloadOf
      rw [parsed]
      change (parsePublicStorageDocument library.documents document.kind envelope.data).toOption = _
      rw [payload]
      rfl

theorem reload_meets {history start : List Revision}
    {saved : Except StorageFailure WikiStorageWriteOutcome}
    (there : (∀ failure, saved = .error failure → failure.isConflict = true) → history ≠ [])
    (kept : posts call history = posts call start) :
    Meets library document calls past call (Yields (Resolved library document call start))
      (reloadAfter library document saved) history := by
  have reloaded : history ≠ [] → Meets library document calls past call
      (Yields (Resolved library document call start))
      (andThen StorageFailure.display (loadWikiStorageDocument library document.title)
        fun loaded => pure (resolvedAs library document loaded fun _ => .enabled)) history := by
    intro inhabited
    refine meets_andThen (load_meets.mono fun result t ends loaded found _ => ?_)
    obtain ⟨moved, ⟨-, empty⟩ | shown⟩ := ends loaded found
    · exact absurd empty inhabited
    · exact resolved_meets shown (moved.2.trans kept)
  unfold reloadAfter
  cases saved with
  | ok outcome => exact reloaded (there fun _ found => nomatch found)
  | error failure =>
      dsimp only
      by_cases conflict : failure.isConflict = true
      · rw [if_pos conflict]
        refine reloaded (there fun other found => ?_)
        cases found
        exact conflict
      · rw [if_neg conflict]
        exact meets_error

/-- The document is the ledger of a period. -/
def IsLedger (document : WikiStorageDocument) : Prop :=
  ∃ wikiId periodSlug, document.kind = .sharedAuditPeriod wikiId periodSlug

theorem entriesOf_ledger {text : Text} {ledger : PublicAuditLedgerDocument}
    (holds : payloadOf library document text = some (.auditLedger ledger)) :
    entriesOf library document text = some ledger.entries := by
  unfold entriesOf
  rw [holds]

/-- A first use renders a ledger without entries. -/
theorem bootstrap_empty (audit : IsLedger document) {config : WikiConfig} {actor : Option Text}
    {payload : PublicStorageDocumentData}
    (started : bootstrapPublicStorageDocument library.documents document.kind config actor =
      .ok payload) : ∃ ledger, payload = .auditLedger ledger ∧ ledger.entries = [] := by
  obtain ⟨wikiId, periodSlug, kind⟩ := audit
  rw [kind] at started
  cases started
  exact ⟨_, rfl, rfl⟩

theorem bootstrap_meets {history start : List Revision} {payload : PublicStorageDocumentData}
    {ledger : PublicAuditLedgerDocument} (data : payload = .auditLedger ledger)
    (empty : ledger.entries = []) (kept : posts call history = posts call start) :
    Meets library document calls past call (Yields (Resolved library document call start))
      (bootstrapAndReload library document payload) history := by
  unfold bootstrapAndReload
  refine meets_andThen (token_meets.mono fun result t moved token _ inv => ?_)
  cases json : intoJsonValue library.documents payload with
  | error error => exact meets_error
  | ok value =>
      suffices saves : Meets library document calls past call (fun saved u =>
          ((∀ failure, saved = .error failure → failure.isConflict = true) → u ≠ []) ∧
            posts call u = posts call start)
          (saveWikiStorageDocument library (bootstrapRequest document payload value token)) t from
        Dialogue.Holds.bind (saves.mono fun saved u ends _ => reload_meets ends.1 ends.2)
      refine save_meets ?_ ?_ ?_ ?_
      · intro failure u plain later
        refine ⟨fun conflict => ?_, later.2.trans (moved.2.trans kept)⟩
        rw [conflict failure rfl] at plain
        cases plain
      · intro text u event rendered later sound reads accepted
        have none_ : u = [] := by
          simpa [accepts, savedPage, bootstrapRequest, FlagState.isEnabled] using accepted
        subst none_
        have entries := entriesOf_ledger ((reads payload value json rendered).trans
          (congrArg some data))
        rw [entries, empty]
        exact ⟨rfl, fun saves => nomatch saves⟩
      · intro outcome text u event v later last
        refine ⟨fun _ none_ => ?_, ?_⟩
        · have inside := last.1
          rw [none_, List.prefix_nil] at inside
          exact List.append_ne_nil_of_right_ne_nil _ (List.cons_ne_nil _ _) inside
        · rw [last.2, posts_snoc, if_neg, List.append_nil]
          · exact later.2.trans (moved.2.trans kept)
          · rintro ⟨-, saves⟩
            cases saves
      · intro failure u v later last creates
        refine ⟨fun conflict none_ => ?_, last.2.trans (later.2.trans (moved.2.trans kept))⟩
        have inside := last.1
        rw [none_, List.prefix_nil] at inside
        exact creates (conflict failure rfl) rfl inside

theorem load_or_bootstrap_meets (audit : IsLedger document) {config : WikiConfig}
    {actor : Option Text} {history : List Revision} :
    Meets library document calls past call (Yields (Resolved library document call history))
      (loadOrBootstrapPublicStorageDocument library config document actor) history := by
  unfold loadOrBootstrapPublicStorageDocument
  refine meets_andThen (load_meets.mono fun result t ends loaded found _ => ?_)
  obtain ⟨moved, reading⟩ := ends loaded found
  split
  · next present =>
      rcases reading with ⟨absent, -⟩ | shown
      · rw [absent] at present
        cases present
      · exact resolved_meets shown moved.2
  · split
    · exact meets_error
    · next payload started =>
        obtain ⟨ledger, data, empty⟩ := bootstrap_empty audit started
        exact bootstrap_meets data empty moved.2

theorem record_meets {payload : SessionActionExecutionRequest} {ledger : PublicAuditLedgerDocument}
    {entry : PublicAuditLedgerEntry} {history : List Revision} {revision : Revision}
    (member : revision ∈ history) (read : entriesOf library document revision.text =
      some ledger.entries) (entry_ : (calls call).entry = some entry)
    (first : posts call history = []) :
    Meets library document calls past call (Yields fun _ t => posts call t ≠ [])
      (recordEntry library document payload (ledger.push entry) (some revision.revid)) history := by
  unfold recordEntry
  refine meets_andThen (token_meets.mono fun result t moved token _ inv => ?_)
  cases json : intoJsonValue library.documents (.auditLedger (ledger.push entry)) with
  | error error => exact meets_error
  | ok value =>
      have settled : ∀ u, posts call u ≠ [] → Meets library document calls past call
          (Yields fun _ v => posts call v ≠ []) (pure (.ok ()) : Storing (Except Text Unit)) u := by
        intro u there v later _ _ _
        rw [later.2]
        exact there
      suffices saves : Meets library document calls past call (Yields fun _ u => posts call u ≠ [])
          (saveWikiStorageDocument library (appendRequest document payload (ledger.push entry)
            (some revision.revid) value token)) t from
        meets_andThen (saves.mono fun saved u ends outcome found _ =>
          settled u (ends outcome found))
      refine save_meets ?_ ?_ ?_ ?_
      · intro failure u _ _ outcome found
        cases found
      · intro text u event rendered later sound reads accepted
        have named : ∃ last, u.getLast? = some last ∧ last.revid = revision.revid := by
          simpa [accepts, savedPage, appendRequest, FlagState.isEnabled, Option.any_eq_true]
            using accepted
        obtain ⟨last, found, same⟩ := named
        have grown := moved.1.trans later.1
        obtain rfl := sound.latest (grown.subset member) found same
        have entries := entriesOf_ledger (reads _ value json rendered)
        refine ⟨?_, fun _ => later.2.trans (moved.2.trans first)⟩
        rw [entries, latestEntries, found, Option.bind_some, read, Option.getD_some]
        change some (ledger.entries ++ [entry]) =
          some (ledger.entries ++ ((calls call).entry).toList)
        rw [entry_]
        rfl
      · intro outcome text u event v later last saved _ none_
        rw [last.2, posts_snoc, if_pos ⟨rfl, rfl⟩] at none_
        exact List.append_ne_nil_of_right_ne_nil _ (List.cons_ne_nil _ _) none_
      · intro failure u v _ _ _ outcome found
        cases found

theorem append_meets (audit : IsLedger document) {config : WikiConfig} {username : Text}
    {payload : SessionActionExecutionRequest} {entry : ActionExecutionLogEntry}
    (own : calls call = .append username payload entry) {history : List Revision}
    (first : posts call history = []) :
    Meets library document calls past call (Yields fun _ t => posts call t ≠ [])
      (appendPublicAuditEntry library config document username payload entry) history := by
  unfold appendPublicAuditEntry
  refine meets_andThen
    ((load_or_bootstrap_meets audit).mono fun result t ends resolved found _ => ?_)
  obtain ⟨kept, revision, member, id, holds⟩ := ends resolved found
  cases data : resolved.payload with
  | auditLedger ledger =>
      rw [data] at holds
      rw [id]
      exact record_meets member (entriesOf_ledger holds) (by rw [own]; rfl) (kept.trans first)
  | _ => exact meets_error

end Terms

section Ledger

variable {Value : Type} {library : StorageLibrary Value} {config : WikiConfig}
  {document : WikiStorageDocument}

/-- What a call that returned without an error has done. -/
def Recorded (calls : Nat → LedgerCall) (call : Nat) (result : Except Text Unit)
    (history : List Revision) : Prop :=
  result = .ok () → (calls call).entry.isSome → posts call history ≠ []

theorem program_meets (audit : IsLedger document) (calls : Nat → LedgerCall) {past : List Revision}
    (call : Nat) (first : posts call past = []) :
    Meets library document calls past call (Recorded calls call)
      ((calls call).program library config document) past := by
  cases own : calls call with
  | append username payload entry =>
      refine (append_meets audit own first).mono fun result t ends finished _ => ?_
      exact ends () finished
  | view bootstrapActor =>
      have views : Meets library document calls past call (Yields fun _ _ => True)
          (LedgerCall.program library config document (.view bootstrapActor)) past :=
        meets_andThen ((load_or_bootstrap_meets audit).mono fun _ _ _ _ _ _ _ _ _ _ _ => trivial)
      refine views.mono fun result t _ _ appends => ?_
      rw [own] at appends
      cases appends

/-- The page and the calls, before any of them has begun. -/
def ledgerStart (library : StorageLibrary Value) (config : WikiConfig)
    (document : WikiStorageDocument) (calls : Nat → LedgerCall) (past : List Revision) :
    List Revision × (Nat → Storing (Except Text Unit)) :=
  (past, fun call => (calls call).program library config document)

end Ledger

section Answers

variable {Value : Type} {library : StorageLibrary Value} {document : WikiStorageDocument}
  {title text : Text}

theorem responded_of_read {body : List UInt8} {json : Json}
    {page : WikiStoragePageRecord} {rest : List WikiStoragePageRecord}
    (read : library.actions.fromSlice body = .ok json)
    (found : readQueryResponse json = some (page :: rest)) :
    respondedPage library title ⟨200, [], body⟩ = .ok page := by
  unfold respondedPage
  dsimp only
  rw [if_neg (by decide), read]
  dsimp only
  rw [found]

theorem loaded_of_responded {response : HttpResponse} {page : WikiStoragePageRecord} {revid : Nat}
    {envelope : WikiStoragePayloadEnvelope Value}
    (responded : respondedPage library title response = .ok page)
    (shown : page.shown = some ⟨revid, some text⟩)
    (parsed : parseWikiStoragePayloadEnvelope library.json text = .ok envelope) :
    loadedFrom library title (.ok response) =
      .ok ⟨page.title, !page.missing.getD false, page.pageid, some revid, some text,
        some envelope⟩ := by
  unfold loadedFrom parseWikiStorageDocumentResponse
  dsimp only
  rw [responded]
  dsimp only
  rw [shown]
  dsimp only [Option.bind_some, Option.map_some]
  rw [parsedEnvelope, parsed]
  rfl

theorem record_of_parts {payload : SessionActionExecutionRequest}
    {ledger : PublicAuditLedgerDocument} {base : Option Nat} {data : Value} {token : Text}
    {request : WikiStorageWriteRequest Value} {write : Actions.Write}
    {fetched saved : Except Text HttpResponse}
    (asked : appendRequest document payload ledger base data token = request)
    (reads : fetchedToken library fetched = .ok token)
    (valid : intoJsonValue library.documents (.auditLedger ledger) = .ok data)
    (rendered : renderWikiStorageDocumentPage library.json request.document request.humanSummary
      request.data = .ok text)
    (built : Actions.buildWikiPageSaveRequest (savedPage request text) = .ok write)
    (written : ∃ outcome, writeOutcome library request
      (Actions.checkWrite library.actions "page save".toList saved) = .ok outcome) :
    ∃ next, recordEntry library document payload ledger base = .ask (.token .csrf) next ∧
      ∃ after, next fetched = .ask (.write write) after ∧ after saved = .done (.ok ()) := by
  refine ⟨_, rfl, ?_⟩
  change ∃ after, Dialogue.bind (Dialogue.done (fetchedToken library fetched)) _ =
    Dialogue.ask _ after ∧ _
  rw [reads]
  simp only [Dialogue.bind, valid]
  rw [asked]
  change ∃ after, andThen _ (saveWikiStorageDocument library request) _ = _ ∧ _
  rw [save_asks rendered built]
  refine ⟨_, rfl, ?_⟩
  obtain ⟨outcome, written⟩ := written
  change Dialogue.bind (Dialogue.done (writeOutcome library _ _)) _ = _
  rw [written]
  rfl

/-- The turns of one append, each with its answer. -/
theorem run_of_answers {start : List Revision × (Nat → Storing (Except Text Unit))}
    {next token after : Except Text HttpResponse → Storing (Except Text Unit)}
    {save : WikiPageSaveRequest} {result : Except Text Unit} {read drawn sent : StorageEvent}
    (load : start.2 0 = .ask (.load title) next)
    (fetch : next read.answer = .ask (.token .csrf) token)
    (send : token drawn.answer = .ask (.write (.save save)) after)
    (ends : after sent.answer = .done result)
    (shown : allowedAnswer library document start.1 (.load title) read)
    (honest : Honest library document start.1 save sent) :
    Run.Along (Dialogue.turn (pageStore library document))
        (Dialogue.Permits (pageStore library document)) start [(0, read), (0, drawn), (0, sent)] ∧
      (Run.final (Dialogue.turn (pageStore library document)) start
        [(0, read), (0, drawn), (0, sent)]).2 0 = .done result := by
  refine Dialogue.run_of_asks load read shown fun fetching fetches => ?_
  refine Dialogue.run_of_asks (fetches.trans fetch) drawn (by trivial) fun saving saves => ?_
  exact Dialogue.run_of_asks (saves.trans send) sent (by exact honest)
    fun _ ended => ⟨trivial, ended.trans ends⟩

end Answers

section Example

def periodDocument : WikiStorageDocument where
  siteWikiId := "frwiki".toList
  realm := .sharedMetaUserSpace
  kind := .sharedAuditPeriod "frwiki".toList "2026-09".toList
  title := "User:Ana/SP42/frwiki/Audit/2026-09".toList
  description := "Audit.".toList

def patrolOfSeven : SessionActionExecutionRequest where
  wikiId := "frwiki".toList
  kind := .patrol
  revId := 7
  title := none
  targetUser := none
  undoAfterRevId := none
  summary := none
  selectedText := none
  batchRevIds := none
  replacementText := none
  nodeLocator := none
  concernKind := none
  reason := none

def patrolEntry : ActionExecutionLogEntry where
  executedAtMs := 0
  wikiId := "frwiki".toList
  kind := .patrol
  revId := 7
  title := none
  targetUser := none
  summary := none
  accepted := true
  httpStatus := none
  apiCode := none
  retryable := false
  warnings := []
  result := none
  responsePreview := none
  error := none

def emptyLedger : PublicAuditLedgerDocument := ⟨"frwiki".toList, "2026-09".toList, []⟩

def patrolLedger : PublicAuditLedgerDocument :=
  emptyLedger.push (auditEntry "Ana".toList patrolOfSeven patrolEntry)

def ledgerFields : Text :=
  "\n  \"project\": \"SP42\",\n  \"version\": 1,\n  ".toList ++
    "\"title\": \"User:Ana/SP42/frwiki/Audit/2026-09\",\n  ".toList ++
    "\"kind\": \"shared-audit-period\",\n  \"site_wiki_id\": \"frwiki\",\n  ".toList ++
    "\"realm\": \"SharedMetaUserSpace\",\n  \"data\": \x7b\n    ".toList ++
    "\"type\": \"audit_ledger\",\n    \"document\": \x7b\n      ".toList ++
    "\"wiki_id\": \"frwiki\",\n      \"period_slug\": \"2026-09\",\n      \"entries\": [".toList

def ledgerTail : Text := "]\n    \x7d\n  \x7d\n".toList

def printedEntry : Text :=
  "\n        \x7b\n          \"timestamp_ms\": 0,\n          \"actor\": \"Ana\",\n".toList ++
    "          \"action\": \"patrol\",\n          \"summary\": ".toList ++
    "\"Patrol on frwiki rev 7 accepted.\",\n          \"rev_id\": 7,\n".toList ++
    "          \"title\": null,\n          \"target_user\": null,\n".toList ++
    "          \"accepted\": true,\n          \"http_status\": null,\n".toList ++
    "          \"api_code\": null,\n          \"retryable\": false,\n".toList ++
    "          \"warnings\": [],\n          \"result\": null,\n          \"error\": null,\n".toList ++
    "          \"heuristic_reasoning\": null\n        \x7d\n      ".toList

def printedEmpty : Text := '{' :: (ledgerFields ++ ledgerTail) ++ ['}']

def printedPatrol : Text := '{' :: (ledgerFields ++ (printedEntry ++ ledgerTail)) ++ ['}']

def ledgerEnvelope (ledger : PublicAuditLedgerDocument) :
    WikiStoragePayloadEnvelope PublicStorageDocumentData :=
  envelopeOf periodDocument (.auditLedger ledger)

def ledgerJson : JsonLibrary PublicStorageDocumentData where
  toStringPretty envelope :=
    if envelope = ledgerEnvelope emptyLedger then .ok printedEmpty
    else if envelope = ledgerEnvelope patrolLedger then .ok printedPatrol
    else .error "not a sampled value".toList
  fromStr printed :=
    if printed = printedEmpty then .ok (ledgerEnvelope emptyLedger)
    else if printed = printedPatrol then .ok (ledgerEnvelope patrolLedger)
    else .error "not a sampled text".toList
  texts _ := []

theorem patrol_ne_empty : ledgerEnvelope patrolLedger ≠ ledgerEnvelope emptyLedger := by
  intro same
  cases congrArg WikiStoragePayloadEnvelope.data same

theorem printed_ne : printedPatrol ≠ printedEmpty := by
  intro same
  have fields := List.append_cancel_left (List.cons.inj (List.append_cancel_right same)).2
  exact absurd (congrArg List.head? fields) (by decide)

theorem printed_plain {inner : Text} (plain : '<' ∉ inner) :
    '<' ∉ '{' :: (ledgerFields ++ inner) ++ ['}'] := by
  have fields : '<' ∉ ledgerFields := by
    unfold ledgerFields
    repeat' apply List.not_mem_append
    all_goals exact Text.not_mem_literal (by decide)
  have all := List.not_mem_append fields plain
  exact List.not_mem_append (List.not_mem_cons_of_ne_of_not_mem (by decide) all) (by decide)

theorem printedEntry_plain : '<' ∉ printedEntry := by
  unfold printedEntry
  repeat' apply List.not_mem_append
  all_goals exact Text.not_mem_literal (by decide)

theorem ledgerTail_plain : '<' ∉ ledgerTail := Text.not_mem_literal (by decide)

theorem prints_empty :
    ledgerJson.toStringPretty (ledgerEnvelope emptyLedger) = .ok printedEmpty := by
  simp only [ledgerJson, ↓reduceIte]

theorem prints_patrol :
    ledgerJson.toStringPretty (ledgerEnvelope patrolLedger) = .ok printedPatrol := by
  simp only [ledgerJson, patrol_ne_empty, ↓reduceIte]

theorem reads_empty : ledgerJson.fromStr printedEmpty = .ok (ledgerEnvelope emptyLedger) := by
  simp only [ledgerJson, ↓reduceIte]

theorem reads_patrol : ledgerJson.fromStr printedPatrol = .ok (ledgerEnvelope patrolLedger) := by
  simp only [ledgerJson, printed_ne, ↓reduceIte]

def sampleBytes (text : String) : List UInt8 := text.toList.map fun c => c.toNat.toUInt8

def emptyPage : Text :=
  Text.join "\n".toList (headLines periodDocument
    (publicDocumentHumanSummary (.auditLedger emptyLedger)) ++
      [payloadBeginMarker, openingTag, printedEmpty, closingTag, payloadEndMarker])

def escaped (text : Text) : Text :=
  text.flatMap fun c => if c = '\n' then ['\\', 'n'] else if c = '"' then ['\\', '"'] else [c]

def pageBody : List UInt8 :=
  sampleBytes "\x7b\"query\":\x7b\"pages\":[\x7b\"title\":" ++
    sampleBytes "\"User:Ana/SP42/frwiki/Audit/2026-09\"," ++
    sampleBytes "\"revisions\":[\x7b\"revid\":1,\"slots\":\x7b\"main\":\x7b\"content\":\"" ++
    ((escaped emptyPage).map fun c => c.toNat.toUInt8) ++
    sampleBytes "\"\x7d\x7d\x7d]\x7d]\x7d\x7d"

def tokenBody : List UInt8 :=
  sampleBytes "\x7b\"query\":\x7b\"tokens\":\x7b\"csrftoken\":\"t\"\x7d\x7d\x7d"

def savedBody : List UInt8 := sampleBytes "\x7b\"edit\":\x7b\"result\":\"Success\"\x7d\x7d"

def pageJson : Json :=
  .object [("query", .object [("pages", .array [.object
    [("title", .string "User:Ana/SP42/frwiki/Audit/2026-09".toList),
      ("revisions", .array [.object [("revid", .number 1),
        ("slots", .object [("main", .object [("content", .string emptyPage)])])]])]])])]

def sampleActions : ActionLibrary where
  fromSlice body :=
    if body = tokenBody then
      .ok (.object [("query", .object [("tokens", .object [("csrftoken", .string ['t'])])])])
    else if body = savedBody then
      .ok (.object [("edit", .object [("result", .string "Success".toList)])])
    else if body = pageBody then .ok pageJson
    else .error []
  shapeError _ := []
  utf8Lossy body := body.map fun byte => Char.ofNat byte.toNat
  display _ := []

def sampleLibrary : StorageLibrary PublicStorageDocumentData where
  actions := sampleActions
  json := ledgerJson
  documents := ⟨.ok, .ok, fun _ => [], fun c => [c.toUpper]⟩

theorem render_empty : renderWikiStorageDocumentPage ledgerJson periodDocument
    (publicDocumentHumanSummary (.auditLedger emptyLedger)) (.auditLedger emptyLedger) =
      .ok emptyPage := by
  have prints : ledgerJson.toStringPretty (envelopeOf periodDocument (.auditLedger emptyLedger)) =
    .ok printedEmpty := prints_empty
  rw [renderWikiStorageDocumentPage, prints]
  rfl

theorem parse_empty {text : Text}
    (rendered : renderWikiStorageDocumentPage sampleLibrary.json periodDocument
      (publicDocumentHumanSummary (.auditLedger emptyLedger)) (.auditLedger emptyLedger) =
        .ok text) :
    parseWikiStoragePayloadEnvelope sampleLibrary.json text = .ok (ledgerEnvelope emptyLedger) := by
  refine @parse_rendered _ sampleLibrary _ _ _ _ prints_empty reads_empty ⟨_, rfl⟩
    (printed_plain ledgerTail_plain) ?_ _ rendered
  decide

theorem parse_patrol {text : Text}
    (rendered : renderWikiStorageDocumentPage sampleLibrary.json periodDocument
      (publicDocumentHumanSummary (.auditLedger patrolLedger)) (.auditLedger patrolLedger) =
        .ok text) :
    parseWikiStoragePayloadEnvelope sampleLibrary.json text =
      .ok (ledgerEnvelope patrolLedger) := by
  refine @parse_rendered _ sampleLibrary _ _ _ _ prints_patrol reads_patrol ⟨_, rfl⟩
    (printed_plain (List.not_mem_append printedEntry_plain ledgerTail_plain)) ?_ _ rendered
  decide

theorem bodies_apart : pageBody ≠ tokenBody ∧ pageBody ≠ savedBody ∧ savedBody ≠ tokenBody := by
  refine ⟨fun same => ?_, fun same => ?_, fun same => ?_⟩
  · exact absurd (congrArg (·[11]?) same) (by decide)
  · exact absurd (congrArg (·[2]?) same) (by decide)
  · exact absurd (congrArg (·[2]?) same) (by decide)

def respond (body : List UInt8) : Except Text HttpResponse := .ok ⟨200, [], body⟩

def shownPage : WikiStoragePageRecord where
  title := periodDocument.title
  pageid := none
  missing := none
  revisions := some [⟨1, some emptyPage⟩]

theorem page_responded (title : Text) :
    respondedPage sampleLibrary title ⟨200, [], pageBody⟩ = .ok shownPage := by
  have read : sampleLibrary.actions.fromSlice pageBody = .ok pageJson := by
    simp only [sampleLibrary, sampleActions, bodies_apart.1, bodies_apart.2.1, ↓reduceIte]
  exact responded_of_read read rfl

def loadedPage : WikiStorageLoadedDocument PublicStorageDocumentData where
  title := periodDocument.title
  exists_ := true
  pageId := none
  revisionId := some 1
  body := some emptyPage
  envelope := some (ledgerEnvelope emptyLedger)

theorem page_loaded (title : Text) :
    loadedFrom sampleLibrary title (respond pageBody) = .ok loadedPage :=
  @loaded_of_responded _ sampleLibrary title emptyPage _ shownPage 1 _ (page_responded title) rfl
    (parse_empty render_empty)

def anaAppends (_ : Nat) : LedgerCall := .append "Ana".toList patrolOfSeven patrolEntry

def anaConfig : WikiConfig := ⟨"frwiki".toList, "French".toList, [0]⟩

/-- The page with an empty ledger. -/
def emptyHistory : List Revision := [⟨1, emptyPage, none, true⟩]

theorem append_first (username : Text) (payload : SessionActionExecutionRequest)
    (entry : ActionExecutionLogEntry) :
    ∃ next, appendPublicAuditEntry sampleLibrary anaConfig periodDocument username payload entry =
        .ask (.load periodDocument.title) next ∧
      next (respond pageBody) = recordEntry sampleLibrary periodDocument payload
        (emptyLedger.push (auditEntry username payload entry)) (some 1) := by
  unfold appendPublicAuditEntry loadOrBootstrapPublicStorageDocument loadWikiStorageDocument
  rw [if_neg (by decide)]
  refine ⟨_, rfl, ?_⟩
  change Dialogue.bind (Dialogue.bind (Dialogue.done
    (loadedFrom sampleLibrary periodDocument.title (respond pageBody))) _) _ = _
  rw [page_loaded]
  rfl

theorem token_read :
    Actions.parseTokenResponse sampleLibrary.actions .csrf ⟨200, [], tokenBody⟩ = .ok ['t'] := by
  have read : sampleLibrary.actions.fromSlice tokenBody =
      .ok (.object [("query", .object [("tokens", .object [("csrftoken", .string ['t'])])])]) := by
    simp only [sampleLibrary, sampleActions, ↓reduceIte]
  unfold Actions.parseTokenResponse
  dsimp only
  rw [read]
  rfl

theorem saved_read : sampleLibrary.actions.fromSlice savedBody =
    .ok (.object [("edit", .object [("result", .string "Success".toList)])]) := by
  simp only [sampleLibrary, sampleActions, bodies_apart.2.2, ↓reduceIte]

theorem saved_checked :
    checkedSave sampleLibrary ⟨respond savedBody, true, 2⟩ = .ok ⟨200, [], savedBody⟩ := by
  unfold checkedSave Actions.checkWrite respond Actions.checkStatus
  dsimp only
  rw [if_pos (by decide)]
  dsimp only
  unfold Actions.validateActionResponse Actions.parseActionResponseSummary
  dsimp only
  rw [saved_read]
  rfl

def patrolPage : Text :=
  Text.join "\n".toList (headLines periodDocument
    (publicDocumentHumanSummary (.auditLedger patrolLedger)) ++
      [payloadBeginMarker, openingTag, printedPatrol, closingTag, payloadEndMarker])

theorem render_patrol : renderWikiStorageDocumentPage ledgerJson periodDocument
    (publicDocumentHumanSummary (.auditLedger patrolLedger)) (.auditLedger patrolLedger) =
      .ok patrolPage := by
  have prints : ledgerJson.toStringPretty (envelopeOf periodDocument (.auditLedger patrolLedger)) =
    .ok printedPatrol := prints_patrol
  rw [renderWikiStorageDocumentPage, prints]
  rfl

def patrolRequest : WikiStorageWriteRequest PublicStorageDocumentData :=
  appendRequest periodDocument patrolOfSeven patrolLedger (some 1) (.auditLedger patrolLedger) ['t']

def patrolSave : WikiPageSaveRequest := savedPage patrolRequest patrolPage

theorem patrol_built : Actions.buildWikiPageSaveRequest patrolSave = .ok (.save patrolSave) := by
  have inked : Text.trim patrolSave.text ≠ [] := by
    intro blank
    have first : '=' ∈ patrolSave.text := List.mem_cons_self
    exact absurd (Text.trim_eq_nil_iff.mp blank _ first) (by decide)
  have title : Actions.required patrolSave.title "title" = .ok () := by decide
  have text : Actions.required patrolSave.text "text" = .ok () := by
    unfold Actions.required Actions.ensure
    rw [decide_eq_true inked]
    rfl
  have token : Actions.required patrolSave.token "token" = .ok () := by decide
  unfold Actions.buildWikiPageSaveRequest
  rw [title, text, token]
  rfl

theorem token_fetched : fetchedToken sampleLibrary (respond tokenBody) = .ok ['t'] := by
  have status : Actions.checkStatus sampleLibrary.actions "token query".toList (respond tokenBody) =
      .ok ⟨200, [], tokenBody⟩ := rfl
  rw [fetchedToken, status]
  exact token_read

theorem patrol_valid : intoJsonValue sampleLibrary.documents (.auditLedger patrolLedger) =
    .ok (.auditLedger patrolLedger) := by
  unfold intoJsonValue
  have valid : validatePublicStorageDocument (.auditLedger patrolLedger) = .ok () := by decide
  rw [valid]
  rfl

theorem patrol_outcome (request : WikiStorageWriteRequest PublicStorageDocumentData) :
    ∃ outcome, writeOutcome sampleLibrary request
      (checkedSave sampleLibrary ⟨respond savedBody, true, 2⟩) = .ok outcome := by
  rw [saved_checked]
  unfold writeOutcome Actions.parseActionResponseSummary
  dsimp only
  rw [saved_read]
  exact ⟨_, rfl⟩

theorem record_first : ∃ next, recordEntry sampleLibrary periodDocument patrolOfSeven patrolLedger
      (some 1) = .ask (.token .csrf) next ∧
    ∃ after, next (respond tokenBody) = .ask (.write (.save patrolSave)) after ∧
      after (respond savedBody) = .done (.ok ()) :=
  @record_of_parts _ sampleLibrary periodDocument patrolPage patrolOfSeven patrolLedger (some 1) _
    ['t'] patrolRequest _ _ _ rfl token_fetched patrol_valid render_patrol patrol_built
    (patrol_outcome patrolRequest)

def patrolStart : List Revision × (Nat → Storing (Except Text Unit)) :=
  ledgerStart sampleLibrary anaConfig periodDocument anaAppends emptyHistory

/-- The page is read, a token fetched and the entry saved. -/
def patrolEvents : List (Nat × StorageEvent) :=
  [(0, ⟨respond pageBody, false, 0⟩), (0, ⟨respond tokenBody, false, 0⟩),
    (0, ⟨respond savedBody, true, 2⟩)]

theorem sample_reads_back (text : Text) : ReadsBack sampleLibrary periodDocument text := by
  intro payload data valid rendered
  have same : payload = data := by
    unfold intoJsonValue at valid
    cases checked : validatePublicStorageDocument payload with
    | error error =>
        rw [checked] at valid
        cases valid
    | ok _ =>
        rw [checked] at valid
        exact Except.ok.inj valid
  subst same
  have sampled : payload = .auditLedger emptyLedger ∨ payload = .auditLedger patrolLedger := by
    unfold renderWikiStorageDocumentPage at rendered
    cases prints : sampleLibrary.json.toStringPretty (envelopeOf periodDocument payload) with
    | error message =>
        rw [prints] at rendered
        cases rendered
    | ok printed =>
        simp only [sampleLibrary, ledgerJson] at prints
        split_ifs at prints with empty patrol
        · exact .inl (congrArg WikiStoragePayloadEnvelope.data empty)
        · exact .inr (congrArg WikiStoragePayloadEnvelope.data patrol)
  unfold payloadOf
  rcases sampled with rfl | rfl
  · rw [parse_empty rendered]
    rfl
  · rw [parse_patrol rendered]
    rfl

theorem patrol_run :
    Run.Along (Dialogue.turn (pageStore sampleLibrary periodDocument))
        (Dialogue.Permits (pageStore sampleLibrary periodDocument)) patrolStart patrolEvents ∧
      (Run.final (Dialogue.turn (pageStore sampleLibrary periodDocument)) patrolStart
        patrolEvents).2 0 = .done (.ok ()) := by
  obtain ⟨next, asks, goes⟩ := append_first "Ana".toList patrolOfSeven patrolEntry
  obtain ⟨token, fetches, after, sends, ends⟩ := record_first
  have shown : allowedAnswer sampleLibrary periodDocument emptyHistory (.load periodDocument.title)
      ⟨respond pageBody, false, 0⟩ := by
    intro response page answer responded
    cases answer
    rw [page_responded] at responded
    cases responded
    exact ⟨_, List.mem_singleton_self _, rfl, rfl⟩
  have lands : StorageEvent.lands ⟨respond savedBody, true, 2⟩ emptyHistory patrolSave = true := rfl
  have honest : Honest sampleLibrary periodDocument emptyHistory patrolSave
      ⟨respond savedBody, true, 2⟩ := by
    refine ⟨?_, ?_, ?_, ?_⟩
    · intro _
      change (2 : Nat) ∉ [1]
      decide
    · intro _
      exact sample_reads_back _
    · intro _ _
      exact lands
    · intro error failed
      rw [saved_checked] at failed
      cases failed
  unfold patrolEvents
  exact @run_of_answers _ sampleLibrary periodDocument periodDocument.title patrolStart next token
    after patrolSave (.ok ()) ⟨respond pageBody, false, 0⟩ ⟨respond tokenBody, false, 0⟩
    ⟨respond savedBody, true, 2⟩ asks (goes.trans fetches) sends ends shown honest

end Example

end SP42.Storage

import SP42.Actions.Route

/-!
What the report of an action says about the writes it asked for, against a wiki that may
answer anything.
-/
namespace SP42.Actions

open Citation (HttpResponse)
open Dialogue (Adds adds_bind adds_put_bind)

abbrev Exchange := Call × Answer

section Writes

/-- The kind of write an action asks for; the patrol behind a save is none of them. -/
def asks (payload : SessionActionExecutionRequest) : Write → Bool
  | .rollback _ _ _ _ => payload.kind = .rollback
  | .patrol _ _ => payload.kind = .patrol
  | .undo _ _ _ _ _ => payload.kind = .undo
  | .save _ => payload.kind ∈ [.tagCitationNeeded, .inlineEdit, .flagCitation]

/-- The revision of a patrol. -/
def Write.target : Write → Option Nat
  | .patrol revId _ => some revId
  | _ => none

def Write.label : Write → Text
  | .rollback _ _ _ _ => "rollback".toList
  | .patrol _ _ => "patrol".toList
  | .undo _ _ _ _ _ => "undo".toList
  | .save _ => "page save".toList

/-- What is to be written: each revision of a patrol, or one write. -/
def requested (payload : SessionActionExecutionRequest) : List (Option Nat) :=
  if payload.kind = .patrol then (patrolRevIds payload).map some else [none]

def asked (payload : SessionActionExecutionRequest) (exchange : Exchange) :
    Option (Write × Answer) :=
  match exchange.1 with
  | .write write => if asks payload write then some (write, exchange.2) else none
  | _ => none

/-- The writes the action asked for, as they were sent, with their answers. -/
def sent (payload : SessionActionExecutionRequest) (steps : List Exchange) :
    List (Write × Answer) := steps.filterMap (asked payload)

variable (library : ActionLibrary)

/-- The server finds no error in the answer. -/
def passes (entry : Write × Answer) : Bool :=
  (checkWrite library entry.1.label entry.2.http).toOption.isSome

/-- The answer has `nochange` in its edit. -/
def saysNoChange (answer : Answer) : Bool :=
  ((answer.http.toOption.bind fun response => (library.fromSlice response.body).toOption).bind
    readActionResponse).any fun parsed => (parsed.edit.bind (Json.get "nochange")).isSome

/-- The JSON of an answer with a success status. -/
def answered (answer : Answer) : Option Json :=
  (answer.http.toOption.filter fun response => 200 ≤ response.status ∧ response.status < 300).bind
    fun response => (library.fromSlice response.body).toOption

/-- The wiki's answer gives the result of the write: the key of a rollback or a patrol, or
an edit whose result is `Success`. -/
def carriesResult (entry : Write × Answer) : Bool :=
  (answered library entry.2).any fun value =>
    match entry.1 with
    | .rollback _ _ _ _ => (value.get "rollback").any (· ≠ .null)
    | .patrol _ _ => (value.get "patrol").any (· ≠ .null)
    | _ => ((value.get "edit").bind (Json.get "result")).bind Json.asStr = some "Success".toList

/-- The wiki answered success: it names no error and gives the result of the write. -/
def succeeded (entry : Write × Answer) : Bool :=
  (answered library entry.2).any (fun value => (value.get "error").all (· = .null)) &&
    carriesResult library entry

/-- A write whose success still leaves the wiki as it was: an edit with `nochange`. -/
def changesNothing (entry : Write × Answer) : Bool :=
  match entry.1 with
  | .rollback _ _ _ _ => false
  | .patrol _ _ => false
  | _ => saysNoChange library entry.2

/-- The write took effect, as far as the wiki tells. -/
def tookEffect (entry : Write × Answer) : Bool :=
  succeeded library entry && !changesNothing library entry

end Writes

section Promise

variable (library : ActionLibrary) (payload : SessionActionExecutionRequest)

/-- Every write asked for was sent and answered with success. -/
def AllSucceeded (entries : List (Write × Answer)) : Prop :=
  entries.map (fun entry => entry.1.target) = requested payload ∧
    ∀ entry ∈ entries, succeeded library entry = true

def NoneTookEffect (entries : List (Write × Answer)) : Prop :=
  ∀ entry ∈ entries, tookEffect library entry = false

/-- Every write asked for was sent and the server found no error in any answer. -/
def Passed (entries : List (Write × Answer)) : Prop :=
  entries.map (fun entry => entry.1.target) = requested payload ∧
    ∀ entry ∈ entries, passes library entry = true

/-- The answers a report of success goes by: all passed, the last without `nochange`. -/
def Accepting (entries : List (Write × Answer)) : Prop :=
  Passed library payload entries ∧ ∀ last ∈ entries.getLast?, saysNoChange library last.2 = false

def acceptedIn (report : Except HttpError SessionActionExecutionResponse) : Bool :=
  report.toOption.any SessionActionExecutionResponse.accepted

/-- The report is the truth about the writes. -/
structure Truthful (steps : List Exchange)
    (report : Except HttpError SessionActionExecutionResponse) : Prop where
  accepted : acceptedIn report = true → AllSucceeded library payload (sent payload steps)
  refused : acceptedIn report = false → NoneTookEffect library (sent payload steps)

/-- What one action does: its result tells whether every write asked for passed. -/
def Executes (entries : List (Write × Answer)) :
    Except ActionError HttpResponse → Prop
  | .error _ => ¬ Passed library payload entries
  | .ok response => Passed library payload entries ∧
      ∃ last, entries.getLast? = some last ∧ last.2.http = .ok response

end Promise

section Chains

variable {ε α β : Type} {library : ActionLibrary} {payload : SessionActionExecutionRequest}

theorem adds_chain {Makes : List Exchange → Except ε β → Prop} {first : Acting (Except ε α)}
    {next : α → Acting (Except ε β)} :
    Adds Makes (chain first next) ↔
      Adds (fun steps result => match result with
        | .error reason => Makes steps (.error reason)
        | .ok value => Adds (fun more => Makes (steps ++ more)) (next value)) first := by
  unfold chain
  rw [adds_bind]
  constructor
  · refine fun all => all.mono fun steps result made => ?_
    cases result with
    | error reason =>
        rw [← List.append_nil steps]
        exact made
    | ok value => exact made
  · refine fun all => all.mono fun steps result made => ?_
    cases result with
    | error reason =>
        show Makes (steps ++ []) (.error reason)
        rw [List.append_nil]
        exact made
    | ok value => exact made

theorem sent_append (before after : List Exchange) :
    sent payload (before ++ after) = sent payload before ++ sent payload after :=
  List.filterMap_append

/-- A part of an action that writes nothing that was asked for. -/
def Quiet (payload : SessionActionExecutionRequest) (d : Acting α) : Prop :=
  Adds (fun steps _ => sent payload steps = []) d

theorem requested_ne_nil : requested payload ≠ [] := by
  unfold requested patrolRevIds
  split
  · split <;> simp
  · exact List.cons_ne_nil _ _

theorem not_passed_nil : ¬ Passed library payload [] := fun passed =>
  requested_ne_nil passed.1.symm

/-- Nothing is lost behind a part that writes nothing. -/
theorem executes_chain {first : Acting (Except ActionError α)}
    {next : α → Acting (Except ActionError HttpResponse)} (quiet : Quiet payload first)
    (rest : ∀ value, Adds (fun steps => Executes library payload (sent payload steps)) (next value)) :
    Adds (fun steps => Executes library payload (sent payload steps)) (chain first next) := by
  rw [adds_chain]
  refine quiet.mono fun steps result none => ?_
  cases result with
  | error reason =>
      show ¬ Passed library payload (sent payload steps)
      rw [none]
      exact not_passed_nil
  | ok value =>
      refine (rest value).mono fun more result made => ?_
      rw [sent_append, none]
      exact made

theorem executes_error (reason : ActionError) :
    Adds (fun steps => Executes library payload (sent payload steps))
      (pure (.error reason) : Acting (Except ActionError HttpResponse)) := not_passed_nil

theorem quiet_pure (value : α) : Quiet payload (pure value) := rfl

theorem quiet_token (kind : TokenKind) : Quiet payload (executeFetchToken library kind) :=
  fun _ => rfl

theorem quiet_page (title : Text) : Quiet payload (fetchPageWikitext library title) := fun _ => rfl

theorem quiet_bind {first : Acting α} {next : α → Acting β} (quiet : Quiet payload first)
    (rest : ∀ value, Quiet payload (next value)) : Quiet payload (first >>= next) := by
  unfold Quiet
  rw [adds_bind]
  refine quiet.mono fun steps value none => ?_
  refine (rest value).mono fun more _ nothing => ?_
  rw [sent_append, none, nothing]
  rfl

theorem quiet_chain {first : Acting (Except ε α)} {next : α → Acting (Except ε β)}
    (quiet : Quiet payload first) (rest : ∀ value, Quiet payload (next value)) :
    Quiet payload (chain first next) := by
  unfold Quiet
  rw [adds_chain]
  refine quiet.mono fun steps result none => ?_
  cases result with
  | error reason => exact none
  | ok value =>
      refine (rest value).mono fun more _ nothing => ?_
      rw [sent_append, none, nothing]
      rfl

end Chains

section Single

variable {library : ActionLibrary} {payload : SessionActionExecutionRequest}

/-- One write: it was sent and its answer checked, or could not be built. -/
inductive Wrote (library : ActionLibrary) (payload : SessionActionExecutionRequest)
    (target : Option Nat) : List (Write × Answer) → Except ActionError HttpResponse → Prop where
  | built (write : Write) (answer : Answer) (aims : write.target = target) :
      Wrote library payload target [(write, answer)] (checkWrite library write.label answer.http)
  | refused (reason : ActionError) : Wrote library payload target [] (.error reason)

theorem adds_executeWrite {label : Text} {built : Except ActionError Write} {target : Option Nat}
    (good : ∀ write, built = .ok write →
      asks payload write = true ∧ write.label = label ∧ write.target = target) :
    Adds (fun steps => Wrote library payload target (sent payload steps))
      (executeWrite library label built) := by
  cases built with
  | error reason => exact .refused reason
  | ok write =>
      obtain ⟨wanted, rfl, aims⟩ := good write rfl
      intro answer
      have one : sent payload [((.write write, answer) : Exchange)] = [(write, answer)] := by
        simp [sent, asked, wanted]
      show Wrote library payload target (sent payload [(.write write, answer)]) _
      rw [one]
      exact .built write answer aims

theorem checkStatus_ok_iff {label : Text} {http : Except Text HttpResponse}
    {response : HttpResponse} :
    checkStatus library label http = .ok response ↔
      http = .ok response ∧ 200 ≤ response.status ∧ response.status < 300 := by
  unfold checkStatus
  constructor
  · intro checked
    split at checked
    · cases checked
    · split at checked
      · next fine =>
          cases checked
          exact ⟨rfl, fine⟩
      · cases checked
  · rintro ⟨rfl, fine⟩
    simp [fine]

/-- A body that reads as an answer of the wiki. -/
def reads (library : ActionLibrary) (response : HttpResponse) : Option MediaWikiActionResponse :=
  (library.fromSlice response.body).toOption.bind readActionResponse

theorem summary_ok_iff {label : Text} {response : HttpResponse} {summary : ActionResponseSummary} :
    parseActionResponseSummary library response label = .ok summary ↔
      ∃ parsed, reads library response = some parsed ∧
        summary =
          { status := response.status
            warnings := (parsed.warnings.map (parseWarningLines library)).getD []
            result := parsed.result library
            error := parsed.error.map (apiErrorMessage label)
            apiCode := parsed.error.map MediaWikiApiError.code
            retryable := parsed.error.any fun error => isRetryableActionApiError error.code
            nochange := (parsed.edit.bind (Json.get "nochange")).isSome } := by
  unfold parseActionResponseSummary reads
  cases library.fromSlice response.body with
  | error reason => simp [Except.toOption]
  | ok value =>
      cases found : readActionResponse value with
      | none => simp [Except.toOption, found]
      | some parsed => simp [Except.toOption, found, eq_comm]

theorem valid_iff {label : Text} {response : HttpResponse} :
    validateActionResponse library response label = .ok () ↔
      ∃ parsed, reads library response = some parsed ∧ parsed.error = none := by
  unfold validateActionResponse
  cases summarised : parseActionResponseSummary library response label with
  | error reason =>
      refine ⟨nofun, ?_⟩
      rintro ⟨parsed, found, -⟩
      cases summarised.symm.trans (summary_ok_iff.mpr ⟨parsed, found, rfl⟩)
  | ok summary =>
      obtain ⟨parsed, found, rfl⟩ := summary_ok_iff.mp summarised
      cases named : parsed.error with
      | none => simp [found, named]
      | some error => simp [found, named]

/-- What the server lets pass: a success status and a body that names no error. -/
theorem checkWrite_ok_iff {label : Text} {http : Except Text HttpResponse}
    {response : HttpResponse} :
    checkWrite library label http = .ok response ↔
      (http = .ok response ∧ 200 ≤ response.status ∧ response.status < 300) ∧
        ∃ parsed, reads library response = some parsed ∧ parsed.error = none := by
  have fine := @checkStatus_ok_iff library label http response
  have clean := @valid_iff library label response
  rw [← fine, ← clean]
  unfold checkWrite
  cases checkStatus library label http with
  | error reason => simp
  | ok received =>
      dsimp only
      cases valid : validateActionResponse library received label with
      | error reason =>
          constructor
          · intro same
            cases same
          · rintro ⟨same, good⟩
            cases same
            cases valid.symm.trans good
      | ok _ =>
          constructor
          · intro same
            cases same
            exact ⟨rfl, valid⟩
          · rintro ⟨same, -⟩
            cases same
            rfl

/-- A passing answer is the response handed back. -/
theorem checkWrite_ok {label : Text} {http : Except Text HttpResponse} {response : HttpResponse}
    (passed : checkWrite library label http = .ok response) : http = .ok response :=
  (checkWrite_ok_iff.mp passed).1.1

theorem passes_iff (entry : Write × Answer) :
    passes library entry = true ↔
      ∃ response, checkWrite library entry.1.label entry.2.http = .ok response := by
  unfold passes
  cases checkWrite library entry.1.label entry.2.http with
  | error reason => simp [Except.toOption]
  | ok response => simp [Except.toOption]

theorem Wrote.executes {target : Option Nat} {entries : List (Write × Answer)}
    {result : Except ActionError HttpResponse} (wrote : Wrote library payload target entries result)
    (only : requested payload = [target]) : Executes library payload entries result := by
  cases wrote with
  | refused reason => exact not_passed_nil
  | built write answer aims =>
      cases checked : checkWrite library write.label answer.http with
      | error reason =>
          intro passed
          have ok := passed.2 (write, answer) (List.mem_singleton_self _)
          simp [passes, checked, Except.toOption] at ok
      | ok response =>
          refine ⟨⟨by simp [only, aims], ?_⟩, _, rfl, checkWrite_ok checked⟩
          intro entry member
          rw [List.mem_singleton.mp member]
          simp [passes, checked, Except.toOption]

end Single

section Batch

variable {library : ActionLibrary} {payload : SessionActionExecutionRequest}

def BatchPassed (library : ActionLibrary) (ids : List Nat) (entries : List (Write × Answer)) : Prop :=
  entries.map (fun entry => entry.1.target) = ids.map some ∧
    ∀ entry ∈ entries, passes library entry = true

theorem batchPassed_cons {rid : Nat} {rest : List Nat} {entry : Write × Answer}
    {more : List (Write × Answer)} (aims : entry.1.target = some rid) :
    BatchPassed library (rid :: rest) (entry :: more) ↔
      passes library entry = true ∧ BatchPassed library rest more := by
  simp [BatchPassed, aims, and_left_comm]

/-- The calls of a batch so far: the last answer is the one handed on. -/
def Batch (library : ActionLibrary) (ids : List Nat) (before : Except Text HttpResponse)
    (entries : List (Write × Answer)) : Except ActionError HttpResponse → Prop
  | .error _ => ¬ BatchPassed library ids entries
  | .ok final => BatchPassed library ids entries ∧
      (entries.getLast?.map fun last => last.2.http).getD before = .ok final

theorem asks_patrol (kind : payload.kind = .patrol) (rid : Nat) (token : Text) (write : Write)
    (built : buildPatrolRequest rid token = .ok write) :
    asks payload write = true ∧ write.label = "patrol".toList ∧ write.target = some rid := by
  obtain ⟨_, -, rest⟩ := Traverse.bind_ok built
  obtain ⟨_, -, rest⟩ := Traverse.bind_ok rest
  cases rest
  exact ⟨by simp [asks, kind], rfl, rfl⟩

/-- One call and the calls behind it. -/
theorem adds_patrol_chain (kind : payload.kind = .patrol) (token : Text) (rid : Nat)
    (rest : List Nat) (before : Except Text HttpResponse)
    (behind : ∀ response, Adds (fun steps => Batch library rest (.ok response) (sent payload steps))
      (patrolRest library token response rest)) :
    Adds (fun steps => Batch library (rid :: rest) before (sent payload steps))
      (chain (executePatrol library rid token) fun response =>
        patrolRest library token response rest) := by
  rw [adds_chain]
  refine (adds_executeWrite (asks_patrol kind rid token)).mono fun steps result wrote => ?_
  generalize entries : sent payload steps = first at wrote
  cases wrote with
  | refused reason =>
      rintro ⟨none, -⟩
      cases none
  | built write answer aims =>
      cases checked : checkWrite library write.label answer.http with
      | error reason =>
          intro passed
          have ok := ((batchPassed_cons aims).mp passed).1
          simp [passes, checked, Except.toOption] at ok
      | ok response =>
          have ok : passes library (write, answer) = true := by
            simp [passes, checked, Except.toOption]
          refine (behind response).mono fun more final after => ?_
          rw [sent_append, entries, List.singleton_append]
          cases final with
          | error reason => exact fun passed => after ((batchPassed_cons aims).mp passed).2
          | ok final =>
              refine ⟨(batchPassed_cons aims).mpr ⟨ok, after.1⟩, ?_⟩
              rw [← after.2]
              cases others : (sent payload more).getLast? with
              | none => simp [List.getLast?_cons, others, checkWrite_ok checked]
              | some last => simp [List.getLast?_cons, others]

theorem adds_patrolRest (kind : payload.kind = .patrol) (token : Text) (ids : List Nat)
    (response : HttpResponse) :
    Adds (fun steps => Batch library ids (.ok response) (sent payload steps))
      (patrolRest library token response ids) := by
  induction ids generalizing response with
  | nil => exact ⟨⟨rfl, fun _ member => nomatch member⟩, rfl⟩
  | cons rid rest ih => exact adds_patrol_chain kind token rid rest _ fun response => ih response

theorem executes_patrol (kind : payload.kind = .patrol) (token : Text) :
    Adds (fun steps => Executes library payload (sent payload steps))
      (patrolBatch library token (patrolRevIds payload)) := by
  have whole : requested payload = (patrolRevIds payload).map some := by simp [requested, kind]
  obtain ⟨first, rest, ids⟩ := List.exists_cons_of_ne_nil
    (show patrolRevIds payload ≠ [] by
      unfold patrolRevIds
      split <;> simp)
  rw [ids] at whole ⊢
  refine (adds_patrol_chain kind token first rest (.error []) fun response =>
    adds_patrolRest kind token rest response).mono fun steps result batch => ?_
  cases result with
  | error reason =>
      intro passed
      exact batch ⟨passed.1.trans whole, passed.2⟩
  | ok final =>
      refine ⟨⟨batch.1.1.trans whole.symm, batch.1.2⟩, ?_⟩
      cases last : (sent payload steps).getLast? with
      | none =>
          have handed := batch.2
          rw [last] at handed
          cases handed
      | some entry =>
          have handed := batch.2
          rw [last] at handed
          exact ⟨entry, rfl, handed⟩

end Batch

section Actions

variable {library : ActionLibrary} {config : WikiConfig} {date : Text}
  {payload : SessionActionExecutionRequest}

theorem executes_write {label : Text} {built : Except ActionError Write}
    (kind : payload.kind ≠ .patrol)
    (good : ∀ write, built = .ok write →
      asks payload write = true ∧ write.label = label ∧ write.target = none) :
    Adds (fun steps => Executes library payload (sent payload steps))
      (executeWrite library label built) :=
  (adds_executeWrite good).mono fun _ _ wrote => wrote.executes (by simp [requested, kind])

theorem executes_rollback (kind : payload.kind = .rollback) (title user token : Text)
    (summary : Option Text) :
    Adds (fun steps => Executes library payload (sent payload steps))
      (executeRollback library title user token summary) := by
  refine executes_write (by simp [kind]) fun write built => ?_
  obtain ⟨_, -, rest⟩ := Traverse.bind_ok built
  obtain ⟨_, -, rest⟩ := Traverse.bind_ok rest
  obtain ⟨_, -, rest⟩ := Traverse.bind_ok rest
  cases rest
  exact ⟨by simp [asks, kind], rfl, rfl⟩

theorem executes_undo (kind : payload.kind = .undo) (title : Text) (undoRevId undoAfterRevId : Nat)
    (token : Text) (summary : Option Text) :
    Adds (fun steps => Executes library payload (sent payload steps))
      (executeUndo library title undoRevId undoAfterRevId token summary) := by
  refine executes_write (by simp [kind]) fun write built => ?_
  obtain ⟨_, -, rest⟩ := Traverse.bind_ok built
  obtain ⟨_, -, rest⟩ := Traverse.bind_ok rest
  obtain ⟨_, -, rest⟩ := Traverse.bind_ok rest
  obtain ⟨_, -, rest⟩ := Traverse.bind_ok rest
  obtain ⟨_, -, rest⟩ := Traverse.bind_ok rest
  cases rest
  exact ⟨by simp [asks, kind], rfl, rfl⟩

/-- A patrol is no write of another action. -/
theorem quiet_executePatrol (kind : payload.kind ≠ .patrol) (revId : Nat) (token : Text) :
    Quiet payload (executePatrol library revId token) := by
  unfold executePatrol executeWrite
  cases built : buildPatrolRequest revId token with
  | error reason => exact quiet_pure _
  | ok write =>
      obtain ⟨_, -, rest⟩ := Traverse.bind_ok built
      obtain ⟨_, -, rest⟩ := Traverse.bind_ok rest
      cases rest
      intro answer
      show sent payload [(.write (.patrol revId token), answer)] = []
      simp [sent, asked, asks, kind]

/-- The patrol behind a save is not what the action asked for. -/
theorem quiet_patrolOriginal (kind : payload.kind ≠ .patrol) (revId : Nat) :
    Quiet payload (patrolOriginalEditIfPossible library revId) := by
  refine quiet_bind (quiet_token _) fun fetched => ?_
  cases fetched with
  | error reason => exact quiet_pure ()
  | ok token => exact quiet_bind (quiet_executePatrol kind revId token) fun _ => quiet_pure ()

theorem executes_save (kind : payload.kind ∈ [.tagCitationNeeded, .inlineEdit, .flagCitation])
    (title text token summary : Text) :
    Adds (fun steps => Executes library payload (sent payload steps))
      (saveAndPatrol library payload title text token summary) := by
  have other : payload.kind ≠ .patrol := by
    intro patrol
    rw [patrol] at kind
    simp at kind
  have saves : Adds (fun steps => Executes library payload (sent payload steps))
      (executeWikiPageSave library (saveRequest title text token summary payload.revId)) := by
    refine executes_write other fun write built => ?_
    obtain ⟨_, -, rest⟩ := Traverse.bind_ok built
    obtain ⟨_, -, rest⟩ := Traverse.bind_ok rest
    obtain ⟨_, -, rest⟩ := Traverse.bind_ok rest
    cases rest
    exact ⟨decide_eq_true kind, rfl, rfl⟩
  unfold saveAndPatrol
  rw [adds_chain]
  refine saves.mono fun steps result made => ?_
  cases result with
  | error reason => exact made
  | ok saved =>
      dsimp only
      rw [adds_bind]
      refine (quiet_patrolOriginal other payload.revId).mono fun more _ nothing => ?_
      rw [Dialogue.adds_pure, List.append_nil, sent_append, nothing, List.append_nil]
      exact made

theorem quiet_inlineText (title : Text) : Quiet payload (inlineText library payload title) := by
  unfold inlineText
  split
  · next locator _ =>
      unfold nodeAnchoredReplacement
      split
      · exact quiet_pure _
      · exact fun _ => rfl
  · dsimp only
    split
    · exact quiet_pure _
    · exact quiet_chain (quiet_page title) fun pageText => quiet_pure _

theorem executes_session (library : ActionLibrary) (config : WikiConfig) (date : Text)
    (payload : SessionActionExecutionRequest) :
    Adds (fun steps => Executes library payload (sent payload steps))
      (executeSessionAction library config date payload) := by
  unfold executeSessionAction
  cases kind : payload.kind with
  | rollback =>
      exact executes_chain (quiet_token _) fun token => executes_rollback kind _ _ token _
  | patrol => exact executes_chain (quiet_token _) fun token => executes_patrol kind token
  | undo =>
      refine executes_chain (quiet_token _) fun token => ?_
      cases payload.undoAfterRevId with
      | none => exact executes_error _
      | some undoAfterRevId => exact executes_undo kind _ _ _ token _
  | tagCitationNeeded =>
      refine executes_chain (quiet_token _) fun token => ?_
      dsimp only
      split
      · exact executes_error _
      · refine executes_chain (quiet_pure _) fun template => ?_
        refine executes_chain (quiet_page _) fun pageText => ?_
        refine executes_chain (quiet_pure _) fun updated => ?_
        exact executes_save (by simp [kind]) _ _ _ _
  | inlineEdit =>
      refine executes_chain (quiet_token _) fun token => ?_
      refine executes_chain (quiet_inlineText _) fun updated => ?_
      exact executes_save (by simp [kind]) _ _ _ _
  | flagCitation =>
      dsimp only
      unfold executeFlagCitationAction
      split
      · exact executes_error _
      · exact executes_error _
      · dsimp only
        split
        · exact executes_error _
        · refine executes_chain (quiet_pure _) fun template => ?_
          refine executes_chain (quiet_token _) fun token => ?_
          refine executes_chain (quiet_page _) fun pageText => ?_
          refine executes_chain (quiet_pure _) fun updated => ?_
          exact executes_save (by simp [kind]) _ _ _ _

end Actions

section Report

variable {library : ActionLibrary} {payload : SessionActionExecutionRequest}

/-- The report says accepted just where the answers allow it. -/
def Reports (library : ActionLibrary) (payload : SessionActionExecutionRequest)
    (steps : List Exchange) (report : Except HttpError SessionActionExecutionResponse) : Prop :=
  acceptedIn report = true ↔ Accepting library payload (sent payload steps)

theorem saysNoChange_eq {answer : Answer} {response : HttpResponse}
    {parsed : MediaWikiActionResponse} (given : answer.http = .ok response)
    (read : reads library response = some parsed) :
    saysNoChange library answer = (parsed.edit.bind (Json.get "nochange")).isSome := by
  unfold reads at read
  simp [saysNoChange, given, Except.toOption] at read ⊢
  simp [read]

theorem sent_record (entries : List Exchange) (entry : ActionExecutionLogEntry)
    (answer : Answer) :
    sent payload (entries ++ [(.record entry, answer)]) = sent payload entries := by
  rw [sent_append]
  exact List.append_nil _

theorem reports_success {entries : List Exchange} {response : HttpResponse} (actor : Text)
    (executedAtMs : Int) (executed : Executes library payload (sent payload entries) (.ok response)) :
    Adds (fun more => Reports library payload (entries ++ more))
      (handleActionSuccess library payload actor executedAtMs response) := by
  obtain ⟨passed, last, ends, given⟩ := executed
  obtain ⟨received, checked⟩ := (passes_iff last).mp (passed.2 last (List.mem_of_getLast? ends))
  cases given.symm.trans (checkWrite_ok checked)
  obtain ⟨parsed, read, -⟩ := (checkWrite_ok_iff.mp checked).2
  have told := saysNoChange_eq given read
  have accepting : Accepting library payload (sent payload entries) ↔
      (parsed.edit.bind (Json.get "nochange")).isSome = false := by
    rw [← told]
    refine ⟨fun all => all.2 last ends, fun changed => ⟨passed, fun entry same => ?_⟩⟩
    cases same.symm.trans ends
    exact changed
  unfold handleActionSuccess
  rw [summary_ok_iff.mpr ⟨parsed, read, rfl⟩]
  dsimp only
  cases changed : (parsed.edit.bind (Json.get "nochange")).isSome with
  | true =>
      rw [changed] at accepting
      simp [Reports, acceptedIn, actionResponsePayload, Except.toOption, accepting]
  | false =>
      rw [changed] at accepting
      intro answer
      show Reports library payload (entries ++ [(.record _, answer)]) _
      unfold Reports
      rw [sent_record]
      refine ⟨fun _ => accepting.mpr rfl, fun _ => ?_⟩
      cases answer.auditWarning with
      | none => simp [acceptedIn, actionResponsePayload, Except.toOption]
      | some warning => simp [acceptedIn, actionResponsePayload, Except.toOption]

theorem reports_error {entries : List Exchange} (error : HttpError)
    (fails : ¬ Passed library payload (sent payload entries)) :
    Reports library payload entries (.error error) :=
  ⟨nofun, fun accepting => absurd accepting.1 fails⟩

theorem reports_failure {entries : List Exchange} {error : ActionError} (executedAtMs : Int)
    (fails : ¬ Passed library payload (sent payload entries)) :
    Adds (fun more => Reports library payload (entries ++ more)) (do
      let failed ← handleActionFailure payload executedAtMs error
      pure (.error failed)) := by
  intro answer
  refine reports_error _ ?_
  rw [sent_record]
  exact fails

/-- A check that asks nobody: an error is no acceptance. -/
theorem reports_check {α : Type} (result : Except HttpError α)
    {next : α → Acting (Except HttpError SessionActionExecutionResponse)}
    (rest : ∀ value, Adds (Reports library payload) (next value)) :
    Adds (Reports library payload) (chain (pure result) next) := by
  rw [adds_chain]
  cases result with
  | error error => exact reports_error error not_passed_nil
  | ok value => exact rest value

/-- However the wiki answers, accepted is reported just where every write asked for passed
and the last answer has no `nochange`. -/
theorem reports (library : ActionLibrary) (payload : SessionActionExecutionRequest)
    (context : ActionContext) :
    Adds (Reports library payload) (postExecuteAction library payload context) := by
  unfold postExecuteAction
  cases context.username with
  | none => exact reports_error _ not_passed_nil
  | some actor =>
      refine reports_check _ fun _ => ?_
      refine reports_check _ fun _ => ?_
      split
      · exact reports_error _ not_passed_nil
      · refine reports_check _ fun config => ?_
        rw [adds_bind]
        refine (executes_session library config context.date payload).mono ?_
        intro steps result executed
        cases result with
        | error error => exact reports_failure _ executed
        | ok response => exact reports_success actor _ executed

end Report

section Outcome

variable {library : ActionLibrary} {payload : SessionActionExecutionRequest}

theorem readActionResponse_object {members : List (String × Json)}
    (clean : (members.lookup "error").all (· = .null) = true) :
    ∃ parsed, readActionResponse (.object members) = some parsed ∧ parsed.error = none := by
  have unnamed : (members.lookup "error").filter (fun value => !decide (value = .null)) = none := by
    cases named : members.lookup "error" with
    | none => rfl
    | some value =>
        rw [named] at clean
        simp_all
  exact ⟨_, by simp [readActionResponse, fieldsOf]; rw [unnamed], rfl⟩

theorem error_of_readActionResponse {members : List (String × Json)}
    {parsed : MediaWikiActionResponse}
    (read : readActionResponse (.object members) = some parsed) (clean : parsed.error = none) :
    (members.lookup "error").all (· = .null) = true := by
  cases named : members.lookup "error" with
  | none => rfl
  | some value =>
      by_cases null : value = .null
      · simp [null]
      · exfalso
        have kept : (members.lookup "error").filter (fun value => !decide (value = .null)) =
            some value := by simp [named, null]
        simp [readActionResponse, fieldsOf] at read
        rw [kept] at read
        cases found : readApiError value with
        | none => simp [found] at read
        | some error =>
            simp [found] at read
            rw [← read] at clean
            cases clean

theorem object_of_carries {entry : Write × Answer} {value : Json}
    (given : answered library entry.2 = some value) (carries : carriesResult library entry = true) :
    ∃ members, value = .object members := by
  cases value with
  | object members => exact ⟨members, rfl⟩
  | _ =>
      unfold carriesResult at carries
      rw [given] at carries
      rcases entry with ⟨write, answer⟩
      cases write <;> simp [Json.get] at carries

theorem answered_iff {answer : Answer} {value : Json} :
    answered library answer = some value ↔
      ∃ response, (answer.http = .ok response ∧ 200 ≤ response.status ∧ response.status < 300) ∧
        library.fromSlice response.body = .ok value := by
  unfold answered
  cases answer.http with
  | error reason => simp [Except.toOption]
  | ok response =>
      cases parsed : library.fromSlice response.body with
      | error reason =>
          by_cases fine : 200 ≤ response.status ∧ response.status < 300 <;>
            simp [Except.toOption, Option.filter, parsed, fine]
      | ok found =>
          by_cases fine : 200 ≤ response.status ∧ response.status < 300 <;>
            simp [Except.toOption, Option.filter, parsed, fine, ← and_assoc]

/-- Success is a passing answer that carries the result. -/
theorem succeeded_eq (entry : Write × Answer) :
    succeeded library entry = (passes library entry && carriesResult library entry) := by
  cases carries : carriesResult library entry with
  | false => simp [succeeded, carries]
  | true =>
      rw [succeeded, carries, Bool.and_true, Bool.and_true, Bool.eq_iff_iff, passes_iff]
      obtain ⟨value, given⟩ : ∃ value, answered library entry.2 = some value := by
        unfold carriesResult at carries
        cases given : answered library entry.2 with
        | none => simp [given] at carries
        | some value => exact ⟨value, rfl⟩
      obtain ⟨members, rfl⟩ := object_of_carries given carries
      obtain ⟨response, fine, parsed⟩ := answered_iff.mp given
      have same : reads library response = readActionResponse (.object members) := by
        simp [reads, parsed, Except.toOption]
      rw [given]
      constructor
      · intro clean
        exact ⟨response, checkWrite_ok_iff.mpr ⟨fine, same ▸ readActionResponse_object clean⟩⟩
      · rintro ⟨received, checked⟩
        obtain ⟨⟨http, -⟩, body, read, clean⟩ := checkWrite_ok_iff.mp checked
        cases fine.1.symm.trans http
        exact error_of_readActionResponse (same ▸ read) clean

/-- The answers under which the report is the truth: where all of them pass, each carries
its result, and where one does not, no other one that passes was a change. -/
def Plain (library : ActionLibrary) (payload : SessionActionExecutionRequest)
    (entries : List (Write × Answer)) : Prop :=
  (Accepting library payload entries → ∀ entry ∈ entries, carriesResult library entry = true) ∧
    (¬ Accepting library payload entries → ∀ entry ∈ entries, passes library entry = true →
      carriesResult library entry = true → changesNothing library entry = true)

theorem truthful_iff {steps : List Exchange}
    {report : Except HttpError SessionActionExecutionResponse}
    (reported : Reports library payload steps report) :
    Truthful library payload steps report ↔ Plain library payload (sent payload steps) := by
  have refused : acceptedIn report = false ↔ ¬ Accepting library payload (sent payload steps) := by
    rw [← Bool.not_eq_true]
    exact not_congr reported
  constructor
  · intro truthful
    refine ⟨fun accepting entry member => ?_, fun no entry member ok carries => ?_⟩
    · have done := (truthful.accepted (reported.mpr accepting)).2 entry member
      rw [succeeded_eq, Bool.and_eq_true] at done
      exact done.2
    · have still := truthful.refused (refused.mpr no) entry member
      simpa [tookEffect, succeeded_eq, ok, carries] using still
  · rintro ⟨whole, kept⟩
    refine ⟨fun accepted => ?_, fun not entry member => ?_⟩
    · have accepting := reported.mp accepted
      refine ⟨accepting.1.1, fun entry member => ?_⟩
      rw [succeeded_eq, accepting.1.2 entry member, whole accepting entry member]
      rfl
    · have still := kept (refused.mp not) entry member
      rw [tookEffect, succeeded_eq]
      cases ok : passes library entry with
      | false => rfl
      | true =>
          cases carries : carriesResult library entry with
          | false => rfl
          | true => simp [still ok carries]

/-- The report of an action is the truth about its writes just where the answers are plain. -/
theorem report_truthful_iff (library : ActionLibrary) (payload : SessionActionExecutionRequest)
    (context : ActionContext) (partner : List Exchange → Call → Answer) :
    Truthful library payload ((postExecuteAction library payload context).run partner []).1
        ((postExecuteAction library payload context).run partner []).2 ↔
      Plain library payload
        (sent payload ((postExecuteAction library payload context).run partner []).1) := by
  obtain ⟨steps, whole, reported⟩ :=
    @Dialogue.run_of_adds _ _ _ partner _ _ (reports library payload context) []
  rw [whole, List.nil_append]
  exact truthful_iff reported

end Outcome

section Examples

def asciiBytes (text : String) : List UInt8 := text.toList.map fun c => c.toNat.toUInt8

def tokenBody : List UInt8 :=
  asciiBytes "\x7b\"query\":\x7b\"tokens\":\x7b\"csrftoken\":\"t\"\x7d\x7d\x7d"

def failureBody : List UInt8 := asciiBytes "\x7b\"edit\":\x7b\"result\":\"Failure\"\x7d\x7d"

/-- A reader of the two bodies. -/
def twoBodies : ActionLibrary where
  fromSlice body :=
    if body = tokenBody then
      .ok (.object [("query", .object [("tokens",
        .object [("csrftoken", .string ['t'])])])])
    else if body = failureBody then
      .ok (.object [("edit", .object [("result", .string "Failure".toList)])])
    else .error []
  shapeError _ := []
  utf8Lossy body := body.map fun byte => Char.ofNat byte.toNat
  display _ := []

/-- A wiki where every edit is stopped by a filter. -/
def filteringWiki (_ : List Exchange) (call : Call) : Answer where
  http := .ok
    { status := 200
      headers := []
      body := match call with
        | .token _ => tokenBody
        | _ => failureBody }
  node := .error (.notConfigured [])
  auditWarning := none

def undoOfFive : SessionActionExecutionRequest where
  wikiId := "frwiki".toList
  kind := .undo
  revId := 5
  title := some "Page".toList
  targetUser := none
  undoAfterRevId := some 4
  summary := none
  selectedText := none
  batchRevIds := none
  replacementText := none
  nodeLocator := none
  concernKind := none
  reason := none

def editor : ActionContext where
  username := some "Editor".toList
  csrf := .ok ()
  capabilities := { canPatrol := true, canRollback := true, canUndo := true, canEdit := true }
  config := .ok { wikiId := "frwiki".toList, citationNeeded := none, citationConcerns := fun _ => none }
  date := []
  executedAtMs := 0

/-- An undo that the wiki answered with a failure is reported as accepted. -/
theorem failed_undo_accepted :
    (∃ done, validateActionRequest undoOfFive editor.capabilities = .ok done) ∧
      ¬ Truthful twoBodies undoOfFive
        ((postExecuteAction twoBodies undoOfFive editor).run filteringWiki []).1
        ((postExecuteAction twoBodies undoOfFive editor).run filteringWiki []).2 := by
  refine ⟨⟨(), by rfl⟩, fun truthful => ?_⟩
  have done := (truthful.accepted (by decide +kernel)).2
  revert done
  decide +kernel

end Examples

end SP42.Actions

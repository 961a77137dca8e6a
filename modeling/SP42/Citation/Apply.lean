import SP42.Citation.EditForm
import SP42.Citation.SearchInside
import SP42.Lib.Dialogue

/-!
Applying a confirmed proposal: the record is read again, written over the first lane that
takes it, and read back. The server may answer every request as it likes.
-/
namespace SP42.Citation

inductive HttpMethod where
  | get
  | post
  | put
  | patch
  | delete
  deriving DecidableEq

structure HttpRequest (Url : Type) where
  method : HttpMethod
  url : Url
  headers : List (String × Text)
  body : List UInt8

/-- What the apply code is built from: the libraries and the compiled patterns. -/
structure ApplySite (Url : Type) where
  urls : UrlLibrary Url
  originBase : Url
  fromSlice : List UInt8 → Option Json
  toBytes : Json → List UInt8
  utf8Lossy : List UInt8 → Text
  formUrlencoded : List (Text × Text) → List UInt8
  patterns : FormPatterns
  toLowercase : Text → Text

structure OpenLibrarySession where
  cookie : Text

inductive ApplyLane where
  | rest
  | form
  deriving DecidableEq

inductive ApplyOutcome where
  | applied (lane : ApplyLane) (newRevision : Nat)
  | refusedDrift (baseRevision currentRevision : Nat)
  | refusedContractDrift (detail : Text)
  | failed (message : Text)
  deriving DecidableEq

abbrev Answer := Except Text HttpResponse

abbrev Apply (Url : Type) := Dialogue (HttpRequest Url) Answer

def openLibraryOrigin : Text := "https://openlibrary.org".toList

variable {Url : Type} (site : ApplySite Url)

/-- An address on the site; the origin where the text is none. -/
def onOrigin (path : Text) : Url :=
  (site.urls.parse (openLibraryOrigin ++ path)).getD site.originBase

def recordUrl (key : Text) : Url := onOrigin site (key ++ ".json".toList)

def editUrl (key : Text) : Url := onOrigin site (key ++ "/edit".toList)

def parseRecord (body : List UInt8) : Option OpenLibraryRecord := do
  let raw ← site.fromSlice body
  let key ← (raw.get "key").bind Json.asStr
  let revision ← (raw.get "revision").bind Json.asU64
  some { key := key, revision := revision, raw := raw }

def buildRecordRequest (recordKey : Text) : HttpRequest Url where
  method := .get
  url := recordUrl site recordKey
  headers := []
  body := []

/-- `Map::insert`: the members stay in the order of their keys. -/
def insertMember (key : String) (value : Json) : List (String × Json) → List (String × Json)
  | [] => [(key, value)]
  | (other, held) :: rest =>
      if other = key then (key, value) :: rest
      else if key < other then (key, value) :: (other, held) :: rest
      else (other, held) :: insertMember key value rest

def setMember (key : String) (value : Json) : Json → Json
  | .object members => .object (insertMember key value members)
  | other => other

def applyProposalToRecord (record : OpenLibraryRecord) (proposal : EnrichmentProposal) : Json :=
  setMember proposal.field proposal.proposed record.raw

def buildRestApplyRequest (session : OpenLibrarySession) (record : OpenLibraryRecord)
    (proposal : EnrichmentProposal) : HttpRequest Url where
  method := .put
  url := recordUrl site record.key
  headers := [("content-type", "application/json".toList), ("cookie", session.cookie)]
  body := site.toBytes
    (setMember "_comment" (.string proposal.comment) (applyProposalToRecord record proposal))

def buildEditFormRequest (session : OpenLibrarySession) (recordKey : Text) : HttpRequest Url where
  method := .get
  url := editUrl site recordKey
  headers := [("cookie", session.cookie)]
  body := []

def buildFormSubmitRequest (session : OpenLibrarySession) (form : EditForm) : HttpRequest Url where
  method := .post
  url := onOrigin site form.actionPath
  headers := [("content-type", "application/x-www-form-urlencoded".toList),
    ("cookie", session.cookie)]
  body := site.formUrlencoded form.fields

/-- A redirect that points back at the record. -/
def formSubmitSucceeded (response : HttpResponse) (recordKey : Text) : Bool :=
  300 ≤ response.status && response.status < 400 &&
    (response.headers.lookup "location").any fun location => (Search.find recordKey location).isSome

/-- Whether the record carries exactly the proposed value. -/
def verifyApplied (record : OpenLibraryRecord) (proposal : EnrichmentProposal) : Bool :=
  record.raw.get proposal.field == some proposal.proposed

/-- What an answer to a record request says. -/
def recordOf (answer : Answer) : Except Text OpenLibraryRecord := do
  let response ← answer
  if isSuccess response.status then
    match parseRecord site response.body with
    | some record => .ok record
    | none => .error "record read was unparseable".toList
  else .error ("record read returned ".toList ++ Text.ofNat response.status)

def readRecord (recordKey : Text) : Apply Url (Except Text OpenLibraryRecord) := do
  let answer ← Dialogue.put (buildRecordRequest site recordKey)
  return recordOf site answer

def notVerified (revision : Nat) : Text :=
  "read-back at revision ".toList ++ Text.ofNat revision ++
    " does not show the proposed value; possible adapter defect — inspect the record history".toList

/-- The value must have landed before success is reported. -/
def readBack (proposal : EnrichmentProposal) (lane : ApplyLane) : Apply Url ApplyOutcome := do
  match ← readRecord site proposal.recordKey with
  | .ok record =>
      if verifyApplied record proposal then return .applied lane record.revision
      else return .failed (notVerified record.revision)
  | .error message => return .failed ("read-back failed: ".toList ++ message)

/-- The form lane, after the record was read. -/
def formLane (session : OpenLibrarySession) (proposal : EnrichmentProposal) :
    Apply Url ApplyOutcome := do
  match ← Dialogue.put (buildEditFormRequest site session proposal.recordKey) with
  | .error error => return .failed error
  | .ok page =>
      if ¬ isSuccess page.status then
        return .failed ("edit form fetch returned ".toList ++ Text.ofNat page.status)
      else
        match parseEditForm site.patterns site.toLowercase (site.utf8Lossy page.body)
            proposal.recordKey with
        | none => return .refusedContractDrift "edit form was not recognizable".toList
        | some form =>
            match fillEditForm form proposal with
            | none =>
                return .refusedContractDrift
                  "edit form lacked the expected field or comment slot".toList
            | some filled =>
                match ← Dialogue.put (buildFormSubmitRequest site session filled) with
                | .error error => return .failed error
                | .ok submit =>
                    if formSubmitSucceeded submit proposal.recordKey then
                      readBack site proposal .form
                    else
                      return .failed ("form submit did not have the success shape (".toList ++
                        Text.ofNat submit.status ++ [')'])

/-- A read that must find the base revision before the apply goes on. -/
def withoutDrift (proposal : EnrichmentProposal)
    (next : OpenLibraryRecord → Apply Url (ApplyOutcome × Option ApplyLane))
    (lane : Option ApplyLane) : Apply Url (ApplyOutcome × Option ApplyLane) := do
  match ← readRecord site proposal.recordKey with
  | .error message => return (.failed message, lane)
  | .ok record =>
      if record.revision ≠ proposal.baseRevision then
        return (.refusedDrift proposal.baseRevision record.revision, lane)
      else next record

/-- The lanes after the first read; the lane cache goes in and comes back. -/
def writeLanes (session : OpenLibrarySession) (proposal : EnrichmentProposal)
    (laneCache : Option ApplyLane) (record : OpenLibraryRecord) :
    Apply Url (ApplyOutcome × Option ApplyLane) := do
  if laneCache = some .form then
    return (← formLane site session proposal, laneCache)
  else
    match ← Dialogue.put (buildRestApplyRequest site session record proposal) with
    | .error error => return (.failed error, laneCache)
    | .ok response =>
        if response.status = 403 then
          -- the capability answer: the fallback restarts the drift window
          withoutDrift site proposal
            (fun _ => do return (← formLane site session proposal, some .form)) (some .form)
        else if isSuccess response.status then
          return (← readBack site proposal .rest, some .rest)
        else
          return (.failed ("REST apply returned ".toList ++ Text.ofNat response.status), laneCache)

/-- The apply without the gate. -/
def executeEnrichmentApplyUnchecked (session : OpenLibrarySession) (proposal : EnrichmentProposal)
    (laneCache : Option ApplyLane) : Apply Url (ApplyOutcome × Option ApplyLane) :=
  withoutDrift site proposal (writeLanes site session proposal laneCache) laneCache

/-- The gate: the write lane is off. -/
def enrichmentWriteLaneEnabled : Bool := false

def executeEnrichmentApply (session : OpenLibrarySession) (proposal : EnrichmentProposal)
    (laneCache : Option ApplyLane) : Apply Url (ApplyOutcome × Option ApplyLane) :=
  if enrichmentWriteLaneEnabled then
    executeEnrichmentApplyUnchecked site session proposal laneCache
  else return (.failed "enrichment write lane is disabled (ADR-0025 Decision 6)".toList, laneCache)

end SP42.Citation

import SP42.Citation.Finding

/-!
The prompts of a panel: the claim and the source, with the bibliographic record and the
sentences before the claim as context.
-/
namespace SP42.Citation

inductive ChatRole where
  | system
  | user
  deriving DecidableEq, Repr

structure ChatMessage where
  role : ChatRole
  content : Text
  deriving DecidableEq

structure ClaimContext where
  articleTitle : Text
  precedingSentences : List Text
  deriving DecidableEq

def ClaimContext.isEmpty (context : ClaimContext) : Bool :=
  Text.trim context.articleTitle = [] &&
    context.precedingSentences.all fun sentence => Text.trim sentence = []

/-- The system instructions, which the build reads from two files. -/
structure Instructions where
  system : Text
  repairSystem : Text

def lines (pieces : List Text) : Text := Text.join "\n".toList pieces

def labelled (label : String) (value : Option Text) : List Text :=
  (value.map fun value => label.toList ++ value).toList

def metadataSection (metadata : CitoidMetadata) : Text :=
  let rows := labelled "- publication: " metadata.publication ++
    labelled "- published: " metadata.published ++ labelled "- author: " metadata.author ++
    labelled "- title: " metadata.title
  if rows = [] then []
  else
    "SOURCE METADATA (bibliographic context only — DO NOT quote from here; your supporting quote MUST come verbatim from the SOURCE text below):\n".toList ++
      lines rows ++ "\n\n".toList

def contextSection (context : ClaimContext) : Text :=
  if context.isEmpty then []
  else
    let article := if Text.trim context.articleTitle = [] then []
      else ["- article: ".toList ++ context.articleTitle]
    let preceding := context.precedingSentences.filter fun sentence => Text.trim sentence ≠ []
    let quoted := if preceding = [] then []
      else "- preceding text:".toList :: preceding.map fun sentence => "    ".toList ++ sentence
    "CLAIM CONTEXT — BACKGROUND ONLY. Use this solely to resolve references and pronouns in the CLAIM (what its names, dates, and \"it\"/\"he\"/\"there\" refer to). It is NOT part of the claim and NOT a source. Do NOT verify it, DO NOT quote from it (your supporting quote MUST come verbatim from the SOURCE text below), and do NOT let it widen the claim or make you hedge. Judge the CLAIM against the SOURCE exactly as if the claim were already self-contained:\n".toList ++
      lines (article ++ quoted) ++ "\n\n".toList

/-- The source between its quotes, and the closing request, which both prompts end with. -/
def sourceSection (sourceText sourceUrl : Text) : Text :=
  "SOURCE (".toList ++ sourceUrl ++ "):\n\"\"\"\n".toList ++ sourceText ++
    "\n\"\"\"\n\nRespond with the JSON object described in the instructions.".toList

def buildVerifyPrompt (instructions : Instructions) (claim sourceText sourceUrl : Text)
    (metadata : Option CitoidMetadata) (context : Option ClaimContext) : List ChatMessage :=
  [⟨.system, instructions.system⟩,
    ⟨.user, "CLAIM:\n".toList ++ claim ++ "\n\n".toList ++ (context.map contextSection).getD [] ++
      (metadata.map metadataSection).getD [] ++ sourceSection sourceText sourceUrl⟩]

def buildRepairPrompt (instructions : Instructions) (claim sourceText sourceUrl failedQuote : Text) :
    List ChatMessage :=
  [⟨.system, instructions.repairSystem⟩,
    ⟨.user, "CLAIM:\n".toList ++ claim ++
      "\n\nPREVIOUS QUOTE (did not match the source verbatim):\n\"\"\"\n".toList ++ failedQuote ++
      "\n\"\"\"\n\n".toList ++ sourceSection sourceText sourceUrl⟩]

end SP42.Citation

/-!
Verification of one claim against one source: the source is fetched once, gated, put
before every model of the panel, and a vote whose quote does not stand in the source gets
one turn to repair it.
-/
namespace SP42.Citation

structure HttpResponse where
  status : Nat
  headers : List (String × Text)
  body : List UInt8

/-- The functions between a response and the text that is grounded. -/
structure Extraction where
  rewriteWaybackUrl : Text → Text
  utf8Lossy : List UInt8 → Text
  looksLikeHtml : Text → Text → Bool
  htmlToText : Text → Text
  recoverWaybackBody : Text → Text

/-- What a verification is built from: libraries, patterns, prompts and parsers. -/
structure Engine (Url : Type) where
  urls : UrlLibrary Url
  parseWithParams : Text → List (Text × Text) → Option Url
  /-- The endpoints that are parsed once. -/
  metadataBase : Url
  booksApiBase : Url
  unicode : Unicode
  patterns : Patterns
  extraction : Extraction
  fromStr : Text → Option Json
  fromSlice : List UInt8 → Option Json
  debugText : Text → Text
  sha256Hex : List UInt8 → Text
  serialize : List ChatMessage → List UInt8
  instructions : Instructions
  parseVerdictResponse : Text → Option ParsedVerdict
  parseRepairResponse : Text → Option Text
  citoidUrl : Text → Url
  citoidMetadata : List UInt8 → Text → Option CitoidMetadata

/-- The bytes of a text. -/
def utf8Bytes (text : Text) : List UInt8 := (String.ofList text).toUTF8.data.toList

/-- The errors that a verification can end with. -/
inductive CitationVerificationError where
  | invalidRequest (message : Text)
  | invalidResponse (message : Text)
  deriving DecidableEq

structure FetchedSource where
  text : Text
  status : Nat
  contentType : Text
  rawHtml : Option Text
  bookSnippet : Bool
  deriving DecidableEq

/-- The sampling parameters, each as the text of its fingerprint. -/
structure SamplingParams where
  fingerprint : List (Text × Text)
  deriving DecidableEq

structure ModelCompletionRequest where
  model : ModelRef
  messages : List ChatMessage
  params : SamplingParams
  deriving DecidableEq

/-- What the client answers to the verify and to the repair call of each panel position. -/
structure ModelClient where
  verify : Nat → ModelCompletionRequest → Except Text Text
  repair : Nat → ModelCompletionRequest → Except Text Text

inductive CallKind where
  | verify
  | repair
  deriving DecidableEq, Repr

/-- A call that was issued to the model client. -/
structure Call where
  kind : CallKind
  position : Nat
  request : ModelCompletionRequest
  deriving DecidableEq

structure CitationVerificationRequest (Url : Type) where
  wikiId : Text
  revId : Nat
  title : Text
  claim : Text
  sourceUrl : Url
  deriving DecidableEq

structure VerifyOptions where
  includeMetadata : Bool
  concurrency : Nat
  params : SamplingParams
  repairTurn : Bool
  prefetched : Option FetchedSource
  metadataSidecar : Option CitoidMetadata
  deriving DecidableEq

structure VerifyModelInputs where
  claim : Text
  sourceText : Text
  sourceUrl : Text
  metadata : Option CitoidMetadata
  context : Option ClaimContext
  deriving DecidableEq

structure VerificationOutcome (Url : Type) where
  finding : CitationFinding Url
  votes : List ModelVote
  deriving DecidableEq

/-- The results come in the order of the items, whatever the limit on those in flight. -/
def mapWithConcurrency {α β : Type} (items : List α) (_limit : Nat) (f : α → Nat → β) : List β :=
  items.mapIdx fun index item => f item index

theorem mapWithConcurrency_map {α β : Type} (items : List α) (limit : Nat) (f : α → β) :
    mapWithConcurrency items limit (fun item _ => f item) = items.map f := by
  apply List.ext_getElem?
  intro position
  simp [mapWithConcurrency]

theorem mapWithConcurrency_zipIdx {α β : Type} (items : List α) (limit : Nat) (f : α → Nat → β) :
    mapWithConcurrency items limit f = items.zipIdx.map fun entry => f entry.1 entry.2 :=
  List.mapIdx_eq_zipIdx_map

section Excerpt

def sourceExcerptMaxChars : Nat := 700

/-- How many characters begin before a byte, from the byte of the first on. -/
def charsBefore (limit : Nat) : Nat → Text → Nat
  | _, [] => 0
  | byte, c :: rest => if byte < limit then charsBefore limit (byte + c.utf8Size) rest + 1 else 0

def buildSourceExcerpt (sourceText : Text) (passage : Option LocatedPassage) : Option Text :=
  if Text.trim sourceText = [] then none
  else if sourceText.length ≤ sourceExcerptMaxChars then some (Text.trim sourceText)
  else
    let center := (passage.map fun passage => charsBefore passage.offset 0 sourceText).getD 0
    let stop := min (center - sourceExcerptMaxChars / 2 + sourceExcerptMaxChars) sourceText.length
    let start := stop - sourceExcerptMaxChars
    let body := Text.trim ((sourceText.take stop).drop start)
    some ((if 0 < start then "… ".toList else []) ++ body ++
      (if stop < sourceText.length then " …".toList else []))

end Excerpt

section Fetch

variable {Url : Type} (engine : Engine Url) (fetch : Url → Except Text HttpResponse)

def fetchSource (sourceUrl : Text) : Except CitationVerificationError FetchedSource :=
  match engine.urls.parse (engine.extraction.rewriteWaybackUrl sourceUrl) with
  | none => .error (.invalidRequest ("invalid source url ".toList ++ engine.debugText sourceUrl))
  | some url =>
      match fetch url with
      | .error message => .error (.invalidResponse message)
      | .ok response =>
          if ¬ (200 ≤ response.status ∧ response.status < 400) then
            .ok ⟨[], response.status, [], none, false⟩
          else
            let contentType := (response.headers.lookup "content-type").getD []
            let body := engine.extraction.utf8Lossy response.body
            let isHtml := engine.extraction.looksLikeHtml contentType body
            let extracted := if isHtml then engine.extraction.htmlToText body else body
            .ok ⟨engine.extraction.recoverWaybackBody extracted, response.status, contentType,
              if isHtml then some body else none, false⟩

def fetchMetadata (sourceUrl : Text) : Option CitoidMetadata :=
  match fetch (engine.citoidUrl sourceUrl) with
  | .error _ => none
  | .ok response =>
      if 200 ≤ response.status ∧ response.status < 300 then
        engine.citoidMetadata response.body sourceUrl
      else none

end Fetch

section Models

variable {Url : Type} (engine : Engine Url) (models : ModelClient)

def buildVerifyCompletionRequest (model : ModelRef) (params : SamplingParams)
    (inputs : VerifyModelInputs) :
    Except CitationVerificationError (ModelCompletionRequest × ModelInvocation) :=
  if Text.trim inputs.claim = [] then .error (.invalidRequest "claim is empty".toList)
  else if Text.trim inputs.sourceText = [] then
    .error (.invalidRequest "source text is empty".toList)
  else
    let messages := buildVerifyPrompt engine.instructions inputs.claim inputs.sourceText
      inputs.sourceUrl inputs.metadata inputs.context
    .ok (⟨model, messages, params⟩,
      ⟨model, none, params.fingerprint, engine.sha256Hex (engine.serialize messages)⟩)

def sourceUnavailableModelVote (model : ModelRef) (params : SamplingParams)
    (inputs : VerifyModelInputs) : Except CitationVerificationError ModelVerdict :=
  (buildVerifyCompletionRequest engine model params inputs).map fun request =>
    ⟨request.2, ⟨.sourceUnavailable, none⟩, none⟩

/-- One model's vote, and the call it was asked with. -/
def executeCitationVerify (position : Nat) (model : ModelRef) (params : SamplingParams)
    (inputs : VerifyModelInputs) : Except CitationVerificationError ModelVerdict × List Call :=
  match buildVerifyCompletionRequest engine model params inputs with
  | .error error => (.error error, [])
  | .ok (request, invocation) =>
      (match models.verify position request with
        | .error message => .error (.invalidResponse message)
        | .ok completion =>
            .ok ⟨invocation,
              (engine.parseVerdictResponse completion).getD ⟨.notSupported, none⟩, none⟩,
        [⟨.verify, position, request⟩])

/-- One turn to repair a quote, and the call it was asked with. -/
def executeCitationRepair (position : Nat) (model : ModelRef) (params : SamplingParams)
    (inputs : VerifyModelInputs) (failedQuote : Text) :
    Except CitationVerificationError RepairAttempt × List Call :=
  let messages := buildRepairPrompt engine.instructions inputs.claim inputs.sourceText
    inputs.sourceUrl failedQuote
  let request : ModelCompletionRequest := ⟨model, messages, params⟩
  (match models.repair position request with
    | .error message => .error (.invalidResponse message)
    | .ok completion =>
        .ok ⟨⟨model, none, params.fingerprint, engine.sha256Hex (engine.serialize messages)⟩,
          engine.parseRepairResponse completion⟩,
    [⟨.repair, position, request⟩])

/-- A model's vote; a model that fails is recorded as an abstention. -/
def panelVote (params : SamplingParams) (inputs : VerifyModelInputs) (model : ModelRef)
    (position : Nat) : Except CitationVerificationError ModelVerdict × List Call :=
  let (result, calls) := executeCitationVerify engine models position model params inputs
  (match result with
    | .ok verdict => .ok verdict
    | .error (.invalidResponse _) => sourceUnavailableModelVote engine model params inputs
    | .error error => .error error,
    calls)

/-- A vote that waits for a repair: its position, its model and the quote that failed. -/
structure Pending where
  position : Nat
  model : ModelRef
  failedQuote : Text
  deriving DecidableEq

/-- The quote of a support vote that does not stand in the source. -/
def failedQuote (sourceText : Text) (vote : ModelVerdict) : Option Text :=
  if vote.parsed.verdict.isSupportClass then
    vote.parsed.quote.filter fun quote => (locateQuote engine.unicode quote sourceText).isNone
  else none

def pendingRepairs (sourceText : Text) (verdicts : List ModelVerdict) : List Pending :=
  verdicts.zipIdx.filterMap fun entry =>
    (failedQuote engine sourceText entry.1).map fun quote =>
      ⟨entry.2, entry.1.invocation.model, quote⟩

/-- A repair that came back is kept with the vote it is for. -/
def recordRepair (verdicts : List ModelVerdict)
    (repair : Nat × Except CitationVerificationError RepairAttempt) : List ModelVerdict :=
  match repair.2 with
  | .ok attempt => verdicts.modify repair.1 fun vote => { vote with repair := some attempt }
  | .error _ => verdicts

def runRepairTurn (params : SamplingParams) (concurrency : Nat) (inputs : VerifyModelInputs)
    (sourceText : Text) (verdicts : List ModelVerdict) : List ModelVerdict × List Call :=
  let repairs := mapWithConcurrency (pendingRepairs engine sourceText verdicts) concurrency
    fun pending _ =>
      let (attempt, calls) := executeCitationRepair engine models pending.position pending.model
        params inputs pending.failedQuote
      ((pending.position, attempt), calls)
  ((repairs.map Prod.fst).foldl recordRepair verdicts, repairs.flatMap Prod.snd)

end Models

section UseSite

variable {Url : Type} (engine : Engine Url) (fetch : Url → Except Text HttpResponse)
  (models : ModelClient) (nowMs : Int)

/-- The usability of a fetched source. A snippet of a book may be short. -/
def sourceUsability (sourceUrl : Text) (fetched : FetchedSource) : BodyUsability :=
  let body := if fetched.text = [] then none else some fetched.text
  let usability := classifySourceUsability engine.urls engine.patterns engine.fromStr sourceUrl
    fetched.contentType fetched.rawHtml body
  if fetched.bookSnippet && body.isSome && usability.reason = .shortBody then ⟨true, .ok⟩
  else usability

def unusableSourceOutcome (reason : BodyUsabilityReason) (provenance : SourceProvenance Url)
    (useSiteOrdinal : Nat) : VerificationOutcome Url :=
  let finding := noQuoteFinding .sourceUnavailable .notApplicable ⟨0, 0⟩ provenance useSiteOrdinal
  { finding :=
      if finding.sourceUnavailableReason = some .unusable then
        { finding with unusableReason := some reason }
      else finding
    votes := [] }

/-- The votes of the panel, with the calls, once the source is there. -/
def judge (panel : List ModelRef) (inputs : VerifyModelInputs) (options : VerifyOptions) :
    Except CitationVerificationError (List ModelVerdict) × List Call :=
  let concurrency := max options.concurrency 1
  let results := mapWithConcurrency panel concurrency (panelVote engine models options.params inputs)
  let calls := results.flatMap Prod.snd
  match (results.map Prod.fst).mapM id with
  | .error error => (.error error, calls)
  | .ok verdicts =>
      if options.repairTurn then
        let (repaired, repairCalls) := runRepairTurn engine models options.params concurrency inputs
          inputs.sourceText verdicts
        (.ok repaired, calls ++ repairCalls)
      else (.ok verdicts, calls)

def provenanceOf (sourceUrl : Url) (fetched : FetchedSource) : SourceProvenance Url :=
  ⟨sourceUrl, engine.sha256Hex (utf8Bytes fetched.text), nowMs, some fetched.status⟩

def modelInputs (request : CitationVerificationRequest Url) (context : Option ClaimContext)
    (options : VerifyOptions) (fetched : FetchedSource) : VerifyModelInputs where
  claim := request.claim
  sourceText := fetched.text
  sourceUrl := engine.urls.asStr request.sourceUrl
  metadata :=
    options.metadataSidecar.or
      (if options.includeMetadata then
        fetchMetadata engine fetch (engine.urls.asStr request.sourceUrl)
      else none)
  context := context

/-- The finding of the votes, with its excerpt. -/
def outcomeOf (provenance : SourceProvenance Url) (sourceText : Text)
    (verdicts : List ModelVerdict) (useSiteOrdinal : Nat) : VerificationOutcome Url :=
  let finding := assembleCitationFinding engine.unicode sourceText provenance verdicts useSiteOrdinal
  { finding := { finding with sourceExcerpt := buildSourceExcerpt sourceText finding.passage }
    votes := buildModelVotes engine.unicode verdicts sourceText }

def verifyCitationUseSite (panel : List ModelRef) (request : CitationVerificationRequest Url)
    (context : Option ClaimContext) (useSiteOrdinal : Nat) (options : VerifyOptions) :
    Except CitationVerificationError (VerificationOutcome Url) × List Call :=
  if panel = [] then (.error (.invalidRequest "model panel is empty".toList), [])
  else
    let sourceUrl := engine.urls.asStr request.sourceUrl
    match options.prefetched.elim (fetchSource engine fetch sourceUrl) Except.ok with
    | .error error => (.error error, [])
    | .ok fetched =>
        let provenance := provenanceOf engine nowMs request.sourceUrl fetched
        let usability := sourceUsability engine sourceUrl fetched
        if !usability.usable then
          (.ok (unusableSourceOutcome usability.reason provenance useSiteOrdinal), [])
        else
          let (verdicts, calls) := judge engine models panel
            (modelInputs engine fetch request context options fetched) options
          (verdicts.map fun verdicts =>
            outcomeOf engine provenance fetched.text verdicts useSiteOrdinal, calls)

variable {engine fetch models nowMs} {panel : List ModelRef}
  {request : CitationVerificationRequest Url} {context : Option ClaimContext}
  {useSiteOrdinal : Nat} {options : VerifyOptions}

/-- A usable source is put before the panel. -/
theorem verifyCitationUseSite_votes {fetched : FetchedSource} (inhabited : panel ≠ [])
    (source : options.prefetched.elim
      (fetchSource engine fetch (engine.urls.asStr request.sourceUrl)) Except.ok = .ok fetched)
    (usable : (sourceUsability engine (engine.urls.asStr request.sourceUrl) fetched).usable = true)
    {verdicts : List ModelVerdict} {calls : List Call}
    (run : judge engine models panel (modelInputs engine fetch request context options fetched)
      options = (.ok verdicts, calls)) :
    verifyCitationUseSite engine fetch models nowMs panel request context useSiteOrdinal options =
      (.ok (outcomeOf engine (provenanceOf engine nowMs request.sourceUrl fetched) fetched.text
        verdicts useSiteOrdinal), calls) := by
  unfold verifyCitationUseSite
  rw [if_neg inhabited]
  simp [source, usable, run, Except.map]

/-- A use site that has an outcome has a source; the source was not usable, or the panel
voted on it. -/
theorem verifyCitationUseSite_cases {outcome : VerificationOutcome Url}
    (run : (verifyCitationUseSite engine fetch models nowMs panel request context useSiteOrdinal
      options).1 = .ok outcome) :
    panel ≠ [] ∧ ∃ fetched,
      options.prefetched.elim (fetchSource engine fetch (engine.urls.asStr request.sourceUrl))
        Except.ok = .ok fetched ∧
      ((∃ reason, outcome = unusableSourceOutcome reason
          (provenanceOf engine nowMs request.sourceUrl fetched) useSiteOrdinal) ∨
        ((sourceUsability engine (engine.urls.asStr request.sourceUrl) fetched).usable = true ∧
          ∃ verdicts, (judge engine models panel
              (modelInputs engine fetch request context options fetched) options).1 = .ok verdicts ∧
            outcome = outcomeOf engine (provenanceOf engine nowMs request.sourceUrl fetched)
              fetched.text verdicts useSiteOrdinal)) := by
  unfold verifyCitationUseSite at run
  split at run
  · cases run
  · rename_i inhabited
    refine ⟨inhabited, ?_⟩
    dsimp only at run
    split at run
    · cases run
    · rename_i fetched source
      refine ⟨fetched, source, ?_⟩
      split at run
      · cases run
        exact .inl ⟨_, rfl⟩
      · rename_i usable
        rw [Bool.not_eq_true', Bool.not_eq_false] at usable
        refine .inr ⟨usable, ?_⟩
        cases judged : (judge engine models panel
            (modelInputs engine fetch request context options fetched) options).1 with
        | error error =>
            rw [judged] at run
            cases run
        | ok verdicts =>
            rw [judged] at run
            cases run
            exact ⟨verdicts, rfl, rfl⟩

theorem unusableSourceOutcome_status (reason : BodyUsabilityReason)
    (provenance : SourceProvenance Url) (useSiteOrdinal : Nat) :
    (unusableSourceOutcome reason provenance useSiteOrdinal).finding.groundingStatus =
      .notApplicable := by
  unfold unusableSourceOutcome
  dsimp only
  split
  · rfl
  · rfl

end UseSite

end SP42.Citation

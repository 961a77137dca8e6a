import SP42.Citation.Ledger
import SP42.Citation.Probe

/-!
A page that an agent has verified: its use sites under a cap, the report on them, and the
completions that the models were asked for on the way.
-/
namespace SP42.Citation

section Attempts

variable {α β : Type} (calls : α → List β) (settled : α → Bool)

/-- What is asked for by attempts that end with the first that settles the matter. -/
def askedFor : List α → List β
  | [] => []
  | attempt :: rest =>
      if settled attempt then calls attempt else calls attempt ++ askedFor rest

variable {calls settled}

theorem mem_askedFor {attempts : List α} {wanted : β} (inhabited : attempts ≠ [])
    (common : ∀ attempt ∈ attempts, wanted ∈ calls attempt) :
    wanted ∈ askedFor calls settled attempts := by
  cases attempts with
  | nil => exact absurd rfl inhabited
  | cons attempt rest =>
      rw [askedFor]
      split
      · exact common attempt List.mem_cons_self
      · exact List.mem_append_left _ (common attempt List.mem_cons_self)

/-- Nothing is asked for twice just when the first attempt settles the matter or is the only one. -/
theorem askedFor_nodup_iff {attempts : List α} {wanted : β}
    (once : ∀ attempt ∈ attempts, (calls attempt).Nodup)
    (common : ∀ attempt ∈ attempts, wanted ∈ calls attempt) :
    (askedFor calls settled attempts).Nodup ↔
      ¬ ∃ first other rest, attempts = first :: other :: rest ∧ settled first = false := by
  cases attempts with
  | nil => exact iff_of_true List.nodup_nil (by simp)
  | cons first later =>
      have single := once first List.mem_cons_self
      have held := common first List.mem_cons_self
      rw [askedFor]
      cases ended : settled first with
      | true =>
          refine iff_of_true (by rwa [if_pos rfl]) ?_
          rintro ⟨one, other, rest, same, open_⟩
          rw [(List.cons.inj same).1] at ended
          rw [ended] at open_
          cases open_
      | false =>
          rw [if_neg Bool.false_ne_true]
          cases later with
          | nil =>
              refine iff_of_true (by rwa [askedFor, List.append_nil]) ?_
              rintro ⟨one, other, rest, same, -⟩
              cases same
          | cons other rest =>
              refine iff_of_false ?_ (not_not.mpr ⟨first, other, rest, rfl, ended⟩)
              intro distinct
              have again : wanted ∈ askedFor calls settled (other :: rest) :=
                mem_askedFor (List.cons_ne_nil _ _) fun attempt member =>
                  common attempt (List.mem_cons_of_mem _ member)
              exact (List.nodup_append.mp distinct).2.2 wanted held wanted again rfl

end Attempts

/-- The options of a run that sets none. -/
def defaultOptions : VerifyOptions where
  includeMetadata := false
  concurrency := 3
  params := ⟨[("temperature".toList, "0".toList)]⟩
  repairTurn := true
  prefetched := none
  metadataSidecar := none

def defaultMaxUseSites : Nat := 50

def pageVerifyConcurrency : Nat := 8

structure PageFinding where
  claim : Text
  refUrl : Text
  verdict : Verdict
  quote : Option Text
  useSiteOrdinal : Nat
  refId : Text
  archiveOf : Option Text
  deriving DecidableEq

structure PageVerifyResult where
  useSiteCount : Nat
  impliedPanelCalls : Nat
  skippedCount : Nat
  estimated : Bool
  verifiedCount : Nat
  truncated : Bool
  findings : List PageFinding
  deriving DecidableEq

/-- What a call asks a model for: its kind and the place of the model in the panel. -/
def Call.key (call : Call) : CallKind × Nat := (call.kind, call.position)

section Runs

variable {Url : Type} (engine : Engine Url) (fetch : Url → Except Text HttpResponse)
  (models : ModelClient) (nowMs : Int) (panel : List ModelRef)

/-- `Verdict::from`. -/
def Verdict.ofCitation : CitationVerdict → Verdict
  | .judged .supported => .supported
  | .judged .partially => .partially
  | .judged .notSupported => .notSupported
  | .sourceUnavailable => .sourceUnavailable

def toPageFinding (finding : CitationFinding Url) : PageFinding where
  claim := finding.claim
  refUrl := engine.urls.asStr finding.provenance.url
  verdict := Verdict.ofCitation finding.verdict
  quote := finding.passage.map LocatedPassage.quote
  useSiteOrdinal := finding.useSiteOrdinal
  refId := finding.refId
  archiveOf := finding.archiveOf.map engine.urls.asStr

/-- The run on one archived copy that was fetched. -/
def copyRun (site : CitationUseSite Url) (options : VerifyOptions) (archive : Url)
    (body : FetchedSource) :
    Except CitationVerificationError (VerificationOutcome Url) × List Call :=
  verifyCitationUseSite engine fetch models nowMs panel { site.request with sourceUrl := archive }
    (some site.context) site.useSiteOrdinal
    { options with includeMetadata := false, prefetched := some body }

/-- The loop over the archived copies, with the completions it asks for. -/
def archivesRun (site : CitationUseSite Url) (options : VerifyOptions) :
    List Url → Option (VerificationOutcome Url) × List Call
  | [] => (none, [])
  | archive :: rest =>
      match fetchSource engine fetch (engine.urls.asStr archive) with
      | .error _ => archivesRun site options rest
      | .ok body =>
          let run := copyRun engine fetch models nowMs panel site options archive body
          let later := archivesRun site options rest
          match run.1 with
          | .error _ => (later.1, run.2 ++ later.2)
          | .ok outcome =>
              if outcome.finding.verdict = .sourceUnavailable then (later.1, run.2 ++ later.2)
              else (some { outcome with
                finding := { outcome.finding with archiveOf := some site.request.sourceUrl } }, run.2)

/-- The completions of a use site: those on its own source, and those on its archived copies
where the source is unreachable. -/
def siteCalls (bodies : List (Text × FetchedSource)) (options : VerifyOptions)
    (site : CitationUseSite Url) : List Call :=
  let primary := verifyCitationUseSite engine fetch models nowMs panel site.request
    (some site.context) site.useSiteOrdinal
    { options with prefetched := bodies.lookup (engine.urls.asStr site.request.sourceUrl) }
  match primary.1 with
  | .error _ => primary.2
  | .ok outcome =>
      if outcome.finding.verdict = .sourceUnavailable ∧
          outcome.finding.sourceUnavailableReason = some .unreachable then
        primary.2 ++ (archivesRun engine fetch models nowMs panel site options site.archiveUrls).2
      else primary.2

def bookCalls (page : PageVerificationRequest) (options : VerifyOptions) (site : BookUseSite) :
    List Call :=
  ((verifyBookUseSite engine fetch models nowMs panel page site options).map fun run =>
    run.2.2).getD []

/-- The completions that a page is asked for, use site by use site. -/
def pageCalls (page : PageVerificationRequest) (extract : ExtractOutcome Url)
    (options : VerifyOptions) (pageConcurrency : Nat) : List (List Call) :=
  let bodies := prefetchBodies engine fetch extract.useSites (max pageConcurrency 1)
  extract.useSites.map (siteCalls engine fetch models nowMs panel bodies options) ++
    extract.bookUseSites.map (bookCalls engine fetch models nowMs panel page options)

def useSiteCount (extract : ExtractOutcome Url) : Nat :=
  extract.useSites.length + extract.bookUseSites.length

/-- The use sites under the cap: URLs first, and books in what is left. -/
def capped (limit : Nat) (extract : ExtractOutcome Url) : ExtractOutcome Url :=
  if limit < useSiteCount extract then
    let urlKept := min extract.useSites.length limit
    { extract with
      useSites := extract.useSites.take urlKept
      bookUseSites := extract.bookUseSites.take (limit - urlKept) }
  else extract

/-- The result with the completions that were asked for, a list for each use site under the
cap. -/
def verifyExtracted (letters : Letters) (blocks : List (ParsoidBlock Url))
    (request : PageVerificationRequest) (estimateOnly : Bool) (maxUseSites : Option Nat) :
    Option (PageVerifyResult × List (List Call)) :=
  let extract := extractUseSites letters request blocks
  let count := useSiteCount extract
  let implied := count * panel.length
  if estimateOnly then
    some (⟨count, implied, extract.skipped.length, true, 0, false, []⟩, [])
  else
    let limit := maxUseSites.getD defaultMaxUseSites
    let kept := capped limit extract
    (verifyPage engine fetch models nowMs panel request kept defaultOptions
      pageVerifyConcurrency).map fun report =>
        let findings := report.findings.map (toPageFinding engine)
        (⟨count, implied, report.skipped.length, false, findings.length, limit < count, findings⟩,
          pageCalls engine fetch models nowMs panel request kept defaultOptions
            pageVerifyConcurrency)

end Runs

section Completions

variable {Url : Type} {engine : Engine Url} {fetch : Url → Except Text HttpResponse}
  {models : ModelClient} {nowMs : Int} {panel : List ModelRef}

/-- The archived copies are tried as the use site tries them. -/
theorem archivesRun_outcome (site : CitationUseSite Url) (options : VerifyOptions)
    (archives : List Url) :
    (archivesRun engine fetch models nowMs panel site options archives).1 =
      archives.findSome? (tryArchive engine fetch models nowMs panel site options) := by
  induction archives with
  | nil => rfl
  | cons archive rest ih =>
      rw [archivesRun, List.findSome?_cons, tryArchive]
      cases fetchSource engine fetch (engine.urls.asStr archive) with
      | error error => exact ih
      | ok body =>
          dsimp only
          rw [← copyRun]
          cases (copyRun engine fetch models nowMs panel site options archive body).1 with
          | error error => exact ih
          | ok outcome =>
              dsimp only
              split
              · exact ih
              · rfl

/-- Every completion that a panel may be asked for, once. -/
def callPlan (size : Nat) : List (CallKind × Nat) :=
  (List.range size).map (CallKind.verify, ·) ++ (List.range size).map (CallKind.repair, ·)

theorem callPlan_nodup (size : Nat) : (callPlan size).Nodup := by
  have each (kind : CallKind) : ((List.range size).map (kind, ·)).Nodup :=
    List.nodup_range.map fun one other same => (Prod.mk.inj same).2
  refine List.nodup_append.mpr ⟨each .verify, each .repair, ?_⟩
  intro one first other second same
  obtain ⟨_, _, rfl⟩ := List.mem_map.mp first
  obtain ⟨_, _, rfl⟩ := List.mem_map.mp second
  cases same

theorem callPlan_length (size : Nat) : (callPlan size).length = 2 * size := by
  rw [callPlan, List.length_append, List.length_map, List.length_map, List.length_range]
  omega

theorem panelVote_calls {params : SamplingParams} {inputs : VerifyModelInputs} (model : ModelRef)
    (position : Nat) :
    ((panelVote engine models params inputs model position).2.map Call.key).Sublist
      [(.verify, position)] := by
  unfold panelVote executeCitationVerify
  cases buildVerifyCompletionRequest engine model params inputs with
  | error error => exact List.nil_sublist _
  | ok request => exact List.Sublist.refl _

theorem panelVotes_calls {params : SamplingParams} {inputs : VerifyModelInputs}
    (entries : List (ModelRef × Nat)) :
    ((entries.flatMap fun entry =>
      (panelVote engine models params inputs entry.1 entry.2).2).map Call.key).Sublist
      (entries.map fun entry => (CallKind.verify, entry.2)) := by
  induction entries with
  | nil => exact List.Sublist.refl _
  | cons entry rest ih =>
      rw [List.flatMap_cons, List.map_append, List.map_cons]
      exact (panelVote_calls entry.1 entry.2).append ih

theorem zipIdx_positions {α : Type} (items : List α) :
    items.zipIdx.map Prod.snd = List.range items.length := by
  rw [List.range_eq_range', List.zipIdx_map_snd]

/-- A panel is asked for its votes in its order, each once. -/
theorem panel_calls {params : SamplingParams} {inputs : VerifyModelInputs} (limit : Nat) :
    (((mapWithConcurrency panel limit (panelVote engine models params inputs)).flatMap
      Prod.snd).map Call.key).Sublist ((List.range panel.length).map (CallKind.verify, ·)) := by
  rw [mapWithConcurrency_zipIdx, List.flatMap_map, ← zipIdx_positions panel, List.map_map]
  exact panelVotes_calls panel.zipIdx

theorem mapM_length {ε α : Type} {items : List (Except ε α)} :
    ∀ {values : List α}, items.mapM id = .ok values → values.length = items.length := by
  induction items with
  | nil =>
      intro values run
      cases run
      rfl
  | cons item rest ih =>
      intro values run
      rw [List.mapM_cons] at run
      cases item with
      | error error => cases run
      | ok value =>
          cases later : rest.mapM id with
          | error error =>
              rw [later] at run
              cases run
          | ok others =>
              rw [later] at run
              cases run
              rw [List.length_cons, List.length_cons, ih later]

/-- A repair is asked for each vote at most once. -/
theorem repair_calls {params : SamplingParams} {inputs : VerifyModelInputs} (limit : Nat)
    (verdicts : List ModelVerdict) :
    ((runRepairTurn engine models params limit inputs inputs.sourceText verdicts).2.map
      Call.key).Sublist ((List.range verdicts.length).map (CallKind.repair, ·)) := by
  have issued : (runRepairTurn engine models params limit inputs inputs.sourceText verdicts).2.map
      Call.key = (pendingRepairs engine inputs.sourceText verdicts).map fun pending =>
        (CallKind.repair, pending.position) :=
    runRepairTurn_calls params limit inputs inputs.sourceText verdicts
  have positions : ((pendingRepairs engine inputs.sourceText verdicts).map
      Pending.position).Sublist (List.range verdicts.length) := by
    rw [pendingRepairs_positions, ← zipIdx_positions verdicts]
    exact List.filter_sublist.map Prod.snd
  have keys := positions.map (CallKind.repair, ·)
  rw [List.map_map] at keys
  rw [issued]
  exact keys

theorem judge_calls {inputs : VerifyModelInputs} {options : VerifyOptions} :
    ((judge engine models panel inputs options).2.map Call.key).Sublist
      (callPlan panel.length) := by
  have votes := @panel_calls Url engine models panel options.params inputs
    (max options.concurrency 1)
  unfold judge callPlan
  dsimp only
  cases counted : ((mapWithConcurrency panel (max options.concurrency 1)
      (panelVote engine models options.params inputs)).map Prod.fst).mapM id with
  | error error => exact votes.trans (List.sublist_append_left _ _)
  | ok verdicts =>
      have size : verdicts.length = panel.length := by
        rw [mapM_length counted, List.length_map, mapWithConcurrency, List.length_mapIdx]
      dsimp only
      split
      · rw [List.map_append]
        have repairs := @repair_calls Url engine models options.params inputs
          (max options.concurrency 1) verdicts
        rw [size] at repairs
        exact votes.append repairs
      · exact votes.trans (List.sublist_append_left _ _)

/-- One verification asks each model for one vote and one repair at most. -/
theorem verifyCitationUseSite_calls {request : CitationVerificationRequest Url}
    {context : Option ClaimContext} {useSiteOrdinal : Nat} {options : VerifyOptions} :
    ((verifyCitationUseSite engine fetch models nowMs panel request context useSiteOrdinal
      options).2.map Call.key).Sublist (callPlan panel.length) := by
  unfold verifyCitationUseSite
  split
  · exact List.nil_sublist _
  · dsimp only
    split
    · exact List.nil_sublist _
    · split
      · exact List.nil_sublist _
      · exact judge_calls

end Completions

section Sites

variable {Url : Type} (engine : Engine Url) (fetch : Url → Except Text HttpResponse)
  (models : ModelClient) (panel : List ModelRef)

/-- The source of a use site, from the cache or on demand. -/
def siteSource (bodies : List (Text × FetchedSource)) (site : CitationUseSite Url) :
    Except CitationVerificationError FetchedSource :=
  (bodies.lookup (engine.urls.asStr site.request.sourceUrl)).elim
    (fetchSource engine fetch (engine.urls.asStr site.request.sourceUrl)) Except.ok

/-- The archived copies that were fetched. -/
def readCopies (archives : List Url) : List (Url × FetchedSource) :=
  archives.filterMap fun archive =>
    (fetchSource engine fetch (engine.urls.asStr archive)).toOption.map (archive, ·)

def usableReading (reading : Url × FetchedSource) : Bool :=
  (sourceUsability engine (engine.urls.asStr reading.1) reading.2).usable

/-- What the panel elects when it reads a claim against a source. -/
def panelVerdict (request : CitationVerificationRequest Url) (context : ClaimContext)
    (reading : Url × FetchedSource) : CitationVerdict :=
  match (judge engine models panel (modelInputs engine fetch { request with sourceUrl := reading.1 }
    (some context) defaultOptions reading.2) defaultOptions).1 with
  | .ok verdicts => gateVerdict verdicts
  | .error _ => .sourceUnavailable

/-- The panel is asked again about a use site: its source is not a success, and of the source and
its copies two are usable, of which the first leaves the panel without a verdict. -/
def AskedAgain (bodies : List (Text × FetchedSource)) (site : CitationUseSite Url) : Prop :=
  ∃ fetched, siteSource engine fetch bodies site = .ok fetched ∧
    ¬ (200 ≤ fetched.status ∧ fetched.status < 300) ∧
    ∃ first other rest,
      ((site.request.sourceUrl, fetched) :: readCopies engine fetch site.archiveUrls).filter
        (usableReading engine) = first :: other :: rest ∧
      panelVerdict engine fetch models panel site.request site.context first = .sourceUnavailable

variable {engine fetch models panel} {nowMs : Int} {site : CitationUseSite Url}
  {request : CitationVerificationRequest Url} {context : ClaimContext} {useSiteOrdinal : Nat}
  {options : VerifyOptions} {fetched : FetchedSource}

/-- Options that leave the judgment as it is by default. -/
structure JudgesByDefault (options : VerifyOptions) : Prop where
  metadata : options.includeMetadata = false
  concurrency : options.concurrency = defaultOptions.concurrency
  params : options.params = defaultOptions.params
  repairTurn : options.repairTurn = defaultOptions.repairTurn
  sidecar : options.metadataSidecar = none

theorem judge_default {inputs : VerifyModelInputs} (default : JudgesByDefault options) :
    judge engine models panel inputs options = judge engine models panel inputs defaultOptions := by
  unfold judge
  rw [default.concurrency, default.params, default.repairTurn]

theorem modelInputs_default (default : JudgesByDefault options) :
    modelInputs engine fetch request (some context) options fetched =
      modelInputs engine fetch request (some context) defaultOptions fetched := by
  unfold modelInputs
  rw [default.metadata, default.sidecar]
  rfl

/-- The reason of a finding is that of its verdict and its source. -/
theorem assembleCitationFinding_reason {unicode : Unicode} {sourceText : Text}
    {provenance : SourceProvenance Url} {votes : List ModelVerdict} :
    let finding := assembleCitationFinding unicode sourceText provenance votes useSiteOrdinal
    finding.sourceUnavailableReason =
      deriveSourceUnavailableReason finding.verdict provenance := by
  intro finding
  unfold finding assembleCitationFinding
  split
  · rfl
  · split
    · split
      · rfl
      · rfl
    · rfl

/-- What the panel does with a usable source: it has a verdict, and its first model was asked. -/
theorem run_usable (default : JudgesByDefault options) (inhabited : panel ≠ [])
    (claim : Text.trim request.claim ≠ [])
    (source : options.prefetched.elim
      (fetchSource engine fetch (engine.urls.asStr request.sourceUrl)) Except.ok = .ok fetched)
    (usable : usableReading engine (request.sourceUrl, fetched) = true)
    (text : Text.trim fetched.text ≠ []) :
    ∃ outcome, (verifyCitationUseSite engine fetch models nowMs panel request (some context)
        useSiteOrdinal options).1 = .ok outcome ∧
      outcome.finding.verdict =
        panelVerdict engine fetch models panel request context (request.sourceUrl, fetched) ∧
      outcome.finding.sourceUnavailableReason =
        deriveSourceUnavailableReason outcome.finding.verdict
          (provenanceOf engine nowMs request.sourceUrl fetched) ∧
      (CallKind.verify, 0) ∈ (verifyCitationUseSite engine fetch models nowMs panel request
        (some context) useSiteOrdinal options).2.map Call.key := by
  let inputs := modelInputs engine fetch request (some context) options fetched
  obtain ⟨verdicts, counted, -, -, -⟩ :=
    @panel_votes Url engine models options.params inputs claim text panel
      (max options.concurrency 1)
  have judged := judge_eq counted
  obtain ⟨voted, found⟩ : ∃ voted, (judge engine models panel inputs options).1 = .ok voted := by
    rw [judged]
    split
    · exact ⟨_, rfl⟩
    · exact ⟨_, rfl⟩
  have asked : (CallKind.verify, 0) ∈
      (judge engine models panel inputs options).2.map Call.key := by
    have first : (CallKind.verify, 0) ∈ ((mapWithConcurrency panel (max options.concurrency 1)
        (panelVote engine models options.params inputs)).flatMap Prod.snd).map Call.key := by
      cases panel with
      | nil => exact absurd rfl inhabited
      | cons model rest =>
          obtain ⟨vote, request, voted, -, -⟩ := @panelVote_ok Url engine models options.params inputs
            claim text model 0
          rw [mapWithConcurrency, List.mapIdx_cons, List.flatMap_cons, voted]
          exact List.mem_cons_self
    rw [judged]
    split
    · rw [List.map_append]
      exact List.mem_append_left _ first
    · exact first
  have run := @verifyCitationUseSite_votes Url engine fetch models nowMs panel request (some context)
    useSiteOrdinal options fetched inhabited source usable voted
    (judge engine models panel inputs options).2 (Prod.ext found rfl)
  have elected : panelVerdict engine fetch models panel request context (request.sourceUrl, fetched) =
      gateVerdict voted := by
    have same := found
    rw [judge_default default] at same
    unfold inputs at same
    rw [modelInputs_default default] at same
    unfold panelVerdict
    rw [same]
  rw [run, elected]
  refine ⟨_, rfl, ?_, assembleCitationFinding_reason, asked⟩
  exact (@outcomeOf_finding Url engine useSiteOrdinal
    (provenanceOf engine nowMs request.sourceUrl fetched) fetched.text voted).1

/-- Nobody is asked about a source that is not usable. -/
theorem run_unusable (inhabited : panel ≠ [])
    (source : options.prefetched.elim
      (fetchSource engine fetch (engine.urls.asStr request.sourceUrl)) Except.ok = .ok fetched)
    (refused : ¬ usableReading engine (request.sourceUrl, fetched) = true) :
    ∃ outcome, verifyCitationUseSite engine fetch models nowMs panel request (some context)
        useSiteOrdinal options = (.ok outcome, []) ∧
      outcome.finding.verdict = .sourceUnavailable ∧
      outcome.finding.sourceUnavailableReason =
        deriveSourceUnavailableReason outcome.finding.verdict
          (provenanceOf engine nowMs request.sourceUrl fetched) := by
  rw [verifyCitationUseSite_unusable inhabited source refused]
  obtain ⟨verdict, reason, -⟩ := @unusableSourceOutcome_finding Url useSiteOrdinal
    (sourceUsability engine (engine.urls.asStr request.sourceUrl) fetched).reason
    (provenanceOf engine nowMs request.sourceUrl fetched)
  exact ⟨_, rfl, verdict, by rw [verdict, reason]⟩

theorem copyOptions_default (body : FetchedSource) :
    JudgesByDefault { defaultOptions with includeMetadata := false, prefetched := some body } :=
  ⟨rfl, rfl, rfl, rfl, rfl⟩

theorem primaryOptions_default (cached : Option FetchedSource) :
    JudgesByDefault { defaultOptions with prefetched := cached } :=
  ⟨rfl, rfl, rfl, rfl, rfl⟩

/-- The completions on one archived copy. -/
def copyKeys (engine : Engine Url) (fetch : Url → Except Text HttpResponse) (models : ModelClient)
    (nowMs : Int) (panel : List ModelRef) (site : CitationUseSite Url)
    (reading : Url × FetchedSource) : List (CallKind × Nat) :=
  (copyRun engine fetch models nowMs panel site defaultOptions reading.1 reading.2).2.map Call.key

/-- Whether a reading of a use site's claim ends with a verdict. -/
def decided (engine : Engine Url) (fetch : Url → Except Text HttpResponse) (models : ModelClient)
    (panel : List ModelRef) (site : CitationUseSite Url) (reading : Url × FetchedSource) : Bool :=
  panelVerdict engine fetch models panel site.request site.context reading ≠ .sourceUnavailable

theorem readCopies_error {archive : Url} {error : CitationVerificationError}
    (failed : fetchSource engine fetch (engine.urls.asStr archive) = .error error)
    (rest : List Url) :
    readCopies engine fetch (archive :: rest) = readCopies engine fetch rest := by
  rw [readCopies, List.filterMap_cons, failed]
  rfl

theorem readCopies_ok {archive : Url} {body : FetchedSource}
    (came : fetchSource engine fetch (engine.urls.asStr archive) = .ok body) (rest : List Url) :
    readCopies engine fetch (archive :: rest) =
      (archive, body) :: readCopies engine fetch rest := by
  rw [readCopies, List.filterMap_cons, came]
  rfl

/-- The archived copies are asked about until one has a verdict, the unusable ones apart. -/
theorem archivesRun_keys (inhabited : panel ≠ []) (claim : Text.trim site.request.claim ≠ [])
    (archives : List Url) :
    (archivesRun engine fetch models nowMs panel site defaultOptions archives).2.map Call.key =
      askedFor (copyKeys engine fetch models nowMs panel site)
        (decided engine fetch models panel site)
        ((readCopies engine fetch archives).filter (usableReading engine)) := by
  induction archives with
  | nil => rfl
  | cons archive rest ih =>
      rw [archivesRun]
      cases came : fetchSource engine fetch (engine.urls.asStr archive) with
      | error error =>
          rw [readCopies_error came]
          exact ih
      | ok body =>
          have page := fetchSource_page came
          dsimp only
          rw [readCopies_ok came, List.filter_cons]
          by_cases usable : usableReading engine (archive, body) = true
          · obtain ⟨outcome, run, verdict, -, -⟩ := @run_usable Url engine fetch models panel nowMs
              { site.request with sourceUrl := archive } site.context site.useSiteOrdinal
              { defaultOptions with includeMetadata := false, prefetched := some body } body
              (copyOptions_default body) inhabited claim rfl usable (usable_page_text page usable)
            rw [← copyRun] at run
            rw [if_pos usable, askedFor, run]
            dsimp only
            have same : decided engine fetch models panel site (archive, body) =
                decide (outcome.finding.verdict ≠ .sourceUnavailable) := by
              rw [verdict]
              rfl
            rw [same]
            by_cases unavailable : outcome.finding.verdict = .sourceUnavailable
            · rw [if_pos unavailable, if_neg (by simp [unavailable]), List.map_append, ih]
              rfl
            · rw [if_neg unavailable, if_pos (by simp [unavailable])]
              rfl
          · obtain ⟨outcome, run, verdict, -⟩ := @run_unusable Url engine fetch models panel nowMs
              { site.request with sourceUrl := archive } site.context site.useSiteOrdinal
              { defaultOptions with includeMetadata := false, prefetched := some body } body
              inhabited rfl usable
            rw [← copyRun] at run
            rw [if_neg usable, run]
            dsimp only
            rw [if_pos verdict]
            exact ih

theorem copyKeys_sublist (reading : Url × FetchedSource) :
    (copyKeys engine fetch models nowMs panel site reading).Sublist (callPlan panel.length) :=
  verifyCitationUseSite_calls

/-- The source of a use site is a page, from the cache as on demand. -/
theorem siteSource_page {bodies : List (Text × FetchedSource)}
    (cache : PrefetchCache engine fetch bodies)
    (came : siteSource engine fetch bodies site = .ok fetched) : fetched.bookSnippet = false := by
  unfold siteSource at came
  cases held : bodies.lookup (engine.urls.asStr site.request.sourceUrl) with
  | none =>
      rw [held] at came
      exact fetchSource_page came
  | some source =>
      rw [held] at came
      cases came
      rw [cache _ _ held, prefetchedSource]
      split
      · rename_i fresh
        exact fetchSource_page fresh
      · rfl

/-- A finding without a verdict is unreachable unless its source was a success. -/
theorem unreachable_iff {verdict : CitationVerdict} {sourceUrl : Url}
    (unavailable : verdict = .sourceUnavailable) :
    deriveSourceUnavailableReason verdict (provenanceOf engine nowMs sourceUrl fetched) =
        some .unreachable ↔ ¬ (200 ≤ fetched.status ∧ fetched.status < 300) := by
  rw [unavailable, @deriveSourceUnavailableReason_status Url
    (provenanceOf engine nowMs sourceUrl fetched) fetched.status rfl]
  split
  · rename_i success
    exact iff_of_false nofun (not_not.mpr success)
  · rename_i failed
    exact iff_of_true rfl failed

/-- Every reading of a use site is a page, and one that is usable has its first model asked. -/
theorem copyKeys_common (inhabited : panel ≠ []) (claim : Text.trim site.request.claim ≠ [])
    {archives : List Url} {reading : Url × FetchedSource}
    (member : reading ∈ (readCopies engine fetch archives).filter (usableReading engine)) :
    (CallKind.verify, 0) ∈ copyKeys engine fetch models nowMs panel site reading := by
  obtain ⟨read, usable⟩ := List.mem_filter.mp member
  obtain ⟨archive, -, came⟩ := List.mem_filterMap.mp read
  cases fresh : fetchSource engine fetch (engine.urls.asStr archive) with
  | error error =>
      rw [fresh] at came
      cases came
  | ok body =>
      rw [fresh] at came
      cases came
      obtain ⟨-, -, -, -, asked⟩ := @run_usable Url engine fetch models panel nowMs
        { site.request with sourceUrl := archive } site.context site.useSiteOrdinal
        { defaultOptions with includeMetadata := false, prefetched := some body } body
        (copyOptions_default body) inhabited claim rfl usable
        (usable_page_text (fetchSource_page fresh) usable)
      exact asked

/-- No completion on a use site is repeated just when the panel is not asked about it again. -/
theorem siteCalls_nodup_iff {bodies : List (Text × FetchedSource)} (inhabited : panel ≠ [])
    (claim : Text.trim site.request.claim ≠ []) (cache : PrefetchCache engine fetch bodies)
    (came : siteSource engine fetch bodies site = .ok fetched) :
    ((siteCalls engine fetch models nowMs panel bodies defaultOptions site).map Call.key).Nodup ↔
      ¬ AskedAgain engine fetch models panel bodies site := by
  have page := siteSource_page cache came
  have again : AskedAgain engine fetch models panel bodies site ↔
      ¬ (200 ≤ fetched.status ∧ fetched.status < 300) ∧ ∃ first other rest,
        ((site.request.sourceUrl, fetched) :: readCopies engine fetch site.archiveUrls).filter
          (usableReading engine) = first :: other :: rest ∧
        panelVerdict engine fetch models panel site.request site.context first =
          .sourceUnavailable := by
    constructor
    · rintro ⟨body, same, found⟩
      rw [came] at same
      cases same
      exact found
    · intro found
      exact ⟨fetched, came, found⟩
  have later := @archivesRun_keys Url engine fetch models panel nowMs site inhabited claim
    site.archiveUrls
  have once : ∀ reading ∈ (readCopies engine fetch site.archiveUrls).filter (usableReading engine),
      (copyKeys engine fetch models nowMs panel site reading).Nodup :=
    fun reading _ => (copyKeys_sublist reading).nodup (callPlan_nodup _)
  have common : ∀ reading ∈ (readCopies engine fetch site.archiveUrls).filter
      (usableReading engine),
      (CallKind.verify, 0) ∈ copyKeys engine fetch models nowMs panel site reading :=
    fun reading member => copyKeys_common inhabited claim member
  rw [again, siteCalls]
  by_cases usable : usableReading engine (site.request.sourceUrl, fetched) = true
  · obtain ⟨outcome, run, verdict, reason, asked⟩ := @run_usable Url engine fetch models panel nowMs
      site.request site.context site.useSiteOrdinal { defaultOptions with
        prefetched := bodies.lookup (engine.urls.asStr site.request.sourceUrl) } fetched
      (primaryOptions_default _) inhabited claim came usable (usable_page_text page usable)
    have single := (@verifyCitationUseSite_calls Url engine fetch models nowMs panel site.request
      (some site.context) site.useSiteOrdinal { defaultOptions with
        prefetched := bodies.lookup (engine.urls.asStr site.request.sourceUrl) }).nodup
      (callPlan_nodup _)
    rw [run, List.filter_cons, if_pos usable]
    dsimp only
    rw [reason]
    by_cases unavailable : outcome.finding.verdict = .sourceUnavailable
    · by_cases success : 200 ≤ fetched.status ∧ fetched.status < 300
      · rw [if_neg fun found => (unreachable_iff unavailable).mp found.2 success]
        exact iff_of_true single fun found => found.1 success
      · rw [if_pos ⟨unavailable, (unreachable_iff unavailable).mpr success⟩, List.map_append, later]
        cases copies : (readCopies engine fetch site.archiveUrls).filter (usableReading engine) with
        | nil =>
            rw [askedFor, List.append_nil]
            refine iff_of_true single ?_
            rintro ⟨-, first, other, rest, same, -⟩
            cases same
        | cons copy rest =>
            rw [copies] at common
            have repeated := @mem_askedFor _ _ _ (decided engine fetch models panel site) _ _
              (List.cons_ne_nil copy rest) common
            refine iff_of_false ?_ (not_not.mpr ⟨success, _, copy, rest, rfl,
              verdict.symm.trans unavailable⟩)
            intro distinct
            exact (List.nodup_append.mp distinct).2.2 _ asked _ repeated rfl
    · rw [if_neg fun found => unavailable found.1]
      refine iff_of_true single ?_
      rintro ⟨-, first, other, rest, same, undecided⟩
      rw [← (List.cons.inj same).1, ← verdict] at undecided
      exact unavailable undecided
  · obtain ⟨outcome, run, verdict, reason⟩ := @run_unusable Url engine fetch models panel nowMs
      site.request site.context site.useSiteOrdinal { defaultOptions with
        prefetched := bodies.lookup (engine.urls.asStr site.request.sourceUrl) } fetched inhabited
      came usable
    rw [run, List.filter_cons, if_neg usable]
    dsimp only
    rw [reason]
    by_cases success : 200 ≤ fetched.status ∧ fetched.status < 300
    · rw [if_neg fun found => (unreachable_iff verdict).mp found.2 success]
      exact iff_of_true List.nodup_nil fun found => found.1 success
    · rw [if_pos ⟨verdict, (unreachable_iff verdict).mpr success⟩, List.nil_append, later,
        askedFor_nodup_iff once common]
      constructor
      · rintro distinct ⟨-, first, other, rest, same, undecided⟩
        exact distinct ⟨first, other, rest, same, by simp [decided, undecided]⟩
      · rintro single ⟨first, other, rest, same, undecided⟩
        refine single ⟨success, first, other, rest, same, ?_⟩
        simpa [decided] using undecided

end Sites

section Outcomes

variable {Url : Type} {engine : Engine Url} {fetch : Url → Except Text HttpResponse}
  {models : ModelClient} {nowMs : Int} {panel : List ModelRef} {page : PageVerificationRequest}

/-- A verification of a source that is there ends with an outcome. -/
theorem verifyCitationUseSite_ends {request : CitationVerificationRequest Url}
    {context : Option ClaimContext} {useSiteOrdinal : Nat} {options : VerifyOptions}
    {fetched : FetchedSource} (inhabited : panel ≠ []) (claim : Text.trim request.claim ≠ [])
    (source : options.prefetched.elim
      (fetchSource engine fetch (engine.urls.asStr request.sourceUrl)) Except.ok = .ok fetched)
    (text : (sourceUsability engine (engine.urls.asStr request.sourceUrl) fetched).usable = true →
      Text.trim fetched.text ≠ []) :
    ∃ outcome, (verifyCitationUseSite engine fetch models nowMs panel request context useSiteOrdinal
      options).1 = .ok outcome := by
  by_cases usable :
      (sourceUsability engine (engine.urls.asStr request.sourceUrl) fetched).usable = true
  · obtain ⟨verdicts, counted, -, -, -⟩ := @panel_votes Url engine models options.params
      (modelInputs engine fetch request context options fetched) claim (text usable) panel
      (max options.concurrency 1)
    have judged := judge_eq counted
    by_cases repairs : options.repairTurn = true
    · rw [if_pos repairs] at judged
      rw [verifyCitationUseSite_votes inhabited source usable judged]
      exact ⟨_, rfl⟩
    · rw [if_neg repairs] at judged
      rw [verifyCitationUseSite_votes inhabited source usable judged]
      exact ⟨_, rfl⟩
  · rw [verifyCitationUseSite_unusable inhabited source usable]
    exact ⟨_, rfl⟩

/-- A use site comes to a finding just when there is a panel and the source came. -/
theorem verifyOneUseSite_ok_iff {bodies : List (Text × FetchedSource)} {site : CitationUseSite Url}
    (claim : Text.trim site.request.claim ≠ []) (cache : PrefetchCache engine fetch bodies) :
    (∃ outcome, (verifyOneUseSite engine fetch models nowMs panel bodies defaultOptions
        site).2.2 = .ok outcome) ↔
      panel ≠ [] ∧ ∃ fetched, siteSource engine fetch bodies site = .ok fetched := by
  let options : VerifyOptions := { defaultOptions with
    prefetched := bodies.lookup (engine.urls.asStr site.request.sourceUrl) }
  by_cases empty : panel = []
  · refine iff_of_false ?_ fun found => found.1 empty
    rintro ⟨outcome, run⟩
    unfold verifyOneUseSite at run
    rw [empty, verifyCitationUseSite_noPanel] at run
    cases run
  · cases came : siteSource engine fetch bodies site with
    | error error =>
        refine iff_of_false ?_ ?_
        · rintro ⟨outcome, run⟩
          unfold verifyOneUseSite at run
          rw [@verifyCitationUseSite_failed Url engine fetch models nowMs panel site.request
            (some site.context) site.useSiteOrdinal options error empty came] at run
          cases run
        · rintro ⟨-, fetched, same⟩
          cases same
    | ok fetched =>
        obtain ⟨primary, run⟩ := @verifyCitationUseSite_ends Url engine fetch models nowMs panel
          site.request (some site.context) site.useSiteOrdinal options fetched empty claim came
          (usable_page_text (siteSource_page cache came))
        obtain ⟨outcome, ended⟩ := tryArchiveFallback_ok engine fetch models nowMs panel site
          defaultOptions primary
        refine iff_of_true ⟨stampUseSite site outcome, ?_⟩ ⟨empty, fetched, rfl⟩
        unfold verifyOneUseSite
        rw [run]
        exact congrArg (Except.map (stampUseSite site)) ended

/-- A book whose scan has a passage to read. -/
def Searchable (engine : Engine Url) (fetch : Url → Except Text HttpResponse)
    (site : BookUseSite) : Prop :=
  ∃ identifier edition scan ocaid body,
    resolveBookSource engine fetch site.book = .resolved identifier edition scan ∧
    groundableOcaid engine scan = some ocaid ∧
    prepareBookGrounding engine fetch ocaid site.claim site.book.citedPage = .body body

theorem joinSnippets_solid {selected : List SearchInsideMatch} (some : joinSnippets selected ≠ []) :
    Text.trim (joinSnippets selected) ≠ [] := by
  intro blank
  rw [Text.trim_eq_nil_iff] at blank
  unfold joinSnippets at some blank
  cases pieces : (selected.map fun entry => Text.trim entry.text).filter (· ≠ []) with
  | nil =>
      rw [pieces] at some
      exact some rfl
  | cons piece rest =>
      have member : piece ∈ (selected.map fun entry => Text.trim entry.text).filter (· ≠ []) := by
        rw [pieces]
        exact List.mem_cons_self
      obtain ⟨trimmed, solid⟩ := List.mem_filter.mp member
      obtain ⟨entry, -, rfl⟩ := List.mem_map.mp trimmed
      rw [pieces] at blank
      have spaces : ∀ c ∈ Text.trim entry.text, Text.isWhitespace c = true := by
        intro c inside
        refine blank c ?_
        cases rest with
        | nil => simpa [Text.join] using inside
        | cons next rest => exact List.mem_append_left _ inside
      have empty := Text.trim_eq_nil_iff.mpr spaces
      rw [Text.trim_trim] at empty
      exact absurd empty (of_decide_eq_true solid)

theorem prepareBookGrounding_body {ocaid claim : Text} {citedPage : Option Text}
    {body : BookSnippetBody}
    (prepared : prepareBookGrounding engine fetch ocaid claim citedPage = .body body) :
    Text.trim body.text ≠ [] := by
  have assembled {found : List SearchInsideMatch} {query : Text}
      (joined : assembleSnippets found citedPage query = .body body) :
      Text.trim body.text ≠ [] := by
    unfold assembleSnippets at joined
    dsimp only at joined
    split at joined
    · cases joined
    · rename_i solid
      cases joined
      exact joinSnippets_solid solid
  unfold prepareBookGrounding at prepared
  dsimp only at prepared
  repeat' split at prepared
  all_goals first
    | cases prepared
    | exact assembled prepared

/-- A book asks each model for one vote and one repair at most; it comes to a finding, a skip or a
failure, and to a failure just when there is a passage to read and no panel to read it. -/
theorem verifyBookUseSite_ends {site : BookUseSite} {options : VerifyOptions}
    {resolution : BookResolution} {verdict : BookVerdict Url} {calls : List Call}
    (claim : Text.trim site.claim ≠ [])
    (run : verifyBookUseSite engine fetch models nowMs panel page site options =
      some (resolution, verdict, calls)) :
    (calls.map Call.key).Sublist (callPlan panel.length) ∧
      ((∃ found, verdict = .finding found ∧ found.useSiteOrdinal = site.useSiteOrdinal) ∨
        (∃ skipped, verdict = .skip skipped) ∨ ∃ failed, verdict = .failure failed) ∧
      ((∃ failed, verdict = .failure failed) ↔ panel = [] ∧ Searchable engine fetch site) := by
  unfold verifyBookUseSite at run
  dsimp only at run
  cases resolved : resolveBookSource engine fetch site.book with
  | notFound =>
      rw [resolved] at run
      cases run
      refine ⟨List.nil_sublist _, .inr (.inl ⟨_, rfl⟩), iff_of_false (by simp) ?_⟩
      rintro ⟨-, _, _, _, _, _, found, -⟩
      rw [resolved] at found
      cases found
  | lookupFailed message =>
      rw [resolved] at run
      cases run
      refine ⟨List.nil_sublist _, .inr (.inl ⟨_, rfl⟩), iff_of_false (by simp) ?_⟩
      rintro ⟨-, _, _, _, _, _, found, -⟩
      rw [resolved] at found
      cases found
  | resolved identifier edition scan =>
      rw [resolved] at run
      dsimp only at run
      have other {verdict : BookVerdict Url} {found : CitationFinding Url}
          (same : verdict = .finding found) : ¬ ∃ failed, verdict = .failure failed := by
        rintro ⟨failed, wrong⟩
        rw [same] at wrong
        cases wrong
      cases item : groundableOcaid engine scan with
      | none =>
          rw [item] at run
          cases run
          refine ⟨List.nil_sublist _, .inl ⟨_, rfl, bookNoModelFinding_site.2.1⟩,
            iff_of_false (other rfl) ?_⟩
          rintro ⟨-, _, _, _, _, _, found, there, -⟩
          rw [resolved] at found
          cases found
          rw [item] at there
          cases there
      | some ocaid =>
          rw [item] at run
          obtain ⟨⟨judgment, asked⟩, grounded, same⟩ := Option.map_eq_some_iff.mp run
          cases same
          have silent {url : Url} {hash : Text} {status : Nat} {searched : Bool}
              {note : Option BookScanProvenance}
              (told : (BookVerdict.finding (bookNoModelFinding nowMs site url hash status searched
                note), []) = (verdict, calls))
              (unread : ∀ body, prepareBookGrounding engine fetch ocaid site.claim
                site.book.citedPage ≠ .body body) :
              (calls.map Call.key).Sublist (callPlan panel.length) ∧
                ((∃ found, verdict = .finding found ∧
                    found.useSiteOrdinal = site.useSiteOrdinal) ∨
                  (∃ skipped, verdict = .skip skipped) ∨ ∃ failed, verdict = .failure failed) ∧
                ((∃ failed, verdict = .failure failed) ↔
                  panel = [] ∧ Searchable engine fetch site) := by
            cases told
            refine ⟨List.nil_sublist _, .inl ⟨_, rfl, bookNoModelFinding_site.2.1⟩,
              iff_of_false (other rfl) ?_⟩
            rintro ⟨-, _, _, _, _, body, found, there, read⟩
            rw [resolved] at found
            cases found
            rw [item] at there
            cases there
            exact unread body read
          have site_ends := groundResolvedBook_site grounded
          unfold groundResolvedBook at grounded
          cases prepared : prepareBookGrounding engine fetch ocaid site.claim
              site.book.citedPage with
          | body body =>
              rw [prepared] at grounded
              dsimp only at grounded
              unfold judgeBookSnippets at grounded
              obtain ⟨sourceUrl, -, judged⟩ := Option.map_eq_some_iff.mp grounded
              have searchable : Searchable engine fetch site :=
                ⟨identifier, edition, scan, ocaid, body, resolved, item, prepared⟩
              dsimp only at judged
              obtain ⟨told, called⟩ := Prod.mk.inj judged
              refine ⟨called ▸ verifyCitationUseSite_calls, ?_, ?_⟩
              · rcases site_ends with ⟨found, rfl, -, ordinal, -⟩ | ⟨error, rfl⟩
                · exact .inl ⟨found, rfl, ordinal⟩
                · exact .inr (.inr ⟨_, rfl⟩)
              · by_cases empty : panel = []
                · refine iff_of_true ?_ ⟨empty, searchable⟩
                  rw [empty, verifyCitationUseSite_noPanel] at told
                  exact ⟨_, told.symm⟩
                · refine iff_of_false ?_ fun found => empty found.1
                  obtain ⟨outcome, ended⟩ := @verifyCitationUseSite_ends Url engine fetch models
                    nowMs panel (bookRequest page site sourceUrl) (some site.context)
                    site.useSiteOrdinal (bookOptions engine options edition sourceUrl body)
                    (snippetSource body) empty claim rfl fun _ => prepareBookGrounding_body prepared
                  rw [ended] at told
                  exact other told.symm
          | noMatches hash link =>
              rw [prepared] at grounded
              obtain ⟨url, -, told⟩ := Option.map_eq_some_iff.mp grounded
              exact silent told (by rw [prepared]; nofun)
          | noUsableBody detail =>
              rw [prepared] at grounded
              obtain ⟨url, -, told⟩ := Option.map_eq_some_iff.mp grounded
              exact silent told (by rw [prepared]; nofun)
          | unreachable message =>
              rw [prepared] at grounded
              obtain ⟨url, -, told⟩ := Option.map_eq_some_iff.mp grounded
              exact silent told (by rw [prepared]; nofun)

end Outcomes

section Claims

variable {Url : Type} {letters : Letters} {page : PageVerificationRequest}

theorem sentence_solid {rest : Text} : ∀ {skip : Nat} {head piece : Text} {sentence : Sentence},
    sentence ∈ segmentFrom letters skip head piece rest → Text.trim sentence.text ≠ [] := by
  have single {head piece : Text} {sentence : Sentence}
      (member : sentence ∈ sentenceOf head piece) :
      Text.trim sentence.text ≠ [] := by
    unfold sentenceOf at member
    dsimp only at member
    split at member
    · cases member
    · rename_i solid
      rw [List.mem_singleton.mp member, Text.trim_trim]
      exact solid
  induction rest with
  | nil =>
      intro skip head piece sentence member
      exact single member
  | cons d rest ih =>
      intro skip head piece sentence member
      cases skip with
      | succ skip => exact ih member
      | zero =>
          rw [segmentFrom] at member
          split at member
          · dsimp only at member
            split at member
            · rcases List.mem_append.mp member with here | later
              · exact single here
              · exact ih later
            · exact ih member
          · exact ih member

/-- A claim is blank only where there is none. -/
theorem claimOf_solid {block : ParsoidBlock Url} {offset : Nat}
    (claimed : (claimOf block (segmentSentences letters block.text) offset).1 ≠ []) :
    Text.trim (claimOf block (segmentSentences letters block.text) offset).1 ≠ [] := by
  unfold claimOf at claimed ⊢
  split
  · rename_i index attached
    have inside := attachIndex_lt attached
    rw [List.getElem?_eq_getElem inside]
    exact sentence_solid (List.getElem_mem inside)
  · rename_i unattached
    rw [unattached] at claimed
    rw [Text.trim_trim]
    exact claimed

/-- The use sites have claims that are not blank. -/
structure SolidClaims (outcome : ExtractOutcome Url) : Prop where
  urls : ∀ site ∈ outcome.useSites, Text.trim site.request.claim ≠ []
  books : ∀ site ∈ outcome.bookUseSites, Text.trim site.claim ≠ []

theorem addSites_solid {block : ParsoidBlock Url} {ref : BlockRef Url} {claim : Text}
    {context : ClaimContext} (solid : Text.trim claim ≠ []) (sources : List (CitedSource Url)) :
    ∀ state : Extracted Url, SolidClaims state.outcome →
      SolidClaims (sources.foldl (fun state source => state.addSite fun ordinal =>
        urlSite page block ref claim context ordinal source) state).outcome := by
  induction sources with
  | nil => exact fun state held => held
  | cons source rest ih =>
      intro state held
      refine ih _ ⟨fun site member => ?_, held.books⟩
      rcases List.mem_append.mp member with earlier | added
      · exact held.urls site earlier
      · rw [List.mem_singleton.mp added]
        exact solid

theorem addBooks_solid {block : ParsoidBlock Url} {ref : BlockRef Url} {claim : Text}
    {context : ClaimContext} (solid : Text.trim claim ≠ []) (books : List BookSource) :
    ∀ state : Extracted Url, SolidClaims state.outcome →
      SolidClaims (books.foldl (fun state book => state.addBook fun ordinal =>
        bookSite block ref claim context ordinal book) state).outcome := by
  induction books with
  | nil => exact fun state held => held
  | cons book rest ih =>
      intro state held
      refine ih _ ⟨held.urls, fun site member => ?_⟩
      rcases List.mem_append.mp member with earlier | added
      · exact held.books site earlier
      · rw [List.mem_singleton.mp added]
        exact solid

theorem visitRef_solid {block : ParsoidBlock Url} {state : Extracted Url} (ref : BlockRef Url)
    (held : SolidClaims state.outcome) :
    SolidClaims (visitRef page block (segmentSentences letters block.text) state ref).outcome := by
  have disclosed : SolidClaims (if ref.shortCiteUnresolved then
      state.skip block ref .unresolvedShortCite else state).outcome := by
    split
    · exact ⟨held.urls, held.books⟩
    · exact held
  unfold visitRef
  dsimp only
  generalize (if ref.shortCiteUnresolved = true then
    state.skip block ref .unresolvedShortCite else state) = before at disclosed ⊢
  split
  · split
    · exact disclosed
    · exact ⟨disclosed.urls, disclosed.books⟩
  · split
    · exact ⟨disclosed.urls, disclosed.books⟩
    · rename_i claimed
      have solid := claimOf_solid claimed
      split
      · exact addBooks_solid solid _ _ disclosed
      · exact addSites_solid solid _ _ disclosed

theorem extractUseSites_solid (blocks : List (ParsoidBlock Url)) :
    SolidClaims (extractUseSites letters page blocks) := by
  have refs (block : ParsoidBlock Url) (refs : List (BlockRef Url)) : ∀ state : Extracted Url,
      SolidClaims state.outcome → SolidClaims (refs.foldl
        (visitRef page block (segmentSentences letters block.text)) state).outcome := by
    induction refs with
    | nil => exact fun state held => held
    | cons ref rest ih => exact fun state held => ih _ (visitRef_solid ref held)
  have visited : ∀ state : Extracted Url, SolidClaims state.outcome →
      SolidClaims (blocks.foldl (visitBlock letters page) state).outcome := by
    induction blocks with
    | nil => exact fun state held => held
    | cons block rest ih => exact fun state held => ih _ (refs block block.refs state held)
  exact visited _ ⟨by simp, by simp⟩

theorem SolidClaims.capped {outcome : ExtractOutcome Url} (solid : SolidClaims outcome)
    (limit : Nat) : SolidClaims (capped limit outcome) := by
  unfold Citation.capped
  split
  · exact ⟨fun site member => solid.urls site (List.mem_of_mem_take member),
      fun site member => solid.books site (List.mem_of_mem_take member)⟩
  · exact solid

/-- The cap leaves as many use sites as it says. -/
theorem useSiteCount_capped (limit : Nat) (outcome : ExtractOutcome Url) :
    useSiteCount (capped limit outcome) = min (useSiteCount outcome) limit := by
  unfold capped
  split
  · rename_i beyond
    unfold useSiteCount at beyond ⊢
    dsimp only
    rw [List.length_take, List.length_take]
    omega
  · rename_i within
    exact (Nat.min_eq_left (Nat.not_lt.mp within)).symm

theorem capped_skipped (limit : Nat) (outcome : ExtractOutcome Url) :
    (capped limit outcome).skipped = outcome.skipped := by
  unfold capped
  split
  · rfl
  · rfl

end Claims

section Accounting

variable {Url : Type}

theorem mem_of_askedFor {α β : Type} {calls : α → List β} {settled : α → Bool} {wanted : β}
    {attempts : List α} (member : wanted ∈ askedFor calls settled attempts) :
    ∃ attempt ∈ attempts, wanted ∈ calls attempt := by
  induction attempts with
  | nil => cases member
  | cons attempt rest ih =>
      rw [askedFor] at member
      split at member
      · exact ⟨attempt, List.mem_cons_self, member⟩
      · rcases List.mem_append.mp member with here | later
        · exact ⟨attempt, List.mem_cons_self, here⟩
        · obtain ⟨other, among, held⟩ := ih later
          exact ⟨other, List.mem_cons_of_mem _ among, held⟩

/-- Each URL of a page comes to one finding or one failure. -/
theorem urls_conserved (results : List (Text × Nat ×
    Except CitationVerificationError (VerificationOutcome Url))) :
    (urlFindings results).length + (urlFailures results).length = results.length := by
  induction results with
  | nil => rfl
  | cons result rest ih =>
      unfold urlFindings urlFailures at ih ⊢
      rw [List.filterMap_cons, List.filterMap_cons, List.length_cons]
      cases result.2.2 with
      | error error =>
          dsimp only
          rw [List.length_cons]
          omega
      | ok outcome =>
          dsimp only
          rw [List.length_cons]
          omega

theorem urls_settled_iff {results : List (Text × Nat ×
    Except CitationVerificationError (VerificationOutcome Url))} :
    urlFailures results = [] ↔ ∀ result ∈ results, ∃ outcome, result.2.2 = .ok outcome := by
  unfold urlFailures
  rw [List.filterMap_eq_nil_iff]
  refine forall₂_congr fun result _ => ?_
  cases result.2.2 with
  | error error => exact iff_of_false nofun (by rintro ⟨_, same⟩; cases same)
  | ok outcome => exact iff_of_true rfl ⟨outcome, rfl⟩

theorem urls_ordinals {verify : CitationUseSite Url →
      Text × Nat × Except CitationVerificationError (VerificationOutcome Url)}
    (about : ∀ site outcome, (verify site).2.2 = .ok outcome →
      outcome.finding.useSiteOrdinal = site.useSiteOrdinal)
    {sites : List (CitationUseSite Url)}
    (settled : ∀ site ∈ sites, ∃ outcome, (verify site).2.2 = .ok outcome) :
    (urlFindings (sites.map verify)).map CitationFinding.useSiteOrdinal =
      sites.map CitationUseSite.useSiteOrdinal := by
  induction sites with
  | nil => rfl
  | cons site rest ih =>
      obtain ⟨outcome, run⟩ := settled site List.mem_cons_self
      have later := ih fun other member => settled other (List.mem_cons_of_mem _ member)
      unfold urlFindings at later ⊢
      rw [List.map_cons, List.filterMap_cons, run]
      dsimp only
      rw [List.map_cons, List.map_cons, later, about site outcome run]

/-- How a book ends: with a finding on it, a skip or a failure. -/
def BookEnds (site : BookUseSite) (verdict : BookVerdict Url) : Prop :=
  (∃ found, verdict = .finding found ∧ found.useSiteOrdinal = site.useSiteOrdinal) ∨
    (∃ skipped, verdict = .skip skipped) ∨ ∃ failed, verdict = .failure failed

variable {verdictOf : BookUseSite → BookVerdict Url} {books : List BookUseSite}

theorem filterMap_told {β : Type} {part : BookVerdict Url → Option β} {site : BookUseSite}
    {verdict : BookVerdict Url} (told : verdictOf site = verdict) (rest : List BookUseSite) :
    ((site :: rest).filterMap fun site => part (verdictOf site)) =
      (part verdict).toList ++ rest.filterMap fun site => part (verdictOf site) := by
  rw [List.filterMap_cons, told]
  cases part verdict with
  | none => rfl
  | some value => rfl

theorem books_conserved (ends : ∀ site ∈ books, BookEnds site (verdictOf site)) :
    (books.filterMap fun site => (verdictOf site).asFinding).length +
        (books.filterMap fun site => (verdictOf site).asSkip).length +
        (books.filterMap fun site => (verdictOf site).asFailure).length = books.length := by
  induction books with
  | nil => rfl
  | cons site rest ih =>
      have later := ih fun other member => ends other (List.mem_cons_of_mem _ member)
      rcases ends site List.mem_cons_self with ⟨found, told, -⟩ | ⟨skipped, told⟩ | ⟨failed, told⟩
      · rw [filterMap_told told, filterMap_told told, filterMap_told told, List.length_append,
          List.length_append, List.length_append, List.length_cons]
        change 1 + _ + (0 + _) + (0 + _) = _
        omega
      · rw [filterMap_told told, filterMap_told told, filterMap_told told, List.length_append,
          List.length_append, List.length_append, List.length_cons]
        change 0 + _ + (1 + _) + (0 + _) = _
        omega
      · rw [filterMap_told told, filterMap_told told, filterMap_told told, List.length_append,
          List.length_append, List.length_append, List.length_cons]
        change 0 + _ + (0 + _) + (1 + _) = _
        omega

/-- Without failures each book is in a finding or in a skip. -/
theorem books_ordinals (ends : ∀ site ∈ books, BookEnds site (verdictOf site))
    (settled : ∀ site ∈ books, ¬ ∃ failed, verdictOf site = .failure failed) :
    ∃ passed : List Nat,
      ((books.filterMap fun site => (verdictOf site).asFinding).map CitationFinding.useSiteOrdinal ++
        passed).Perm (books.map BookUseSite.useSiteOrdinal) ∧
      passed.length = (books.filterMap fun site => (verdictOf site).asSkip).length := by
  induction books with
  | nil => exact ⟨[], .refl _, rfl⟩
  | cons site rest ih =>
      obtain ⟨passed, placed, counted⟩ :=
        ih (fun other member => ends other (List.mem_cons_of_mem _ member))
          fun other member => settled other (List.mem_cons_of_mem _ member)
      rcases ends site List.mem_cons_self with ⟨found, told, same⟩ | ⟨skipped, told⟩ | failed
      · refine ⟨passed, ?_, ?_⟩
        · rw [filterMap_told told, List.map_cons, ← same]
          exact placed.cons _
        · rw [filterMap_told told]
          exact counted
      · refine ⟨site.useSiteOrdinal :: passed, ?_, ?_⟩
        · rw [filterMap_told told, List.map_cons]
          exact List.perm_middle.trans (placed.cons _)
        · rw [filterMap_told told]
          exact congrArg (· + 1) counted
      · exact absurd failed (settled site List.mem_cons_self)

theorem books_settled_iff :
    (books.filterMap fun site => (verdictOf site).asFailure) = [] ↔
      ∀ site ∈ books, ¬ ∃ failed, verdictOf site = .failure failed := by
  rw [List.filterMap_eq_nil_iff]
  refine forall₂_congr fun site _ => ?_
  cases verdictOf site with
  | finding found => exact iff_of_true rfl (by simp)
  | skip skipped => exact iff_of_true rfl (by simp)
  | failure failed => exact iff_of_false nofun (by simp)

end Accounting

section Result

variable {Url : Type}

/-- What a run owes to the agent: no model is asked twice for one thing about a use site, and
every use site under the cap is in the findings or in the skips. -/
structure CostAndAccount (panel : List ModelRef) (limit : Nat) (extract : ExtractOutcome Url)
    (result : PageVerifyResult) (completions : List (List Call)) : Prop where
  sites : completions.length = min (useSiteCount extract) limit
  once : ∀ asked ∈ completions, (asked.map Call.key).Nodup
  within : completions.flatten.length ≤ 2 * panel.length * min (useSiteCount extract) limit
  truncated : result.truncated = true ↔ limit < useSiteCount extract
  accounted : ∃ verified passed : List Nat,
    (verified ++ passed).Perm ((capped limit extract).useSites.map CitationUseSite.useSiteOrdinal ++
      (capped limit extract).bookUseSites.map BookUseSite.useSiteOrdinal) ∧
    (result.findings.map PageFinding.useSiteOrdinal).Perm verified ∧
    result.verifiedCount = verified.length ∧
    result.skippedCount = extract.skipped.length + passed.length

/-- The sources of the use sites came and none has the panel asked again; a panel is there for the
books that can be read. -/
structure ReadsOnce (engine : Engine Url) (fetch : Url → Except Text HttpResponse)
    (models : ModelClient) (panel : List ModelRef) (kept : ExtractOutcome Url) : Prop where
  urls : ∀ site ∈ kept.useSites,
    let bodies := prefetchBodies engine fetch kept.useSites pageVerifyConcurrency
    panel ≠ [] ∧ (∃ fetched, siteSource engine fetch bodies site = .ok fetched) ∧
      ¬ AskedAgain engine fetch models panel bodies site
  books : ∀ site ∈ kept.bookUseSites, Searchable engine fetch site → panel ≠ []

variable {engine : Engine Url} {fetch : Url → Except Text HttpResponse} {models : ModelClient}
  {nowMs : Int} {panel : List ModelRef}

/-- Whatever is asked on a use site is in the plan for one verification. -/
theorem siteCalls_plan {bodies : List (Text × FetchedSource)} {site : CitationUseSite Url}
    (inhabited : panel ≠ []) (claim : Text.trim site.request.claim ≠ []) {key : CallKind × Nat}
    (asked : key ∈ (siteCalls engine fetch models nowMs panel bodies defaultOptions site).map
      Call.key) : key ∈ callPlan panel.length := by
  have primary := (@verifyCitationUseSite_calls Url engine fetch models nowMs panel site.request
    (some site.context) site.useSiteOrdinal { defaultOptions with
      prefetched := bodies.lookup (engine.urls.asStr site.request.sourceUrl) }).subset
  unfold siteCalls at asked
  dsimp only at asked
  split at asked
  · exact primary asked
  · split at asked
    · rw [List.map_append] at asked
      rcases List.mem_append.mp asked with here | later
      · exact primary here
      · rw [archivesRun_keys inhabited claim] at later
        obtain ⟨reading, -, held⟩ := mem_of_askedFor later
        exact (copyKeys_sublist reading).subset held
    · exact primary asked

/-- The cost of a page is that of its use sites. -/
theorem flatten_length_le {completions : List (List Call)} {size : Nat}
    (once : ∀ asked ∈ completions, (asked.map Call.key).Nodup)
    (planned : ∀ asked ∈ completions, ∀ key ∈ asked.map Call.key, key ∈ callPlan size) :
    completions.flatten.length ≤ 2 * size * completions.length := by
  induction completions with
  | nil => exact Nat.zero_le _
  | cons asked rest ih =>
      have first : asked.length ≤ 2 * size := by
        rw [← callPlan_length, ← List.length_map Call.key]
        exact (List.subperm_of_subset (once asked List.mem_cons_self)
          (planned asked List.mem_cons_self)).length_le
      have later := ih (fun other member => once other (List.mem_cons_of_mem _ member))
        fun other member => planned other (List.mem_cons_of_mem _ member)
      rw [List.flatten_cons, List.length_append, List.length_cons, Nat.mul_succ]
      omega

/-- A page keeps its cost and accounts for its use sites just when every source came and no use
site has the panel asked again. -/
theorem verifyExtracted_iff (letters : Letters) (details : ArchiveDetails engine)
    (blocks : List (ParsoidBlock Url)) (request : PageVerificationRequest)
    (maxUseSites : Option Nat) :
    let limit := maxUseSites.getD defaultMaxUseSites
    let extract := extractUseSites letters request blocks
    ∃ result completions, verifyExtracted engine fetch models nowMs panel letters blocks request
        false maxUseSites = some (result, completions) ∧
      (CostAndAccount panel limit extract result completions ↔
        ReadsOnce engine fetch models panel (capped limit extract)) := by
  intro limit extract
  let kept := capped limit extract
  let bodies := prefetchBodies engine fetch kept.useSites pageVerifyConcurrency
  let verify := verifyOneUseSite engine fetch models nowMs panel bodies defaultOptions
  have solid : SolidClaims kept := (extractUseSites_solid blocks).capped limit
  have cache : PrefetchCache engine fetch bodies := prefetchBodies_cache _ _
  choose judged runs using fun site =>
    @verifyBookUseSite_runs Url engine fetch models nowMs panel request defaultOptions details site
  obtain ⟨report, reported, same, -, -⟩ :=
    @verifyPageWith_account Url engine fetch models nowMs panel request defaultOptions bodies judged
      runs kept pageVerifyConcurrency
  have ran : verifyExtracted engine fetch models nowMs panel letters blocks request false maxUseSites =
      some (⟨useSiteCount extract, useSiteCount extract * panel.length, report.skipped.length, false,
          (report.findings.map (toPageFinding engine)).length, limit < useSiteCount extract,
          report.findings.map (toPageFinding engine)⟩,
        pageCalls engine fetch models nowMs panel request kept defaultOptions
          pageVerifyConcurrency) := by
    have page : verifyPage engine fetch models nowMs panel request kept defaultOptions
        pageVerifyConcurrency = some report := reported
    unfold verifyExtracted
    dsimp only
    rw [if_neg Bool.false_ne_true, page]
    rfl
  refine ⟨_, _, ran, ?_⟩
  have calls : pageCalls engine fetch models nowMs panel request kept defaultOptions
      pageVerifyConcurrency =
      kept.useSites.map (siteCalls engine fetch models nowMs panel bodies defaultOptions) ++
        kept.bookUseSites.map fun site => (judged site).2.2 := by
    unfold pageCalls
    dsimp only
    refine congrArg (_ ++ ·) (List.map_congr_left fun site _ => ?_)
    rw [bookCalls, runs]
    rfl
  have ends (site : BookUseSite) (member : site ∈ kept.bookUseSites) :=
    @verifyBookUseSite_ends Url engine fetch models nowMs panel request site defaultOptions
      (judged site).1 (judged site).2.1 (judged site).2.2 (solid.books site member) (runs site)
  have total := urls_conserved (kept.useSites.map verify)
  have read := @books_conserved Url (fun site => (judged site).2.1) kept.bookUseSites
    fun site member => (ends site member).2.1
  have findings : report.findings.Perm (urlFindings (kept.useSites.map verify) ++
      kept.bookUseSites.filterMap fun site => (judged site).2.1.asFinding) := same.findings
  have skipped : report.skipped.length = extract.skipped.length +
      (kept.bookUseSites.filterMap fun site => (judged site).2.1.asSkip).length := by
    have whole := same.skipped.length_eq
    dsimp only [accountOf] at whole
    rwa [List.length_append, show kept.skipped = extract.skipped from
      capped_skipped limit extract] at whole
  have counted := findings.length_eq
  have count : useSiteCount kept = min (useSiteCount extract) limit :=
    useSiteCount_capped limit extract
  rw [List.length_map] at total
  rw [List.length_append] at counted
  have settles (site : CitationUseSite Url) (member : site ∈ kept.useSites) :=
    @verifyOneUseSite_ok_iff Url engine fetch models nowMs panel bodies site
      (solid.urls site member) cache
  constructor
  · intro held
    obtain ⟨verified, passed, placed, shown, size, passes⟩ := held.accounted
    have among : (verified ++ passed).length = (kept.useSites.map CitationUseSite.useSiteOrdinal ++
      kept.bookUseSites.map BookUseSite.useSiteOrdinal).length := placed.length_eq
    have every := shown.length_eq
    rw [List.length_append, List.length_append, List.length_map, List.length_map] at among
    rw [List.length_map, List.length_map] at every
    have passing : passed.length =
        (kept.bookUseSites.filterMap fun site => (judged site).2.1.asSkip).length := by
      dsimp only at passes
      omega
    have failures : urlFailures (kept.useSites.map verify) = [] ∧
        (kept.bookUseSites.filterMap fun site => (judged site).2.1.asFailure) = [] := by
      constructor
      · apply List.eq_nil_of_length_eq_zero
        omega
      · apply List.eq_nil_of_length_eq_zero
        omega
    have settled := urls_settled_iff.mp failures.1
    refine ⟨fun site member => ?_, fun site member searchable empty => ?_⟩
    · obtain ⟨inhabited, fetched, came⟩ :=
        (settles site member).mp (settled _ (List.mem_map_of_mem member))
      refine ⟨inhabited, ⟨fetched, came⟩, ?_⟩
      apply (siteCalls_nodup_iff inhabited (solid.urls site member) cache came).mp
      refine held.once _ ?_
      rw [calls]
      exact List.mem_append_left _ (List.mem_map_of_mem member)
    · exact (@books_settled_iff Url (fun site => (judged site).2.1) _).mp failures.2 site member
        ((ends site member).2.2.mpr ⟨empty, searchable⟩)
  · intro reads
    have settled : ∀ site ∈ kept.useSites, ∃ outcome, (verify site).2.2 = .ok outcome := by
      intro site member
      obtain ⟨inhabited, came, -⟩ := reads.urls site member
      exact (settles site member).mpr ⟨inhabited, came⟩
    have unfailed : ∀ site ∈ kept.bookUseSites,
        ¬ ∃ failed, (judged site).2.1 = .failure failed := by
      intro site member failed
      obtain ⟨empty, searchable⟩ := (ends site member).2.2.mp failed
      exact reads.books site member searchable empty
    have once : ∀ asked ∈ pageCalls engine fetch models nowMs panel request kept defaultOptions
        pageVerifyConcurrency, (asked.map Call.key).Nodup ∧
          ∀ key ∈ asked.map Call.key, key ∈ callPlan panel.length := by
      intro asked member
      rw [calls] at member
      rcases List.mem_append.mp member with url | book
      · obtain ⟨site, among, rfl⟩ := List.mem_map.mp url
        obtain ⟨inhabited, ⟨fetched, came⟩, single⟩ := reads.urls site among
        have claim := solid.urls site among
        exact ⟨(siteCalls_nodup_iff inhabited claim cache came).mpr single,
          fun key held => siteCalls_plan inhabited claim held⟩
      · obtain ⟨site, among, rfl⟩ := List.mem_map.mp book
        have planned := (ends site among).1
        exact ⟨planned.nodup (callPlan_nodup _), planned.subset⟩
    have size : (pageCalls engine fetch models nowMs panel request kept defaultOptions
        pageVerifyConcurrency).length = min (useSiteCount extract) limit := by
      rw [calls, List.length_append, List.length_map, List.length_map, ← count]
      rfl
    refine ⟨size, fun asked member => (once asked member).1, ?_, decide_eq_true_iff, ?_⟩
    · rw [← size]
      exact flatten_length_le (fun asked member => (once asked member).1)
        fun asked member => (once asked member).2
    · obtain ⟨passed, placed, passes⟩ :=
        @books_ordinals Url (fun site => (judged site).2.1) kept.bookUseSites
          (fun site member => (ends site member).2.1) unfailed
      have urls := urls_ordinals
        (fun site outcome (run : (verify site).2.2 = .ok outcome) =>
          (verifyOneUseSite_cites run).2.2.1) settled
      have shown : ((report.findings.map (toPageFinding engine)).map
          PageFinding.useSiteOrdinal).Perm ((urlFindings (kept.useSites.map verify) ++
            kept.bookUseSites.filterMap fun site => (judged site).2.1.asFinding).map
              CitationFinding.useSiteOrdinal) := by
        rw [List.map_map]
        exact findings.map CitationFinding.useSiteOrdinal
      refine ⟨_, passed, ?_, shown, ?_, ?_⟩
      · rw [List.map_append, urls, List.append_assoc]
        exact placed.append_left _
      · dsimp only
        rw [List.length_map, List.length_map, findings.length_eq]
      · dsimp only
        rw [skipped, passes]

end Result

/-- One dead link with two archived copies, of which neither gets a verdict. -/
def twiceArchivedRef : BlockRef (Text × List Text) :=
  ⟨10, "cite_ref-3".toList, [⟨("example.org".toList, []),
    [("example.com".toList, []), ("example.net".toList, [])]⟩], [], false, false⟩

/-- The copies are pages; the link itself is gone. -/
def archivedFetch : Text × List Text → Except Text HttpResponse := fun url =>
  .ok ⟨if url.1 = "example.org".toList then 404 else 200, [("content-type", "text/plain".toList)],
    List.replicate 300 97⟩

def silentModels : ModelClient := ⟨fun _ _ => .error [], fun _ _ => .error []⟩

theorem verifyExtracted_cats :
    ∃ result completions, verifyExtracted plainEngine refuse plainModels 0 plainPanel asciiLetters
        [citedBlock urlRef] catsPage false none = some (result, completions) ∧
      (CostAndAccount plainPanel defaultMaxUseSites
          (extractUseSites asciiLetters catsPage [citedBlock urlRef]) result completions ↔
        ReadsOnce plainEngine refuse plainModels plainPanel
          (capped defaultMaxUseSites (extractUseSites asciiLetters catsPage [citedBlock urlRef]))) :=
  verifyExtracted_iff asciiLetters plain_archiveDetails [citedBlock urlRef] catsPage none

/-- A model that says nothing is asked for its vote on each copy of a dead link. -/
theorem copies_asked_again :
    ∃ run, verifyExtracted plainEngine archivedFetch silentModels 0 plainPanel asciiLetters
        [citedBlock twiceArchivedRef] catsPage false none = some run ∧
      run.2.map (·.map Call.key) = [[(.verify, 0), (.verify, 0)]] ∧
      ¬ CostAndAccount plainPanel defaultMaxUseSites
        (extractUseSites asciiLetters catsPage [citedBlock twiceArchivedRef]) run.1 run.2 := by
  have keys : (verifyExtracted plainEngine archivedFetch silentModels 0 plainPanel asciiLetters
      [citedBlock twiceArchivedRef] catsPage false none).map (fun run =>
        run.2.map (·.map Call.key)) = some [[(.verify, 0), (.verify, 0)]] := by decide +kernel
  obtain ⟨run, ran, asked⟩ := Option.map_eq_some_iff.mp keys
  refine ⟨run, ran, asked, fun held => ?_⟩
  have once : ∀ list ∈ run.2.map (·.map Call.key), list.Nodup := by
    intro list member
    obtain ⟨calls, among, rfl⟩ := List.mem_map.mp member
    exact held.once calls among
  rw [asked] at once
  exact absurd (once _ List.mem_cons_self) (by decide)

end SP42.Citation

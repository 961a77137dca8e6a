import Mathlib.Algebra.GroupWithZero.Nat
import SP42.Citation.Extract
import SP42.Lib.Bytes

/-!
Verification of a page: the sources are fetched ahead into a bounded cache, every use
site is verified against its source or an archived copy, and a report is assembled.
-/
namespace SP42.Citation

def maxPrefetchCacheBytes : Nat := 64 * 1024 * 1024

def prefetchRetainedBytes (source : FetchedSource) : Nat :=
  Bytes.size source.text + (source.rawHtml.map Bytes.size).getD 0

structure PageVerificationStats where
  refsSeen : Nat
  useSitesVerified : Nat
  skipped : Nat
  extractionFailures : Nat
  supported : Nat
  partially : Nat
  notSupported : Nat
  sourceUnavailable : Nat
  sourceUnavailableUnreachable : Nat
  sourceUnavailableUnusable : Nat
  booksResolved : Nat
  booksNotFound : Nat
  bookLookupsFailed : Nat
  deriving DecidableEq, Repr

structure PageVerificationReport (Url : Type) where
  wikiId : Text
  revId : Nat
  title : Text
  findings : List (CitationFinding Url)
  skipped : List SkippedRef
  extractionFailures : List BlockFailure
  bookResolutions : List BookResolution
  stats : PageVerificationStats

section Stats

variable {Url : Type}

def tallyResolution (stats : PageVerificationStats) (resolution : BookResolution) :
    PageVerificationStats :=
  match resolution.outcome with
  | .resolved .. => { stats with booksResolved := stats.booksResolved + 1 }
  | .notFound => { stats with booksNotFound := stats.booksNotFound + 1 }
  | .lookupFailed _ => { stats with bookLookupsFailed := stats.bookLookupsFailed + 1 }

def tallyFinding (stats : PageVerificationStats) (finding : CitationFinding Url) :
    PageVerificationStats :=
  match finding.verdict with
  | .judged .supported => { stats with supported := stats.supported + 1 }
  | .judged .partially => { stats with partially := stats.partially + 1 }
  | .judged .notSupported => { stats with notSupported := stats.notSupported + 1 }
  | .sourceUnavailable =>
      let counted := { stats with sourceUnavailable := stats.sourceUnavailable + 1 }
      match finding.sourceUnavailableReason with
      | some .unreachable =>
          { counted with
            sourceUnavailableUnreachable := counted.sourceUnavailableUnreachable + 1 }
      | some .unusable =>
          { counted with sourceUnavailableUnusable := counted.sourceUnavailableUnusable + 1 }
      | none => counted

def tallyStats (refsSeen : Nat) (findings : List (CitationFinding Url))
    (skipped extractionFailures : Nat) (bookResolutions : List BookResolution) :
    PageVerificationStats :=
  findings.foldl tallyFinding (bookResolutions.foldl tallyResolution
    ⟨refsSeen, findings.length, skipped, extractionFailures, 0, 0, 0, 0, 0, 0, 0, 0, 0⟩)

end Stats

section Page

variable {Url : Type} (engine : Engine Url) (fetch : Url → Except Text HttpResponse)
  (models : ModelClient) (nowMs : Int) (panel : List ModelRef)

/-- The attempt on one archived copy. -/
def tryArchive (site : CitationUseSite Url) (options : VerifyOptions) (archive : Url) :
    Option (VerificationOutcome Url) :=
  match fetchSource engine fetch (engine.urls.asStr archive) with
  | .error _ => none
  | .ok body =>
      let alternative := (verifyCitationUseSite engine fetch models nowMs panel
        { site.request with sourceUrl := archive } (some site.context) site.useSiteOrdinal
        { options with includeMetadata := false, prefetched := some body }).1
      match alternative with
      | .error _ => none
      | .ok outcome =>
          if outcome.finding.verdict = .sourceUnavailable then none
          else some { outcome with
            finding := { outcome.finding with archiveOf := some site.request.sourceUrl } }

/-- An outcome whose live URL is unreachable gives way to the first archived copy that can
be judged. -/
def tryArchiveFallback (site : CitationUseSite Url) (options : VerifyOptions)
    (outcome : Except CitationVerificationError (VerificationOutcome Url)) :
    Except CitationVerificationError (VerificationOutcome Url) :=
  match outcome with
  | .error error => .error error
  | .ok primary =>
      if primary.finding.verdict = .sourceUnavailable ∧
          primary.finding.sourceUnavailableReason = some .unreachable then
        match site.archiveUrls.findSome? (tryArchive engine fetch models nowMs panel site options) with
        | some alternative => .ok alternative
        | none => .ok primary
      else .ok primary

/-- The reference, the claim and its context, as the findings of a use site carry them. -/
def stampUseSite (site : CitationUseSite Url) (outcome : VerificationOutcome Url) :
    VerificationOutcome Url :=
  { outcome with finding := { outcome.finding with
      refId := site.refId
      isBareUrlRef := site.isBareUrlRef
      claim := site.request.claim
      precedingContext := site.context.precedingSentences } }

def verifyOneUseSite (bodies : List (Text × FetchedSource)) (options : VerifyOptions)
    (site : CitationUseSite Url) :
    Text × Nat × Except CitationVerificationError (VerificationOutcome Url) :=
  let outcome := (verifyCitationUseSite engine fetch models nowMs panel site.request
    (some site.context) site.useSiteOrdinal
    { options with prefetched := bodies.lookup (engine.urls.asStr site.request.sourceUrl) }).1
  let outcome := tryArchiveFallback engine fetch models nowMs panel site options outcome
  (site.refId, site.blockOrdinal, outcome.map (stampUseSite site))

/-- What is cached for a URL. A failed fetch leaves an empty body. -/
def prefetchedSource (url : Text) : FetchedSource :=
  match fetchSource engine fetch url with
  | .ok source => source
  | .error _ => ⟨[], 0, [], none, false⟩

def distinctSources (useSites : List (CitationUseSite Url)) : List Text :=
  useSites.foldl (fun distinct site =>
    let url := engine.urls.asStr site.request.sourceUrl
    if url ∈ distinct then distinct else distinct ++ [url]) []

/-- The loop over the chunks, with the bytes retained and the bodies so far. -/
def prefetchChunks (retained : Nat) (bodies : List (Text × FetchedSource)) :
    List (List Text) → List (Text × FetchedSource)
  | [] => bodies
  | chunk :: rest =>
      if maxPrefetchCacheBytes ≤ retained then bodies
      else
        let fetched := chunk.map fun url => (url, prefetchedSource engine fetch url)
        prefetchChunks (retained + (fetched.map fun entry => prefetchRetainedBytes entry.2).sum)
          (bodies ++ fetched) rest

def prefetchBodies (useSites : List (CitationUseSite Url)) (pageConcurrency : Nat) :
    List (Text × FetchedSource) :=
  prefetchChunks engine fetch 0 [] ((distinctSources engine useSites).toChunks pageConcurrency)

/-- The references that an extraction saw. -/
def refsSeen (extract : ExtractOutcome Url) : Nat :=
  let distinct := (extract.useSites.map CitationUseSite.refId ++
    extract.bookUseSites.map BookUseSite.refId).dedup
  distinct.length + (extract.skipped.filter fun skip => skip.refId ∉ distinct).length +
    extract.failures.length

/-- One step of the collection of the results: a finding or a failure. -/
def urlFindings (results : List (Text × Nat ×
    Except CitationVerificationError (VerificationOutcome Url))) : List (CitationFinding Url) :=
  results.filterMap fun result =>
    match result.2.2 with
    | .ok outcome => some outcome.finding
    | .error _ => none

def urlFailures (results : List (Text × Nat ×
    Except CitationVerificationError (VerificationOutcome Url))) : List BlockFailure :=
  results.filterMap fun result =>
    match result.2.2 with
    | .ok _ => none
    | .error error => some ⟨result.2.1, "verify failed for ".toList ++ result.1 ++ ": ".toList ++
        error.display⟩

def BookVerdict.asFinding : BookVerdict Url → Option (CitationFinding Url)
  | .finding found => some found
  | _ => none

def BookVerdict.asSkip : BookVerdict Url → Option SkippedRef
  | .skip skipped => some skipped
  | _ => none

def BookVerdict.asFailure : BookVerdict Url → Option BlockFailure
  | .failure failed => some failed
  | _ => none

/-- The report on an extraction, with the cache that the sources are read through. -/
def verifyPageWith (bodies : List (Text × FetchedSource)) (page : PageVerificationRequest)
    (extract : ExtractOutcome Url) (options : VerifyOptions) (pageConcurrency : Nat) :
    Option (PageVerificationReport Url) :=
  let results := mapWithConcurrency extract.useSites pageConcurrency fun site _ =>
    verifyOneUseSite engine fetch models nowMs panel bodies options site
  let bookRuns := mapWithConcurrency extract.bookUseSites (min (max pageConcurrency 1) 3)
    fun site _ => verifyBookUseSite engine fetch models nowMs panel page site options
  (bookRuns.mapM id).map fun bookResults =>
    let verdicts := bookResults.map fun result => result.2.1
    let findings := (urlFindings results ++ verdicts.filterMap BookVerdict.asFinding).mergeSort
      fun one other => decide (one.useSiteOrdinal ≤ other.useSiteOrdinal)
    let skipped := extract.skipped ++ verdicts.filterMap BookVerdict.asSkip
    let failures := extract.failures ++ urlFailures results ++
      verdicts.filterMap BookVerdict.asFailure
    let resolutions := bookResults.map fun result => result.1
    { wikiId := page.wikiId
      revId := page.revId
      title := page.title
      findings := findings
      skipped := skipped
      extractionFailures := failures
      bookResolutions := resolutions
      stats := tallyStats (refsSeen extract) findings skipped.length failures.length resolutions }

def verifyPage (page : PageVerificationRequest) (extract : ExtractOutcome Url)
    (options : VerifyOptions) (pageConcurrency : Nat) : Option (PageVerificationReport Url) :=
  let pageConcurrency := max pageConcurrency 1
  verifyPageWith engine fetch models nowMs panel
    (prefetchBodies engine fetch extract.useSites pageConcurrency) page extract options
    pageConcurrency

end Page

end SP42.Citation

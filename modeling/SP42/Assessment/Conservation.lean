import SP42.Assessment.Appendix
import SP42.Citation.RefsSeen
import SP42.Lib.Total

/-!
The appendix keeps the whole report: every finding has one bullet in one section, the numbers of
the summary are those of the bullets, and a skipped book is joined with a resolution.
-/
namespace SP42.Assessment

open Citation

section OneLine

/-- A text in a nowiki tag that it cannot end. -/
def Sealed (piece : Text) : Prop :=
  ∃ inner, '<' ∉ inner ∧ piece = "<nowiki>".toList ++ inner ++ "</nowiki>".toList

/-- A text whose line feeds are all in such tags. -/
def OneLine (text : Text) : Prop :=
  ∃ pieces : List Text, pieces.flatten = text ∧ ∀ piece ∈ pieces, '\n' ∉ piece ∨ Sealed piece

theorem OneLine.plain {text : Text} (plain : '\n' ∉ text) : OneLine text :=
  ⟨[text], List.flatten_singleton, fun _ member => .inl (List.mem_singleton.mp member ▸ plain)⟩

theorem OneLine.literal {letters : List Char} (plain : '\n' ∉ letters) :
    OneLine (String.ofList letters).toList := .plain (Text.not_mem_literal plain)

theorem OneLine.literals {letters others : List Char} (plain : '\n' ∉ letters)
    (plain' : '\n' ∉ others) :
    OneLine (String.ofList letters ++ String.ofList others).toList := by
  refine .plain ?_
  rw [String.toList_append, String.toList_ofList, String.toList_ofList]
  exact List.not_mem_append plain plain'

theorem OneLine.nil : OneLine [] := .plain List.not_mem_nil

theorem OneLine.append {text other : Text} (line : OneLine text) (rest : OneLine other) :
    OneLine (text ++ other) := by
  obtain ⟨pieces, rfl, here⟩ := line
  obtain ⟨others, rfl, there⟩ := rest
  refine ⟨pieces ++ others, List.flatten_append, fun piece member => ?_⟩
  rcases List.mem_append.mp member with member | member
  · exact here piece member
  · exact there piece member

theorem oneLine_verbatim (text : Text) : OneLine (escapeVerbatim text) := by
  refine ⟨[escapeVerbatim text], List.flatten_singleton, fun piece member => .inr ?_⟩
  obtain rfl := List.mem_singleton.mp member
  refine ⟨text.flatMap escapeChar, fun opens => ?_, rfl⟩
  obtain ⟨c, -, opens⟩ := List.mem_flatMap.mp opens
  unfold escapeChar at opens
  split at opens
  · revert opens; decide
  · revert opens; decide
  · revert opens; decide
  · next other _ =>
      exact absurd (List.mem_singleton.mp opens).symm other

theorem oneLine_ofNat (n : Nat) : OneLine (Text.ofNat n) := by
  refine .plain fun member => ?_
  have digit := Text.isDigit_of_mem_ofNat member
  revert digit
  decide

theorem OneLine.flatMap {α : Type} {f : α → Text} {items : List α}
    (lines : ∀ item ∈ items, OneLine (f item)) : OneLine (items.flatMap f) := by
  induction items with
  | nil => exact .nil
  | cons item rest ih =>
      rw [List.flatMap_cons]
      exact (lines item List.mem_cons_self).append
        (ih fun other member => lines other (List.mem_cons_of_mem _ member))

theorem OneLine.join {separator : Text} (plain : OneLine separator) {pieces : List Text}
    (lines : ∀ piece ∈ pieces, OneLine piece) : OneLine (Text.join separator pieces) := by
  cases pieces with
  | nil => exact .nil
  | cons piece rest =>
      rw [Text.join_cons]
      exact (lines piece List.mem_cons_self).append
        (.flatMap fun other member => plain.append (lines other (List.mem_cons_of_mem _ member)))

theorem OneLine.remark {text : Option Text} (line : ∀ inner ∈ text, OneLine inner) :
    OneLine (remark text) := by
  cases text with
  | none => exact .nil
  | some inner =>
      exact ((OneLine.literal (by decide)).append (line inner rfl)).append (.literal (by decide))

theorem oneLine_namedRefLabel {refId label : Text} (named : namedRefLabel refId = some label) :
    OneLine label := by
  unfold namedRefLabel at named
  split at named
  · cases named
  · dsimp only at named
    split at named
    · cases named
    · split at named
      · cases named
      · split at named
        · cases named
        · split at named
          · cases named
          · split at named
            · cases named
            · cases named
              exact ((OneLine.literal (by decide)).append (oneLine_verbatim _)).append
                (.literal (by decide))

theorem OneLine.label {refId other : Text} (line : OneLine other) :
    OneLine ((namedRefLabel refId).getD other) := by
  cases named : namedRefLabel refId with
  | none => exact line
  | some label => exact oneLine_namedRefLabel named

theorem oneLine_refLabel (refId : Text) (ordinal : Nat) : OneLine (refLabel refId ordinal) :=
  .label (.append (.literal (by decide)) (oneLine_ofNat _))

theorem oneLine_skipLabel (refId : Text) (blockOrdinal : Nat) :
    OneLine (skipLabel refId blockOrdinal) :=
  .label (.append (.append (.literal (by decide)) (oneLine_ofNat _)) (.literal (by decide)))

theorem oneLine_whichBook (identifiers : List BookIdentifier) (citedPage : Option Text) :
    OneLine (whichBook identifiers citedPage) := by
  unfold whichBook
  split
  · exact .nil
  · refine .remark fun inner member => ?_
    cases member
    refine .append (.join (.literal (by decide)) fun piece member => ?_) ?_
    · obtain ⟨identifier, -, rfl⟩ := List.mem_map.mp member
      exact oneLine_verbatim _
    · cases citedPage with
      | none => exact .nil
      | some page => exact .append (.literal (by decide)) (oneLine_verbatim _)

theorem oneLine_skippedLine (resolutions : List BookResolution) (skip : SkippedRef) :
    OneLine (skippedLine resolutions skip) := by
  have text : OneLine (skippedText resolutions skip) := by
    unfold skippedText
    split
    · exact .literal (by decide)
    · split
      · exact .literals (by decide) (by decide)
      · exact .literal (by decide)
    · exact .literals (by decide) (by decide)
  exact (((oneLine_skipLabel _ _).append (.literal (by decide))).append text).append
    (oneLine_whichBook _ _)

theorem oneLine_bookLine (resolution : BookResolution) : OneLine (bookLine resolution) := by
  have scanned (scan : Option ScanAvailability) : OneLine (scanState scan) := by
    unfold scanState
    split
    · split
      · exact .literal (by decide)
      · split
        · exact .literal (by decide)
        · split <;> exact .literal (by decide)
    · exact .literal (by decide)
  refine .append (.append (.append (oneLine_skipLabel _ _) (.literal (by decide))) ?_)
    (oneLine_whichBook _ _)
  split
  · refine .append (.append ?_ (.literal (by decide))) (scanned _)
    split
    · exact oneLine_verbatim _
    · exact .literal (by decide)
  · exact .nil

/-- The URLs that a finding shows have no line feed. -/
def PlainUrls {Url : Type} (asStr : Url → Text) (finding : CitationFinding Url) : Prop :=
  '\n' ∉ asStr finding.provenance.url ∧ ∀ archive ∈ finding.archiveOf, '\n' ∉ asStr archive

section Findings

variable {Url : Type} {asStr : Url → Text} {finding : CitationFinding Url}

theorem oneLine_url {link : Url} (plain : '\n' ∉ asStr link) :
    OneLine (escapeWikitextUrl asStr link) := by
  refine .flatMap fun c member => .plain ?_
  unfold escapeUrlChar
  split
  all_goals first
    | decide
    | exact fun same => plain (List.mem_singleton.mp same ▸ member)

theorem oneLine_bracketed {link : Url} (plain : '\n' ∉ asStr link) :
    OneLine (bracketed asStr link) :=
  ((OneLine.literal (by decide)).append (oneLine_url plain)).append (.literal (by decide))

theorem oneLine_scanParts (scan : BookScanProvenance) :
    ∀ piece ∈ scannedPageParts scan ++ scanNoteParts scan, OneLine piece := by
  intro piece listed
  rcases List.mem_append.mp listed with listed | listed
  · unfold scannedPageParts at listed
    split at listed
    · split at listed
      · obtain rfl := List.mem_singleton.mp listed
        unfold bookScanPages
        exact (((OneLine.literal (by decide)).append (oneLine_ofNat _)).append
          (.literal (by decide))).append (oneLine_verbatim _)
      · cases listed
    · cases listed
  · unfold scanNoteParts at listed
    split at listed
    · obtain rfl := List.mem_singleton.mp listed
      exact oneLine_verbatim _
    · cases listed

theorem oneLine_bookScanAnnotationText :
    ∀ inner ∈ bookScanAnnotationText finding, OneLine inner := by
  intro inner member
  unfold bookScanAnnotationText at member
  split at member
  · cases member
  · dsimp only at member
    split at member
    · cases member
    · cases member
      exact .join (.literal (by decide)) (oneLine_scanParts _)

theorem oneLine_archiveRemark (plain : PlainUrls asStr finding) :
    ∀ inner ∈ archiveRemark asStr finding, OneLine inner := by
  intro inner member
  obtain ⟨archive, held, rfl⟩ := Option.map_eq_some_iff.mp member
  exact ((OneLine.literal (by decide)).append (.literal (by decide))).append
    (oneLine_bracketed (plain.2 archive held))

theorem oneLine_groundingAnnotationText {status : GroundingStatus} :
    ∀ annotation ∈ groundingAnnotationText status, OneLine annotation := by
  intro annotation told
  cases status with
  | located => cases told
  | locatedFuzzy =>
      cases told
      exact .literal (by decide)
  | unlocated =>
      cases told
      exact .literal (by decide)
  | notApplicable =>
      cases told
      exact .literal (by decide)

theorem oneLine_disagreementVerdict (level : SupportLevel) (asked : Bool) :
    OneLine (disagreementVerdict level asked) := by
  cases level with
  | notSupported =>
      cases asked with
      | true => exact .literals (by decide) (by decide)
      | false => exact .literal (by decide)
  | partially => exact .literal (by decide)
  | supported => exact .literal (by decide)

/-- The bullet of a finding is one line. -/
theorem oneLine_findingLine (plain : PlainUrls asStr finding) (bucket : Bucket) :
    OneLine (findingLine asStr finding bucket) := by
  have scanned : OneLine (remark (bookScanAnnotationText finding)) :=
    .remark oneLine_bookScanAnnotationText
  have archived : OneLine (remark (archiveRemark asStr finding)) :=
    .remark (oneLine_archiveRemark plain)
  have link := oneLine_bracketed plain.1
  have label : OneLine (findingLabel finding) := oneLine_refLabel _ _
  cases bucket with
  | disagreement =>
      have evidence : OneLine (evidenceText finding) := by
        unfold evidenceText
        split
        · exact ((OneLine.literal (by decide)).append (oneLine_verbatim _)).append
            (.literal (by decide))
        · exact ((((OneLine.literal (by decide)).append (.literal (by decide))).append
            (.literal (by decide))).append (oneLine_verbatim _)).append (.literal (by decide))
        · exact ((OneLine.literal (by decide)).append (.literal (by decide))).append
            (.literal (by decide))
      have panel : OneLine (remark (if 0 < finding.agreement.panelSize ∧
          finding.agreement.winnerVotes * 2 ≤ finding.agreement.panelSize then
            some panelSplitLine else none)) := by
        refine .remark fun inner member => ?_
        split at member
        · cases member
          exact .literal (by decide)
        · cases member
      have claim := oneLine_verbatim (truncateClaim finding.claim 200)
      refine (((((((((((label.append (.literal (by decide))).append ?verdict).append
        (.literal (by decide))).append claim).append (.literal (by decide))).append evidence).append
        ?doubt).append panel).append (.literal (by decide))).append link).append
        archived).append scanned
      case verdict =>
        split
        · exact oneLine_disagreementVerdict _ _
        · exact .nil
      case doubt =>
        split
        · next annotation read =>
            split
            · exact ((OneLine.literal (by decide)).append
                (oneLine_groundingAnnotationText _ read)).append (.literal (by decide))
            · exact .nil
        · exact .nil
  | recovered =>
      refine ((((((label.append (.literal (by decide))).append link).append
        (.literal (by decide))).append ?_).append (.literal (by decide))).append
        (oneLine_verbatim _)).append (.literal (by decide))
      split
      · next deadLive held => exact oneLine_url (plain.2 deadLive held)
      · exact .nil
  | deadLink => exact ((label.append (.literal (by decide))).append link).append scanned
  | unreadable =>
      refine (label.append ?_).append scanned
      split
      · exact ((OneLine.literal (by decide)).append link).append (.literal (by decide))
      · refine ((((OneLine.literal (by decide)).append link).append (.literal (by decide))).append
          ?_).append (.literal (by decide))
        split
        · next reason _ =>
            cases reason <;> exact .literal (by decide)
        · exact .literal (by decide)
  | unconfirmed =>
      have annotation : OneLine ((groundingAnnotationText finding.groundingStatus).getD []) := by
        cases read : groundingAnnotationText finding.groundingStatus with
        | none => exact .nil
        | some annotation => exact oneLine_groundingAnnotationText _ read
      exact (((((((label.append (.literal (by decide))).append annotation).append
        (.literal (by decide))).append (oneLine_verbatim _)).append (.literal (by decide))).append
        link).append archived).append scanned
  | supported =>
      exact (((((label.append (.literal (by decide))).append (oneLine_verbatim _)).append
        (.literal (by decide))).append link).append (.literal (by decide))).append scanned

end Findings

end OneLine

section Counts

variable {Url : Type}

/-- Every finding is counted in one bucket. -/
theorem sum_buckets (findings : List (CitationFinding Url)) :
    (Bucket.all.map fun bucket => findings.countP fun finding => bucketFor finding = bucket).sum =
      findings.length := by
  induction findings with
  | nil => rfl
  | cons finding rest ih =>
      simp only [Bucket.all, List.map_cons, List.map_nil, List.sum_cons, List.sum_nil,
        List.countP_cons, List.length_cons] at ih ⊢
      cases bucketFor finding <;> simp <;> omega

theorem tallied {count : PageVerificationStats → Nat} {counts : CitationFinding Url → Bool}
    (step : ∀ stats finding,
      count (tallyFinding stats finding) = count stats + if counts finding then 1 else 0)
    (findings : List (CitationFinding Url)) (stats : PageVerificationStats) :
    count (findings.foldl tallyFinding stats) = count stats + findings.countP counts := by
  induction findings generalizing stats with
  | nil => rfl
  | cons finding rest ih =>
      rw [List.foldl_cons, ih, step, List.countP_cons]
      omega

/-- What a tally does to the counts that the summary shows. -/
theorem tallyFinding_counts (stats : PageVerificationStats) (finding : CitationFinding Url) :
    (tallyFinding stats finding).useSitesVerified = stats.useSitesVerified ∧
    (tallyFinding stats finding).supported =
      stats.supported + (if decide (finding.verdict = .judged .supported) then 1 else 0) ∧
    (tallyFinding stats finding).partially =
      stats.partially + (if decide (finding.verdict = .judged .partially) then 1 else 0) ∧
    (tallyFinding stats finding).notSupported =
      stats.notSupported + (if decide (finding.verdict = .judged .notSupported) then 1 else 0) := by
  unfold tallyFinding
  split
  · next judged => simp [judged]
  · next judged => simp [judged]
  · next judged => simp [judged]
  · next unavailable =>
      dsimp only
      split <;> simp [unavailable]

theorem tallyResolution_counts (stats : PageVerificationStats) (resolution : BookResolution) :
    (tallyResolution stats resolution).useSitesVerified = stats.useSitesVerified ∧
    (tallyResolution stats resolution).supported = stats.supported ∧
    (tallyResolution stats resolution).partially = stats.partially ∧
    (tallyResolution stats resolution).notSupported = stats.notSupported := by
  unfold tallyResolution
  split <;> exact ⟨rfl, rfl, rfl, rfl⟩

theorem foldl_resolutions (resolutions : List BookResolution) (stats : PageVerificationStats) :
    (resolutions.foldl tallyResolution stats).useSitesVerified = stats.useSitesVerified ∧
    (resolutions.foldl tallyResolution stats).supported = stats.supported ∧
    (resolutions.foldl tallyResolution stats).partially = stats.partially ∧
    (resolutions.foldl tallyResolution stats).notSupported = stats.notSupported := by
  induction resolutions generalizing stats with
  | nil => exact ⟨rfl, rfl, rfl, rfl⟩
  | cons resolution rest ih =>
      obtain ⟨sites, supported, partially, against⟩ := ih (tallyResolution stats resolution)
      obtain ⟨sites', supported', partially', against'⟩ := tallyResolution_counts stats resolution
      exact ⟨sites.trans sites', supported.trans supported', partially.trans partially',
        against.trans against'⟩

theorem foldl_useSites (findings : List (CitationFinding Url)) (stats : PageVerificationStats) :
    (findings.foldl tallyFinding stats).useSitesVerified = stats.useSitesVerified := by
  induction findings generalizing stats with
  | nil => rfl
  | cons finding rest ih => exact (ih _).trans (tallyFinding_counts stats finding).1

/-- The statistics of the verdicts are their counts. -/
theorem tallyStats_counts (refsSeen : Nat) (findings : List (CitationFinding Url))
    (skipped failures : Nat) (resolutions : List BookResolution) :
    let stats := tallyStats refsSeen findings skipped failures resolutions
    stats.useSitesVerified = findings.length ∧
    stats.supported = findings.countP (fun finding => finding.verdict = .judged .supported) ∧
    stats.partially = findings.countP (fun finding => finding.verdict = .judged .partially) ∧
    stats.notSupported =
      findings.countP fun finding => finding.verdict = .judged .notSupported := by
  obtain ⟨sites, supported, partially, against⟩ := foldl_resolutions resolutions
    ⟨refsSeen, findings.length, skipped, failures, 0, 0, 0, 0, 0, 0, 0, 0, 0⟩
  dsimp only [tallyStats]
  refine ⟨?_, ?_, ?_, ?_⟩
  · rw [foldl_useSites, sites]
  · rw [tallied (fun stats finding => (tallyFinding_counts stats finding).2.1), supported,
      Nat.zero_add]
  · rw [tallied (fun stats finding => (tallyFinding_counts stats finding).2.2.1), partially,
      Nat.zero_add]
  · rw [tallied (fun stats finding => (tallyFinding_counts stats finding).2.2.2), against,
      Nat.zero_add]

theorem countP_split {α : Type} {p q r : α → Bool} (either : ∀ x, p x = (q x || r x))
    (apart : ∀ x, q x = true → r x = false) (items : List α) :
    items.countP p = items.countP q + items.countP r := by
  induction items with
  | nil => rfl
  | cons item rest ih =>
      rw [List.countP_cons, List.countP_cons, List.countP_cons, ih, either]
      have alone := apart item
      cases here : q item with
      | true =>
          rw [alone here]
          simp
          omega
      | false =>
          cases r item with
          | false => simp
          | true =>
              simp
              omega

/-- The verdicts of a bucket. -/
theorem judged_buckets (finding : CitationFinding Url) :
    (finding.verdict = .judged .supported ↔ bucketFor finding = .supported ∨
      bucketFor finding = .recovered ∨ bucketFor finding = .unconfirmed) ∧
    (finding.verdict = .judged .supported ∧ finding.groundingStatus ≠ .located ↔
      bucketFor finding = .unconfirmed) ∧
    (finding.verdict = .judged .partially ∨ finding.verdict = .judged .notSupported ↔
      bucketFor finding = .disagreement) := by
  unfold bucketFor
  split
  · next judged => simp [judged]
  · next judged => simp [judged]
  · next judged =>
      split
      · next located => split <;> simp [judged, located]
      · next drifted => simp [judged, drifted]
  · next unavailable =>
      split
      · simp [unavailable]
      · split <;> simp [unavailable]

end Counts

section Joins

variable {Url : Type} (engine : Engine Url) (fetch : Url → Except Text HttpResponse)

/-- The resolution of a book citation, with the outcome of its own lookup. -/
def resolutionOf (site : BookUseSite) : BookResolution :=
  ⟨site.refId, site.blockOrdinal, site.book.identifiers, site.book.citedPage,
    resolveBookSource engine fetch site.book⟩

def skipOf (site : BookUseSite) : SkippedRef :=
  ⟨site.refId, .bookSource, site.blockOrdinal, [site.book]⟩

def Resolves (site : BookUseSite) : Bool :=
  BookResolutionOutcome.isResolved (resolveBookSource engine fetch site.book)

/-- The lookup of the book did not complete. -/
def LookupFails (site : BookUseSite) : Bool :=
  BookResolutionOutcome.isLookupFailed (resolveBookSource engine fetch site.book)

/-- A site cites under the same reference, and names a book by an identifier of the other, if that
has any. -/
def SharesBook (site other : BookUseSite) : Bool :=
  other.refId == site.refId && (site.book.identifiers == [] ||
    other.book.identifiers.any fun id => decide (id ∈ site.book.identifiers))

theorem bookIdentifiers_skipOf (site : BookUseSite) :
    bookIdentifiers (skipOf site) = site.book.identifiers :=
  List.flatMap_singleton _ _

theorem skipOutcome_sites (sites : List BookUseSite) (site : BookUseSite) :
    skipOutcome (sites.map (resolutionOf engine fetch)) (skipOf site) =
      (sites.find? (SharesBook site)).map fun other =>
        resolveBookSource engine fetch other.book := by
  have same : joins (skipOf site) ∘ resolutionOf engine fetch = SharesBook site := by
    funext other
    show joins (skipOf site) (resolutionOf engine fetch other) = SharesBook site other
    unfold joins
    rw [bookIdentifiers_skipOf]
    rfl
  rw [skipOutcome, List.find?_map, same, Option.map_map]
  rfl

variable {engine fetch} {models : ModelClient} {nowMs : Int} {panel : List ModelRef}
  {page : PageVerificationRequest} {options : VerifyOptions}

theorem verifyBookUseSite_spec {site : BookUseSite} {resolution : BookResolution}
    {verdict : BookVerdict Url} {calls : List Call}
    (run : verifyBookUseSite engine fetch models nowMs panel page site options =
      some (resolution, verdict, calls)) :
    resolution = resolutionOf engine fetch site ∧
      verdict.asSkip = if Resolves engine fetch site then none else some (skipOf site) := by
  unfold verifyBookUseSite at run
  unfold Resolves
  dsimp only at run
  split at run
  · next outcome =>
      rw [outcome]
      split at run
      · obtain ⟨⟨found, _⟩, grounded, same⟩ := Option.map_eq_some_iff.mp run
        cases same
        refine ⟨by rw [resolutionOf, outcome], ?_⟩
        rcases groundResolvedBook_site grounded with ⟨finding, rfl, -⟩ | ⟨error, rfl⟩ <;> rfl
      · cases run
        exact ⟨by rw [resolutionOf, outcome], rfl⟩
  · next outcome =>
      rw [outcome]
      cases run
      exact ⟨by rw [resolutionOf, outcome], rfl⟩
  · next outcome =>
      rw [outcome]
      cases run
      exact ⟨by rw [resolutionOf, outcome], rfl⟩

/-- How a report comes from its use sites. -/
structure Assembled (engine : Engine Url) (fetch : Url → Except Text HttpResponse)
    (extract : ExtractOutcome Url) (report : PageVerificationReport Url) : Prop where
  resolutions : report.bookResolutions = extract.bookUseSites.map (resolutionOf engine fetch)
  skipped : report.skipped = extract.skipped ++
    (extract.bookUseSites.filter fun site => !Resolves engine fetch site).map skipOf
  stats : ∃ refs, report.stats = tallyStats refs report.findings report.skipped.length
    report.extractionFailures.length report.bookResolutions

theorem bookRuns_spec {sites : List BookUseSite}
    {results : List (BookResolution × BookVerdict Url × List Call)}
    (runs : List.Forall₂ (fun site result =>
      verifyBookUseSite engine fetch models nowMs panel page site options = some result) sites
        results) :
    results.map (fun result => result.1) = sites.map (resolutionOf engine fetch) ∧
      (results.map fun result => result.2.1).filterMap BookVerdict.asSkip =
        (sites.filter fun site => !Resolves engine fetch site).map skipOf := by
  induction runs with
  | nil => exact ⟨rfl, rfl⟩
  | @cons site result sites results run _ ih =>
      obtain ⟨resolution, verdict, calls⟩ := result
      obtain ⟨resolved, skip⟩ := verifyBookUseSite_spec run
      refine ⟨congrArg₂ List.cons resolved ih.1, ?_⟩
      rw [List.map_cons, List.filterMap_cons, skip, List.filter_cons, ih.2]
      cases Resolves engine fetch site <;> rfl

theorem verifyPage_assembled {extract : ExtractOutcome Url} {pageConcurrency : Nat}
    {report : PageVerificationReport Url}
    (reported : verifyPage engine fetch models nowMs panel page extract options pageConcurrency =
      some report) : Assembled engine fetch extract report := by
  unfold verifyPage verifyPageWith at reported
  dsimp only at reported
  obtain ⟨results, books, rfl⟩ := Option.map_eq_some_iff.mp reported
  rw [mapWithConcurrency_map] at books
  have runs : List.Forall₂ (fun site result =>
      verifyBookUseSite engine fetch models nowMs panel page site options = some result)
      extract.bookUseSites results :=
    List.forall₂_map_left_iff.mp (Total.mapM_eq_some books)
  obtain ⟨resolutions, skipped⟩ := bookRuns_spec runs
  exact ⟨resolutions, congrArg (_ ++ ·) skipped, _, rfl⟩

end Joins

section Extracting

variable {Url : Type} {page : PageVerificationRequest}

/-- No reference was skipped for its book yet. -/
def NoBookSkips (state : Extracted Url) : Prop :=
  ∀ skip ∈ state.outcome.skipped, skip.reason ≠ .bookSource

theorem NoBookSkips.skip {state : Extracted Url} (none : NoBookSkips state)
    (block : ParsoidBlock Url) (ref : BlockRef Url) {reason : SkippedReason}
    (other : reason ≠ .bookSource) : NoBookSkips (state.skip block ref reason) := by
  intro skip member
  rcases List.mem_append.mp member with member | member
  · exact none skip member
  · obtain rfl := List.mem_singleton.mp member
    exact other

theorem NoBookSkips.visitRef {state : Extracted Url} (none : NoBookSkips state)
    (block : ParsoidBlock Url) (sentences : List Sentence) (ref : BlockRef Url) :
    NoBookSkips (visitRef page block sentences state ref) := by
  have disclosed : NoBookSkips (if ref.shortCiteUnresolved then
      state.skip block ref .unresolvedShortCite else state) := by
    split
    · exact none.skip block ref (by decide)
    · exact none
  unfold Citation.visitRef
  dsimp only
  generalize (if ref.shortCiteUnresolved = true then
    state.skip block ref .unresolvedShortCite else state) = shown at disclosed ⊢
  split
  · split
    · exact disclosed
    · exact disclosed.skip block ref (by decide)
  · split
    · exact disclosed
    · unfold NoBookSkips
      split
      · rw [(foldl_addBook (fun book ordinal => bookSite block ref
          (claimOf block sentences ref.offset).1
          ⟨page.title, (claimOf block sentences ref.offset).2⟩ ordinal book)
          (fun _ _ => rfl) ref.bookSources shown).2.1]
        exact disclosed
      · rw [(foldl_addSite (fun source ordinal => urlSite page block ref
          (claimOf block sentences ref.offset).1
          ⟨page.title, (claimOf block sentences ref.offset).2⟩ ordinal source)
          (fun _ _ => rfl) ref.sources shown).2.1]
        exact disclosed

theorem foldl_keeps {α β : Type} {Keeps : β → Prop} {step : β → α → β} {items : List α}
    (each : ∀ state item, Keeps state → Keeps (step state item)) {state : β} (start : Keeps state) :
    Keeps (items.foldl step state) := by
  induction items generalizing state with
  | nil => exact start
  | cons item rest ih => exact ih (each state item start)

/-- Extraction skips no reference for its book: that is left to the lookups. -/
theorem extractUseSites_noBookSkips {letters : Letters} (blocks : List (ParsoidBlock Url)) :
    ∀ skip ∈ (extractUseSites letters page blocks).skipped, skip.reason ≠ .bookSource := by
  refine @foldl_keeps _ _ NoBookSkips _ blocks (fun state block none => ?_) _ nofun
  exact foldl_keeps (fun state ref none => none.visitRef block _ ref) none

end Extracting

section Conserves

variable {Url : Type} (asStr : Url → Text) (report : PageVerificationReport Url)

def bulletCount (bucket : Bucket) : Nat := (bucketSection asStr report bucket).bullets.length

/-- The numbers of the summary are those of the bullets. -/
structure Agrees : Prop where
  supported : (summaryOf report).supported = bulletCount asStr report .supported +
    bulletCount asStr report .recovered + bulletCount asStr report .unconfirmed
  unconfirmed : (summaryOf report).unconfirmed = bulletCount asStr report .unconfirmed
  partially : (summaryOf report).partially =
    (findingsOf report .disagreement).countP fun finding => finding.verdict = .judged .partially
  disagreeing : (summaryOf report).disagreeing =
    (findingsOf report .disagreement).countP fun finding => finding.verdict = .judged .notSupported
  disagreements : (summaryOf report).partially + (summaryOf report).disagreeing =
    bulletCount asStr report .disagreement
  deadLinks : (summaryOf report).deadLinks = bulletCount asStr report .deadLink
  unreadable : (summaryOf report).unreadable = bulletCount asStr report .unreadable
  skipped : (summaryOf report).skipped = (skippedSection report).bullets.length
  unprocessable : (summaryOf report).unprocessable = (failuresSection report).bullets.length
  total : (summaryOf report).supported + (summaryOf report).partially +
    (summaryOf report).disagreeing + (summaryOf report).deadLinks +
    (summaryOf report).unreadable = (summaryOf report).useSites

theorem countP_findingsOf {bucket : Bucket} {counts : CitationFinding Url → Bool}
    (inside : ∀ finding, counts finding = true → bucketFor finding = bucket) :
    (findingsOf report bucket).countP counts = report.findings.countP counts := by
  rw [findingsOf, List.countP_filter]
  refine List.countP_congr fun finding _ => ?_
  rw [Bool.and_eq_true, decide_eq_true_iff]
  exact ⟨And.left, fun counted => ⟨counted, inside finding counted⟩⟩

theorem bulletCount_eq (bucket : Bucket) : bulletCount asStr report bucket =
    report.findings.countP fun finding => bucketFor finding = bucket := by
  rw [bulletCount, bucketSection, List.length_map, findingsOf, List.countP_eq_length_filter]

variable {engine : Engine Url} {fetch : Url → Except Text HttpResponse}
  {extract : ExtractOutcome Url} {report}

theorem Assembled.agrees (assembled : Assembled engine fetch extract report) :
    Agrees asStr report := by
  obtain ⟨refs, stats⟩ := assembled.stats
  obtain ⟨useSites, supported, partially, against⟩ := tallyStats_counts refs report.findings
    report.skipped.length report.extractionFailures.length report.bookResolutions
  obtain ⟨-, skipped, failures⟩ := tallyStats_frame refs report.findings
    report.skipped.length report.extractionFailures.length report.bookResolutions
  rw [← stats] at useSites supported partially against skipped failures
  have total := sum_buckets report.findings
  simp only [Bucket.all, List.map_cons, List.map_nil, List.sum_cons, List.sum_nil,
    ← bulletCount_eq asStr report] at total
  have judged : (summaryOf report).supported = bulletCount asStr report .supported +
      bulletCount asStr report .recovered + bulletCount asStr report .unconfirmed := by
    rw [bulletCount_eq, bulletCount_eq, bulletCount_eq, Nat.add_assoc, ← countP_split
      (p := fun finding => bucketFor finding = .recovered ∨ bucketFor finding = .unconfirmed)
      (fun finding => by simp) (fun finding is => by simp_all)]
    refine supported.trans (countP_split (fun finding => ?_) (fun finding is => ?_) _)
    · simp [(judged_buckets finding).1]
    · simp_all
  have split : (summaryOf report).partially + (summaryOf report).disagreeing =
      bulletCount asStr report .disagreement := by
    rw [bulletCount_eq]
    refine (congrArg₂ (· + ·) partially against).trans (Eq.symm ?_)
    refine countP_split (fun finding => ?_) (fun finding is => ?_) _
    · simp [← (judged_buckets finding).2.2]
    · simp_all
  refine ⟨judged, ?_, ?_, ?_, split, (List.length_map _).symm, (List.length_map _).symm, ?_, ?_, ?_⟩
  · rw [bulletCount_eq]
    refine List.countP_congr fun finding _ => ?_
    simpa using (judged_buckets finding).2.1
  · refine partially.trans (countP_findingsOf report fun finding is => ?_).symm
    exact (judged_buckets finding).2.2.mp (.inl (of_decide_eq_true is))
  · refine against.trans (countP_findingsOf report fun finding is => ?_).symm
    exact (judged_buckets finding).2.2.mp (.inr (of_decide_eq_true is))
  · exact skipped.trans (List.length_map _).symm
  · exact failures.trans (List.length_map _).symm
  · have dead : (summaryOf report).deadLinks = bulletCount asStr report .deadLink :=
      (List.length_map _).symm
    have unread : (summaryOf report).unreadable = bulletCount asStr report .unreadable :=
      (List.length_map _).symm
    have sites : (summaryOf report).useSites = report.findings.length := useSites
    omega

/-- The bullets of a section are the lines of some items, one for each in their order. -/
def Lists {α : Type} (part : AppendixSection) (line : α → Text) (items : List α) : Prop :=
  List.Forall₂ (fun bullet item => bullet = line item) part.bullets items

theorem lists_map {α : Type} (heading : Text) (line : α → Text) (items : List α) :
    Lists ⟨heading, items.map line⟩ line items := by
  unfold Lists
  rw [List.forall₂_map_left_iff]
  exact List.forall₂_same.mpr fun _ _ => rfl

/-- The appendix conserves the report of some book sites and their lookups. -/
structure AppendixConserves (engine : Engine Url) (fetch : Url → Except Text HttpResponse)
    (sites : List BookUseSite) (report : PageVerificationReport Url) : Prop where
  /-- Every finding has its bullet in the section of its bucket, and in no other. -/
  findings : ∀ bucket, Lists (bucketSection engine.urls.asStr report bucket)
    (fun finding => findingLine engine.urls.asStr finding bucket)
    (report.findings.filter fun finding => bucketFor finding = bucket)
  everyFinding : (Bucket.all.map (bulletCount engine.urls.asStr report)).sum =
    report.findings.length
  skipped : Lists (skippedSection report) (skippedLine report.bookResolutions) report.skipped
  books : Lists (booksSection report) bookLine (report.bookResolutions.filter fun resolution =>
    BookResolutionOutcome.isResolved resolution.outcome)
  failures : Lists (failuresSection report) failureLine report.extractionFailures
  /-- A bullet is one line of the text. -/
  lines : ∀ part ∈ sections engine.urls.asStr report, ∀ bullet ∈ part.bullets, OneLine bullet
  summary : Agrees engine.urls.asStr report
  /-- A book that was skipped has its own lookup, and is said not to be looked up if that failed. -/
  lookups : ∀ skip ∈ report.skipped, skip.reason = .bookSource →
    ∃ site ∈ sites, skipOf site = skip ∧ Resolves engine fetch site = false ∧
      (skippedText report.bookResolutions skip = skippedBookLookupFailed ↔
        LookupFails engine fetch site = true)

/-- For a book without a record, the first site that cites under the same reference and shares an
identifier has the same kind of outcome. -/
def FirstAgrees (engine : Engine Url) (fetch : Url → Except Text HttpResponse)
    (sites : List BookUseSite) : Prop :=
  ∀ site ∈ sites, Resolves engine fetch site = false → ∀ first ∈ sites.find? (SharesBook site),
    LookupFails engine fetch first = LookupFails engine fetch site

theorem sharesBook_self (site : BookUseSite) : SharesBook site site = true := by
  unfold SharesBook
  rw [beq_self_eq_true, Bool.true_and, Bool.or_eq_true, beq_iff_eq, List.any_eq_true]
  cases named : site.book.identifiers with
  | nil => exact .inl rfl
  | cons id rest => exact .inr ⟨id, List.mem_cons_self, decide_eq_true List.mem_cons_self⟩

theorem unresolved_ne_lookupFailed : skippedBookUnresolved ≠ skippedBookLookupFailed := by
  have unresolved : skippedBookUnresolved = _ := String.toList_ofList
  have failed : skippedBookLookupFailed = _ := String.toList_append
  rw [unresolved, failed, String.toList_ofList]
  decide

/-- What is said of a skipped book is the outcome of the first site that shares it. -/
theorem skippedText_iff {sites : List BookUseSite} {site : BookUseSite} (member : site ∈ sites) :
    ∃ first ∈ sites.find? (SharesBook site),
      (skippedText (sites.map (resolutionOf engine fetch)) (skipOf site) =
        skippedBookLookupFailed ↔ LookupFails engine fetch first = true) := by
  obtain ⟨first, found⟩ := Option.isSome_iff_exists.mp
    (List.find?_isSome.mpr ⟨site, member, sharesBook_self site⟩)
  refine ⟨first, found, ?_⟩
  show (if (skipOutcome _ (skipOf site)).any _ then _ else _) = _ ↔ _
  rw [skipOutcome_sites, found]
  dsimp only [Option.map_some, Option.any_some]
  show (if LookupFails engine fetch first = true then _ else _) = _ ↔ _
  cases LookupFails engine fetch first with
  | true => simp
  | false => exact iff_of_false unresolved_ne_lookupFailed Bool.false_ne_true

variable {asStr}

theorem sections_oneLine (plain : ∀ finding ∈ report.findings, PlainUrls asStr finding) :
    ∀ part ∈ sections asStr report, ∀ bullet ∈ part.bullets, OneLine bullet := by
  intro part member bullet listed
  rcases List.mem_append.mp member with member | member
  · obtain ⟨bucket, -, rfl⟩ := List.mem_map.mp member
    obtain ⟨finding, held, rfl⟩ := List.mem_map.mp listed
    exact oneLine_findingLine (plain finding (List.mem_of_mem_filter held)) bucket
  · simp only [List.mem_cons, List.not_mem_nil, or_false] at member
    rcases member with rfl | rfl | rfl <;> obtain ⟨item, -, rfl⟩ := List.mem_map.mp listed
    · exact oneLine_skippedLine _ item
    · exact oneLine_bookLine item
    · exact oneLine_verbatim _

variable {models : ModelClient} {nowMs : Int} {panel : List ModelRef}
  {page : PageVerificationRequest} {options : VerifyOptions} {letters : Letters}
  {blocks : List (ParsoidBlock Url)} {pageConcurrency : Nat}

/-- The appendix of the report on a page conserves it exactly when no skipped book is joined with
a resolution of the other kind. -/
theorem appendix_conserves_iff
    (reported : verifyPage engine fetch models nowMs panel page
      (extractUseSites letters page blocks) options pageConcurrency = some report)
    (plain : ∀ finding ∈ report.findings, PlainUrls engine.urls.asStr finding) :
    AppendixConserves engine fetch (extractUseSites letters page blocks).bookUseSites report ↔
      FirstAgrees engine fetch (extractUseSites letters page blocks).bookUseSites := by
  have assembled := verifyPage_assembled reported
  have early := @extractUseSites_noBookSkips Url page letters blocks
  constructor
  · intro conserves site member unresolved first found
    have skipped : skipOf site ∈ report.skipped := by
      rw [assembled.skipped]
      refine List.mem_append_right _ (List.mem_map_of_mem (List.mem_filter.mpr ⟨member, ?_⟩))
      rw [unresolved]
      rfl
    obtain ⟨own, -, same, -, told⟩ := conserves.lookups _ skipped rfl
    obtain ⟨other, found', said⟩ := @skippedText_iff Url engine fetch _ _ member
    cases found.symm.trans found'
    have book : own.book = site.book :=
      List.singleton_inj.mp (congrArg SkippedRef.bookSources same)
    rw [assembled.resolutions] at told
    have agree := said.symm.trans told
    unfold LookupFails at agree ⊢
    rw [book] at agree
    exact Bool.eq_iff_iff.mpr agree
  · intro agrees
    refine ⟨fun bucket => lists_map _ _ _, ?_, lists_map _ _ _, lists_map _ _ _, lists_map _ _ _,
      sections_oneLine plain, assembled.agrees _, ?_⟩
    · rw [← sum_buckets]
      exact congrArg List.sum (List.map_congr_left fun bucket _ => bulletCount_eq _ _ bucket)
    · intro skip member reason
      rw [assembled.skipped] at member
      rcases List.mem_append.mp member with member | member
      · exact absurd reason (early skip member)
      · obtain ⟨site, kept, rfl⟩ := List.mem_map.mp member
        obtain ⟨inside, unresolved⟩ := List.mem_filter.mp kept
        rw [Bool.not_eq_true'] at unresolved
        obtain ⟨first, found, said⟩ := @skippedText_iff Url engine fetch _ _ inside
        refine ⟨site, inside, rfl, unresolved, ?_⟩
        rw [assembled.resolutions, said, agrees site inside unresolved first found]

end Conserves

section Examples

/-- A page with a link and a reference to a book, whose lookup fails. -/
def bookBlocks : List (ParsoidBlock (Text × List Text)) :=
  [citedBlock urlRef, citedBlock ⟨10, "cite_ref-7".toList, [],
    [⟨[.isbn "9780140328721".toList], none⟩], false, false⟩]

theorem appendix_conserves_books :
    ∃ report, verifyPage plainEngine refuse plainModels 0 plainPanel catsPage
        (extractUseSites asciiLetters catsPage bookBlocks) plainOptions 8 = some report ∧
      AppendixConserves plainEngine refuse
        (extractUseSites asciiLetters catsPage bookBlocks).bookUseSites report := by
  have plainReport : ∃ report ∈ verifyPage plainEngine refuse plainModels 0 plainPanel catsPage
      (extractUseSites asciiLetters catsPage bookBlocks) plainOptions 8,
      ∀ finding ∈ report.findings, PlainUrls plainEngine.urls.asStr finding := by
    unfold PlainUrls
    decide +kernel
  obtain ⟨report, reported, plain⟩ := plainReport
  refine ⟨report, reported, (appendix_conserves_iff reported plain).mpr ?_⟩
  unfold FirstAgrees
  decide +kernel

/-- An engine that reads every answer as an empty catalogue. -/
def emptyCatalogue : Engine (Text × List Text) :=
  { plainEngine with fromSlice := fun _ => some (.object []) }

/-- The catalogue cannot be asked for an ISBN, and has no other record. -/
def noIsbns (url : Text × List Text) : Except Text HttpResponse :=
  if url.2.any fun segment => "books?bibkeys=ISBN".toList.isPrefixOf segment then
    .error "connection reset".toList
  else .ok ⟨200, [], []⟩

/-- A reference to two books that share an identifier. -/
def sharedBlock : ParsoidBlock (Text × List Text) :=
  citedBlock ⟨10, "cite_ref-7".toList, [],
    [⟨[.isbn "9780140328721".toList, .oclc "41266045".toList], none⟩,
      ⟨[.oclc "41266045".toList], none⟩], false, false⟩

/-- A book whose lookup did complete is joined with that of another, which did not. -/
theorem shared_identifier_joined :
    ∃ report, verifyPage emptyCatalogue noIsbns plainModels 0 plainPanel catsPage
        (extractUseSites asciiLetters catsPage [sharedBlock]) plainOptions 8 = some report ∧
      ¬ AppendixConserves emptyCatalogue noIsbns
        (extractUseSites asciiLetters catsPage [sharedBlock]).bookUseSites report := by
  obtain ⟨report, reported⟩ : ∃ report, verifyPage emptyCatalogue noIsbns plainModels 0 plainPanel
      catsPage (extractUseSites asciiLetters catsPage [sharedBlock]) plainOptions 8 =
        some report := Option.isSome_iff_exists.mp (by decide +kernel)
  refine ⟨report, reported, fun conserves => ?_⟩
  have assembled := verifyPage_assembled reported
  have second : ∃ site ∈ (extractUseSites asciiLetters catsPage [sharedBlock]).bookUseSites,
      Resolves emptyCatalogue noIsbns site = false ∧
      LookupFails emptyCatalogue noIsbns site = false ∧
      skippedText ((extractUseSites asciiLetters catsPage [sharedBlock]).bookUseSites.map
        (resolutionOf emptyCatalogue noIsbns)) (skipOf site) = skippedBookLookupFailed := by
    decide +kernel
  obtain ⟨site, member, unresolved, completed, said⟩ := second
  have skipped : skipOf site ∈ report.skipped := by
    rw [assembled.skipped]
    refine List.mem_append_right _ (List.mem_map_of_mem (List.mem_filter.mpr ⟨member, ?_⟩))
    rw [unresolved]
    rfl
  obtain ⟨own, -, same, -, told⟩ := conserves.lookups _ skipped rfl
  have book : own.book = site.book := List.singleton_inj.mp (congrArg SkippedRef.bookSources same)
  rw [assembled.resolutions] at told
  have failed := told.mp said
  unfold LookupFails at failed completed
  rw [book, completed] at failed
  exact Bool.false_ne_true failed

end Examples

end SP42.Assessment

import SP42.Citation.AgentPage

/-!
The metadata that a report on a page is shown with. The lookups run one after the other, with a
pause before each but the first, while the page is verified; they have a budget of their own, and
when it is spent the loop is dropped with what it holds.
-/
namespace SP42.Citation

/-- `CITOID_PACE`, in milliseconds. -/
def citoidPace : Nat := 1000

/-- `METADATA_BUDGET`, in milliseconds. -/
def metadataBudget : Nat := 20000

/-- How a lookup goes: the milliseconds until it ends, if it ends, and the answer. -/
structure CitoidAnswer where
  took : Option Nat
  response : Except Text HttpResponse

section Lookups

variable {Url : Type} (engine : Engine Url) (service : Text → CitoidAnswer)

/-- The header that the answer for a URL is read as. -/
def resolvedHeader (url : Text) : Option CitoidMetadata :=
  match (service url).response with
  | .error _ => none
  | .ok response =>
      if isSuccess response.status then engine.citoidMetadata response.body url else none

/-- When the lookup at an index may be sent, if the one before it ended at the clock. -/
def askedAt (index clock : Nat) : Nat := if 0 < index then clock + citoidPace else clock

def insertHeader (url : Text) (metadata : List (Text × CitoidMetadata)) :
    List (Text × CitoidMetadata) :=
  match resolvedHeader engine service url with
  | some header => (url, header) :: metadata
  | none => metadata

/-- The loop from an index on, with the clock and the map so far: when it ends and with which
map, if it ends. -/
def fetchPageMetadataFrom (index clock : Nat) (metadata : List (Text × CitoidMetadata)) :
    List Text → Option (Nat × List (Text × CitoidMetadata))
  | [] => some (clock, metadata)
  | url :: rest =>
      (service url).took.bind fun took =>
        fetchPageMetadataFrom (index + 1) (askedAt index clock + took)
          (insertHeader engine service url metadata) rest

def fetchPageMetadata (urls : List Text) : Option (Nat × List (Text × CitoidMetadata)) :=
  fetchPageMetadataFrom engine service 0 0 [] urls

/-- `timeout`: the value of a run that ends by the deadline. -/
def timeout {α : Type} (budget : Nat) (run : Option (Nat × α)) : Option α :=
  run.bind fun ended => if ended.1 ≤ budget then some ended.2 else none

def attachMetadata (metadata : List (Text × CitoidMetadata)) (finding : CitationFinding Url) :
    CitationFinding Url :=
  match metadata.lookup (engine.urls.asStr finding.provenance.url) with
  | some header => { finding with metadata := some header }
  | none => finding

/-- The last part of the route: the report with the metadata that the lookups of the URLs left. -/
def postVerifyPage (report : PageVerificationReport Url) (urls : List Text) :
    PageVerificationReport Url :=
  let metadata := (timeout metadataBudget (fetchPageMetadata engine service urls)).getD []
  { report with findings := report.findings.map (attachMetadata engine metadata) }

/-- When the lookup for a URL ends. -/
def endedAt (index clock : Nat) : List Text → Text → Option Nat
  | [], _ => none
  | url :: rest, wanted =>
      (service url).took.bind fun took =>
        if wanted = url then some (askedAt index clock + took)
        else endedAt (index + 1) (askedAt index clock + took) rest wanted

/-- What the lookup for a URL had brought by the end of the budget. -/
def arrived (urls : List Text) (url : Text) : Option CitoidMetadata :=
  ((endedAt service 0 0 urls url).filter fun ended => ended ≤ metadataBudget).bind fun _ =>
    resolvedHeader engine service url

/-- The URL that a finding's reference cites, archived or not. -/
def citedUrl (finding : CitationFinding Url) : Text :=
  engine.urls.asStr (finding.archiveOf.getD finding.provenance.url)

variable {service} {urls : List Text}

/-- The loop takes its pauses and its lookups, and each lookup ends within it. -/
theorem endedAt_le {index : Nat} : ∀ {clock : Nat} {metadata : List (Text × CitoidMetadata)}
    {finish : Nat} {held : List (Text × CitoidMetadata)},
    fetchPageMetadataFrom engine service index clock metadata urls = some (finish, held) →
      clock + (urls.length - if 0 < index then 0 else 1) * citoidPace ≤ finish ∧
      ∀ url ∈ urls, ∃ ended ≤ finish, endedAt service index clock urls url = some ended := by
  induction urls generalizing index with
  | nil =>
      intro clock metadata finish held run
      cases run
      exact ⟨by simp, by simp⟩
  | cons url rest ih =>
      intro clock metadata finish held run
      rw [fetchPageMetadataFrom] at run
      obtain ⟨took, lasted, later⟩ := Option.bind_eq_some_iff.mp run
      obtain ⟨paced, each⟩ := ih later
      rw [if_pos (Nat.succ_pos index), Nat.sub_zero] at paced
      constructor
      · rw [List.length_cons]
        unfold askedAt at paced
        by_cases first : 0 < index
        · rw [if_pos first] at paced ⊢
          rw [Nat.sub_zero, Nat.add_mul]
          omega
        · rw [if_neg first] at paced ⊢
          rw [Nat.add_sub_cancel]
          omega
      · intro wanted member
        rw [endedAt, lasted, Option.bind_some]
        by_cases same : wanted = url
        · rw [if_pos same]
          exact ⟨_, (Nat.le_add_right _ _).trans paced, rfl⟩
        · rw [if_neg same]
          exact each wanted ((List.mem_cons.mp member).resolve_left same)

theorem endedAt_eq_none {index clock : Nat} {wanted : Text} (absent : wanted ∉ urls) :
    endedAt service index clock urls wanted = none := by
  induction urls generalizing index clock with
  | nil => rfl
  | cons url rest ih =>
      obtain ⟨apart, later⟩ := not_or.mp (mt List.mem_cons.mpr absent)
      rw [endedAt]
      cases (service url).took with
      | none => rfl
      | some took =>
          rw [Option.bind_some, if_neg apart]
          exact ih later

/-- The map of a loop that ends holds what the lookups were read as. -/
theorem lookup_fetched {index : Nat} : ∀ {clock : Nat} {metadata : List (Text × CitoidMetadata)}
    {finish : Nat} {held : List (Text × CitoidMetadata)}, urls.Nodup →
    (∀ url ∈ urls, metadata.lookup url = none) →
    fetchPageMetadataFrom engine service index clock metadata urls = some (finish, held) →
      ∀ wanted, held.lookup wanted =
        if wanted ∈ urls then resolvedHeader engine service wanted else metadata.lookup wanted := by
  induction urls generalizing index with
  | nil =>
      intro clock metadata finish held distinct fresh run wanted
      cases run
      rw [if_neg List.not_mem_nil]
  | cons url rest ih =>
      intro clock metadata finish held distinct fresh run wanted
      obtain ⟨apart, others⟩ := List.nodup_cons.mp distinct
      rw [fetchPageMetadataFrom] at run
      obtain ⟨took, -, later⟩ := Option.bind_eq_some_iff.mp run
      have inserted : ∀ other, (insertHeader engine service url metadata).lookup other =
          if other = url then (resolvedHeader engine service url).or (metadata.lookup url)
          else metadata.lookup other := by
        intro other
        unfold insertHeader
        cases resolvedHeader engine service url with
        | none =>
            by_cases same : other = url
            · rw [if_pos same, same]
              rfl
            · rw [if_neg same]
        | some header =>
            by_cases same : other = url
            · rw [if_pos same, same]
              exact List.lookup_cons_self
            · rw [if_neg same, List.lookup_cons, beq_eq_false_iff_ne.mpr same]
      have kept : ∀ other ∈ rest, (insertHeader engine service url metadata).lookup other = none := by
        intro other member
        rw [inserted, if_neg fun same : other = url => apart (same ▸ member)]
        exact fresh other (List.mem_cons_of_mem _ member)
      rw [ih others kept later wanted, inserted]
      by_cases same : wanted = url
      · rw [same, if_neg apart, if_pos rfl, if_pos List.mem_cons_self,
          fresh url List.mem_cons_self, Option.or_none]
      · rw [if_neg same]
        exact if_congr (by simp [same]) rfl rfl

/-- A loop whose lookups all end by a time has ended by then. -/
theorem fetched_of_ended {limit index : Nat} :
    ∀ {clock : Nat} {metadata : List (Text × CitoidMetadata)}, urls.Nodup → clock ≤ limit →
      (∀ url ∈ urls, ∃ ended ≤ limit, endedAt service index clock urls url = some ended) →
      ∃ finish held, fetchPageMetadataFrom engine service index clock metadata urls =
        some (finish, held) ∧ finish ≤ limit := by
  induction urls generalizing index with
  | nil => exact fun _ early _ => ⟨_, _, rfl, early⟩
  | cons url rest ih =>
      intro clock metadata distinct early each
      obtain ⟨apart, others⟩ := List.nodup_cons.mp distinct
      obtain ⟨ended, bounded, first⟩ := each url List.mem_cons_self
      rw [endedAt] at first
      obtain ⟨took, lasted, here⟩ := Option.bind_eq_some_iff.mp first
      rw [if_pos rfl] at here
      cases here
      rw [fetchPageMetadataFrom, lasted, Option.bind_some]
      refine ih others bounded fun other member => ?_
      obtain ⟨ended, bounded, later⟩ := each other (List.mem_cons_of_mem _ member)
      have differs : other ≠ url := fun same => apart (same ▸ member)
      rw [endedAt, lasted, Option.bind_some, if_neg differs] at later
      exact ⟨ended, bounded, later⟩

/-- Every lookup ends within the budget. -/
def AllInTime (service : Text → CitoidAnswer) (urls : List Text) : Prop :=
  ∀ url ∈ urls, ∃ ended ≤ metadataBudget, endedAt service 0 0 urls url = some ended

/-- The metadata at hand when the route goes on: all of it, or none. -/
theorem timeout_lookup (distinct : urls.Nodup) (url : Text) :
    (AllInTime service urls →
      ((timeout metadataBudget (fetchPageMetadata engine service urls)).getD []).lookup url =
        arrived engine service urls url) ∧
    (¬ AllInTime service urls →
      ((timeout metadataBudget (fetchPageMetadata engine service urls)).getD []).lookup url =
        none) := by
  constructor
  · intro inTime
    obtain ⟨finish, held, run, early⟩ :=
      @fetched_of_ended Url engine service urls metadataBudget 0 0 [] distinct (Nat.zero_le _) inTime
    have read := lookup_fetched engine distinct (fun _ _ => rfl) run url
    rw [fetchPageMetadata, run, timeout, Option.bind_some, if_pos early, Option.getD_some, read,
      arrived]
    by_cases member : url ∈ urls
    · obtain ⟨ended, bounded, known⟩ := inTime url member
      rw [if_pos member, known, Option.filter_some, if_pos (decide_eq_true bounded),
        Option.bind_some]
    · rw [if_neg member, endedAt_eq_none member]
      rfl
  · intro late
    cases run : fetchPageMetadata engine service urls with
    | none => rfl
    | some ended =>
        by_cases early : ended.1 ≤ metadataBudget
        · refine absurd (fun url member => ?_) late
          obtain ⟨finish, bounded, known⟩ := (endedAt_le engine run).2 url member
          exact ⟨finish, bounded.trans early, known⟩
        · rw [timeout, Option.bind_some, if_neg early]
          rfl

end Lookups

section Report

variable {Url : Type} (engine : Engine Url) (service : Text → CitoidAnswer)

/-- Every finding that is returned carries what the lookup for its cited source had brought. -/
def ShowsWhatArrived (urls : List Text) (returned : PageVerificationReport Url) : Prop :=
  ∀ finding ∈ returned.findings,
    finding.metadata = arrived engine service urls (citedUrl engine finding)

/-- Nothing had arrived where a lookup came late, and a copy is looked up as its source. -/
structure NothingLost (urls : List Text) (report : PageVerificationReport Url) : Prop where
  late : ¬ AllInTime service urls → ∀ finding ∈ report.findings,
    arrived engine service urls (citedUrl engine finding) = none
  copies : AllInTime service urls → ∀ finding ∈ report.findings,
    arrived engine service urls (engine.urls.asStr finding.provenance.url) =
      arrived engine service urls (citedUrl engine finding)

variable {engine service} {urls : List Text}

theorem attachMetadata_metadata {metadata : List (Text × CitoidMetadata)}
    {finding : CitationFinding Url} (fresh : finding.metadata = none) :
    (attachMetadata engine metadata finding).metadata =
      metadata.lookup (engine.urls.asStr finding.provenance.url) := by
  unfold attachMetadata
  cases metadata.lookup (engine.urls.asStr finding.provenance.url) with
  | none => exact fresh
  | some header => rfl

theorem attachMetadata_cited (metadata : List (Text × CitoidMetadata))
    (finding : CitationFinding Url) :
    citedUrl engine (attachMetadata engine metadata finding) = citedUrl engine finding := by
  unfold attachMetadata
  split
  · rfl
  · rfl

/-- A page with more sources than the budget has pauses is shown without metadata. -/
theorem postVerifyPage_many (report : PageVerificationReport Url)
    (many : metadataBudget < (urls.length - 1) * citoidPace) :
    (postVerifyPage engine service report urls).findings = report.findings := by
  have dropped : timeout metadataBudget (fetchPageMetadata engine service urls) = none := by
    cases run : fetchPageMetadata engine service urls with
    | none => rfl
    | some ended =>
        have paced := (endedAt_le engine run).1
        rw [if_neg (Nat.lt_irrefl 0)] at paced
        rw [timeout, Option.bind_some, if_neg (by omega)]
  have untouched : attachMetadata engine [] = id := by
    funext finding
    rfl
  unfold postVerifyPage
  rw [dropped, Option.getD_none]
  dsimp only
  rw [untouched]
  exact List.map_id _

end Report

section Fresh

variable {Url : Type} {engine : Engine Url} {fetch : Url → Except Text HttpResponse}
  {models : ModelClient} {nowMs : Int} {panel : List ModelRef} {page : PageVerificationRequest}
  {options : VerifyOptions}

theorem verifyCitationUseSite_fresh {request : CitationVerificationRequest Url}
    {context : Option ClaimContext} {useSiteOrdinal : Nat} {outcome : VerificationOutcome Url}
    (run : (verifyCitationUseSite engine fetch models nowMs panel request context useSiteOrdinal
      options).1 = .ok outcome) : outcome.finding.metadata = none := by
  obtain ⟨-, fetched, -, ⟨reason, rfl⟩ | ⟨-, verdicts, -, rfl⟩⟩ := verifyCitationUseSite_cases run
  · unfold unusableSourceOutcome
    dsimp only
    split
    · rfl
    · rfl
  · unfold outcomeOf assembleCitationFinding
    dsimp only
    split
    · rfl
    · split
      · split
        · rfl
        · rfl
      · rfl

theorem verifyOneUseSite_fresh {bodies : List (Text × FetchedSource)} {site : CitationUseSite Url}
    {outcome : VerificationOutcome Url}
    (run : (verifyOneUseSite engine fetch models nowMs panel bodies options site).2.2 = .ok outcome) :
    outcome.finding.metadata = none := by
  have archived {archive : Url} {copy : VerificationOutcome Url}
      (stands : tryArchive engine fetch models nowMs panel site options archive = some copy) :
      copy.finding.metadata = none := by
    unfold tryArchive at stands
    split at stands
    · cases stands
    · dsimp only at stands
      split at stands
      · cases stands
      · rename_i judged
        split at stands
        · cases stands
        · have fresh := verifyCitationUseSite_fresh judged
          cases stands
          exact fresh
  unfold verifyOneUseSite at run
  dsimp only at run
  cases primary : (verifyCitationUseSite engine fetch models nowMs panel site.request
      (some site.context) site.useSiteOrdinal { options with
        prefetched := bodies.lookup (engine.urls.asStr site.request.sourceUrl) }).1 with
  | error error =>
      rw [primary] at run
      cases run
  | ok live =>
      have fresh := verifyCitationUseSite_fresh primary
      rw [primary] at run
      unfold tryArchiveFallback at run
      dsimp only at run
      split at run
      · split at run
        · rename_i found
          cases run
          obtain ⟨archive, -, stands⟩ := List.exists_of_findSome?_eq_some found
          have held := archived stands
          exact held
        · cases run
          exact fresh
      · cases run
        exact fresh

theorem bookNoModelFinding_fresh {site : BookUseSite} {url : Url} {contentHash : Text}
    {httpStatus : Nat} {notSupported : Bool} {bookScan : Option BookScanProvenance} :
    (bookNoModelFinding nowMs site url contentHash httpStatus notSupported bookScan).metadata =
      none := by
  unfold bookNoModelFinding
  cases notSupported
  · rfl
  · rfl

theorem verifyBookUseSite_fresh {site : BookUseSite} {resolution : BookResolution}
    {found : CitationFinding Url} {calls : List Call}
    (run : verifyBookUseSite engine fetch models nowMs panel page site options =
      some (resolution, .finding found, calls)) : found.metadata = none := by
  unfold verifyBookUseSite at run
  dsimp only at run
  split at run
  · split at run
    · obtain ⟨⟨verdict, asked⟩, grounded, same⟩ := Option.map_eq_some_iff.mp run
      cases same
      unfold groundResolvedBook at grounded
      split at grounded
      · unfold judgeBookSnippets at grounded
        obtain ⟨sourceUrl, -, judged⟩ := Option.map_eq_some_iff.mp grounded
        dsimp only at judged
        split at judged
        · rename_i outcome verified
          have held := verifyCitationUseSite_fresh verified
          cases judged
          exact held
        · cases judged
      all_goals
        obtain ⟨url, -, noModel⟩ := Option.map_eq_some_iff.mp grounded
        cases noModel
        exact bookNoModelFinding_fresh
    · cases run
      exact bookNoModelFinding_fresh
  · cases run
  · cases run

/-- A report comes without metadata. -/
theorem verifyPage_fresh (details : ArchiveDetails engine) {extract : ExtractOutcome Url}
    {pageConcurrency : Nat} {report : PageVerificationReport Url}
    (reported : verifyPage engine fetch models nowMs panel page extract options pageConcurrency =
      some report) : ∀ finding ∈ report.findings, finding.metadata = none := by
  choose judged runs using fun site =>
    @verifyBookUseSite_runs Url engine fetch models nowMs panel page options details site
  obtain ⟨other, same, balanced, -, -⟩ :=
    @verifyPageWith_account Url engine fetch models nowMs panel page options
      (prefetchBodies engine fetch extract.useSites (max pageConcurrency 1)) judged runs extract
      (max pageConcurrency 1)
  have only : other = report := by
    unfold verifyPage at reported
    dsimp only at reported
    exact Option.some.inj (same.symm.trans reported)
  subst only
  intro finding member
  rcases List.mem_append.mp (balanced.findings.mem_iff.mp member) with url | book
  · obtain ⟨result, among, found⟩ := List.mem_filterMap.mp url
    obtain ⟨site, -, rfl⟩ := List.mem_map.mp among
    cases run : (verifyOneUseSite engine fetch models nowMs panel
        (prefetchBodies engine fetch extract.useSites (max pageConcurrency 1)) options site).2.2 with
    | error error =>
        rw [run] at found
        cases found
    | ok outcome =>
        rw [run] at found
        cases found
        exact verifyOneUseSite_fresh run
  · obtain ⟨site, -, found⟩ := List.mem_filterMap.mp book
    dsimp only at found
    cases told : (judged site).2.1 with
    | finding held =>
        rw [told] at found
        cases found
        refine @verifyBookUseSite_fresh Url engine fetch models nowMs panel page options site
          (judged site).1 _ (judged site).2.2 ?_
        rw [runs, ← told]
    | skip skipped =>
        rw [told] at found
        cases found
    | failure failed =>
        rw [told] at found
        cases found

end Fresh

/-- An engine that reads every answer as a title. -/
def titlingEngine : Engine (Text × List Text) :=
  { plainEngine with citoidMetadata := fun _ url => some ⟨none, none, none, some "Cats".toList, url⟩ }

def catsSource : Text := plainEngine.urls.asStr ("example.org".toList, [])

def catsFinding : CitationFinding (Text × List Text) :=
  noQuoteFinding .sourceUnavailable .notApplicable ⟨0, 0⟩
    ⟨("example.org".toList, []), [], 0, some 200⟩ 0

def catsReport : PageVerificationReport (Text × List Text) :=
  ⟨"enwiki".toList, 7, "Cats".toList, [catsFinding], [], [], [], tallyStats 1 [catsFinding] 0 0 []⟩

/-- A service that answers at once about one source and never about another. -/
def stuckService : Text → CitoidAnswer := fun url =>
  ⟨if url = catsSource then some 5 else none, .ok ⟨200, [], []⟩⟩

end SP42.Citation

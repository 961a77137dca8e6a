import SP42.Citation.Page
import SP42.Citation.Repair

/-!
When the prefetch cache makes no difference: a page reads the same whichever of its
sources come from the cache and whichever are fetched on demand.
-/
namespace SP42.Citation

section Cache

variable {Url : Type} (engine : Engine Url) (fetch : Url → Except Text HttpResponse)

/-- A cache that holds, for the URLs that it holds, what the prefetch stores. -/
def PrefetchCache (bodies : List (Text × FetchedSource)) : Prop :=
  ∀ url source, bodies.lookup url = some source → source = prefetchedSource engine fetch url

/-- A request to the URL gets a response. -/
def Responds (url : Text) : Prop :=
  ∃ target response, engine.urls.parse (engine.extraction.rewriteWaybackUrl url) = some target ∧
    fetch target = .ok response

variable {engine fetch}

theorem PrefetchCache.nil : PrefetchCache engine fetch [] := by
  intro url source held
  cases held

theorem PrefetchCache.append {bodies others : List (Text × FetchedSource)}
    (held : PrefetchCache engine fetch bodies) (added : PrefetchCache engine fetch others) :
    PrefetchCache engine fetch (bodies ++ others) := by
  intro url source found
  rw [List.lookup_append] at found
  cases here : bodies.lookup url with
  | some body =>
      rw [here] at found
      exact Option.some.inj found ▸ held url body here
  | none =>
      rw [here] at found
      exact added url source found

theorem PrefetchCache.chunk (chunk : List Text) :
    PrefetchCache engine fetch (chunk.map fun url => (url, prefetchedSource engine fetch url)) := by
  induction chunk with
  | nil => exact PrefetchCache.nil
  | cons head chunk ih =>
      intro url source found
      rw [List.map_cons, List.lookup_cons] at found
      cases same : url == head with
      | true =>
          rw [same] at found
          rw [beq_iff_eq.mp same]
          exact (Option.some.inj found).symm
      | false =>
          rw [same] at found
          exact ih url source found

theorem prefetchChunks_cache {chunks : List (List Text)} :
    ∀ {retained : Nat} {bodies : List (Text × FetchedSource)}, PrefetchCache engine fetch bodies →
      PrefetchCache engine fetch (prefetchChunks engine fetch retained bodies chunks) := by
  induction chunks with
  | nil =>
      intro retained bodies held
      exact held
  | cons chunk chunks ih =>
      intro retained bodies held
      rw [prefetchChunks]
      split
      · exact held
      · exact ih (held.append (PrefetchCache.chunk chunk))

/-- The prefetch keeps a cache of this kind, wherever its budget ends. -/
theorem prefetchBodies_cache (useSites : List (CitationUseSite Url)) (pageConcurrency : Nat) :
    PrefetchCache engine fetch (prefetchBodies engine fetch useSites pageConcurrency) :=
  prefetchChunks_cache PrefetchCache.nil

theorem fetchSource_of_responds {url : Text} (responds : Responds engine fetch url) :
    ∃ source, fetchSource engine fetch url = .ok source := by
  obtain ⟨target, response, parsed, answered⟩ := responds
  unfold fetchSource
  rw [parsed]
  dsimp only
  rw [answered]
  dsimp only
  split
  · exact ⟨_, rfl⟩
  · exact ⟨_, rfl⟩

/-- The errors of a fetch without a response. -/
theorem fetchSource_of_not_responds {url : Text} (silent : ¬ Responds engine fetch url) :
    fetchSource engine fetch url =
        .error (.invalidRequest ("invalid source url ".toList ++ engine.debugText url)) ∨
      ∃ message, fetchSource engine fetch url = .error (.invalidResponse message) := by
  unfold fetchSource
  cases parsed : engine.urls.parse (engine.extraction.rewriteWaybackUrl url) with
  | none => exact .inl rfl
  | some target =>
      dsimp only
      cases answered : fetch target with
      | error message => exact .inr ⟨message, rfl⟩
      | ok response => exact absurd ⟨target, response, parsed, answered⟩ silent

end Cache

section Transparent

variable {Url : Type} (engine : Engine Url) (fetch : Url → Except Text HttpResponse)
  (models : ModelClient) (nowMs : Int) (panel : List ModelRef)

/-- Whatever of the sources is cached, the page comes to the same findings, skips and
failures, and every use site to the outcome that it has without a cache. -/
def Transparent (page : PageVerificationRequest) (extract : ExtractOutcome Url)
    (options : VerifyOptions) (pageConcurrency : Nat) : Prop :=
  ∀ bodies, PrefetchCache engine fetch bodies →
    ((verifyPageWith engine fetch models nowMs panel bodies page extract options
        pageConcurrency).map fun report =>
          (report.findings, report.skipped, report.extractionFailures)) =
      ((verifyPageWith engine fetch models nowMs panel [] page extract options
        pageConcurrency).map fun report =>
          (report.findings, report.skipped, report.extractionFailures)) ∧
    ∀ site ∈ extract.useSites, verifyOneUseSite engine fetch models nowMs panel bodies options site =
      verifyOneUseSite engine fetch models nowMs panel [] options site

variable {engine fetch models nowMs panel}

theorem verifyCitationUseSite_prefetched {request : CitationVerificationRequest Url}
    {context : Option ClaimContext} {useSiteOrdinal : Nat} {options : VerifyOptions}
    {source : FetchedSource}
    (fetched : fetchSource engine fetch (engine.urls.asStr request.sourceUrl) = .ok source) :
    verifyCitationUseSite engine fetch models nowMs panel request context useSiteOrdinal
        { options with prefetched := some source } =
      verifyCitationUseSite engine fetch models nowMs panel request context useSiteOrdinal
        { options with prefetched := none } := by
  unfold verifyCitationUseSite
  dsimp only [Option.elim]
  rw [fetched]
  rfl

theorem verifyCitationUseSite_noPanel {request : CitationVerificationRequest Url}
    {context : Option ClaimContext} {useSiteOrdinal : Nat} {options : VerifyOptions} :
    verifyCitationUseSite engine fetch models nowMs [] request context useSiteOrdinal options =
      (.error (.invalidRequest "model panel is empty".toList), []) := rfl

/-- A cached source and a source on demand give one outcome, where the source responds. -/
theorem verifyOneUseSite_cached {bodies : List (Text × FetchedSource)} {options : VerifyOptions}
    {site : CitationUseSite Url} (held : PrefetchCache engine fetch bodies)
    (answered : panel = [] ∨ Responds engine fetch (engine.urls.asStr site.request.sourceUrl)) :
    verifyOneUseSite engine fetch models nowMs panel bodies options site =
      verifyOneUseSite engine fetch models nowMs panel [] options site := by
  unfold verifyOneUseSite
  rcases answered with rfl | responds
  · rw [verifyCitationUseSite_noPanel, verifyCitationUseSite_noPanel]
  · cases found : bodies.lookup (engine.urls.asStr site.request.sourceUrl) with
    | none => rw [List.lookup_nil]
    | some source =>
        obtain ⟨body, fetched⟩ := fetchSource_of_responds responds
        have stored : source = body := by
          rw [held _ _ found, prefetchedSource, fetched]
        rw [stored, verifyCitationUseSite_prefetched fetched, List.lookup_nil]

theorem sourceUsability_empty {url : Text} {fetched : FetchedSource} (empty : fetched.text = []) :
    (sourceUsability engine url fetched).usable = false := by
  unfold sourceUsability
  rw [empty, if_pos rfl]
  dsimp only
  rw [Option.isSome_none, Bool.and_false, Bool.false_and, if_neg Bool.false_ne_true]
  apply Bool.eq_false_iff.mpr
  intro usable
  obtain ⟨body, named, _⟩ := classifySourceUsability_usable usable
  cases named

theorem tryArchiveFallback_ok (engine : Engine Url) (fetch : Url → Except Text HttpResponse)
    (models : ModelClient) (nowMs : Int) (panel : List ModelRef) (site : CitationUseSite Url)
    (options : VerifyOptions) (primary : VerificationOutcome Url) :
    ∃ outcome, tryArchiveFallback engine fetch models nowMs panel site options (.ok primary) =
      .ok outcome := by
  unfold tryArchiveFallback
  dsimp only
  split
  · split
    · exact ⟨_, rfl⟩
    · exact ⟨_, rfl⟩
  · exact ⟨_, rfl⟩

/-- The empty body of a failed fetch is an outcome; the failed fetch itself is an error. -/
theorem verifyOneUseSite_silent {options : VerifyOptions} {site : CitationUseSite Url}
    (inhabited : panel ≠ [])
    (silent : ¬ Responds engine fetch (engine.urls.asStr site.request.sourceUrl)) :
    let url := engine.urls.asStr site.request.sourceUrl
    (∃ outcome, (verifyOneUseSite engine fetch models nowMs panel
        [(url, prefetchedSource engine fetch url)] options site).2.2 = .ok outcome) ∧
      ∃ error, (verifyOneUseSite engine fetch models nowMs panel [] options site).2.2 =
        .error error := by
  obtain ⟨error, failed⟩ : ∃ error, fetchSource engine fetch
      (engine.urls.asStr site.request.sourceUrl) = .error error := by
    rcases fetchSource_of_not_responds silent with failed | ⟨message, failed⟩
    · exact ⟨_, failed⟩
    · exact ⟨_, failed⟩
  constructor
  · have stored : prefetchedSource engine fetch (engine.urls.asStr site.request.sourceUrl) =
        ⟨[], 0, [], none, false⟩ := by
      rw [prefetchedSource, failed]
    have gated := @sourceUsability_empty Url engine (engine.urls.asStr site.request.sourceUrl)
      ⟨[], 0, [], none, false⟩ rfl
    unfold verifyOneUseSite verifyCitationUseSite
    rw [stored, List.lookup_cons_self, if_neg inhabited]
    dsimp only [Option.elim]
    rw [gated, Bool.not_false, if_pos rfl]
    obtain ⟨outcome, settled⟩ := tryArchiveFallback_ok engine fetch models nowMs panel site options
      (unusableSourceOutcome (sourceUsability engine (engine.urls.asStr site.request.sourceUrl)
        ⟨[], 0, [], none, false⟩).reason
        (provenanceOf engine nowMs site.request.sourceUrl ⟨[], 0, [], none, false⟩)
        site.useSiteOrdinal)
    exact ⟨stampUseSite site outcome, congrArg (Except.map (stampUseSite site)) settled⟩
  · refine ⟨error, ?_⟩
    unfold verifyOneUseSite verifyCitationUseSite
    rw [List.lookup_nil, if_neg inhabited]
    dsimp only [Option.elim]
    rw [failed]
    rfl

/-- The cache is transparent exactly when every source of the page responds; without a panel
no source is asked. -/
theorem transparent_iff {page : PageVerificationRequest} {extract : ExtractOutcome Url}
    {options : VerifyOptions} {pageConcurrency : Nat} :
    Transparent engine fetch models nowMs panel page extract options pageConcurrency ↔
      panel = [] ∨ ∀ site ∈ extract.useSites,
        Responds engine fetch (engine.urls.asStr site.request.sourceUrl) := by
  constructor
  · intro transparent
    by_contra broken
    push Not at broken
    obtain ⟨inhabited, site, member, silent⟩ := broken
    let url := engine.urls.asStr site.request.sourceUrl
    have held : PrefetchCache engine fetch [(url, prefetchedSource engine fetch url)] :=
      PrefetchCache.chunk [url]
    have same := (transparent _ held).2 site member
    obtain ⟨⟨outcome, cached⟩, error, failed⟩ :=
      @verifyOneUseSite_silent Url engine fetch models nowMs panel options site inhabited silent
    rw [same, failed] at cached
    cases cached
  · intro answered bodies held
    have sites : ∀ site ∈ extract.useSites,
        verifyOneUseSite engine fetch models nowMs panel bodies options site =
          verifyOneUseSite engine fetch models nowMs panel [] options site := by
      intro site member
      exact verifyOneUseSite_cached held (answered.imp_right fun all => all site member)
    refine ⟨?_, sites⟩
    unfold verifyPageWith
    simp only [mapWithConcurrency_map, List.map_congr_left sites]

end Transparent

def catsPage : PageVerificationRequest := ⟨"enwiki".toList, "Cats".toList, 7⟩

/-- A page with one citation, of a host that refuses the connection. -/
def refusedSite : CitationUseSite (Text × List Text) :=
  ⟨0, 0, plainRequest, ⟨"Cats".toList, []⟩, "cite_ref-1".toList, [], false⟩

def refusedPage : ExtractOutcome (Text × List Text) := ⟨[refusedSite], [], [], []⟩

def refuse (_ : Text × List Text) : Except Text HttpResponse := .error "connection refused".toList

/-- How many findings the report on it has. -/
def refusedFindings (bodies : List (Text × FetchedSource)) : Option Nat :=
  (verifyPageWith plainEngine refuse plainModels 0 plainPanel bodies catsPage refusedPage
    plainOptions 8).map fun report => report.findings.length

/-- Cached, the refused source is a finding; on demand, it is a failure. -/
theorem refused_not_transparent :
    ¬ Transparent plainEngine refuse plainModels 0 plainPanel catsPage refusedPage plainOptions 8 := by
  intro transparent
  have cached : refusedFindings
      (prefetchBodies plainEngine refuse refusedPage.useSites 8) = some 1 := by decide +kernel
  have onDemand : refusedFindings [] = some 0 := by decide +kernel
  have same := congrArg (Option.map fun outcomes => outcomes.1.length)
    (transparent _ (prefetchBodies_cache refusedPage.useSites 8)).1
  rw [Option.map_map, Option.map_map] at same
  have equal : some 1 = some 0 := cached.symm.trans (same.trans onDemand)
  cases equal

end SP42.Citation

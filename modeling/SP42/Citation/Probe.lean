import SP42.Citation.Repair

/-!
The probe of a source, which asks no model: whether a source could be fetched, and whether a
verification could use what came. A verification reads the same fetch with a different range of
statuses, and the two part where a redirection comes with a page of its own.
-/
namespace SP42.Citation

structure ProbeResult where
  reachable : Bool
  httpStatus : Option Nat
  extractable : Bool
  unusableReason : Option BodyUsabilityReason
  humanReadableHint : Bool
  deriving DecidableEq, Repr

section Probe

variable {Url : Type} (engine : Engine Url) (fetch : Url → Except Text HttpResponse)

def probeSource (url : Text) : ProbeResult :=
  match fetchSource engine fetch url with
  | .error _ => ⟨false, none, false, none, false⟩
  | .ok fetched =>
      if ¬ (200 ≤ fetched.status ∧ fetched.status < 300) then
        ⟨false, some fetched.status, false, none, false⟩
      else
        let usability := classifySourceUsability engine.urls engine.patterns engine.fromStr url
          fetched.contentType fetched.rawHtml (if fetched.text = [] then none else some fetched.text)
        ⟨true, some fetched.status, usability.usable,
          if usability.usable then none else some usability.reason, !usability.usable⟩

/-- What is kept of a response whose body is read. -/
def keptSource (response : HttpResponse) : FetchedSource :=
  let contentType := (response.headers.lookup "content-type").getD []
  let body := engine.extraction.utf8Lossy response.body
  let isHtml := engine.extraction.looksLikeHtml contentType body
  ⟨engine.extraction.recoverWaybackBody (if isHtml then engine.extraction.htmlToText body else body),
    response.status, contentType, if isHtml then some body else none, false⟩

/-- A redirection whose own page passes for a source. -/
def RedirectsWithContent (url : Text) : Prop :=
  ∃ address response, engine.urls.parse (engine.extraction.rewriteWaybackUrl url) = some address ∧
    fetch address = .ok response ∧ 300 ≤ response.status ∧ response.status < 400 ∧
    (sourceUsability engine url (keptSource engine response)).usable = true

variable {engine fetch} {url : Text}

/-- A fetch keeps the body of a response up to the redirections and drops that of any other. -/
theorem fetchSource_cases {fetched : FetchedSource}
    (came : fetchSource engine fetch url = .ok fetched) :
    ∃ address response, engine.urls.parse (engine.extraction.rewriteWaybackUrl url) = some address ∧
      fetch address = .ok response ∧
      ((200 ≤ response.status ∧ response.status < 400 ∧ fetched = keptSource engine response) ∨
        (¬ (200 ≤ response.status ∧ response.status < 400) ∧
          fetched = ⟨[], response.status, [], none, false⟩)) := by
  unfold fetchSource at came
  split at came
  · cases came
  · rename_i address parsed
    split at came
    · cases came
    · rename_i response answered
      refine ⟨address, response, parsed, answered, ?_⟩
      split at came
      · rename_i outside
        exact .inr ⟨outside, (Except.ok.inj came).symm⟩
      · rename_i inside
        obtain ⟨low, high⟩ := not_not.mp inside
        exact .inl ⟨low, high, (Except.ok.inj came).symm⟩

theorem fetchSource_redirect {address : Url} {response : HttpResponse}
    (parsed : engine.urls.parse (engine.extraction.rewriteWaybackUrl url) = some address)
    (answered : fetch address = .ok response) (low : 300 ≤ response.status)
    (high : response.status < 400) :
    fetchSource engine fetch url = .ok (keptSource engine response) := by
  have inside : ¬ ¬ (200 ≤ response.status ∧ response.status < 400) :=
    not_not.mpr ⟨by omega, high⟩
  rw [fetchSource, parsed]
  dsimp only
  rw [answered]
  dsimp only
  rw [if_neg inside]
  rfl

/-- What comes from the network is no snippet of a book: its usability is that of the page. -/
theorem sourceUsability_page {fetched : FetchedSource} (page : fetched.bookSnippet = false) :
    sourceUsability engine url fetched =
      classifySourceUsability engine.urls engine.patterns engine.fromStr url fetched.contentType
        fetched.rawHtml (if fetched.text = [] then none else some fetched.text) := by
  rw [sourceUsability, page]
  exact if_neg Bool.false_ne_true

theorem fetchSource_page {fetched : FetchedSource}
    (came : fetchSource engine fetch url = .ok fetched) : fetched.bookSnippet = false := by
  obtain ⟨_, _, _, _, ⟨_, _, rfl⟩ | ⟨_, rfl⟩⟩ := fetchSource_cases came
  · rfl
  · rfl

/-- The text of a usable page is not blank. -/
theorem usable_page_text {fetched : FetchedSource} (page : fetched.bookSnippet = false)
    (usable : (sourceUsability engine url fetched).usable = true) : Text.trim fetched.text ≠ [] := by
  rw [sourceUsability_page page] at usable
  obtain ⟨body, whole, long⟩ := classifySourceUsability_usable usable
  split at whole
  · cases whole
  · cases whole
    intro blank
    rw [blank] at long
    exact absurd long (by decide)

/-- A usable page is a success or a redirection with content. -/
theorem usable_status {fetched : FetchedSource} (came : fetchSource engine fetch url = .ok fetched)
    (usable : (sourceUsability engine url fetched).usable = true) :
    (200 ≤ fetched.status ∧ fetched.status < 300) ∨
      (¬ fetched.status < 300 ∧ RedirectsWithContent engine fetch url) := by
  obtain ⟨address, response, parsed, answered, ⟨low, high, rfl⟩ | ⟨outside, rfl⟩⟩ :=
    fetchSource_cases came
  · by_cases success : response.status < 300
    · exact .inl ⟨low, success⟩
    · exact .inr ⟨success, address, response, parsed, answered, Nat.not_lt.mp success, high, usable⟩
  · exact absurd rfl (usable_page_text rfl usable)

end Probe

section Agreement

variable {Url : Type} {engine : Engine Url} {fetch : Url → Except Text HttpResponse}
  {models : ModelClient} {nowMs : Int} {panel : List ModelRef}
  {request : CitationVerificationRequest Url} {context : Option ClaimContext}
  {useSiteOrdinal : Nat} {options : VerifyOptions}

/-- A probe agrees with a verification: it finds something to extract just when the models are
asked, and otherwise it tells an unusable source from one that did not come. -/
structure Agrees (probe : ProbeResult)
    (run : Except CitationVerificationError (VerificationOutcome Url) × List Call) : Prop where
  extractable : probe.extractable = true ↔ run.2 ≠ []
  unusable : run.2 = [] → ∀ reason,
    (probe.reachable = true ∧ probe.unusableReason = some reason) ↔
      ∃ outcome, run.1 = .ok outcome ∧ outcome.finding.verdict = .sourceUnavailable ∧
        outcome.finding.sourceUnavailableReason = some .unusable ∧
        outcome.finding.unusableReason = some reason
  unreachable : run.2 = [] → (probe.reachable = false ↔
    (∃ outcome, run.1 = .ok outcome ∧
      outcome.finding.sourceUnavailableReason = some .unreachable) ∨ ∃ error, run.1 = .error error)

/-- The models are asked about a usable source, the first of them at least. -/
theorem verifyCitationUseSite_asks {fetched : FetchedSource} (inhabited : panel ≠ [])
    (claim : Text.trim request.claim ≠ [])
    (source : options.prefetched.elim
      (fetchSource engine fetch (engine.urls.asStr request.sourceUrl)) Except.ok = .ok fetched)
    (usable : (sourceUsability engine (engine.urls.asStr request.sourceUrl) fetched).usable = true)
    (text : Text.trim fetched.text ≠ []) :
    (verifyCitationUseSite engine fetch models nowMs panel request context useSiteOrdinal
      options).2 ≠ [] := by
  let inputs := modelInputs engine fetch request context options fetched
  obtain ⟨verdicts, counted, -, -, -⟩ :=
    @panel_votes Url engine models options.params inputs claim text panel (max options.concurrency 1)
  have judged := judge_eq counted
  have asked : (mapWithConcurrency panel (max options.concurrency 1)
      (panelVote engine models options.params inputs)).flatMap Prod.snd ≠ [] := by
    cases panel with
    | nil => exact absurd rfl inhabited
    | cons model rest =>
        obtain ⟨_, _, vote, -, -⟩ := @panelVote_ok Url engine models options.params inputs claim text
          model 0
        rw [mapWithConcurrency, List.mapIdx_cons, List.flatMap_cons, vote]
        exact List.cons_ne_nil _ _
  by_cases repairs : options.repairTurn = true
  · rw [if_pos repairs] at judged
    rw [verifyCitationUseSite_votes inhabited source usable judged]
    exact List.append_ne_nil_of_left_ne_nil asked _
  · rw [if_neg repairs] at judged
    rw [verifyCitationUseSite_votes inhabited source usable judged]
    exact asked

/-- An unusable source ends a verification before any model is asked. -/
theorem verifyCitationUseSite_unusable {fetched : FetchedSource} (inhabited : panel ≠ [])
    (source : options.prefetched.elim
      (fetchSource engine fetch (engine.urls.asStr request.sourceUrl)) Except.ok = .ok fetched)
    (refused : ¬ (sourceUsability engine (engine.urls.asStr request.sourceUrl) fetched).usable) :
    verifyCitationUseSite engine fetch models nowMs panel request context useSiteOrdinal options =
      (.ok (unusableSourceOutcome
        (sourceUsability engine (engine.urls.asStr request.sourceUrl) fetched).reason
        (provenanceOf engine nowMs request.sourceUrl fetched) useSiteOrdinal), []) := by
  rw [Bool.not_eq_true] at refused
  unfold verifyCitationUseSite
  rw [if_neg inhabited]
  simp [source, refused]

theorem verifyCitationUseSite_failed {error : CitationVerificationError} (inhabited : panel ≠ [])
    (source : options.prefetched.elim
      (fetchSource engine fetch (engine.urls.asStr request.sourceUrl)) Except.ok = .error error) :
    verifyCitationUseSite engine fetch models nowMs panel request context useSiteOrdinal options =
      (.error error, []) := by
  unfold verifyCitationUseSite
  rw [if_neg inhabited]
  simp [source]

/-- An outcome without votes tells what is wrong with a source that came, and of no other. -/
theorem unusableSourceOutcome_finding (reason : BodyUsabilityReason)
    (provenance : SourceProvenance Url) :
    let finding := (unusableSourceOutcome reason provenance useSiteOrdinal).finding
    finding.verdict = .sourceUnavailable ∧
      finding.sourceUnavailableReason =
        deriveSourceUnavailableReason .sourceUnavailable provenance ∧
      finding.unusableReason =
        if deriveSourceUnavailableReason .sourceUnavailable provenance = some .unusable then
          some reason else none := by
  unfold unusableSourceOutcome noQuoteFinding
  dsimp only
  split
  · exact ⟨rfl, rfl, rfl⟩
  · exact ⟨rfl, rfl, rfl⟩

theorem deriveSourceUnavailableReason_status {provenance : SourceProvenance Url} {status : Nat}
    (answered : provenance.httpStatus = some status) :
    deriveSourceUnavailableReason .sourceUnavailable provenance =
      if 200 ≤ status ∧ status < 300 then some .unusable else some .unreachable := by
  have same : (200 ≤ status ∧ status ≤ 299) ↔ (200 ≤ status ∧ status < 300) := by omega
  rw [deriveSourceUnavailableReason, answered]
  exact (if_neg (not_not.mpr rfl)).trans (if_congr same rfl rfl)

/-- Of a source that is not usable both say the same. -/
theorem agrees_unusable {fetched : FetchedSource} (inhabited : panel ≠ [])
    (came : fetchSource engine fetch (engine.urls.asStr request.sourceUrl) = .ok fetched)
    (source : options.prefetched.elim
      (fetchSource engine fetch (engine.urls.asStr request.sourceUrl)) Except.ok = .ok fetched)
    (refused : ¬ (sourceUsability engine (engine.urls.asStr request.sourceUrl) fetched).usable) :
    Agrees (probeSource engine fetch (engine.urls.asStr request.sourceUrl))
      (verifyCitationUseSite engine fetch models nowMs panel request context useSiteOrdinal
        options) := by
  rw [verifyCitationUseSite_unusable inhabited source refused]
  rw [sourceUsability_page (fetchSource_page came)] at refused ⊢
  let provenance := provenanceOf engine nowMs request.sourceUrl fetched
  obtain ⟨verdict, unavailable, unusable⟩ :=
    @unusableSourceOutcome_finding Url useSiteOrdinal (classifySourceUsability engine.urls
      engine.patterns engine.fromStr (engine.urls.asStr request.sourceUrl) fetched.contentType
      fetched.rawHtml (if fetched.text = [] then none else some fetched.text)).reason provenance
  have derived := @deriveSourceUnavailableReason_status Url provenance fetched.status rfl
  unfold probeSource
  rw [came]
  dsimp only
  by_cases success : 200 ≤ fetched.status ∧ fetched.status < 300
  · rw [if_pos success] at derived
    rw [derived] at unavailable
    rw [derived, if_pos rfl] at unusable
    rw [if_neg (not_not.mpr success), if_neg refused]
    refine ⟨?_, fun _ reason => ?_, fun _ => ?_⟩
    · exact ⟨fun usable => absurd usable refused, fun asked => absurd rfl asked⟩
    · constructor
      · rintro ⟨-, same⟩
        exact ⟨_, rfl, verdict, unavailable, unusable.trans same⟩
      · rintro ⟨outcome, same, -, -, told⟩
        cases same
        exact ⟨rfl, unusable.symm.trans told⟩
    · constructor
      · intro unreachable
        cases unreachable
      · rintro (⟨outcome, same, told⟩ | ⟨error, same⟩)
        · cases same
          rw [unavailable] at told
          cases told
        · cases same
  · rw [if_neg success] at derived
    rw [derived] at unavailable
    rw [if_pos success]
    refine ⟨?_, fun _ reason => ?_, fun _ => ?_⟩
    · exact ⟨nofun, fun asked => absurd rfl asked⟩
    · constructor
      · rintro ⟨reached, -⟩
        cases reached
      · rintro ⟨outcome, same, -, told, -⟩
        cases same
        rw [unavailable] at told
        cases told
    · exact ⟨fun _ => .inl ⟨_, rfl, unavailable⟩, fun _ => rfl⟩

/-- Where no fetch came back, both say so. -/
theorem agrees_failed {error : CitationVerificationError} (inhabited : panel ≠ [])
    (failed : fetchSource engine fetch (engine.urls.asStr request.sourceUrl) = .error error)
    (source : options.prefetched.elim
      (fetchSource engine fetch (engine.urls.asStr request.sourceUrl)) Except.ok = .error error) :
    Agrees (probeSource engine fetch (engine.urls.asStr request.sourceUrl))
      (verifyCitationUseSite engine fetch models nowMs panel request context useSiteOrdinal
        options) := by
  rw [verifyCitationUseSite_failed inhabited source]
  unfold probeSource
  rw [failed]
  refine ⟨⟨nofun, fun asked => absurd rfl asked⟩, fun _ reason => ?_, fun _ => ?_⟩
  · constructor
    · rintro ⟨reached, -⟩
      cases reached
    · rintro ⟨outcome, same, -⟩
      cases same
  · exact ⟨fun _ => .inr ⟨error, rfl⟩, fun _ => rfl⟩

/-- The probe and the verification of one fetch agree just when no redirection comes with a page
that passes for a source. -/
theorem probe_agrees_iff (inhabited : panel ≠ []) (claim : Text.trim request.claim ≠ [])
    (same : ∀ source, options.prefetched = some source →
      fetchSource engine fetch (engine.urls.asStr request.sourceUrl) = .ok source) :
    Agrees (probeSource engine fetch (engine.urls.asStr request.sourceUrl))
        (verifyCitationUseSite engine fetch models nowMs panel request context useSiteOrdinal
          options) ↔
      ¬ RedirectsWithContent engine fetch (engine.urls.asStr request.sourceUrl) := by
  have source : options.prefetched.elim
      (fetchSource engine fetch (engine.urls.asStr request.sourceUrl)) Except.ok =
        fetchSource engine fetch (engine.urls.asStr request.sourceUrl) := by
    cases given : options.prefetched with
    | none => rfl
    | some fetched => exact (same fetched given).symm
  cases came : fetchSource engine fetch (engine.urls.asStr request.sourceUrl) with
  | error error =>
      refine iff_of_true (agrees_failed inhabited came (source.trans came)) ?_
      rintro ⟨address, response, parsed, answered, low, high, -⟩
      rw [fetchSource_redirect parsed answered low high] at came
      cases came
  | ok fetched =>
      by_cases usable :
          (sourceUsability engine (engine.urls.asStr request.sourceUrl) fetched).usable = true
      · have page := fetchSource_page came
        have asks := @verifyCitationUseSite_asks Url engine fetch models nowMs panel request context
          useSiteOrdinal options fetched inhabited claim (source.trans came) usable
          (usable_page_text page usable)
        have probed : (probeSource engine fetch
            (engine.urls.asStr request.sourceUrl)).extractable = true ↔ fetched.status < 300 := by
          obtain ⟨low, high⟩ | ⟨beyond, -⟩ := usable_status came usable
          · rw [sourceUsability_page page] at usable
            unfold probeSource
            rw [came]
            dsimp only
            rw [if_neg (not_not.mpr ⟨low, high⟩)]
            exact iff_of_true usable high
          · unfold probeSource
            rw [came]
            dsimp only
            rw [if_pos fun success => beyond success.2]
            exact iff_of_false nofun beyond
        constructor
        · rintro agrees ⟨address, response, parsed, answered, low, high, -⟩
          have success := probed.mp (agrees.extractable.mpr asks)
          rw [fetchSource_redirect parsed answered low high] at came
          cases came
          exact absurd success (Nat.not_lt.mpr low)
        · intro plain
          obtain ⟨-, high⟩ | ⟨-, redirects⟩ := usable_status came usable
          · exact ⟨iff_of_true (probed.mpr high) asks, fun quiet => absurd quiet asks,
              fun quiet => absurd quiet asks⟩
          · exact absurd redirects plain
      · refine iff_of_true (agrees_unusable inhabited came (source.trans came) usable) ?_
        rintro ⟨address, response, parsed, answered, low, high, content⟩
        rw [fetchSource_redirect parsed answered low high] at came
        cases came
        exact usable content

end Agreement

/-- A library whose one page comes with each status it is asked for. -/
def statusFetch (status : Nat) : Text × List Text → Except Text HttpResponse := fun _ =>
  .ok ⟨status, [("content-type", "text/plain".toList)], List.replicate 300 97⟩

theorem probe_agrees_success :
    Agrees (probeSource plainEngine (statusFetch 200) (plainEngine.urls.asStr plainRequest.sourceUrl))
        (verifyCitationUseSite plainEngine (statusFetch 200) plainModels 0 plainPanel plainRequest
          none 0 { plainOptions with prefetched := none }) ↔
      ¬ RedirectsWithContent plainEngine (statusFetch 200)
        (plainEngine.urls.asStr plainRequest.sourceUrl) :=
  probe_agrees_iff (by decide) (by decide +kernel) (by nofun)

/-- A list of choices with a page of its own is put before the models and probed as unreachable. -/
theorem redirect_probed_unreachable :
    (probeSource plainEngine (statusFetch 300) (plainEngine.urls.asStr plainRequest.sourceUrl) =
        ⟨false, some 300, false, none, false⟩) ∧
      (verifyCitationUseSite plainEngine (statusFetch 300) plainModels 0 plainPanel plainRequest
        none 0 { plainOptions with prefetched := none }).2 ≠ [] ∧
      ¬ Agrees
        (probeSource plainEngine (statusFetch 300) (plainEngine.urls.asStr plainRequest.sourceUrl))
        (verifyCitationUseSite plainEngine (statusFetch 300) plainModels 0 plainPanel plainRequest
          none 0 { plainOptions with prefetched := none }) := by
  have probed : probeSource plainEngine (statusFetch 300)
      (plainEngine.urls.asStr plainRequest.sourceUrl) = ⟨false, some 300, false, none, false⟩ := by
    decide +kernel
  have asked : (verifyCitationUseSite plainEngine (statusFetch 300) plainModels 0 plainPanel
      plainRequest none 0 { plainOptions with prefetched := none }).2 ≠ [] := by
    decide +kernel
  refine ⟨probed, asked, fun agrees => ?_⟩
  have extractable := agrees.extractable.mpr asked
  rw [probed] at extractable
  cases extractable

end SP42.Citation

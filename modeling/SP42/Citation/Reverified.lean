import SP42.Citation.Ledger
import SP42.Lib.Slots

/-!
Findings that are verified again: each takes the place of the finding on its use site in the
report of its page, and the statistics are counted anew.
-/
namespace SP42.Citation

variable {Url : Type}

def CitationFinding.key (finding : CitationFinding Url) : Text × Nat :=
  (finding.refId, finding.useSiteOrdinal)

/-- The fresh finding as it stands in a slot, with the identity of the slot. -/
def inSlot (fresh slot : CitationFinding Url) : CitationFinding Url :=
  { fresh with refId := slot.refId, useSiteOrdinal := slot.useSiteOrdinal }

/-- The report afterwards, and whether there was a finding to replace. -/
def applyReverifiedFinding (report : PageVerificationReport Url) (refId : Text)
    (useSiteOrdinal : Nat) (fresh : CitationFinding Url) : PageVerificationReport Url × Bool :=
  match Slots.rewriteFirst CitationFinding.key (refId, useSiteOrdinal) (inSlot fresh)
      report.findings with
  | none => (report, false)
  | some findings =>
      let stats := tallyStats report.stats.refsSeen findings report.stats.skipped
        report.stats.extractionFailures report.bookResolutions
      ({ report with findings := findings, stats := stats }, true)

/-- One call: the key, and the finding that is verified again. -/
structure Reverification (Url : Type) where
  refId : Text
  useSiteOrdinal : Nat
  fresh : CitationFinding Url

def Reverification.key (call : Reverification Url) : Text × Nat :=
  (call.refId, call.useSiteOrdinal)

def applyCall (report : PageVerificationReport Url) (call : Reverification Url) :
    PageVerificationReport Url :=
  (applyReverifiedFinding report call.refId call.useSiteOrdinal call.fresh).1

/-- The report after a sequence of calls. -/
def applyCalls (report : PageVerificationReport Url) (calls : List (Reverification Url)) :
    PageVerificationReport Url :=
  calls.foldl applyCall report

section Tally

/-- The counts that a tally is started with and that no entry moves. -/
structure SameFrame (stats other : PageVerificationStats) : Prop where
  refsSeen : stats.refsSeen = other.refsSeen
  skipped : stats.skipped = other.skipped
  extractionFailures : stats.extractionFailures = other.extractionFailures

theorem SameFrame.refl (stats : PageVerificationStats) : SameFrame stats stats := ⟨rfl, rfl, rfl⟩

theorem SameFrame.trans {one other third : PageVerificationStats} (first : SameFrame one other)
    (second : SameFrame other third) : SameFrame one third :=
  ⟨first.refsSeen.trans second.refsSeen, first.skipped.trans second.skipped,
    first.extractionFailures.trans second.extractionFailures⟩

theorem tallyResolution_frame (stats : PageVerificationStats) (resolution : BookResolution) :
    SameFrame (tallyResolution stats resolution) stats := by
  unfold tallyResolution
  split <;> exact ⟨rfl, rfl, rfl⟩

theorem tallyFinding_frame (stats : PageVerificationStats) (finding : CitationFinding Url) :
    SameFrame (tallyFinding stats finding) stats := by
  unfold tallyFinding
  split
  · exact ⟨rfl, rfl, rfl⟩
  · exact ⟨rfl, rfl, rfl⟩
  · exact ⟨rfl, rfl, rfl⟩
  · dsimp only
    split <;> exact ⟨rfl, rfl, rfl⟩

theorem foldl_frame {α : Type} {tally : PageVerificationStats → α → PageVerificationStats}
    (step : ∀ stats item, SameFrame (tally stats item) stats) (items : List α) :
    ∀ stats, SameFrame (items.foldl tally stats) stats := by
  induction items with
  | nil => exact .refl
  | cons item rest ih => exact fun stats => (ih _).trans (step stats item)

theorem tallyStats_frame (refsSeen : Nat) (findings : List (CitationFinding Url))
    (skipped extractionFailures : Nat) (resolutions : List BookResolution) :
    let stats := tallyStats refsSeen findings skipped extractionFailures resolutions
    stats.refsSeen = refsSeen ∧ stats.skipped = skipped ∧
      stats.extractionFailures = extractionFailures := by
  have frame := (foldl_frame tallyFinding_frame findings _).trans
    (foldl_frame tallyResolution_frame resolutions
      ⟨refsSeen, findings.length, skipped, extractionFailures, 0, 0, 0, 0, 0, 0, 0, 0, 0⟩)
  exact ⟨frame.refsSeen, frame.skipped, frame.extractionFailures⟩

theorem tallyStats_again (refsSeen : Nat) (findings : List (CitationFinding Url))
    (skipped extractionFailures : Nat) (resolutions : List BookResolution) :
    let stats := tallyStats refsSeen findings skipped extractionFailures resolutions
    stats = tallyStats stats.refsSeen findings stats.skipped stats.extractionFailures
      resolutions := by
  obtain ⟨sameRefs, sameSkipped, sameFailures⟩ :=
    tallyStats_frame refsSeen findings skipped extractionFailures resolutions
  dsimp only
  rw [sameRefs, sameSkipped, sameFailures]

end Tally

section Calls

/-- What every report on the way has in common with the first one. -/
structure Consistent (report current : PageVerificationReport Url) : Prop where
  identity : current.wikiId = report.wikiId ∧ current.revId = report.revId ∧
    current.title = report.title
  keys : current.findings.map CitationFinding.key = report.findings.map CitationFinding.key
  skipped : current.skipped = report.skipped
  extractionFailures : current.extractionFailures = report.extractionFailures
  bookResolutions : current.bookResolutions = report.bookResolutions
  counted : current.stats.refsSeen = report.stats.refsSeen ∧
    current.stats.skipped = report.stats.skipped ∧
    current.stats.extractionFailures = report.stats.extractionFailures
  tallied : current.stats = tallyStats report.stats.refsSeen current.findings
    report.stats.skipped report.stats.extractionFailures current.bookResolutions

/-- What one call does to a report: one finding is replaced, or there is none and nothing is. -/
def ReplacesOne (report : PageVerificationReport Url) (call : Reverification Url) : Prop :=
  let (after, replaced) := applyReverifiedFinding report call.refId call.useSiteOrdinal call.fresh
  (replaced = false ∧ call.key ∉ report.findings.map CitationFinding.key ∧ after = report) ∨
    replaced = true ∧ ∃ before slot behind, report.findings = before ++ slot :: behind ∧
      slot.key = call.key ∧ call.key ∉ before.map CitationFinding.key ∧
      ((report.findings.map CitationFinding.key).Nodup →
        call.key ∉ behind.map CitationFinding.key) ∧
      after.findings = before ++ inSlot call.fresh slot :: behind

theorem key_inSlot (fresh slot : CitationFinding Url) : (inSlot fresh slot).key = slot.key := rfl

theorem replacesOne (report : PageVerificationReport Url) (call : Reverification Url) :
    ReplacesOne report call := by
  unfold ReplacesOne applyReverifiedFinding
  cases written : Slots.rewriteFirst CitationFinding.key (call.refId, call.useSiteOrdinal)
      (inSlot call.fresh) report.findings with
  | none => exact Or.inl ⟨rfl, Slots.rewriteFirst_eq_none_iff.mp written, rfl⟩
  | some findings =>
      obtain ⟨before, slot, behind, split, same, absent, result⟩ :=
        Slots.rewriteFirst_eq_some written
      refine Or.inr ⟨rfl, before, slot, behind, split, same, absent, fun distinct => ?_, result⟩
      rw [split] at distinct
      exact (Slots.not_mem_around same distinct).2

theorem Consistent.step {report current : PageVerificationReport Url}
    (consistent : Consistent report current) (call : Reverification Url) :
    Consistent report (applyCall current call) := by
  unfold applyCall applyReverifiedFinding
  cases written : Slots.rewriteFirst CitationFinding.key (call.refId, call.useSiteOrdinal)
      (inSlot call.fresh) current.findings with
  | none => exact consistent
  | some findings =>
      obtain ⟨refsSeen, skipped, failures⟩ := consistent.counted
      have kept := Slots.keys_rewriteFirst (fun slot => key_inSlot call.fresh slot) written
      have tallied := tallyStats_frame report.stats.refsSeen findings report.stats.skipped
        report.stats.extractionFailures current.bookResolutions
      dsimp only
      rw [refsSeen, skipped, failures]
      exact ⟨consistent.identity, kept.trans consistent.keys, consistent.skipped,
        consistent.extractionFailures, consistent.bookResolutions, tallied, rfl⟩

theorem Consistent.run {report current : PageVerificationReport Url}
    (consistent : Consistent report current) (calls : List (Reverification Url)) :
    Consistent report (applyCalls current calls) := by
  induction calls generalizing current with
  | nil => exact consistent
  | cons call rest ih => exact ih (consistent.step call)

end Calls

section Reports

variable {engine : Engine Url} {fetch : Url → Except Text HttpResponse} {models : ModelClient}
  {nowMs : Int} {panel : List ModelRef} {page : PageVerificationRequest} {options : VerifyOptions}
  {extract : ExtractOutcome Url} {report : PageVerificationReport Url}

/-- The ordinals of the use sites of an extraction. -/
def siteOrdinals (extract : ExtractOutcome Url) : List Nat :=
  extract.useSites.map CitationUseSite.useSiteOrdinal ++
    extract.bookUseSites.map BookUseSite.useSiteOrdinal

theorem verifyBookUseSite_ordinal {site : BookUseSite} {resolution : BookResolution}
    {finding : CitationFinding Url} {calls : List Call}
    (run : verifyBookUseSite engine fetch models nowMs panel page site options =
      some (resolution, .finding finding, calls)) :
    finding.useSiteOrdinal = site.useSiteOrdinal := by
  unfold verifyBookUseSite at run
  dsimp only at run
  split at run
  · split at run
    · obtain ⟨⟨found, _⟩, grounded, same⟩ := Option.map_eq_some_iff.mp run
      cases same
      rcases groundResolvedBook_site grounded with ⟨other, same, -, ordered, -⟩ | ⟨error, other⟩
      · cases same
        exact ordered
      · cases other
    · cases run
      exact bookNoModelFinding_site.2.1
  · cases run
  · cases run

theorem urlFindings_ordinals {bodies : List (Text × FetchedSource)}
    (sites : List (CitationUseSite Url)) :
    ((urlFindings (sites.map (verifyOneUseSite engine fetch models nowMs panel bodies options))).map
      CitationFinding.useSiteOrdinal).Sublist (sites.map CitationUseSite.useSiteOrdinal) := by
  induction sites with
  | nil => exact List.Sublist.slnil
  | cons site rest ih =>
      rw [List.map_cons, List.map_cons, urlFindings, List.filterMap_cons]
      cases run : (verifyOneUseSite engine fetch models nowMs panel bodies options site).2.2 with
      | error error => exact ih.cons _
      | ok outcome =>
          have same := (verifyOneUseSite_cites run).2.2.1
          rw [List.map_cons, same]
          exact ih.cons_cons _

theorem bookFindings_ordinals (sites : List BookUseSite) :
    ∀ {results}, (sites.map fun site =>
        verifyBookUseSite engine fetch models nowMs panel page site options).mapM id =
          some results →
      (((results.map fun result => result.2.1).filterMap BookVerdict.asFinding).map
        CitationFinding.useSiteOrdinal).Sublist (sites.map BookUseSite.useSiteOrdinal) := by
  induction sites with
  | nil =>
      intro results run
      cases run
      exact List.Sublist.slnil
  | cons site rest ih =>
      intro results run
      rw [List.map_cons, List.mapM_cons] at run
      obtain ⟨⟨resolution, verdict, calls⟩, first, run⟩ := Option.bind_eq_some_iff.mp run
      obtain ⟨others, later, same⟩ := Option.bind_eq_some_iff.mp run
      cases same
      rw [List.map_cons, List.map_cons, List.filterMap_cons]
      cases verdict with
      | finding finding =>
          have same := verifyBookUseSite_ordinal first
          dsimp only [BookVerdict.asFinding]
          rw [List.map_cons, same]
          exact (ih later).cons_cons _
      | skip skipped => exact (ih later).cons _
      | failure failed => exact (ih later).cons _

/-- Use sites of different ordinals have findings of different keys. -/
theorem distinct_keys {pageConcurrency : Nat} (once : (siteOrdinals extract).Nodup)
    (reported : verifyPage engine fetch models nowMs panel page extract options pageConcurrency =
      some report) : (report.findings.map CitationFinding.key).Nodup := by
  unfold verifyPage verifyPageWith at reported
  dsimp only at reported
  rw [mapWithConcurrency_map, mapWithConcurrency_map] at reported
  obtain ⟨results, books, rfl⟩ := Option.map_eq_some_iff.mp reported
  dsimp only
  refine List.Nodup.of_map Prod.snd ?_
  rw [List.map_map]
  refine (((List.mergeSort_perm _ _).map _).nodup_iff).mpr (once.sublist ?_)
  rw [List.map_append]
  exact (urlFindings_ordinals _).append (bookFindings_ordinals _ books)

theorem consistent_report {pageConcurrency : Nat}
    (reported : verifyPage engine fetch models nowMs panel page extract options pageConcurrency =
      some report) : Consistent report report := by
  unfold verifyPage verifyPageWith at reported
  dsimp only at reported
  obtain ⟨results, books, rfl⟩ := Option.map_eq_some_iff.mp reported
  refine ⟨⟨rfl, rfl, rfl⟩, rfl, rfl, rfl, rfl, ⟨rfl, rfl, rfl⟩, ?_⟩
  exact tallyStats_again _ _ _ _ _

/-- The extraction numbers the use sites. -/
theorem siteOrdinals_nodup (letters : Letters) (blocks : List (ParsoidBlock Url)) :
    (siteOrdinals (extractUseSites letters page blocks)).Nodup := by
  -- The numbering does not depend on how the sites are settled: here all of them fail.
  let verify (site : CitationUseSite Url) :
      Text × Nat × Except CitationVerificationError (VerificationOutcome Url) :=
    (site.refId, site.blockOrdinal, .error (.invalidRequest []))
  let judged (site : BookUseSite) : BookResolution × BookVerdict Url :=
    (⟨site.refId, site.blockOrdinal, site.book.identifiers, site.book.citedPage, .notFound⟩,
      .skip ⟨site.refId, .bookSource, site.blockOrdinal, [site.book]⟩)
  have sites : SettlesSites verify judged page :=
    ⟨fun _ _ _ _ _ _ => .failure (.invalidRequest []), fun _ _ _ _ _ _ => .skip .notFound⟩
  obtain ⟨account, settled, added⟩ :=
    @visitBlocks_settles Url verify judged letters page sites blocks ⟨⟨[], [], [], []⟩, 0⟩
  have urls : (extractUseSites letters page blocks).useSites = account.useSites := added.useSites
  have books : (extractUseSites letters page blocks).bookUseSites = account.bookUseSites :=
    added.bookUseSites
  unfold siteOrdinals
  rw [urls, books]
  exact settled.numbered.once.nodup_iff.mpr List.nodup_range'

/-- Through any calls the report of a page keeps its keys, its skips, failures and resolutions, and
counts what it holds; one call replaces one finding or changes nothing; and where the use sites
have their own ordinals, as an extraction gives them, no two findings have the same key. -/
theorem reverification_consistent {pageConcurrency : Nat}
    (reported : verifyPage engine fetch models nowMs panel page extract options pageConcurrency =
      some report) (calls : List (Reverification Url)) :
    let current := applyCalls report calls
    Consistent report current ∧ (∀ call, ReplacesOne current call) ∧
      ((siteOrdinals extract).Nodup → (current.findings.map CitationFinding.key).Nodup) ∧
      ∀ (letters : Letters) (blocks : List (ParsoidBlock Url)),
        (siteOrdinals (extractUseSites letters page blocks)).Nodup := by
  intro current
  have consistent : Consistent report current := (consistent_report reported).run calls
  refine ⟨consistent, replacesOne current, fun once => ?_, siteOrdinals_nodup⟩
  rw [consistent.keys]
  exact distinct_keys once reported

end Reports

/-- The finding of a page is judged anew as supported. -/
theorem reverification_consistent_cats :
    ∃ report, verifyPage plainEngine refuse plainModels 0 plainPanel catsPage
        (extractUseSites asciiLetters catsPage [citedBlock urlRef]) plainOptions 8 = some report ∧
      let calls := report.findings.map fun finding => Reverification.mk finding.refId
        finding.useSiteOrdinal { finding with verdict := .judged .supported }
      let current := applyCalls report calls
      Consistent report current ∧ (∀ call, ReplacesOne current call) ∧
        (current.findings.map CitationFinding.key).Nodup := by
  obtain ⟨report, reported⟩ : ∃ report, verifyPage plainEngine refuse plainModels 0 plainPanel
      catsPage (extractUseSites asciiLetters catsPage [citedBlock urlRef]) plainOptions 8 =
        some report := Option.isSome_iff_exists.mp (by decide +kernel)
  obtain ⟨consistent, replaces, distinct, once⟩ := reverification_consistent reported
    (report.findings.map fun finding => Reverification.mk finding.refId finding.useSiteOrdinal
      { finding with verdict := .judged .supported })
  exact ⟨report, reported, consistent, replaces, distinct (once _ _)⟩

end SP42.Citation

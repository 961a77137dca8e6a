import SP42.Citation.Transparency

/-!
The ledger of a page: what each reference comes to, from the blocks to the report, so
that no citation is lost and none is counted twice.
-/
namespace SP42.Citation

/-- Use sites with the entries of a report that they came to. -/
@[ext] structure Account (Url : Type) where
  useSites : List (CitationUseSite Url)
  bookUseSites : List BookUseSite
  findings : List (CitationFinding Url)
  skipped : List SkippedRef
  failures : List BlockFailure
  resolutions : List BookResolution

namespace Account

variable {Url : Type}

def empty : Account Url := ⟨[], [], [], [], [], []⟩

instance : Append (Account Url) where
  append one other :=
    ⟨one.useSites ++ other.useSites, one.bookUseSites ++ other.bookUseSites,
      one.findings ++ other.findings, one.skipped ++ other.skipped, one.failures ++ other.failures,
      one.resolutions ++ other.resolutions⟩

/-- Two accounts with the same use sites in the same order, and the same entries. -/
structure Same (one other : Account Url) : Prop where
  useSites : one.useSites = other.useSites
  bookUseSites : one.bookUseSites = other.bookUseSites
  findings : one.findings.Perm other.findings
  skipped : one.skipped.Perm other.skipped
  failures : one.failures.Perm other.failures
  resolutions : one.resolutions.Perm other.resolutions

theorem Same.refl (account : Account Url) : Same account account :=
  ⟨rfl, rfl, .refl _, .refl _, .refl _, .refl _⟩

theorem Same.trans {one other third : Account Url} (first : Same one other)
    (second : Same other third) : Same one third where
  useSites := first.useSites.trans second.useSites
  bookUseSites := first.bookUseSites.trans second.bookUseSites
  findings := first.findings.trans second.findings
  skipped := first.skipped.trans second.skipped
  failures := first.failures.trans second.failures
  resolutions := first.resolutions.trans second.resolutions

theorem Same.append_right {one other : Account Url} (same : Same one other)
    (account : Account Url) : Same (one ++ account) (other ++ account) where
  useSites := congrArg (· ++ account.useSites) same.useSites
  bookUseSites := congrArg (· ++ account.bookUseSites) same.bookUseSites
  findings := same.findings.append_right _
  skipped := same.skipped.append_right _
  failures := same.failures.append_right _
  resolutions := same.resolutions.append_right _

theorem append_assoc (one other third : Account Url) :
    one ++ other ++ third = one ++ (other ++ third) := by
  apply Account.ext <;> exact List.append_assoc _ _ _

theorem append_empty (account : Account Url) : account ++ empty = account := by
  apply Account.ext <;> exact List.append_nil _

end Account

section Law

variable {Url : Type} (page : PageVerificationRequest)

/-- What one URL of a reference comes to: one finding on it, or one failure. -/
inductive SettlesUrl (block : ParsoidBlock Url) (ref : BlockRef Url) (claim : Text)
    (context : ClaimContext) (ordinal : Nat) (source : CitedSource Url) : Account Url → Prop
  | finding (finding : CitationFinding Url) : finding.refId = ref.refId →
      finding.useSiteOrdinal = ordinal → finding.claim = claim →
      finding.archiveOf.getD finding.provenance.url = source.url →
      SettlesUrl block ref claim context ordinal source
        ⟨[urlSite page block ref claim context ordinal source], [], [finding], [], [], []⟩
  | failure (error : CitationVerificationError) :
      SettlesUrl block ref claim context ordinal source
        ⟨[urlSite page block ref claim context ordinal source], [], [], [], [⟨block.blockOrdinal,
          "verify failed for ".toList ++ ref.refId ++ ": ".toList ++ error.display⟩], []⟩

/-- What one book of a reference comes to: its resolution, and one finding, skip or
failure. -/
inductive SettlesBook (block : ParsoidBlock Url) (ref : BlockRef Url) (claim : Text)
    (context : ClaimContext) (ordinal : Nat) (book : BookSource) : Account Url → Prop
  | finding (outcome : BookResolutionOutcome) (finding : CitationFinding Url) :
      finding.refId = ref.refId → finding.useSiteOrdinal = ordinal → finding.claim = claim →
      SettlesBook block ref claim context ordinal book
        ⟨[], [bookSite block ref claim context ordinal book], [finding], [], [],
          [⟨ref.refId, block.blockOrdinal, book.identifiers, book.citedPage, outcome⟩]⟩
  | skip (outcome : BookResolutionOutcome) :
      SettlesBook block ref claim context ordinal book
        ⟨[], [bookSite block ref claim context ordinal book], [],
          [⟨ref.refId, .bookSource, block.blockOrdinal, [book]⟩], [],
          [⟨ref.refId, block.blockOrdinal, book.identifiers, book.citedPage, outcome⟩]⟩
  | failure (outcome : BookResolutionOutcome) (error : CitationVerificationError) :
      SettlesBook block ref claim context ordinal book
        ⟨[], [bookSite block ref claim context ordinal book], [], [], [⟨block.blockOrdinal,
          "book verify failed for ".toList ++ ref.refId ++ ": ".toList ++ error.display⟩],
          [⟨ref.refId, block.blockOrdinal, book.identifiers, book.citedPage, outcome⟩]⟩

/-- What a list comes to whose items take one ordinal each. -/
inductive SettlesEach {α : Type} (settles : Nat → α → Account Url → Prop) :
    Nat → List α → Account Url → Prop
  | nil (first : Nat) : SettlesEach settles first [] Account.empty
  | cons {first : Nat} {item : α} {items : List α} {account accounts : Account Url} :
      settles first item account → SettlesEach settles (first + 1) items accounts →
      SettlesEach settles first (item :: items) (account ++ accounts)

def disclosure (block : ParsoidBlock Url) (ref : BlockRef Url) (reason : SkippedReason) :
    Account Url :=
  ⟨[], [], [], [⟨ref.refId, reason, block.blockOrdinal, []⟩], [], []⟩

/-- The skip that discloses an unresolved short cite. -/
def shortCite (block : ParsoidBlock Url) (ref : BlockRef Url) : Account Url :=
  if ref.shortCiteUnresolved then disclosure block ref .unresolvedShortCite else Account.empty

/-- What one reference comes to, between the ordinals before and after it. -/
inductive SettlesRef (block : ParsoidBlock Url) (ref : BlockRef Url) :
    Nat → Nat → Account Url → Prop
  | noSource (first : Nat) : ref.sources = [] → ref.bookSources = [] →
      SettlesRef block ref first first (disclosure block ref
        (if ref.shortCiteUnresolved then .unresolvedShortCite else .nonUrlSource))
  | noClaim (first : Nat) : ref.sources ≠ [] ∨ ref.bookSources ≠ [] → Text.trim block.text = [] →
      SettlesRef block ref first first (shortCite block ref ++ ⟨[], [], [], [],
        [⟨block.blockOrdinal, "ref ".toList ++ ref.refId ++ " has no resolvable claim text".toList⟩],
        []⟩)
  | urls {first : Nat} {claim : Text} {context : ClaimContext} {account : Account Url} :
      ref.sources ≠ [] → Text.trim block.text ≠ [] → claim ≠ [] →
      SettlesEach (SettlesUrl page block ref claim context) first ref.sources account →
      SettlesRef block ref first (first + ref.sources.length) (shortCite block ref ++ account)
  | books {first : Nat} {claim : Text} {context : ClaimContext} {account : Account Url} :
      ref.sources = [] → ref.bookSources ≠ [] → Text.trim block.text ≠ [] → claim ≠ [] →
      SettlesEach (SettlesBook block ref claim context) first ref.bookSources account →
      SettlesRef block ref first (first + ref.bookSources.length) (shortCite block ref ++ account)

/-- What references come to in document order. -/
inductive SettlesRefs (block : ParsoidBlock Url) : Nat → List (BlockRef Url) → Nat →
    Account Url → Prop
  | nil (first : Nat) : SettlesRefs block first [] first Account.empty
  | cons {first next last : Nat} {ref : BlockRef Url} {refs : List (BlockRef Url)}
      {account accounts : Account Url} : SettlesRef page block ref first next account →
      SettlesRefs block next refs last accounts →
      SettlesRefs block first (ref :: refs) last (account ++ accounts)

inductive SettlesBlocks : Nat → List (ParsoidBlock Url) → Nat → Account Url → Prop
  | nil (first : Nat) : SettlesBlocks first [] first Account.empty
  | cons {first next last : Nat} {block : ParsoidBlock Url} {blocks : List (ParsoidBlock Url)}
      {account accounts : Account Url} : SettlesRefs page block first block.refs next account →
      SettlesBlocks next blocks last accounts →
      SettlesBlocks first (block :: blocks) last (account ++ accounts)

end Law

section Identity

variable {Url : Type} {engine : Engine Url} {fetch : Url → Except Text HttpResponse}
  {models : ModelClient} {nowMs : Int} {panel : List ModelRef}

/-- The use site and the source that a finding is about. -/
structure About (finding : CitationFinding Url) (ordinal : Nat) (sourceUrl : Url) : Prop where
  ordinal : finding.useSiteOrdinal = ordinal
  url : finding.provenance.url = sourceUrl
  live : finding.archiveOf = none

theorem assembleCitationFinding_about {unicode : Unicode} {sourceText : Text}
    {provenance : SourceProvenance Url} {votes : List ModelVerdict} {useSiteOrdinal : Nat} :
    About (assembleCitationFinding unicode sourceText provenance votes useSiteOrdinal)
      useSiteOrdinal provenance.url := by
  unfold assembleCitationFinding
  split
  · exact ⟨rfl, rfl, rfl⟩
  · split
    · split
      · exact ⟨rfl, rfl, rfl⟩
      · exact ⟨rfl, rfl, rfl⟩
    · exact ⟨rfl, rfl, rfl⟩

theorem verifyCitationUseSite_about {request : CitationVerificationRequest Url}
    {context : Option ClaimContext} {useSiteOrdinal : Nat} {options : VerifyOptions}
    {outcome : VerificationOutcome Url}
    (run : (verifyCitationUseSite engine fetch models nowMs panel request context useSiteOrdinal
      options).1 = .ok outcome) :
    About outcome.finding useSiteOrdinal request.sourceUrl := by
  obtain ⟨-, fetched, -, ⟨reason, rfl⟩ | ⟨-, verdicts, -, rfl⟩⟩ := verifyCitationUseSite_cases run
  · unfold unusableSourceOutcome
    dsimp only
    split
    · exact ⟨rfl, rfl, rfl⟩
    · exact ⟨rfl, rfl, rfl⟩
  · obtain ⟨ordinal, url, live⟩ := @assembleCitationFinding_about Url engine.unicode fetched.text
      (provenanceOf engine nowMs request.sourceUrl fetched) verdicts useSiteOrdinal
    exact ⟨ordinal, url, live⟩

/-- The source that a finding of a page is about: the one that an archived copy stands in
for, or its own. -/
def Cites (finding : CitationFinding Url) (ordinal : Nat) (sourceUrl : Url) : Prop :=
  finding.useSiteOrdinal = ordinal ∧ finding.archiveOf.getD finding.provenance.url = sourceUrl

theorem About.cites {finding : CitationFinding Url} {ordinal : Nat} {sourceUrl : Url}
    (about : About finding ordinal sourceUrl) : Cites finding ordinal sourceUrl := by
  refine ⟨about.ordinal, ?_⟩
  rw [about.live]
  exact about.url

theorem tryArchive_cites {site : CitationUseSite Url} {options : VerifyOptions} {archive : Url}
    {outcome : VerificationOutcome Url}
    (stands : tryArchive engine fetch models nowMs panel site options archive = some outcome) :
    Cites outcome.finding site.useSiteOrdinal site.request.sourceUrl := by
  unfold tryArchive at stands
  split at stands
  · cases stands
  · dsimp only at stands
    split at stands
    · cases stands
    · rename_i run
      split at stands
      · cases stands
      · cases stands
        exact ⟨(verifyCitationUseSite_about run).ordinal, rfl⟩

theorem tryArchiveFallback_cites {site : CitationUseSite Url} {options : VerifyOptions}
    {primary : Except CitationVerificationError (VerificationOutcome Url)}
    {outcome : VerificationOutcome Url}
    (about : ∀ live, primary = .ok live →
      About live.finding site.useSiteOrdinal site.request.sourceUrl)
    (run : tryArchiveFallback engine fetch models nowMs panel site options primary = .ok outcome) :
    Cites outcome.finding site.useSiteOrdinal site.request.sourceUrl := by
  unfold tryArchiveFallback at run
  cases primary with
  | error error => cases run
  | ok live =>
      dsimp only at run
      split at run
      · split at run
        · rename_i found
          cases run
          obtain ⟨archive, _, stands⟩ := List.exists_of_findSome?_eq_some found
          exact tryArchive_cites stands
        · cases run
          exact (about outcome rfl).cites
      · cases run
        exact (about outcome rfl).cites

/-- The finding of a use site is on its reference, its claim and its source. -/
theorem verifyOneUseSite_cites {bodies : List (Text × FetchedSource)} {options : VerifyOptions}
    {site : CitationUseSite Url} {outcome : VerificationOutcome Url}
    (run : (verifyOneUseSite engine fetch models nowMs panel bodies options site).2.2 = .ok outcome) :
    outcome.finding.refId = site.refId ∧ outcome.finding.claim = site.request.claim ∧
      Cites outcome.finding site.useSiteOrdinal site.request.sourceUrl := by
  unfold verifyOneUseSite at run
  dsimp only at run
  cases settled : tryArchiveFallback engine fetch models nowMs panel site options
      (verifyCitationUseSite engine fetch models nowMs panel site.request (some site.context)
        site.useSiteOrdinal { options with
          prefetched := bodies.lookup (engine.urls.asStr site.request.sourceUrl) }).1 with
  | error error =>
      rw [settled] at run
      cases run
  | ok primary =>
      rw [settled] at run
      cases run
      have cites : Cites primary.finding site.useSiteOrdinal site.request.sourceUrl :=
        tryArchiveFallback_cites (fun live run => verifyCitationUseSite_about run) settled
      exact ⟨rfl, rfl, cites⟩

theorem judgeBookSnippets_site {page : PageVerificationRequest} {site : BookUseSite}
    {options : VerifyOptions} {edition : OpenLibraryEdition} {ocaid : Text} {body : BookSnippetBody}
    {verdict : BookVerdict Url} {calls : List Call}
    (run : judgeBookSnippets engine fetch models nowMs panel page site options edition ocaid body =
      some (verdict, calls)) :
    (∃ finding, verdict = .finding finding ∧ finding.refId = site.refId ∧
        finding.useSiteOrdinal = site.useSiteOrdinal ∧ finding.claim = site.claim) ∨
      ∃ error : CitationVerificationError, verdict = .failure ⟨site.blockOrdinal,
        "book verify failed for ".toList ++ site.refId ++ ": ".toList ++ error.display⟩ := by
  unfold judgeBookSnippets at run
  obtain ⟨sourceUrl, -, judged⟩ := Option.map_eq_some_iff.mp run
  dsimp only at judged
  split at judged
  · rename_i outcome verified
    cases judged
    exact .inl ⟨_, rfl, rfl, (verifyCitationUseSite_about verified).ordinal, rfl⟩
  · rename_i error verified
    cases judged
    exact .inr ⟨error, rfl⟩

theorem bookNoModelFinding_site {site : BookUseSite} {url : Url} {contentHash : Text}
    {httpStatus : Nat} {notSupported : Bool} {bookScan : Option BookScanProvenance} :
    (bookNoModelFinding nowMs site url contentHash httpStatus notSupported bookScan).refId =
        site.refId ∧
      (bookNoModelFinding nowMs site url contentHash httpStatus notSupported
        bookScan).useSiteOrdinal = site.useSiteOrdinal ∧
      (bookNoModelFinding nowMs site url contentHash httpStatus notSupported bookScan).claim =
        site.claim := by
  refine ⟨rfl, ?_, rfl⟩
  unfold bookNoModelFinding
  cases notSupported <;> rfl

/-- A resolved book comes to a finding on its reference and its claim, or to a failure. -/
theorem groundResolvedBook_site {page : PageVerificationRequest} {site : BookUseSite}
    {options : VerifyOptions} {edition : OpenLibraryEdition} {ocaid : Text}
    {verdict : BookVerdict Url} {calls : List Call}
    (run : groundResolvedBook engine fetch models nowMs panel page site options edition ocaid =
      some (verdict, calls)) :
    (∃ finding, verdict = .finding finding ∧ finding.refId = site.refId ∧
        finding.useSiteOrdinal = site.useSiteOrdinal ∧ finding.claim = site.claim) ∨
      ∃ error : CitationVerificationError, verdict = .failure ⟨site.blockOrdinal,
        "book verify failed for ".toList ++ site.refId ++ ": ".toList ++ error.display⟩ := by
  unfold groundResolvedBook at run
  split at run
  · exact judgeBookSnippets_site run
  all_goals
    obtain ⟨url, -, noModel⟩ := Option.map_eq_some_iff.mp run
    cases noModel
    exact .inl ⟨_, rfl, bookNoModelFinding_site⟩

/-- A URL site settles its source. -/
theorem settlesUrl_of_run {page : PageVerificationRequest} {bodies : List (Text × FetchedSource)}
    {options : VerifyOptions} {block : ParsoidBlock Url} {ref : BlockRef Url} {claim : Text}
    {context : ClaimContext} {ordinal : Nat} {source : CitedSource Url} :
    let site := urlSite page block ref claim context ordinal source
    let results := [verifyOneUseSite engine fetch models nowMs panel bodies options site]
    SettlesUrl page block ref claim context ordinal source
      ⟨[site], [], urlFindings results, [], urlFailures results, []⟩ := by
  intro site results
  cases run : (verifyOneUseSite engine fetch models nowMs panel bodies options site).2.2 with
  | error error =>
      have findings : urlFindings results = [] := by simp [urlFindings, results, run]
      have failures : urlFailures results = [⟨block.blockOrdinal,
          "verify failed for ".toList ++ ref.refId ++ ": ".toList ++ error.display⟩] := by
        simp only [urlFailures, results, List.filterMap_cons, run, List.filterMap_nil]
        rfl
      rw [findings, failures]
      exact .failure error
  | ok outcome =>
      have findings : urlFindings results = [outcome.finding] := by
        simp [urlFindings, results, run]
      have failures : urlFailures results = [] := by simp [urlFailures, results, run]
      rw [findings, failures]
      obtain ⟨refId, claimed, ordered, cited⟩ := verifyOneUseSite_cites run
      exact .finding outcome.finding refId ordered claimed cited

/-- A book site settles its book. -/
theorem settlesBook_of_run {page : PageVerificationRequest} {options : VerifyOptions}
    {block : ParsoidBlock Url} {ref : BlockRef Url} {claim : Text} {context : ClaimContext}
    {ordinal : Nat} {book : BookSource} {resolution : BookResolution} {verdict : BookVerdict Url}
    {calls : List Call}
    (run : verifyBookUseSite engine fetch models nowMs panel page
      (bookSite block ref claim context ordinal book) options =
        some (resolution, verdict, calls)) :
    SettlesBook block ref claim context ordinal book
      ⟨[], [bookSite block ref claim context ordinal book], verdict.asFinding.toList,
        verdict.asSkip.toList, verdict.asFailure.toList, [resolution]⟩ := by
  unfold verifyBookUseSite at run
  dsimp only at run
  split at run
  · split at run
    · obtain ⟨⟨found, _⟩, grounded, same⟩ := Option.map_eq_some_iff.mp run
      cases same
      rcases groundResolvedBook_site grounded with ⟨finding, rfl, refId, ordered, claimed⟩ | ⟨error, rfl⟩
      · exact .finding _ finding refId ordered claimed
      · exact .failure _ error
    · cases run
      obtain ⟨refId, ordered, claimed⟩ := bookNoModelFinding_site
      exact .finding _ _ refId ordered claimed
  · cases run
    exact .skip _
  · cases run
    exact .skip _

end Identity

section Loop

variable {Url : Type}
  (verify : CitationUseSite Url →
    Text × Nat × Except CitationVerificationError (VerificationOutcome Url))
  (judged : BookUseSite → BookResolution × BookVerdict Url)

def urlAccount (site : CitationUseSite Url) : Account Url :=
  ⟨[site], [], urlFindings [verify site], [], urlFailures [verify site], []⟩

def bookAccount (site : BookUseSite) : Account Url :=
  ⟨[], [site], (judged site).2.asFinding.toList, (judged site).2.asSkip.toList,
    (judged site).2.asFailure.toList, [(judged site).1]⟩

/-- What an extraction comes to when its use sites are verified. -/
def accountOf (outcome : ExtractOutcome Url) : Account Url where
  useSites := outcome.useSites
  bookUseSites := outcome.bookUseSites
  findings := urlFindings (outcome.useSites.map verify) ++
    outcome.bookUseSites.filterMap fun site => (judged site).2.asFinding
  skipped := outcome.skipped ++
    outcome.bookUseSites.filterMap fun site => (judged site).2.asSkip
  failures := outcome.failures ++ urlFailures (outcome.useSites.map verify) ++
    outcome.bookUseSites.filterMap fun site => (judged site).2.asFailure
  resolutions := outcome.bookUseSites.map fun site => (judged site).1

/-- A part of the loop that adds an account to what was extracted before. -/
def Adds (state next : Extracted Url) (account : Account Url) : Prop :=
  Account.Same (accountOf verify judged next.outcome)
    (accountOf verify judged state.outcome ++ account)

/-- The use sites that are verified settle what they were extracted for. -/
structure SettlesSites (page : PageVerificationRequest) : Prop where
  urls (block : ParsoidBlock Url) (ref : BlockRef Url) (claim : Text) (context : ClaimContext)
    (ordinal : Nat) (source : CitedSource Url) : SettlesUrl page block ref claim context ordinal source
      (urlAccount verify (urlSite page block ref claim context ordinal source))
  books (block : ParsoidBlock Url) (ref : BlockRef Url) (claim : Text) (context : ClaimContext)
    (ordinal : Nat) (book : BookSource) : SettlesBook block ref claim context ordinal book
      (bookAccount judged (bookSite block ref claim context ordinal book))

variable {verify judged}

theorem Adds.refl (state : Extracted Url) : Adds verify judged state state Account.empty := by
  unfold Adds
  rw [Account.append_empty]
  exact Account.Same.refl _

theorem Adds.trans {state next last : Extracted Url} {account accounts : Account Url}
    (first : Adds verify judged state next account)
    (second : Adds verify judged next last accounts) :
    Adds verify judged state last (account ++ accounts) := by
  have moved := Account.Same.trans second (Account.Same.append_right first accounts)
  rw [Account.append_assoc] at moved
  exact moved

/-- What is inserted before a tail may as well come after it. -/
theorem perm_insert {α : Type} (before inserted after : List α) :
    (before ++ inserted ++ after).Perm (before ++ after ++ inserted) := by
  rw [List.append_assoc, List.append_assoc]
  exact List.perm_append_comm.append_left before

theorem filterMap_concat {α β : Type} (f : α → Option β) (items : List α) (item : α) :
    (items ++ [item]).filterMap f = items.filterMap f ++ (f item).toList := by
  rw [List.filterMap_append]
  cases found : f item with
  | none => simp [found]
  | some value => simp [found]

theorem adds_skip (state : Extracted Url) (block : ParsoidBlock Url) (ref : BlockRef Url)
    (reason : SkippedReason) :
    Adds verify judged state (state.skip block ref reason) (disclosure block ref reason) where
  useSites := (List.append_nil _).symm
  bookUseSites := (List.append_nil _).symm
  findings := .of_eq (List.append_nil _).symm
  skipped := perm_insert _ _ _
  failures := .of_eq (List.append_nil _).symm
  resolutions := .of_eq (List.append_nil _).symm

theorem adds_fail (state : Extracted Url) (block : ParsoidBlock Url) (reason : Text) :
    Adds verify judged state (state.fail block reason)
      ⟨[], [], [], [], [⟨block.blockOrdinal, reason⟩], []⟩ where
  useSites := (List.append_nil _).symm
  bookUseSites := (List.append_nil _).symm
  findings := .of_eq (List.append_nil _).symm
  skipped := .of_eq (List.append_nil _).symm
  failures := by
    refine .trans (.append_right _ (perm_insert _ _ _)) (perm_insert _ _ _)
  resolutions := .of_eq (List.append_nil _).symm

theorem adds_addSite (state : Extracted Url) (site : Nat → CitationUseSite Url) :
    Adds verify judged state (state.addSite site) (urlAccount verify (site state.ordinal)) where
  useSites := rfl
  bookUseSites := (List.append_nil _).symm
  findings := by
    unfold accountOf urlAccount Extracted.addSite
    dsimp only
    rw [List.map_append, urlFindings, List.filterMap_append]
    exact perm_insert _ _ _
  skipped := .of_eq (List.append_nil _).symm
  failures := by
    unfold accountOf urlAccount Extracted.addSite
    dsimp only
    rw [List.map_append, urlFailures, List.filterMap_append, ← List.append_assoc]
    exact perm_insert _ _ _
  resolutions := .of_eq (List.append_nil _).symm

theorem adds_addBook (state : Extracted Url) (site : Nat → BookUseSite) :
    Adds verify judged state (state.addBook site) (bookAccount judged (site state.ordinal)) where
  useSites := (List.append_nil _).symm
  bookUseSites := rfl
  findings := by
    unfold accountOf bookAccount Extracted.addBook
    dsimp only
    rw [filterMap_concat, ← List.append_assoc]
    exact .refl _
  skipped := by
    unfold accountOf bookAccount Extracted.addBook
    dsimp only
    rw [filterMap_concat, ← List.append_assoc]
    exact .refl _
  failures := by
    unfold accountOf bookAccount Extracted.addBook
    dsimp only
    rw [filterMap_concat, ← List.append_assoc]
    exact .refl _
  resolutions := by
    unfold accountOf bookAccount Extracted.addBook
    dsimp only
    rw [List.map_append]
    exact .refl _

/-- A loop each step of which settles one item and takes one ordinal. -/
theorem foldl_settles {α : Type} {settles : Nat → α → Account Url → Prop}
    {step : Extracted Url → α → Extracted Url} {items : List α}
    (settled : ∀ state, ∀ item ∈ items, (step state item).ordinal = state.ordinal + 1 ∧
      ∃ account, settles state.ordinal item account ∧
        Adds verify judged state (step state item) account) :
    ∀ state, (items.foldl step state).ordinal = state.ordinal + items.length ∧
      ∃ account, SettlesEach settles state.ordinal items account ∧
        Adds verify judged state (items.foldl step state) account := by
  induction items with
  | nil =>
      intro state
      exact ⟨rfl, Account.empty, .nil _, Adds.refl state⟩
  | cons item items ih =>
      intro state
      obtain ⟨taken, account, one, added⟩ := settled state item List.mem_cons_self
      obtain ⟨counted, accounts, rest, more⟩ :=
        ih (fun state item member => settled state item (List.mem_cons_of_mem _ member))
          (step state item)
      rw [taken] at counted rest
      refine ⟨?_, account ++ accounts, .cons one rest, added.trans more⟩
      rw [List.foldl_cons, counted, List.length_cons]
      omega

variable {letters : Letters} {page : PageVerificationRequest}

theorem adds_shortCite (state : Extracted Url) (block : ParsoidBlock Url) (ref : BlockRef Url) :
    Adds verify judged state
      (if ref.shortCiteUnresolved then state.skip block ref .unresolvedShortCite else state)
      (shortCite block ref) := by
  unfold shortCite
  split
  · exact adds_skip state block ref .unresolvedShortCite
  · exact Adds.refl state

theorem shortCite_ordinal (state : Extracted Url) (block : ParsoidBlock Url) (ref : BlockRef Url) :
    (if ref.shortCiteUnresolved then state.skip block ref .unresolvedShortCite
      else state).ordinal = state.ordinal := by
  split <;> rfl

theorem loop_sources
    (sites : SettlesSites verify judged page)
    (block : ParsoidBlock Url) (ref : BlockRef Url) (claim : Text) (context : ClaimContext)
    (state : Extracted Url) :
    let last := ref.sources.foldl (fun state source =>
      state.addSite fun ordinal => urlSite page block ref claim context ordinal source) state
    last.ordinal = state.ordinal + ref.sources.length ∧
      ∃ account, SettlesEach (SettlesUrl page block ref claim context) state.ordinal ref.sources
        account ∧ Adds verify judged state last account := by
  refine foldl_settles ?_ state
  intro state source _
  exact ⟨rfl, _, sites.urls block ref claim context state.ordinal source, adds_addSite state _⟩

theorem loop_books
    (sites : SettlesSites verify judged page)
    (block : ParsoidBlock Url) (ref : BlockRef Url) (claim : Text) (context : ClaimContext)
    (state : Extracted Url) :
    let last := ref.bookSources.foldl (fun state book =>
      state.addBook fun ordinal => bookSite block ref claim context ordinal book) state
    last.ordinal = state.ordinal + ref.bookSources.length ∧
      ∃ account, SettlesEach (SettlesBook block ref claim context) state.ordinal ref.bookSources
        account ∧ Adds verify judged state last account := by
  refine foldl_settles ?_ state
  intro state book _
  exact ⟨rfl, _, sites.books block ref claim context state.ordinal book, adds_addBook state _⟩

/-- One reference: the step of the loop. -/
theorem visitRef_settles
    (sites : SettlesSites verify judged page)
    (block : ParsoidBlock Url) (state : Extracted Url) (ref : BlockRef Url) :
    let next := visitRef page block (segmentSentences letters block.text) state ref
    ∃ account, SettlesRef page block ref state.ordinal next.ordinal account ∧
      Adds verify judged state next account := by
  have disclosed := @adds_shortCite Url verify judged state block ref
  have kept := shortCite_ordinal state block ref
  unfold visitRef
  dsimp only
  split
  · rename_i nothing
    cases flagged : ref.shortCiteUnresolved with
    | true =>
        rw [if_pos rfl]
        have settled := @SettlesRef.noSource Url page block ref state.ordinal nothing.1 nothing.2
        rw [flagged] at settled
        exact ⟨_, settled, adds_skip state block ref .unresolvedShortCite⟩
    | false =>
        rw [if_neg Bool.false_ne_true]
        have settled := @SettlesRef.noSource Url page block ref state.ordinal nothing.1 nothing.2
        rw [flagged] at settled
        exact ⟨_, settled, adds_skip state block ref .nonUrlSource⟩
  · rename_i sourced
    split
    · rename_i unclaimed
      refine ⟨_, ?_, disclosed.trans (adds_fail _ block _)⟩
      have settled := @SettlesRef.noClaim Url page block ref state.ordinal
        (Decidable.not_and_iff_or_not.mp sourced) (claimOf_eq_nil.mp unclaimed)
      unfold Extracted.fail
      rw [kept]
      exact settled
    · rename_i claimed
      have solid : Text.trim block.text ≠ [] := fun blank => claimed (claimOf_eq_nil.mpr blank)
      split
      · rename_i bookish
        obtain ⟨counted, account, settled, added⟩ := loop_books sites block ref
          (claimOf block (segmentSentences letters block.text) ref.offset).1
          ⟨page.title, (claimOf block (segmentSentences letters block.text) ref.offset).2⟩ _
        refine ⟨_, ?_, disclosed.trans added⟩
        rw [counted, kept]
        rw [kept] at settled
        exact .books bookish (fun none => sourced ⟨bookish, none⟩) solid claimed settled
      · rename_i linked
        obtain ⟨counted, account, settled, added⟩ := loop_sources sites block ref
          (claimOf block (segmentSentences letters block.text) ref.offset).1
          ⟨page.title, (claimOf block (segmentSentences letters block.text) ref.offset).2⟩ _
        refine ⟨_, ?_, disclosed.trans added⟩
        rw [counted, kept]
        rw [kept] at settled
        exact .urls linked solid claimed settled

/-- The references of a block: the inner run. -/
theorem visitRefs_settles
    (sites : SettlesSites verify judged page)
    (block : ParsoidBlock Url) (refs : List (BlockRef Url)) : ∀ state : Extracted Url,
    let last := refs.foldl (visitRef page block (segmentSentences letters block.text)) state
    ∃ account, SettlesRefs page block state.ordinal refs last.ordinal account ∧
      Adds verify judged state last account := by
  induction refs with
  | nil =>
      intro state
      exact ⟨Account.empty, .nil _, Adds.refl state⟩
  | cons ref refs ih =>
      intro state
      obtain ⟨account, one, added⟩ := @visitRef_settles Url verify judged letters page sites
        block state ref
      obtain ⟨accounts, rest, more⟩ := ih
        (visitRef page block (segmentSentences letters block.text) state ref)
      exact ⟨account ++ accounts, .cons one rest, added.trans more⟩

/-- The blocks of a page: the whole run. -/
theorem visitBlocks_settles
    (sites : SettlesSites verify judged page)
    (blocks : List (ParsoidBlock Url)) : ∀ state : Extracted Url,
    let last := blocks.foldl (visitBlock letters page) state
    ∃ account, SettlesBlocks page state.ordinal blocks last.ordinal account ∧
      Adds verify judged state last account := by
  induction blocks with
  | nil =>
      intro state
      exact ⟨Account.empty, .nil _, Adds.refl state⟩
  | cons block blocks ih =>
      intro state
      obtain ⟨account, one, added⟩ := @visitRefs_settles Url verify judged letters page sites
        block block.refs state
      obtain ⟨accounts, rest, more⟩ := ih (visitBlock letters page state block)
      exact ⟨account ++ accounts, .cons one rest, added.trans more⟩

end Loop

section Numbering

variable {Url : Type} {page : PageVerificationRequest}

def urlOrdinals (account : Account Url) : List Nat :=
  account.useSites.map CitationUseSite.useSiteOrdinal

def bookOrdinals (account : Account Url) : List Nat :=
  account.bookUseSites.map BookUseSite.useSiteOrdinal

/-- The use sites have the ordinals between two numbers, each once and in order. -/
structure Numbered (first last : Nat) (account : Account Url) : Prop where
  le : first ≤ last
  once : (urlOrdinals account ++ bookOrdinals account).Perm (List.range' first (last - first))
  urls : (urlOrdinals account).Pairwise (· < ·)
  books : (bookOrdinals account).Pairwise (· < ·)

theorem Numbered.nothing {account : Account Url} (first : Nat) (urls : account.useSites = [])
    (books : account.bookUseSites = []) : Numbered first first account := by
  refine ⟨Nat.le_refl first, ?_, ?_, ?_⟩
  · simp [urlOrdinals, bookOrdinals, urls, books]
  · simp [urlOrdinals, urls]
  · simp [bookOrdinals, books]

theorem Numbered.between {first last : Nat} {account : Account Url}
    (numbered : Numbered first last account) {ordinal : Nat}
    (member : ordinal ∈ urlOrdinals account ++ bookOrdinals account) :
    first ≤ ordinal ∧ ordinal < last := by
  have inside := List.mem_range'_1.mp (numbered.once.mem_iff.mp member)
  have := numbered.le
  omega

theorem Numbered.append {first next last : Nat} {account accounts : Account Url}
    (one : Numbered first next account) (rest : Numbered next last accounts) :
    Numbered first last (account ++ accounts) where
  le := Nat.le_trans one.le rest.le
  once := by
    have split : last - first = (next - first) + (last - next) := by
      have := one.le
      have := rest.le
      omega
    have start : first + (next - first) = next := Nat.add_sub_cancel' one.le
    have joined := one.once.append rest.once
    rw [split, ← List.range'_append_1, start]
    refine .trans ?_ joined
    have urls : urlOrdinals (account ++ accounts) = urlOrdinals account ++ urlOrdinals accounts :=
      List.map_append
    have books : bookOrdinals (account ++ accounts) =
        bookOrdinals account ++ bookOrdinals accounts := List.map_append
    rw [urls, books, List.append_assoc, List.append_assoc]
    refine .append_left _ ?_
    rw [← List.append_assoc, ← List.append_assoc]
    exact .append_right _ List.perm_append_comm
  urls := by
    have urls : urlOrdinals (account ++ accounts) = urlOrdinals account ++ urlOrdinals accounts :=
      List.map_append
    rw [urls, List.pairwise_append]
    refine ⟨one.urls, rest.urls, ?_⟩
    intro ordinal here other there
    have low := one.between (List.mem_append_left _ here)
    have high := rest.between (List.mem_append_left _ there)
    omega
  books := by
    have books : bookOrdinals (account ++ accounts) =
        bookOrdinals account ++ bookOrdinals accounts := List.map_append
    rw [books, List.pairwise_append]
    refine ⟨one.books, rest.books, ?_⟩
    intro ordinal here other there
    have low := one.between (List.mem_append_right _ here)
    have high := rest.between (List.mem_append_right _ there)
    omega

theorem SettlesUrl.numbered {block : ParsoidBlock Url} {ref : BlockRef Url} {claim : Text}
    {context : ClaimContext} {ordinal : Nat} {source : CitedSource Url} {account : Account Url}
    (settled : SettlesUrl page block ref claim context ordinal source account) :
    Numbered ordinal (ordinal + 1) account := by
  cases settled <;>
    exact ⟨Nat.le_succ ordinal, by simp [urlOrdinals, bookOrdinals, urlSite],
      List.pairwise_singleton _ _, List.Pairwise.nil⟩

theorem SettlesBook.numbered {block : ParsoidBlock Url} {ref : BlockRef Url} {claim : Text}
    {context : ClaimContext} {ordinal : Nat} {book : BookSource} {account : Account Url}
    (settled : SettlesBook block ref claim context ordinal book account) :
    Numbered ordinal (ordinal + 1) account := by
  cases settled <;>
    exact ⟨Nat.le_succ ordinal, by simp [urlOrdinals, bookOrdinals, bookSite],
      List.Pairwise.nil, List.pairwise_singleton _ _⟩

theorem SettlesEach.numbered {α : Type} {settles : Nat → α → Account Url → Prop}
    (each : ∀ {ordinal item account}, settles ordinal item account →
      Numbered ordinal (ordinal + 1) account) {first : Nat} {items : List α}
    {account : Account Url} (settled : SettlesEach settles first items account) :
    Numbered first (first + items.length) account := by
  induction settled with
  | nil first => exact Numbered.nothing first rfl rfl
  | @cons first item items account accounts one rest ih =>
      have joined := (each one).append ih
      rwa [Nat.add_assoc, Nat.add_comm 1] at joined

theorem shortCite_numbered (block : ParsoidBlock Url) (ref : BlockRef Url) (first : Nat) :
    Numbered first first (shortCite block ref) := by
  unfold shortCite
  split
  · exact Numbered.nothing first rfl rfl
  · exact Numbered.nothing first rfl rfl

theorem SettlesRef.numbered {block : ParsoidBlock Url} {ref : BlockRef Url} {first last : Nat}
    {account : Account Url} (settled : SettlesRef page block ref first last account) :
    Numbered first last account := by
  cases settled with
  | noSource _ _ => exact Numbered.nothing first rfl rfl
  | noClaim _ _ => exact (shortCite_numbered block ref first).append (Numbered.nothing first rfl rfl)
  | urls _ _ _ each =>
      exact (shortCite_numbered block ref first).append (each.numbered SettlesUrl.numbered)
  | books _ _ _ _ each =>
      exact (shortCite_numbered block ref first).append (each.numbered SettlesBook.numbered)

theorem SettlesRefs.numbered {block : ParsoidBlock Url} {first last : Nat}
    {refs : List (BlockRef Url)} {account : Account Url}
    (settled : SettlesRefs page block first refs last account) : Numbered first last account := by
  induction settled with
  | nil first => exact Numbered.nothing first rfl rfl
  | cons one _ ih => exact one.numbered.append ih

theorem SettlesBlocks.numbered {first last : Nat} {blocks : List (ParsoidBlock Url)}
    {account : Account Url} (settled : SettlesBlocks page first blocks last account) :
    Numbered first last account := by
  induction settled with
  | nil first => exact Numbered.nothing first rfl rfl
  | cons one _ ih => exact one.numbered.append ih

end Numbering

section Stats

variable {Url : Type}

/-- The findings of a report by their verdicts. -/
def verdictTally (stats : PageVerificationStats) : Nat :=
  stats.supported + stats.partially + stats.notSupported + stats.sourceUnavailable

theorem verdictTally_resolution (stats : PageVerificationStats) (resolution : BookResolution) :
    verdictTally (tallyResolution stats resolution) = verdictTally stats := by
  unfold tallyResolution
  split <;> rfl

theorem verdictTally_finding (stats : PageVerificationStats) (finding : CitationFinding Url) :
    verdictTally (tallyFinding stats finding) = verdictTally stats + 1 := by
  unfold tallyFinding verdictTally
  split
  · dsimp only
    omega
  · dsimp only
    omega
  · dsimp only
    omega
  · dsimp only
    split
    · dsimp only
      omega
    · dsimp only
      omega
    · dsimp only
      omega

theorem verdictTally_resolutions (resolutions : List BookResolution) :
    ∀ stats, verdictTally (resolutions.foldl tallyResolution stats) = verdictTally stats := by
  induction resolutions with
  | nil => exact fun stats => rfl
  | cons resolution resolutions ih =>
      intro stats
      rw [List.foldl_cons, ih, verdictTally_resolution]

theorem verdictTally_findings (findings : List (CitationFinding Url)) : ∀ stats,
    verdictTally (findings.foldl tallyFinding stats) = verdictTally stats + findings.length := by
  induction findings with
  | nil => exact fun stats => rfl
  | cons finding findings ih =>
      intro stats
      rw [List.foldl_cons, ih, verdictTally_finding, List.length_cons]
      omega

theorem verdictTally_stats (refsSeen : Nat) (findings : List (CitationFinding Url))
    (skipped extractionFailures : Nat) (resolutions : List BookResolution) :
    verdictTally (tallyStats refsSeen findings skipped extractionFailures resolutions) =
      findings.length := by
  rw [tallyStats, verdictTally_findings, verdictTally_resolutions]
  exact Nat.zero_add _

end Stats

section Report

variable {Url : Type} {engine : Engine Url} {fetch : Url → Except Text HttpResponse}
  {models : ModelClient} {nowMs : Int} {panel : List ModelRef} {page : PageVerificationRequest}
  {options : VerifyOptions}

/-- Links to the items of the archive are URLs. -/
def ArchiveDetails (engine : Engine Url) : Prop :=
  ∀ ocaid, (engine.urls.parse ("https://archive.org/details/".toList ++ ocaid)).isSome = true

theorem scanUrl_isSome (details : ArchiveDetails engine) (ocaid : Text)
    (pageNumber : Option Nat) (query : Text) :
    (scanUrl engine ocaid pageNumber query).isSome = true := by
  unfold scanUrl
  rw [Option.isSome_or, details ocaid, Bool.or_true]

/-- A book citation always comes to something. -/
theorem verifyBookUseSite_runs (details : ArchiveDetails engine) (site : BookUseSite) :
    ∃ judged, verifyBookUseSite engine fetch models nowMs panel page site options = some judged := by
  apply Option.isSome_iff_exists.mp
  unfold verifyBookUseSite
  dsimp only
  split
  · split
    · rw [Option.isSome_map]
      unfold groundResolvedBook
      split
      · unfold judgeBookSnippets
        rw [Option.isSome_map]
        exact scanUrl_isSome details _ _ _
      · rw [Option.isSome_map, Option.isSome_or, scanUrl_isSome details, Bool.or_true]
      · rw [Option.isSome_map, scanUrl_isSome details]
      · rw [Option.isSome_map, scanUrl_isSome details]
    · rfl
  · rfl
  · rfl

theorem mapM_some {α β : Type} (f : α → β) (items : List α) :
    (items.map fun item => some (f item)).mapM id = some (items.map f) := by
  induction items with
  | nil => rfl
  | cons item items ih =>
      rw [List.map_cons, List.mapM_cons, ih]
      rfl

/-- What the report on a page owes to its blocks. -/
structure PageLedger (page : PageVerificationRequest) (blocks : List (ParsoidBlock Url))
    (extract : ExtractOutcome Url) (report : PageVerificationReport Url) : Prop where
  settled : ∃ last account, SettlesBlocks page 0 blocks last account ∧
    Account.Same ⟨extract.useSites, extract.bookUseSites, report.findings, report.skipped,
      report.extractionFailures, report.bookResolutions⟩ account
  ordinals : (extract.useSites.map CitationUseSite.useSiteOrdinal ++
      extract.bookUseSites.map BookUseSite.useSiteOrdinal).Perm
    (List.range (extract.useSites.length + extract.bookUseSites.length))
  urlsInOrder : (extract.useSites.map CitationUseSite.useSiteOrdinal).Pairwise (· < ·)
  booksInOrder : (extract.bookUseSites.map BookUseSite.useSiteOrdinal).Pairwise (· < ·)
  findingsInOrder : report.findings.Pairwise fun one other =>
    one.useSiteOrdinal ≤ other.useSiteOrdinal
  tallied : verdictTally report.stats = report.findings.length

/-- The report of a run, as the account of what was extracted. -/
theorem verifyPageWith_account {bodies : List (Text × FetchedSource)}
    {judged : BookUseSite → BookResolution × BookVerdict Url × List Call}
    (runs : ∀ site, verifyBookUseSite engine fetch models nowMs panel page site options =
      some (judged site))
    (extract : ExtractOutcome Url) (pageConcurrency : Nat) :
    ∃ report, verifyPageWith engine fetch models nowMs panel bodies page extract options
        pageConcurrency = some report ∧
      Account.Same ⟨extract.useSites, extract.bookUseSites, report.findings, report.skipped,
          report.extractionFailures, report.bookResolutions⟩
        (accountOf (verifyOneUseSite engine fetch models nowMs panel bodies options)
          (fun site => ((judged site).1, (judged site).2.1)) extract) ∧
      (report.findings.Pairwise fun one other => one.useSiteOrdinal ≤ other.useSiteOrdinal) ∧
      verdictTally report.stats = report.findings.length := by
  have kept {β : Type} (part : BookVerdict Url → Option β) :
      ((extract.bookUseSites.map judged).map fun result => result.2.1).filterMap part =
        extract.bookUseSites.filterMap fun site => part (judged site).2.1 := by
    rw [List.map_map, List.filterMap_map]
    rfl
  unfold verifyPageWith
  simp only [mapWithConcurrency_map, runs, mapM_some, Option.map_some]
  refine ⟨_, rfl, ?_, ?_, verdictTally_stats _ _ _ _ _⟩
  · refine ⟨rfl, rfl, ?_, ?_, ?_, ?_⟩
    · exact (List.mergeSort_perm _ _).trans (.of_eq (congrArg (_ ++ ·) (kept _)))
    · exact .of_eq (congrArg (_ ++ ·) (kept _))
    · exact .of_eq (congrArg (_ ++ ·) (kept _))
    · exact .of_eq List.map_map
  · have sorted := @List.pairwise_mergeSort (CitationFinding Url)
      (fun one other => decide (one.useSiteOrdinal ≤ other.useSiteOrdinal))
      (by intro a b c; simp only [decide_eq_true_eq]; omega)
      (by intro a b; simp only [Bool.or_eq_true, decide_eq_true_eq]; omega)
    refine (sorted _).imp ?_
    intro one other ordered
    exact of_decide_eq_true ordered

/-- No citation is lost between the blocks of a page and its report. -/
theorem page_ledger (letters : Letters) (details : ArchiveDetails engine)
    (blocks : List (ParsoidBlock Url)) (pageConcurrency : Nat) :
    let extract := extractUseSites letters page blocks
    ∃ report, verifyPage engine fetch models nowMs panel page extract options pageConcurrency =
        some report ∧ PageLedger page blocks extract report := by
  intro extract
  choose judged runs using fun site =>
    @verifyBookUseSite_runs Url engine fetch models nowMs panel page options details site
  let bodies := prefetchBodies engine fetch extract.useSites (max pageConcurrency 1)
  let verify := verifyOneUseSite engine fetch models nowMs panel bodies options
  obtain ⟨report, reported, same, findingsInOrder, tallied⟩ :=
    @verifyPageWith_account Url engine fetch models nowMs panel page options bodies judged runs
      extract (max pageConcurrency 1)
  have sites : SettlesSites verify (fun site => ((judged site).1, (judged site).2.1)) page :=
    ⟨fun _ _ _ _ _ _ => settlesUrl_of_run, fun _ _ _ _ _ _ => settlesBook_of_run (runs _)⟩
  obtain ⟨account, settled, added⟩ :=
    @visitBlocks_settles Url verify _ letters page sites blocks ⟨⟨[], [], [], []⟩, 0⟩
  have balanced := same.trans added
  have urls : extract.useSites = account.useSites := balanced.useSites
  have books : extract.bookUseSites = account.bookUseSites := balanced.bookUseSites
  have numbered := settled.numbered
  refine ⟨report, reported, ⟨_, account, settled, balanced⟩, ?_, ?_, ?_, findingsInOrder, tallied⟩
  · have once := numbered.once
    have total := once.length_eq
    rw [List.length_append, List.length_range', urlOrdinals, bookOrdinals, List.length_map,
      List.length_map] at total
    rw [← total, ← List.range_eq_range'] at once
    rw [urls, books]
    exact once
  · rw [urls]
    exact numbered.urls
  · rw [books]
    exact numbered.books

end Report

theorem plain_archiveDetails : ArchiveDetails plainEngine := by
  intro ocaid
  apply httpsUrls_parse_isSome
  exact ⟨"archive.org/details/".toList ++ ocaid, rfl⟩

def asciiLetters : Letters := ⟨Char.isAlphanum, Char.isUpper⟩

/-- A block of one sentence with one reference. -/
def citedBlock (ref : BlockRef (Text × List Text)) : ParsoidBlock (Text × List Text) :=
  ⟨"Cats purr.".toList, [ref], 0⟩

def urlRef : BlockRef (Text × List Text) :=
  ⟨10, "cite_ref-1".toList, [⟨("example.org".toList, []), []⟩], [], false, false⟩

theorem page_ledger_cats :
    ∃ report, verifyPage plainEngine refuse plainModels 0 plainPanel catsPage
        (extractUseSites asciiLetters catsPage [citedBlock urlRef]) plainOptions 8 = some report ∧
      PageLedger catsPage [citedBlock urlRef]
        (extractUseSites asciiLetters catsPage [citedBlock urlRef]) report :=
  page_ledger asciiLetters plain_archiveDetails [citedBlock urlRef] 8

/-- A short cite without a target has no source, and its one skip says why. -/
theorem unresolved_skipped_once :
    ¬ ∀ ref : BlockRef (Text × List Text), ref.sources = [] → ref.bookSources = [] →
      (verifyPage plainEngine refuse plainModels 0 plainPanel catsPage
        (extractUseSites asciiLetters catsPage [citedBlock ref]) plainOptions 8).map
          (fun report => report.skipped.length) =
        some (1 + if ref.shortCiteUnresolved then 1 else 0) := by
  intro twice
  have two := twice ⟨10, "cite_ref-2".toList, [], [], false, true⟩ rfl rfl
  have one : (verifyPage plainEngine refuse plainModels 0 plainPanel catsPage
      (extractUseSites asciiLetters catsPage
        [citedBlock ⟨10, "cite_ref-2".toList, [], [], false, true⟩]) plainOptions 8).map
          (fun report => report.skipped.length) = some 1 := by decide +kernel
  rw [one] at two
  cases two

end SP42.Citation

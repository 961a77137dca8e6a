import SP42.Citation.Books
import SP42.Citation.Repair

/-!
The page of a scan that a grounded quote stands on: when the page that a book finding
names is one that carries the quote.
-/
namespace SP42.Citation

section Selected

variable {Url : Type} (unicode : Unicode) (sourceText : Text) (votes : List ModelVerdict)

/-- The quote of the first vote for the elected support verdict that has one in the source,
the claimed one before the repaired one. -/
def selectedQuote : Option Text :=
  (electedVerdict votes).bind fun verdict =>
    if verdict.isSupportClass then
      ((winners votes verdict).findSome? fun vote => locateVoteQuote unicode vote sourceText).map
        Prod.fst
    else none

variable {unicode sourceText votes}

theorem locateWinner_eq (voters : List ModelVerdict) :
    locateWinner unicode sourceText voters =
      ((voters.findSome? fun vote => locateVoteQuote unicode vote sourceText).map fun hit =>
        ((⟨hit.1, hit.2⟩ : LocatedPassage), GroundingStatus.located)).or
      ((voters.findSome? fun vote => fuzzyLocateVoteQuote unicode vote sourceText).map fun hit =>
        (⟨hit.span, hit.offset⟩, .locatedFuzzy)) := by
  rw [List.map_findSome?, List.map_findSome?]
  rfl

/-- A finding is located exactly with the selected quote as its passage. -/
theorem assembled_located_iff {provenance : SourceProvenance Url} {useSiteOrdinal : Nat}
    {quote : Text} :
    let finding := assembleCitationFinding unicode sourceText provenance votes useSiteOrdinal
    (finding.groundingStatus = .located ∧ finding.passage.map LocatedPassage.quote = some quote) ↔
      selectedQuote unicode sourceText votes = some quote := by
  unfold selectedQuote assembleCitationFinding electedVerdict verdictsOf
  cases nClassVote (votes.map fun vote => vote.parsed.verdict) with
  | none => simp [noQuoteFinding]
  | some vote =>
      cases supports : vote.winner.isSupportClass with
      | false => simp [noQuoteFinding, supports]
      | true =>
          simp only [supports, if_true, Option.map_some, Option.bind_some, locateWinner_eq]
          cases (winners votes vote.winner).findSome? fun vote =>
              locateVoteQuote unicode vote sourceText with
          | some hit => simp [locatedFinding]
          | none =>
              cases (winners votes vote.winner).findSome? fun vote =>
                  fuzzyLocateVoteQuote unicode vote sourceText with
              | some hit => simp [locatedFinding]
              | none => simp [noQuoteFinding]

theorem assembled_located_passage {provenance : SourceProvenance Url} {useSiteOrdinal : Nat} :
    let finding := assembleCitationFinding unicode sourceText provenance votes useSiteOrdinal
    finding.groundingStatus = .located → ∃ passage, finding.passage = some passage := by
  obtain ⟨_, _, _, _, assembled⟩ :=
    @assembleCitationFinding_spec Url unicode sourceText votes provenance useSiteOrdinal
  intro finding located
  cases assembled with
  | unsupported _ missed => rcases missed with missed | missed <;> simp [finding, missed] at located
  | located _ _ _ _ _ passage => exact ⟨_, passage⟩
  | fuzzy _ _ near => simp [finding, near] at located

end Selected

section Page

variable {Url : Type} (engine : Engine Url)

def StandsIn (quote : Text) (entry : SearchInsideMatch) : Prop :=
  (locateQuote engine.unicode quote entry.text).isSome = true

/-- Some snippet carries the passage, and its page is the one that the finding names and
links to. -/
def OnScannedPage (ocaid : Text) (body : BookSnippetBody) (finding : CitationFinding Url) : Prop :=
  ∃ passage scan entry, finding.passage = some passage ∧ finding.bookScan = some scan ∧
    entry ∈ body.found ∧ StandsIn engine passage.quote entry ∧ scan.scannedPage = entry.page ∧
    engine.urls.parse (scanDeepLink engine ocaid entry.page body.query) =
      some finding.provenance.url

/-- Some snippet carries the quote, and it is on the page of the first snippet that accepts
the quote, exactly or nearly; or of the first of all, where that one has no page. -/
def Attributable (quote : Text) (found : List SearchInsideMatch) : Prop :=
  ∃ holder ∈ found, StandsIn engine quote holder ∧
    ∃ before entry after, found = before ++ entry :: after ∧
      (∀ other ∈ before, accepts engine quote other = false) ∧
      accepts engine quote entry = true ∧
      holder.page = entry.page.or (found.head?.bind SearchInsideMatch.page)

variable {engine}

theorem accepts_of_standsIn {quote : Text} {entry : SearchInsideMatch}
    (stands : StandsIn engine quote entry) : accepts engine quote entry = true :=
  Bool.or_eq_true_iff.mpr (.inl stands)

theorem attributable_iff {quote : Text} {body : BookSnippetBody} :
    Attributable engine quote body.found ↔
      ∃ holder ∈ body.found, StandsIn engine quote holder ∧
        holder.page = body.pageOfPassage engine (some quote) := by
  unfold Attributable BookSnippetBody.pageOfPassage
  rw [Option.bind_some]
  constructor
  · rintro ⟨holder, member, stands, before, entry, after, split, rejected, accepted, same⟩
    refine ⟨holder, member, stands, ?_⟩
    have first : body.found.find? (accepts engine quote) = some entry := by
      rw [List.find?_eq_some_iff_append]
      refine ⟨accepted, before, after, split, ?_⟩
      intro other earlier
      simp [rejected other earlier]
    rw [first, same]
    rfl
  · rintro ⟨holder, member, stands, same⟩
    refine ⟨holder, member, stands, ?_⟩
    cases first : body.found.find? (accepts engine quote) with
    | none =>
        have rejected := List.find?_eq_none.mp first holder member
        exact absurd (accepts_of_standsIn stands) rejected
    | some entry =>
        obtain ⟨accepted, before, after, split, rejected⟩ := List.find?_eq_some_iff_append.mp first
        refine ⟨before, entry, after, split, ?_, accepted, ?_⟩
        · intro other earlier
          simpa using rejected other earlier
        · rw [first] at same
          exact same

theorem anchorFinding_onScannedPage {site : BookUseSite} {ocaid : Text} {body : BookSnippetBody}
    {finding : CitationFinding Url} {passage : LocatedPassage}
    (parses : ∀ page, (engine.urls.parse (scanDeepLink engine ocaid page body.query)).isSome = true)
    (found : finding.passage = some passage) :
    OnScannedPage engine ocaid body (anchorFinding engine site ocaid body finding) ↔
      Attributable engine passage.quote body.found := by
  rw [attributable_iff]
  have page : body.pageOfPassage engine ((stampSite site finding).passage.map LocatedPassage.quote) =
      body.pageOfPassage engine (some passage.quote) := by
    rw [stampSite, found]
    rfl
  constructor
  · rintro ⟨other, scan, entry, same, scanned, member, stands, named, _⟩
    cases scanned
    have passage_eq : other = passage := by
      have kept : (anchorFinding engine site ocaid body finding).passage = finding.passage := rfl
      rw [kept, found] at same
      exact (Option.some.inj same).symm
    subst passage_eq
    exact ⟨entry, member, stands, named.symm.trans page⟩
  · rintro ⟨holder, member, stands, same⟩
    refine ⟨passage, _, holder, found, rfl, member, stands, ?_, ?_⟩
    · exact page.trans same.symm
    · obtain ⟨url, read⟩ := Option.isSome_iff_exists.mp (parses holder.page)
      rw [read]
      refine congrArg some ?_
      unfold anchorFinding
      dsimp only
      rw [page, ← same, read]
      rfl

end Page

section Judged

variable {Url : Type} (engine : Engine Url) (fetch : Url → Except Text HttpResponse)
  (models : ModelClient) (nowMs : Int) (panel : List ModelRef) (page : PageVerificationRequest)
  (site : BookUseSite) (options : VerifyOptions) (edition : OpenLibraryEdition) (ocaid : Text)

/-- The quote of a body that the answers of the panel select. -/
def PanelSelects (body : BookSnippetBody) (quote : Text) : Prop :=
  panel ≠ [] ∧ ∃ sourceUrl verdicts,
    scanUrl engine ocaid (body.pageOfPassage engine none) body.query = some sourceUrl ∧
    (sourceUsability engine (engine.urls.asStr sourceUrl) (snippetSource body)).usable = true ∧
    (judge engine models panel (modelInputs engine fetch (bookRequest page site sourceUrl)
        (some site.context) (bookOptions engine options edition sourceUrl body)
        (snippetSource body))
      (bookOptions engine options edition sourceUrl body)).1 = .ok verdicts ∧
    selectedQuote engine.unicode body.text verdicts = some quote

/-- Every located finding of a book is on a scanned page of the body that was prepared. -/
def GroundedOnPages : Prop :=
  ∀ finding calls,
    groundResolvedBook engine fetch models nowMs panel page site options edition ocaid =
      some (.finding finding, calls) →
    finding.groundingStatus = .located →
    ∃ body, prepareBookGrounding engine fetch ocaid site.claim site.book.citedPage = .body body ∧
      OnScannedPage engine ocaid body finding

variable {engine fetch models nowMs panel page site options edition ocaid}

/-- A located finding of a book, with the quote that the panel selected for it. -/
theorem groundResolvedBook_located {finding : CitationFinding Url} {calls : List Call}
    (run : groundResolvedBook engine fetch models nowMs panel page site options edition ocaid =
      some (.finding finding, calls))
    (located : finding.groundingStatus = .located) :
    ∃ body inner passage,
      prepareBookGrounding engine fetch ocaid site.claim site.book.citedPage = .body body ∧
      finding = anchorFinding engine site ocaid body inner ∧ inner.passage = some passage ∧
      PanelSelects engine fetch models panel page site options edition ocaid body passage.quote := by
  unfold groundResolvedBook at run
  split at run
  · rename_i body prepared
    unfold judgeBookSnippets at run
    obtain ⟨sourceUrl, linked, judged⟩ := Option.map_eq_some_iff.mp run
    dsimp only at judged
    split at judged
    · rename_i outcome verified
      cases judged
      obtain ⟨inhabited, fetched, source, ⟨reason, unread⟩ | ⟨usable, verdicts, votes, result⟩⟩ :=
        verifyCitationUseSite_cases verified
      · have status : outcome.finding.groundingStatus = .located := located
        rw [unread, unusableSourceOutcome_status] at status
        cases status
      cases source
      have status : outcome.finding.groundingStatus = .located := located
      rw [result] at status
      obtain ⟨passage, carried⟩ := assembled_located_passage status
      refine ⟨body, outcome.finding, passage, prepared, rfl, ?_, inhabited, sourceUrl, verdicts,
        linked, usable, votes, ?_⟩
      · rw [result]
        exact carried
      · exact assembled_located_iff.mp ⟨status, congrArg (Option.map LocatedPassage.quote) carried⟩
    · cases judged
  all_goals
    obtain ⟨url, -, noModel⟩ := Option.map_eq_some_iff.mp run
    cases noModel
    cases located

/-- What the panel selects in the prepared body is the passage of a located finding. -/
theorem groundResolvedBook_of_selects {body : BookSnippetBody} {quote : Text}
    (prepared : prepareBookGrounding engine fetch ocaid site.claim site.book.citedPage = .body body)
    (selects : PanelSelects engine fetch models panel page site options edition ocaid body quote) :
    ∃ inner passage calls,
      groundResolvedBook engine fetch models nowMs panel page site options edition ocaid =
        some (.finding (anchorFinding engine site ocaid body inner), calls) ∧
      inner.groundingStatus = .located ∧ inner.passage = some passage ∧ passage.quote = quote := by
  obtain ⟨inhabited, sourceUrl, verdicts, linked, usable, votes, selected⟩ := selects
  have located := (@assembled_located_iff Url engine.unicode body.text verdicts
    (provenanceOf engine nowMs sourceUrl (snippetSource body)) site.useSiteOrdinal quote).mpr selected
  obtain ⟨passage, carried, named⟩ := Option.map_eq_some_iff.mp located.2
  let outcome := outcomeOf engine (provenanceOf engine nowMs sourceUrl (snippetSource body)) body.text
    verdicts site.useSiteOrdinal
  obtain ⟨calls, run⟩ : ∃ calls, verifyCitationUseSite engine fetch models nowMs panel
      (bookRequest page site sourceUrl) (some site.context) site.useSiteOrdinal
      (bookOptions engine options edition sourceUrl body) = (.ok outcome, calls) :=
    ⟨_, verifyCitationUseSite_votes inhabited rfl usable (Prod.ext votes rfl)⟩
  refine ⟨outcome.finding, passage, calls, ?_, located.1, carried, named⟩
  unfold groundResolvedBook
  simp only [prepared]
  unfold judgeBookSnippets
  rw [linked, Option.map_some, run]

end Judged

def councilMetadataBody : List UInt8 :=
  ("\x7b\"server\":\"ia800300.us.archive.org\",\"dir\":\"/12/items/council00hist\"," ++
    "\"metadata\":\x7b\"mediatype\":\"texts\"\x7d\x7d").toUTF8.data.toList

def councilMetadata : Json :=
  .object [("server", .string "ia800300.us.archive.org".toList),
    ("dir", .string "/12/items/council00hist".toList),
    ("metadata", .object [("mediatype", .string "texts".toList)])]

/-- Two snippets, from pages 12 and 90. -/
def councilHitsBody : List UInt8 :=
  ("\x7b\"indexed\":true,\"matches\":[" ++
    "\x7b\"text\":\"After a long debate the motion was\",\"par\":[\x7b\"page\":12\x7d]\x7d," ++
    "\x7b\"text\":\"rejected by the council in 1901\",\"par\":[\x7b\"page\":90\x7d]\x7d]\x7d"
    ).toUTF8.data.toList

def councilHit (text : String) (page : Int) : Json :=
  .object [("text", .string text.toList), ("par", .array [.object [("page", .number page)]])]

def councilHits : Json :=
  .object [("indexed", .bool true),
    ("matches", .array [councilHit "After a long debate the motion was" 12,
      councilHit "rejected by the council in 1901" 90])]

def councilQuote : Text := "the motion was rejected by the council".toList

def councilAnswer : Text :=
  ("\x7b\"verdict\":\"supported\"," ++
    "\"quote\":\"the motion was rejected by the council\"\x7d").toList

/-- The parsers on these texts. -/
def councilEngine : Engine (Text × List Text) :=
  { plainEngine with
    fromSlice := fun body =>
      if body = councilMetadataBody then some councilMetadata
      else if body = councilHitsBody then some councilHits
      else none
    parseVerdictResponse := fun text =>
      if text = councilAnswer then some ⟨.supported, some councilQuote⟩ else none }

def councilFetch (url : Text × List Text) : Except Text HttpResponse :=
  .ok ⟨200, [], if url.2.head? = some "metadata".toList then councilMetadataBody
    else councilHitsBody⟩

def councilModels : ModelClient := ⟨fun _ _ => .ok councilAnswer, fun _ _ => .error []⟩

def councilPage : PageVerificationRequest := ⟨"enwiki".toList, "Council".toList, 7⟩

def councilSite : BookUseSite :=
  ⟨0, 0, "cite_ref-1".toList, "The motion was rejected by the council.".toList,
    ⟨"Council".toList, []⟩, ⟨[.isbn "9780000000002".toList], none⟩⟩

def councilEdition : OpenLibraryEdition :=
  ⟨none, none, none, [], [], none, none, [], [], [], none⟩

def councilScan : Text := "council00hist".toList

/-- The passage of the finding stands in no snippet of the body. -/
def spliced : Bool :=
  match groundResolvedBook councilEngine councilFetch councilModels 0 plainPanel councilPage
      councilSite plainOptions councilEdition councilScan,
    prepareBookGrounding councilEngine councilFetch councilScan councilSite.claim
      councilSite.book.citedPage with
  | some (.finding finding, _), .body body =>
      finding.groundingStatus = .located && finding.passage.any fun passage =>
        body.found.all fun entry => (locateQuote asciiTables passage.quote entry.text).isNone
  | _, _ => false

theorem council_parses (page : Option Nat) (query : Text) :
    (councilEngine.urls.parse (scanDeepLink councilEngine councilScan page query)).isSome = true := by
  apply httpsUrls_parse_isSome
  unfold scanDeepLink
  dsimp only
  cases councilEngine.parseWithParams _ _ with
  | none => exact ⟨_, rfl⟩
  | some url => exact ⟨_, rfl⟩

end SP42.Citation

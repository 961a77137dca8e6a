import SP42.Citation.OpenLibrary
import SP42.Citation.SearchInside

/-!
Citations of books: the catalogue is asked for the edition, its exact scan is searched,
and the claim is judged against the snippets.
-/
namespace SP42.Citation

inductive BookIdentifier where
  | isbn (value : Text)
  | oclc (value : Text)
  | lccn (value : Text)
  | olid (value : Text)
  deriving DecidableEq

structure BookSource where
  identifiers : List BookIdentifier
  citedPage : Option Text
  deriving DecidableEq

structure OpenLibraryEdition where
  key : Option Text
  recordUrl : Option Text
  title : Option Text
  authors : List Text
  publishers : List Text
  publishDate : Option Text
  numberOfPages : Option Nat
  isbn10 : List Text
  isbn13 : List Text
  subjects : List Text
  coverUrl : Option Text
  deriving DecidableEq

inductive BookResolutionOutcome where
  | resolved (identifier : BookIdentifier) (edition : OpenLibraryEdition)
      (scan : Option ScanAvailability)
  | notFound
  | lookupFailed (message : Text)
  deriving DecidableEq

structure BookResolution where
  refId : Text
  blockOrdinal : Nat
  identifiers : List BookIdentifier
  citedPage : Option Text
  outcome : BookResolutionOutcome
  deriving DecidableEq

/-- A claim that cites a book. -/
structure BookUseSite where
  useSiteOrdinal : Nat
  blockOrdinal : Nat
  refId : Text
  claim : Text
  context : ClaimContext
  book : BookSource
  deriving DecidableEq

structure PageVerificationRequest where
  wikiId : Text
  title : Text
  revId : Nat
  deriving DecidableEq

inductive SkippedReason where
  | nonUrlSource
  | bookSource
  | unresolvedShortCite
  deriving DecidableEq, Repr

structure SkippedRef where
  refId : Text
  reason : SkippedReason
  blockOrdinal : Nat
  bookSources : List BookSource
  deriving DecidableEq

structure BlockFailure where
  blockOrdinal : Nat
  reason : Text
  deriving DecidableEq

/-- What a book citation comes to besides its resolution. -/
inductive BookVerdict (Url : Type) where
  | finding (finding : CitationFinding Url)
  | skip (skipped : SkippedRef)
  | failure (failure : BlockFailure)

section Catalogue

variable {Url : Type} (engine : Engine Url) (fetch : Url → Except Text HttpResponse)

def openLibraryBooksApi : Text := "https://openlibrary.org/api/books".toList

def openLibraryReadApiBase : Text := "https://openlibrary.org/api/volumes/brief".toList

def bibkey : BookIdentifier → Text
  | .isbn value => "ISBN:".toList ++ value
  | .oclc value => "OCLC:".toList ++ value
  | .lccn value => "LCCN:".toList ++ value
  | .olid value => "OLID:".toList ++ value

def readApiScheme : BookIdentifier → Text
  | .isbn _ => "isbn".toList
  | .oclc _ => "oclc".toList
  | .lccn _ => "lccn".toList
  | .olid _ => "olid".toList

def identifierValue : BookIdentifier → Text
  | .isbn value => value
  | .oclc value => value
  | .lccn value => value
  | .olid value => value

def buildCatalogLookupRequest (identifier : BookIdentifier) : Url :=
  (engine.parseWithParams openLibraryBooksApi
    [("bibkeys".toList, bibkey identifier), ("jscmd".toList, "data".toList),
      ("format".toList, "json".toList)]).getD engine.booksApiBase

def buildScanAvailabilityRequest (identifier : BookIdentifier) : Url :=
  (engine.urls.parse (openLibraryReadApiBase ++ ['/'] ++ readApiScheme identifier ++ ['/'] ++
    identifierValue identifier ++ ".json".toList)).getD engine.booksApiBase

/-- A text that is not blank. -/
def solid (text : Text) : Bool := Text.trim text ≠ []

/-- The names of the entries of a list, without the blank ones. -/
def namesOf (value : Option Json) : List Text :=
  (((value.bind Json.asArray).getD []).filterMap fun entry =>
    (entry.get "name").bind Json.asStr).filter solid

def identifierList (record : List (String × Json)) (key : String) : List Text :=
  ((((record.lookup "identifiers").bind fun ids => ids.get key).bind Json.asArray).getD
    []).filterMap Json.asStr

def parseCatalogLookup (identifier : BookIdentifier) (body : List UInt8) :
    Option OpenLibraryEdition := do
  let parsed ← engine.fromSlice body
  let record ← (parsed.get (String.ofList (bibkey identifier))).bind Json.asObject
  let stringOf key := ((record.lookup key).bind Json.asStr).filter solid
  some {
    key := stringOf "key"
    recordUrl := stringOf "url"
    title := stringOf "title"
    authors := namesOf (record.lookup "authors")
    publishers := namesOf (record.lookup "publishers")
    publishDate := stringOf "publish_date"
    numberOfPages := (record.lookup "number_of_pages").bind Json.asU64
    isbn10 := identifierList record "isbn_10"
    isbn13 := identifierList record "isbn_13"
    subjects := namesOf (record.lookup "subjects")
    coverUrl := (record.lookup "cover").bind fun cover =>
      ["large", "medium", "small"].findSome? fun size => (cover.get size).bind Json.asStr }

def fetchScanAvailability (identifier : BookIdentifier) : Option ScanAvailability :=
  match fetch (buildScanAvailabilityRequest engine identifier) with
  | .error _ => none
  | .ok response =>
      if isSuccess response.status then
        parseScanAvailability engine.urls engine.fromSlice response.body
      else none

/-- The loop over the identifiers, with the first failure so far. -/
def resolveFrom (failure : Option Text) : List BookIdentifier → BookResolutionOutcome
  | [] => failure.elim .notFound .lookupFailed
  | identifier :: rest =>
      match fetch (buildCatalogLookupRequest engine identifier) with
      | .error message => resolveFrom (some (failure.getD message)) rest
      | .ok response =>
          if !isSuccess response.status then
            resolveFrom (some (failure.getD
              ("catalog lookup returned ".toList ++ Text.ofNat response.status))) rest
          else if (engine.fromSlice response.body).isNone then
            resolveFrom (some (failure.getD "catalog lookup body was not JSON".toList)) rest
          else
            match parseCatalogLookup engine identifier response.body with
            | some edition =>
                .resolved identifier edition (fetchScanAvailability engine fetch identifier)
            | none => resolveFrom failure rest

def resolveBookSource (book : BookSource) : BookResolutionOutcome :=
  resolveFrom engine fetch none book.identifiers

end Catalogue

/-- `Display` of an error. -/
def CitationVerificationError.display : CitationVerificationError → Text
  | .invalidRequest message => "citation verify request is invalid: ".toList ++ message
  | .invalidResponse message => "citation verify response is invalid: ".toList ++ message

section Judgment

variable {Url : Type} (engine : Engine Url) (fetch : Url → Except Text HttpResponse)
  (models : ModelClient) (nowMs : Int) (panel : List ModelRef) (page : PageVerificationRequest)
  (site : BookUseSite) (options : VerifyOptions)

/-- The claim, the reference and its context, as every finding of a book carries them. -/
def stampSite (finding : CitationFinding Url) : CitationFinding Url :=
  { finding with
    refId := site.refId
    claim := site.claim
    precedingContext := site.context.precedingSentences }

/-- The link into the scan, or the page of the item. A URL that does not parse panics. -/
def scanUrl (ocaid : Text) (pageNumber : Option Nat) (query : Text) : Option Url :=
  (engine.urls.parse (scanDeepLink engine ocaid pageNumber query)).or
    (engine.urls.parse ("https://archive.org/details/".toList ++ ocaid))

/-- The record that the panel reads as context. -/
def editionMetadata (edition : OpenLibraryEdition) (sourceUrl : Url) : CitoidMetadata where
  publication := if edition.publishers = [] then none else some (Text.join ", ".toList edition.publishers)
  published := edition.publishDate
  author := if edition.authors = [] then none else some (Text.join ", ".toList edition.authors)
  title := edition.title
  url := engine.urls.asStr sourceUrl

/-- The snippets as a source that was fetched. -/
def snippetSource (body : BookSnippetBody) : FetchedSource :=
  ⟨body.text, 200, "text/plain".toList, none, true⟩

def bookRequest (sourceUrl : Url) : CitationVerificationRequest Url where
  wikiId := page.wikiId
  revId := page.revId
  title := page.title
  claim := site.claim
  sourceUrl := sourceUrl

def bookOptions (edition : OpenLibraryEdition) (sourceUrl : Url) (body : BookSnippetBody) :
    VerifyOptions :=
  { options with
    includeMetadata := false
    metadataSidecar := some (editionMetadata engine edition sourceUrl)
    prefetched := some (snippetSource body) }

/-- The finding of a book, with the page that its passage was found on. -/
def anchorFinding (ocaid : Text) (body : BookSnippetBody) (finding : CitationFinding Url) :
    CitationFinding Url :=
  let stamped := stampSite site finding
  let scannedPage := body.pageOfPassage engine (stamped.passage.map LocatedPassage.quote)
  let url := (engine.urls.parse (scanDeepLink engine ocaid scannedPage body.query)).getD
    stamped.provenance.url
  { stamped with
    provenance := { stamped.provenance with url := url }
    bookScan := some ⟨ocaid, scannedPage, site.book.citedPage,
      if !body.citedPageHit && site.book.citedPage.isSome then
        some "cited page had no match; whole-book search".toList
      else none⟩ }

/-- The verdict on a claim from the snippets, with the calls to the models. -/
def judgeBookSnippets (edition : OpenLibraryEdition) (ocaid : Text) (body : BookSnippetBody) :
    Option (BookVerdict Url × List Call) :=
  (scanUrl engine ocaid (body.pageOfPassage engine none) body.query).map fun sourceUrl =>
    let (result, calls) := verifyCitationUseSite engine fetch models nowMs panel
      (bookRequest page site sourceUrl) (some site.context) site.useSiteOrdinal
      (bookOptions engine options edition sourceUrl body)
    (match result with
      | .ok outcome => .finding (anchorFinding engine site ocaid body outcome.finding)
      | .error error =>
          .failure ⟨site.blockOrdinal,
            "book verify failed for ".toList ++ site.refId ++ ": ".toList ++ error.display⟩,
      calls)

def bookSearchedNotSupportedOutcome (provenance : SourceProvenance Url) (useSiteOrdinal : Nat) :
    VerificationOutcome Url where
  finding := noQuoteFinding (.judged .notSupported) .notApplicable ⟨0, 0⟩ provenance useSiteOrdinal
  votes := []

def bookScanUnavailableOutcome (provenance : SourceProvenance Url) (useSiteOrdinal : Nat) :
    VerificationOutcome Url where
  finding := noQuoteFinding .sourceUnavailable .notApplicable ⟨0, 0⟩ provenance useSiteOrdinal
  votes := []

/-- A finding about a book that no model was asked for. -/
def bookNoModelFinding (url : Url) (contentHash : Text) (httpStatus : Nat) (notSupported : Bool)
    (bookScan : Option BookScanProvenance) : CitationFinding Url :=
  let provenance : SourceProvenance Url := ⟨url, contentHash, nowMs, some httpStatus⟩
  let outcome :=
    if notSupported then bookSearchedNotSupportedOutcome provenance site.useSiteOrdinal
    else bookScanUnavailableOutcome provenance site.useSiteOrdinal
  { stampSite site outcome.finding with bookScan := bookScan }

def scanNote (ocaid note : Text) : BookScanProvenance := ⟨ocaid, none, site.book.citedPage, some note⟩

def groundResolvedBook (edition : OpenLibraryEdition) (ocaid : Text) :
    Option (BookVerdict Url × List Call) :=
  match prepareBookGrounding engine fetch ocaid site.claim site.book.citedPage with
  | .body body => judgeBookSnippets engine fetch models nowMs panel page site options edition ocaid body
  | .noMatches responseHash deepLink =>
      ((engine.urls.parse deepLink).or (scanUrl engine ocaid none site.claim)).map fun url =>
        (.finding (bookNoModelFinding nowMs site url responseHash 200 true
          (some (scanNote site ocaid "searched, no matching passage".toList))), [])
  | .noUsableBody detail =>
      (scanUrl engine ocaid none site.claim).map fun url =>
        (.finding (bookNoModelFinding nowMs site url (engine.sha256Hex []) 200 false
          (some (scanNote site ocaid detail))), [])
  | .unreachable message =>
      (scanUrl engine ocaid none site.claim).map fun url =>
        (.finding (bookNoModelFinding nowMs site url (engine.sha256Hex []) 0 false
          (some (scanNote site ocaid message))), [])

def bookRecordUrl (edition : OpenLibraryEdition) (resolvedIdentifier : BookIdentifier) : Url :=
  (edition.recordUrl.bind engine.urls.parse).getD (buildCatalogLookupRequest engine resolvedIdentifier)

/-- The scan that may ground a resolved book. -/
def groundableOcaid (scan : Option ScanAvailability) : Option Text :=
  (scan.bind ScanAvailability.groundableScan).bind fun item =>
    item.ocaid.or (extractOcaid engine.urls item.itemUrl)

/-- One book citation: its resolution always, and a finding, a skip or a failure; with the
calls to the models. -/
def verifyBookUseSite : Option (BookResolution × BookVerdict Url × List Call) :=
  let outcome := resolveBookSource engine fetch site.book
  let resolution : BookResolution :=
    ⟨site.refId, site.blockOrdinal, site.book.identifiers, site.book.citedPage, outcome⟩
  match outcome with
  | .resolved identifier edition scan =>
      match groundableOcaid engine scan with
      | some ocaid =>
          (groundResolvedBook engine fetch models nowMs panel page site options edition ocaid).map
            fun judged => (resolution, judged)
      | none =>
          some (resolution, .finding (bookNoModelFinding nowMs site
            (bookRecordUrl engine edition identifier) (engine.sha256Hex []) 200 false none), [])
  | .notFound =>
      some (resolution, .skip ⟨site.refId, .bookSource, site.blockOrdinal, [site.book]⟩, [])
  | .lookupFailed _ =>
      some (resolution, .skip ⟨site.refId, .bookSource, site.blockOrdinal, [site.book]⟩, [])

end Judgment

end SP42.Citation

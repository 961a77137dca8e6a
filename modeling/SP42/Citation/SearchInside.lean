import SP42.Citation.Panel

/-!
Search inside a scanned book: the snippets that the full-text search returns become the
body that a claim is judged against.
-/
namespace SP42.Citation

def archiveMetadataBase : Text := "https://archive.org/metadata".toList

def maxSnippetMatches : Nat := 8

def maxQueryTerms : Nat := 6

/-- `str::replace` of a word by nothing. -/
def removeAll (word : String) (text : Text) : Text := Search.erase word.toList text

structure ItemLocation where
  server : Text
  dir : Text
  isTextItem : Bool
  deriving DecidableEq

structure SearchInsideMatch where
  text : Text
  page : Option Nat
  deriving DecidableEq

structure SearchInsideResult where
  indexed : Bool
  found : List SearchInsideMatch
  deriving DecidableEq

/-- The body assembled from the snippets, with what it was assembled from. -/
structure BookSnippetBody where
  text : Text
  found : List SearchInsideMatch
  citedPageHit : Bool
  query : Text
  deriving DecidableEq

inductive BookGroundingPreparation where
  | body (body : BookSnippetBody)
  | noMatches (responseHash deepLink : Text)
  | noUsableBody (detail : Text)
  | unreachable (message : Text)
  deriving DecidableEq

section Parsing

variable (fromSlice : List UInt8 → Option Json)

def parseItemMetadata (body : List UInt8) : Option ItemLocation := do
  let parsed ← fromSlice body
  let server ← (parsed.get "server").bind Json.asStr
  let dir ← (parsed.get "dir").bind Json.asStr
  some ⟨server, dir, (parsed.pointer ["metadata", "mediatype"]).bind Json.asStr == some "texts".toList⟩

/-- One entry of the matches; one without a text is left out. -/
def parseMatch (entry : Json) : Option SearchInsideMatch :=
  ((entry.get "text").bind Json.asStr).map fun text =>
    { text := removeAll "\x7d\x7d\x7d" (removeAll "\x7b\x7b\x7b" text)
      page := ((entry.pointer ["par", "0", "page"]).bind Json.asU64).filter (· ≤ 0xffffffff) }

def parseSearchInside (body : List UInt8) : Option SearchInsideResult := do
  let parsed ← fromSlice body
  let members ← parsed.asObject
  let indexed := ((members.lookup "indexed").bind Json.asBool).getD (members.lookup "matches").isSome
  let entries := ((members.lookup "matches").bind Json.asArray).getD []
  some ⟨indexed, entries.filterMap parseMatch⟩

end Parsing

section Query

variable (unicode : Unicode)

/-- The first distinct words that are long enough, up to the cap. -/
def collectTerms (floor : Nat) : List Text → List Text → List Text
  | seen, [] => seen
  | seen, word :: rest =>
      if floor ≤ word.length ∧ word ∉ seen then
        if seen.length + 1 = maxQueryTerms then seen ++ [word]
        else collectTerms floor (seen ++ [word]) rest
      else collectTerms floor seen rest

def searchQuery (claim : Text) : Text :=
  let words := (claim.splitOnP fun c => !unicode.isAlphanumeric c).filter (· ≠ [])
  let long := collectTerms 5 [] words
  let medium := collectTerms 4 [] words
  if long ≠ [] then Text.join [' '] long
  else if medium ≠ [] then Text.join [' '] medium
  else Text.trim claim

end Query

/-- The number that a cited page begins with, if it is a `u32`. -/
def leadingPageNumber (citedPage : Text) : Option Nat :=
  let digits := (Text.trim citedPage).takeWhile Char.isDigit
  (Text.parseDigits digits).filter (· ≤ 0xffffffff)

/-- The snippets on the cited page, else those of the whole book. -/
def selectMatches (found : List SearchInsideMatch) (citedPage : Option Text) :
    List SearchInsideMatch × Bool :=
  let onCitedPage := ((citedPage.bind leadingPageNumber).map fun page =>
    found.filter fun entry => entry.page = some page).getD []
  if onCitedPage ≠ [] then (onCitedPage.take maxSnippetMatches, true)
  else (found.take maxSnippetMatches, false)

/-- The text of a body: its snippets, trimmed, with a blank line between them. -/
def joinSnippets (selected : List SearchInsideMatch) : Text :=
  Text.join "\n\n".toList ((selected.map fun entry => Text.trim entry.text).filter (· ≠ []))

/-- The third part of the preparation. -/
def assembleSnippets (found : List SearchInsideMatch) (citedPage : Option Text) (query : Text) :
    BookGroundingPreparation :=
  let (selected, citedPageHit) := selectMatches found citedPage
  let text := joinSnippets selected
  if text = [] then .noUsableBody "empty snippets".toList
  else .body ⟨text, selected, citedPageHit, query⟩

section Grounding

variable {Url : Type} (engine : Engine Url)

def scanDeepLink (ocaid : Text) (page : Option Nat) (query : Text) : Text :=
  let base := "https://archive.org/details/".toList ++ ocaid ++
    (page.map fun page => "/page/".toList ++ Text.ofNat page).getD []
  ((engine.parseWithParams base [(['q'], query)]).map engine.urls.asStr).getD base

/-- Whether a quote is accepted in a snippet for the attribution of its page. -/
def accepts (quote : Text) (entry : SearchInsideMatch) : Bool :=
  (locateQuote engine.unicode quote entry.text).isSome ||
    (locateQuoteFuzzy engine.unicode quote entry.text).isSome

def BookSnippetBody.pageOfPassage (body : BookSnippetBody) (passage : Option Text) : Option Nat :=
  (passage.bind fun quote => (body.found.find? (accepts engine quote)).bind SearchInsideMatch.page).or
    (body.found.head?.bind SearchInsideMatch.page)

def buildItemMetadataRequest (ocaid : Text) : Url :=
  (engine.urls.parse (archiveMetadataBase ++ ['/'] ++ ocaid)).getD engine.metadataBase

def buildSearchInsideRequest (location : ItemLocation) (ocaid query : Text) : Option Url :=
  engine.parseWithParams ("https://".toList ++ location.server ++ "/fulltext/inside.php".toList)
    [("item_id".toList, ocaid), ("doc".toList, ocaid), ("path".toList, location.dir),
      (['q'], query)]

variable (fetch : Url → Except Text HttpResponse)

def isSuccess (status : Nat) : Bool := 200 ≤ status && status < 300

def prepareBookGrounding (ocaid claim : Text) (citedPage : Option Text) :
    BookGroundingPreparation :=
  match fetch (buildItemMetadataRequest engine ocaid) with
  | .error message => .unreachable message
  | .ok metadata =>
      if !isSuccess metadata.status then
        .unreachable ("item metadata returned ".toList ++ Text.ofNat metadata.status)
      else
        match parseItemMetadata engine.fromSlice metadata.body with
        | none => .noUsableBody "item metadata unusable".toList
        | some location =>
            if !location.isTextItem then .noUsableBody "not a text item".toList
            else
              let query := searchQuery engine.unicode claim
              match buildSearchInsideRequest engine location ocaid query with
              | none => .noUsableBody "search server unusable".toList
              | some url =>
                  match fetch url with
                  | .error message => .unreachable message
                  | .ok response =>
                      if !isSuccess response.status then
                        .unreachable ("search-inside returned ".toList ++ Text.ofNat response.status)
                      else
                        match parseSearchInside engine.fromSlice response.body with
                        | none => .noUsableBody "search response unusable".toList
                        | some result =>
                            if !result.indexed then .noUsableBody "no full-text index".toList
                            else if result.found = [] then
                              .noMatches (engine.sha256Hex response.body)
                                (scanDeepLink engine ocaid none query)
                            else assembleSnippets result.found citedPage query

end Grounding

end SP42.Citation

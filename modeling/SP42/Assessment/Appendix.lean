import SP42.Assessment.Copy
import SP42.Citation.AccessDate
import SP42.Citation.Page
import SP42.Lib.Search

/-!
The evidence appendix of a page report: a summary of the counts, and one section for each kind of
result with one bullet for each of them.
-/
namespace SP42.Assessment

open Citation

section Labels

def escapeChar : Char → Text
  | '&' => "&amp;".toList
  | '<' => "&lt;".toList
  | '>' => "&gt;".toList
  | c => [c]

def escapeVerbatim (text : Text) : Text :=
  "<nowiki>".toList ++ text.flatMap escapeChar ++ "</nowiki>".toList

def escapeUrlChar : Char → Text
  | ']' => "%5D".toList
  | '[' => "%5B".toList
  | '\x7b' => "%7B".toList
  | '\x7d' => "%7D".toList
  | '|' => "%7C".toList
  | '<' => "%3C".toList
  | '>' => "%3E".toList
  | '\x60' => "%60".toList
  | ' ' => "%20".toList
  | c => [c]

/-- `rsplit_once`. -/
def rsplitOnce (separator : Char) (text : Text) : Option (Text × Text) :=
  let last := text.rtakeWhile (· ≠ separator)
  if last.length = text.length then none
  else some (text.take (text.length - last.length - 1), last)

def digitsOnly (text : Text) : Bool := text.all Char.isDigit

/-- The name of a reference, from its cite id. -/
def namedRefLabel (refId : Text) : Option Text :=
  if !"cite_ref-".toList.isPrefixOf refId then none
  else
    let rest := refId.drop "cite_ref-".length
    if digitsOnly rest then none
    else
      match rsplitOnce '-' rest with
      | none => none
      | some (rest, useIdx) =>
          if !digitsOnly useIdx then none
          else
            match rsplitOnce '_' rest with
            | none => none
            | some (name, seq) =>
                if name = [] ∨ digitsOnly seq = false then none
                else
                  some ("ref \"".toList ++
                    escapeVerbatim (name.map fun c => if c = '_' then ' ' else c) ++
                    "\"".toList)

def refLabel (refId : Text) (ordinal : Nat) : Text :=
  (namedRefLabel refId).getD ("ref #".toList ++ Text.ofNat (ordinal + 1))

def unnamedRef (blockOrdinal : Nat) : Text :=
  "an unnamed ref (block ".toList ++ Text.ofNat blockOrdinal ++ ")".toList

def skipLabel (refId : Text) (blockOrdinal : Nat) : Text :=
  (namedRefLabel refId).getD (unnamedRef blockOrdinal)

def isAsciiPunctuation (c : Char) : Bool :=
  ('!' ≤ c && c ≤ '/') || (':' ≤ c && c ≤ '@') || ('[' ≤ c && c ≤ '\x60') ||
    ('\x7b' ≤ c && c ≤ '~')

theorem relabel_shorter {remaining : Text} {position : Nat}
    (found : Search.find "cite_ref-".toList remaining = some position) (size : Nat) :
    (remaining.drop (position + "cite_ref-".length + size)).length < remaining.length := by
  have inside := Search.find_add_le found
  have same : "cite_ref-".toList.length = "cite_ref-".length := rfl
  have inhabited : 0 < "cite_ref-".length := by decide
  rw [List.length_drop]
  omega

/-- The loop over the cite ids of a reason. -/
def relabelFrom (blockOrdinal : Nat) (remaining : Text) : Text :=
  match found : Search.find "cite_ref-".toList remaining with
  | none => remaining
  | some position =>
      let token := (remaining.drop (position + "cite_ref-".length)).takeWhile
        fun c => !Text.isWhitespace c
      let rest := token.rdropWhile isAsciiPunctuation
      let label :=
        if rest ≠ [] ∧ digitsOnly rest = true then unnamedRef blockOrdinal
        else refLabel ("cite_ref-".toList ++ rest) 0
      have := relabel_shorter found rest.length
      remaining.take position ++ label ++
        relabelFrom blockOrdinal (remaining.drop (position + "cite_ref-".length + rest.length))
termination_by remaining.length
decreasing_by exact this

def sanitizeReason (reason : Text) (blockOrdinal : Nat) : Text :=
  neutralizeToolWording (relabelFrom blockOrdinal reason)

def truncateClaim (text : Text) (maxLen : Nat) : Text :=
  if maxLen < text.length then text.take maxLen ++ "…".toList else text.take maxLen

def formatUtcDate (epochMs : Int) : Text :=
  let days := epochMs / 86400000
  let z := days + 719468
  let era := z / 146097
  let doe := z % 146097
  let yoe := (doe - doe / 1460 + doe / 36524 - doe / 146096) / 365
  let doy := doe - (365 * yoe + yoe / 4 - yoe / 100)
  let mp := (5 * doy + 2) / 153
  let day := doy - (153 * mp + 2) / 5 + 1
  let month := if mp < 10 then mp + 3 else mp - 9
  let year := yoe + era * 400 + if month ≤ 2 then 1 else 0
  zeroPadded 4 year ++ '-' :: (zeroPadded 2 month ++ '-' :: zeroPadded 2 day)

end Labels

section Buckets

variable {Url : Type}

inductive Bucket where
  | disagreement
  | recovered
  | deadLink
  | unreadable
  | unconfirmed
  | supported
  deriving DecidableEq

/-- The buckets in the order of their sections. -/
def Bucket.all : List Bucket :=
  [.disagreement, .recovered, .deadLink, .unreadable, .unconfirmed, .supported]

def Bucket.heading : Bucket → Text
  | disagreement => "==== Claim–source disagreements ====".toList
  | recovered => "==== Supported via archive copy (citation update suggested) ====".toList
  | deadLink => "==== Dead links (no archive copy found) ====".toList
  | unreadable =>
      ("==== Sources the tool could not read (tool limitation — the citations may be fine) " ++
        "====").toList
  | unconfirmed => "==== Unconfirmed supports (judged supported, quote not re-located) ====".toList
  | supported => "==== Supported spot-checks ====".toList

def bucketFor (finding : CitationFinding Url) : Bucket :=
  match finding.verdict with
  | .judged .notSupported | .judged .partially => .disagreement
  | .judged .supported =>
      if finding.groundingStatus = .located then
        if finding.archiveOf.isSome then .recovered else .supported
      else .unconfirmed
  | .sourceUnavailable =>
      if finding.bookScan.isSome then .unreadable
      else
        match finding.sourceUnavailableReason with
        | some .unusable => .unreadable
        | some .unreachable | none => .deadLink

end Buckets

section Lines

variable {Url : Type} (asStr : Url → Text)

def escapeWikitextUrl (link : Url) : Text := (asStr link).flatMap escapeUrlChar

def bracketed (link : Url) : Text := "[".toList ++ escapeWikitextUrl asStr link ++ "]".toList

/-- A remark in parentheses, if there is one. -/
def remark : Option Text → Text
  | none => []
  | some text => " (".toList ++ text ++ ")".toList

/-- The page that was scanned, where it is not the one that is cited. -/
def scannedPageParts (scan : BookScanProvenance) : List Text :=
  match scan.scannedPage, scan.citedPage with
  | some scanned, some cited =>
      if Text.ofNat scanned ≠ cited then [bookScanPages scanned (escapeVerbatim cited)] else []
  | _, _ => []

def scanNoteParts (scan : BookScanProvenance) : List Text :=
  match scan.note with
  | some note => [escapeVerbatim (neutralizeToolWording note)]
  | none => []

def bookScanAnnotationText (finding : CitationFinding Url) : Option Text :=
  match finding.bookScan with
  | none => none
  | some scan =>
      let parts := scannedPageParts scan ++ scanNoteParts scan
      if parts = [] then none else some (Text.join "; ".toList parts)

def archiveRemark (finding : CitationFinding Url) : Option Text :=
  finding.archiveOf.map fun archive => archiveHandle ++ " ".toList ++ bracketed asStr archive

def findingLabel (finding : CitationFinding Url) : Text :=
  refLabel finding.refId finding.useSiteOrdinal

/-- What a disagreement shows of the source. -/
def evidenceText (finding : CitationFinding Url) : Text :=
  match finding.passage, finding.sourceExcerpt with
  | some passage, _ => " The panel located: ".toList ++ escapeVerbatim passage.quote ++ ".".toList
  | none, some excerpt =>
      " ".toList ++ excerptContextLabel ++ ": ".toList ++
        escapeVerbatim (truncateClaim excerpt 200) ++ ".".toList
  | none, none => " ".toList ++ noPassageLine ++ ".".toList

def disagreementLine (finding : CitationFinding Url) : Text :=
  findingLabel finding ++ ": ".toList ++
    (match finding.verdict with
      | .judged level => disagreementVerdict level (0 < finding.agreement.panelSize)
      | .sourceUnavailable => []) ++
    ". Claim: ".toList ++ escapeVerbatim (truncateClaim finding.claim 200) ++ ".".toList ++
    evidenceText finding ++
    (match groundingAnnotationText finding.groundingStatus with
      | some annotation =>
          if finding.verdict = .judged .partially then " ".toList ++ annotation ++ ".".toList
          else []
      | none => []) ++
    remark (if 0 < finding.agreement.panelSize ∧
      finding.agreement.winnerVotes * 2 ≤ finding.agreement.panelSize then some panelSplitLine
      else none) ++
    " — ".toList ++ bracketed asStr finding.provenance.url ++
    remark (archiveRemark asStr finding) ++ remark (bookScanAnnotationText finding)

def recoveredLine (finding : CitationFinding Url) : Text :=
  findingLabel finding ++
    ": supported via an archive copy — update the citation to ".toList ++
    bracketed asStr finding.provenance.url ++ " (replacing the dead link: [".toList ++
    (match finding.archiveOf with
      | some deadLive => escapeWikitextUrl asStr deadLive
      | none => []) ++
    "]). Claim: ".toList ++ escapeVerbatim (truncateClaim finding.claim 120) ++ ".".toList

def deadLinkLine (finding : CitationFinding Url) : Text :=
  findingLabel finding ++ ": the source could not be fetched (link may be dead): ".toList ++
    bracketed asStr finding.provenance.url ++ remark (bookScanAnnotationText finding)

def unreadableLine (finding : CitationFinding Url) : Text :=
  findingLabel finding ++
    (if finding.bookScan.isSome ∧ finding.sourceUnavailableReason = some .unreachable then
      ": the tool could not reach the book scan at ".toList ++
        bracketed asStr finding.provenance.url ++ " — the citation may be fine.".toList
    else
      ": the tool fetched ".toList ++ bracketed asStr finding.provenance.url ++
        " but read ".toList ++
        (match finding.unusableReason with
          | some reason => unusableReasonText reason
          | none => unusableGeneric) ++
        " — the citation may be fine.".toList) ++
    remark (bookScanAnnotationText finding)

def unconfirmedLine (finding : CitationFinding Url) : Text :=
  findingLabel finding ++ ": judged supported, but ".toList ++
    (groundingAnnotationText finding.groundingStatus).getD [] ++ ". Claim: ".toList ++
    escapeVerbatim (truncateClaim finding.claim 80) ++ ". — ".toList ++
    bracketed asStr finding.provenance.url ++ remark (archiveRemark asStr finding) ++
    remark (bookScanAnnotationText finding)

def supportedLine (finding : CitationFinding Url) : Text :=
  findingLabel finding ++ ": supported — ".toList ++
    escapeVerbatim (truncateClaim finding.claim 80) ++ " — ".toList ++
    bracketed asStr finding.provenance.url ++ " (quote located)".toList ++
    remark (bookScanAnnotationText finding)

def findingLine (finding : CitationFinding Url) : Bucket → Text
  | .disagreement => disagreementLine asStr finding
  | .recovered => recoveredLine asStr finding
  | .deadLink => deadLinkLine asStr finding
  | .unreadable => unreadableLine asStr finding
  | .unconfirmed => unconfirmedLine asStr finding
  | .supported => supportedLine asStr finding

end Lines

section Books

def bookIdentifiers (skip : SkippedRef) : List BookIdentifier :=
  skip.bookSources.flatMap BookSource.identifiers

/-- Which book: its identifiers, and the page that is cited. -/
def whichBook (identifiers : List BookIdentifier) (citedPage : Option Text) : Text :=
  if identifiers = [] then []
  else
    remark (some (Text.join ", ".toList
        (identifiers.map fun identifier => escapeVerbatim (bookIdentifierLabel identifier)) ++
      match citedPage with
      | some page => ", p. ".toList ++ escapeVerbatim page
      | none => []))

/-- The resolution that a skip is joined with: of its reference, and with an identifier of its
own unless it has none. -/
def joins (skip : SkippedRef) (resolution : BookResolution) : Bool :=
  resolution.refId == skip.refId &&
    (bookIdentifiers skip == [] ||
      resolution.identifiers.any fun id => decide (id ∈ bookIdentifiers skip))

def skipOutcome (resolutions : List BookResolution) (skip : SkippedRef) :
    Option BookResolutionOutcome :=
  (resolutions.find? (joins skip)).map BookResolution.outcome

def BookResolutionOutcome.isLookupFailed : BookResolutionOutcome → Bool
  | .lookupFailed _ => true
  | _ => false

def BookResolutionOutcome.isResolved : BookResolutionOutcome → Bool
  | .resolved .. => true
  | _ => false

def skippedText (resolutions : List BookResolution) (skip : SkippedRef) : Text :=
  match skip.reason with
  | .nonUrlSource => skippedNonUrl
  | .bookSource =>
      if (skipOutcome resolutions skip).any BookResolutionOutcome.isLookupFailed then
        skippedBookLookupFailed
      else skippedBookUnresolved
  | .unresolvedShortCite => skippedShortCiteUnresolved

def skippedLine (resolutions : List BookResolution) (skip : SkippedRef) : Text :=
  skipLabel skip.refId skip.blockOrdinal ++ ": ".toList ++ skippedText resolutions skip ++
    whichBook (bookIdentifiers skip) (skip.bookSources.findSome? BookSource.citedPage)

def scanState : Option ScanAvailability → Text
  | some availability =>
      if availability.exact.any fun item => item.ocaid.isSome then bookScanExact
      else if availability.exact ≠ [] then bookScanExactUnsearchable
      else if availability.similar ≠ [] then bookScanSimilarOnly
      else bookScanNone
  | none => bookScanUnknown

def bookLine (resolution : BookResolution) : Text :=
  skipLabel resolution.refId resolution.blockOrdinal ++ ": ".toList ++
    (match resolution.outcome with
      | .resolved _ edition scan =>
          (match edition.title with
            | some title => escapeVerbatim title
            | none => "(untitled book)".toList) ++
            " — ".toList ++ scanState scan
      | _ => []) ++
    whichBook resolution.identifiers resolution.citedPage

def failureLine (failure : BlockFailure) : Text :=
  escapeVerbatim (sanitizeReason failure.reason failure.blockOrdinal)

end Books

/-- A heading with bullets under it. -/
structure AppendixSection where
  heading : Text
  bullets : List Text

/-- A section is left out when it has no bullets. -/
def AppendixSection.text (part : AppendixSection) : Text :=
  if part.bullets = [] then []
  else
    "\n".toList ++ part.heading ++ "\n".toList ++
      part.bullets.flatMap fun bullet => "* ".toList ++ bullet ++ "\n".toList

section Appendix

variable {Url : Type} (asStr : Url → Text) (report : PageVerificationReport Url)

def findingsOf (bucket : Bucket) : List (CitationFinding Url) :=
  report.findings.filter fun finding => bucketFor finding = bucket

def bucketSection (bucket : Bucket) : AppendixSection where
  heading := bucket.heading
  bullets := (findingsOf report bucket).map fun finding => findingLine asStr finding bucket

def skippedSection : AppendixSection where
  heading := bucketSkipped
  bullets := report.skipped.map (skippedLine report.bookResolutions)

def booksSection : AppendixSection where
  heading := bucketBooksConsulted
  bullets := (report.bookResolutions.filter fun resolution =>
    BookResolutionOutcome.isResolved resolution.outcome).map bookLine

def failuresSection : AppendixSection where
  heading := bucketExtractionFailures
  bullets := report.extractionFailures.map failureLine

/-- The numbers of the summary line, in its order. -/
structure Summary where
  refsSeen : Nat
  useSites : Nat
  supported : Nat
  unconfirmed : Nat
  partially : Nat
  disagreeing : Nat
  deadLinks : Nat
  unreadable : Nat
  skipped : Nat
  unprocessable : Nat

def plural (count : Nat) (one many : String) : Text := if count = 1 then one.toList else many.toList

def Summary.line (summary : Summary) : Text :=
  "Of ".toList ++ Text.ofNat summary.refsSeen ++ " references, ".toList ++
    Text.ofNat summary.useSites ++ " citation use-sites were machine-checked: ".toList ++
    Text.ofNat summary.supported ++ " supported (".toList ++ Text.ofNat summary.unconfirmed ++
    " of them unconfirmed), ".toList ++ Text.ofNat summary.partially ++
    " partially supported, ".toList ++ Text.ofNat summary.disagreeing ++
    " where claim and source disagree, ".toList ++ Text.ofNat summary.deadLinks ++
    " dead ".toList ++ plural summary.deadLinks "link" "links" ++ ", ".toList ++
    Text.ofNat summary.unreadable ++ " ".toList ++
    plural summary.unreadable "source" "sources" ++ " the tool could not read; ".toList ++
    Text.ofNat summary.skipped ++ " book/offline ".toList ++
    plural summary.skipped "ref" "refs" ++ " and ".toList ++ Text.ofNat summary.unprocessable ++
    " unprocessable ".toList ++ plural summary.unprocessable "ref" "refs" ++
    " were not checked.".toList

def summaryOf : Summary where
  refsSeen := report.stats.refsSeen
  useSites := report.stats.useSitesVerified
  supported := report.stats.supported
  unconfirmed := report.findings.countP fun finding =>
    finding.verdict = .judged .supported ∧ finding.groundingStatus ≠ .located
  partially := report.stats.partially
  disagreeing := report.stats.notSupported
  deadLinks := (findingsOf report .deadLink).length
  unreadable := (findingsOf report .unreadable).length
  skipped := report.stats.skipped
  unprocessable := report.stats.extractionFailures

def sections : List AppendixSection :=
  Bucket.all.map (bucketSection asStr report) ++
    [skippedSection report, booksSection report, failuresSection report]

def renderGaAppendix (renderedAtMs : Int) (sp42Version : Text) : Text :=
  appendixHeading ++ "\n\n".toList ++ assessedLine ++ "\n\n".toList ++ criterion2Heading ++
    "\n'".toList ++ (summaryOf report).line ++ "'\n".toList ++
    (sections asStr report).flatMap AppendixSection.text ++
    "\n----\n''".toList ++ escapeVerbatim report.title ++ " at rev ".toList ++
    Text.ofNat report.revId ++ " · rendered ".toList ++ formatUtcDate renderedAtMs ++
    " (render date, not verification date) · SP42 ".toList ++ sp42Version ++ " · ".toList ++
    framingLine ++ " [".toList ++ explainerUrl ++ " What is this?]''".toList

end Appendix

end SP42.Assessment

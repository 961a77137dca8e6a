import SP42.Citation.Books

/-!
The texts of the evidence appendix that its readers see, and the rewriting of tool messages.
-/
namespace SP42.Assessment

open Citation

def appendixHeading : Text := "== SP42 evidence appendix ==".toList

def criterion2Heading : Text :=
  "=== Criterion 2 (verifiable) — [[Wikipedia:Good article criteria|GA criteria]] ===".toList

def bucketSkipped : Text := "==== Not machine-verified (book and offline sources) ====".toList

def bucketExtractionFailures : Text := "==== Refs the tool could not process ====".toList

def bucketBooksConsulted : Text := "==== Books consulted ====".toList

def assessedLine : Text :=
  ("''This appendix carries evidence for criterion 2b (inline citations support the text) only; " ++
    "all other criteria and sub-criteria were not assessed by the tool.''").toList

def framingLine : Text :=
  ("This is a tool-generated evidence appendix; the criteria judgments and the review outcome " ++
    "are the reviewer's.").toList

def explainerUrl : Text :=
  ("https://github.com/schiste/SP42/blob/main/docs/domains/assessment/" ++
    "what-is-this-appendix.md").toList

def disagreementVerdict : SupportLevel → Bool → Text
  | .notSupported, true =>
      ("the source and this claim disagree — the panel found no support for the claim in the " ++
        "source").toList
  | .notSupported, false =>
      "the source was searched and no supporting passage was found".toList
  | .partially, _ => "the source only partially supports this claim".toList
  | .supported, _ => "the source supports this claim".toList

def groundingAnnotationText : GroundingStatus → Option Text
  | .unlocated | .notApplicable =>
      some "the supporting quote could not be re-located in the source".toList
  | .locatedFuzzy =>
      some "the supporting quote matched the source only approximately".toList
  | .located => none

def noPassageLine : Text := "no supporting passage was found in the source".toList

def excerptContextLabel : Text := "context the tool read (not evidence)".toList

def panelSplitLine : Text :=
  "the review panel split on this reading — treat as low-confidence".toList

def archiveHandle : Text := "verified against an archive copy of".toList

def unusableReasonText : BodyUsabilityReason → Text
  | .pdfBody => "a PDF the tool cannot read".toList
  | .viewerShell => "an interactive viewer page with no readable text".toList
  | .navChromePaywall => "a paywall or registration page".toList
  | .shortBody => "the page returned too little readable text".toList
  | .antiBotChallenge => "an anti-bot challenge page".toList
  | .waybackRedirectNotice | .waybackChrome =>
      "an archive page without readable article content".toList
  | .jsonLdLeak | .cssLeak => "page code instead of article text".toList
  | .amazonStub => "a storefront stub page".toList
  | .ok => "a page the panel could not use".toList

def unusableGeneric : Text := "a page the tool fetched but could not use".toList

def skippedNonUrl : Text := "cites a book or offline source the tool does not verify".toList

def skippedBookUnresolved : Text :=
  "cites a book whose identifier matched no catalog record the tool could use".toList

def skippedBookLookupFailed : Text :=
  ("cites a book whose catalog lookup did not complete — the tool could not reach the catalog; " ++
    "nothing is implied about the book").toList

def skippedShortCiteUnresolved : Text :=
  ("is a short cite the tool could not resolve to a bibliography entry with a usable " ++
    "identifier").toList

def bookScanExact : Text := "scanned (exact edition)".toList

def bookScanSimilarOnly : Text := "scanned (similar edition only)".toList

def bookScanNone : Text := "not scanned in the tool's catalog".toList

def bookScanExactUnsearchable : Text :=
  "an exact-edition scan is cataloged, but the tool could not identify it to search it".toList

def bookScanUnknown : Text :=
  "scan availability unknown (the lookup did not complete)".toList

def bookScanPages (scanned : Nat) (cited : Text) : Text :=
  "the passage was located on scanned page ".toList ++ Text.ofNat scanned ++
    "; the citation names p. ".toList ++ cited

/-- What a tool message says instead of a word. -/
def neutralWord (word : Text) : Text :=
  let lowered := word.map Char.toLower
  if lowered = "failed".toList then "did not complete".toList
  else if lowered ∈ ["failure".toList, "failures".toList] then "problem".toList
  else if lowered ∈ ["fails".toList, "fail".toList] then "does not complete".toList
  else if lowered ∈ ["passed".toList, "passes".toList, "pass".toList] then "completed".toList
  else word

/-- The words of a text, with the letters read so far of the one at hand. -/
def neutralizeFrom (word : Text) : Text → Text
  | [] => neutralWord word
  | c :: rest =>
      if c.isAlpha then neutralizeFrom (word ++ [c]) rest
      else neutralWord word ++ c :: neutralizeFrom [] rest

def neutralizeToolWording (text : Text) : Text := neutralizeFrom [] text

def bookIdentifierLabel : BookIdentifier → Text
  | .isbn value => "ISBN ".toList ++ value
  | .oclc value => "OCLC ".toList ++ value
  | .lccn value => "LCCN ".toList ++ value
  | .olid value => "Open Library id ".toList ++ value

end SP42.Assessment

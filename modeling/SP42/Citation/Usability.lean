import SP42.Base.Json
import SP42.Citation.Web
import SP42.Lib.Search

/-!
Whether a fetched body can be judged at all. The patterns of the detectors are compiled
by a library; what is modelled is how their answers are combined.
-/
namespace SP42.Citation

def signatureLen : Nat := 500

def shortBodyFloor : Nat := 300

def chromeLengthCap : Nat := 600

def challengeWindow : Nat := 1500

def proseSentenceFloor : Nat := 5

inductive BodyUsabilityReason where
  | ok
  | jsonLdLeak
  | cssLeak
  | antiBotChallenge
  | waybackRedirectNotice
  | waybackChrome
  | amazonStub
  | shortBody
  | pdfBody
  | viewerShell
  | navChromePaywall
  deriving DecidableEq, Repr

structure BodyUsability where
  usable : Bool
  reason : BodyUsabilityReason
  deriving DecidableEq, Repr

def unusable (reason : BodyUsabilityReason) : BodyUsability := ⟨false, reason⟩

/-- The compiled patterns, by their names in the source. -/
structure Patterns where
  jsonLdPrefix : Text → Bool
  jsonLdKeyword : Text → Bool
  cssRuleLike : Text → Bool
  antiBot : Text → Bool
  waybackRedirect : Text → Bool
  waybackBanner : Text → Bool
  waybackCaptures : Text → Bool
  waybackCollected : Text → Bool
  amazonStub : Text → Bool
  contentTierGated : Text → Bool
  paywallPhrase : Text → Bool
  consentMarker : Text → Bool
  /-- The number of matches of `SENTENCE_END`. -/
  sentenceEnds : Text → Nat
  /-- The captured contents of the `LD_JSON_BLOCK` matches. -/
  ldJsonBlocks : Text → List Text

def contains (text : Text) (word : String) : Bool := (Search.find word.toList text).isSome

def paywallVendorHosts : List String :=
  ["piano.io", "tinypass.com", "npttech.com", "poool.fr", "poool.tech", "zephr.com",
    "arcpublishing.com", "pelcro.com", "evolok.com", "wallkit.net"]

def specialCaseDomains : List (List Text) := [["books".toList, "google".toList]]

def isSpecialCaseHost {Url : Type} (urls : UrlLibrary Url) (sourceUrl : Text) : Bool :=
  match (urls.parse sourceUrl).bind urls.hostStr with
  | none => false
  | some host =>
      let labels := (host.map Char.toLower).splitOn '.'
      specialCaseDomains.any fun domain => domain.isSuffixOf labels.dropLast

/-- A member that says the content is not free. -/
def flagsPaywall (members : List (String × Json)) : Bool :=
  match members.lookup "isAccessibleForFree" with
  | some (.bool false) => true
  | some (.string text) => text.map Char.toLower == "false".toList
  | _ => false

mutual

def valueMarksPaywalled : Json → Bool
  | .object members => flagsPaywall members || anyMemberMarks members
  | .array items => anyItemMarks items
  | _ => false

def anyMemberMarks : List (String × Json) → Bool
  | [] => false
  | (_, value) :: rest => valueMarksPaywalled value || anyMemberMarks rest

def anyItemMarks : List Json → Bool
  | [] => false
  | value :: rest => valueMarksPaywalled value || anyItemMarks rest

end

section Classifier

variable {Url : Type} (urls : UrlLibrary Url) (patterns : Patterns) (fromStr : Text → Option Json)

def jsonLdMarksPaywalled (rawHtml : Text) : Bool :=
  (patterns.ldJsonBlocks rawHtml).any fun block =>
    (fromStr (Text.trim block)).any valueMarksPaywalled

def isCssGlyph (c : Char) : Bool := c == '\x7b' || c == '\x7d' || c == ';' || c == ':'

def classifyBodyUsability : Option Text → BodyUsability
  | none => unusable .shortBody
  | some text =>
      let trimmed := Text.trim text
      let signature := trimmed.take signatureLen
      let window := trimmed.take challengeWindow
      if patterns.jsonLdPrefix signature && patterns.jsonLdKeyword signature then
        unusable .jsonLdLeak
      else if patterns.cssRuleLike signature &&
          decide (signature.length < (signature.countP isCssGlyph) * 20) then unusable .cssLeak
      else if patterns.antiBot window then unusable .antiBotChallenge
      else if patterns.waybackRedirect window then unusable .waybackRedirectNotice
      else if decide (trimmed.length < chromeLengthCap) && (patterns.waybackBanner signature ||
          patterns.waybackCaptures signature || patterns.waybackCollected signature) then
        unusable .waybackChrome
      else if patterns.amazonStub trimmed then unusable .amazonStub
      else if trimmed.length < shortBodyFloor then unusable .shortBody
      else ⟨true, .ok⟩

def hasPdfMagic (text : Option Text) : Bool :=
  text.any fun text => "%PDF-".toList.isPrefixOf (Text.trimStart text)

def classifySourceUsability (sourceUrl contentType : Text) (rawHtml text : Option Text) :
    BodyUsability :=
  if contains (contentType.map Char.toLower) "application/pdf" || hasPdfMagic rawHtml ||
      hasPdfMagic text then unusable .pdfBody
  else if isSpecialCaseHost urls sourceUrl then unusable .viewerShell
  else
    let trimmed := (text.map Text.trim).getD []
    let raw := rawHtml.getD []
    let hardMarker := jsonLdMarksPaywalled patterns fromStr raw || patterns.contentTierGated raw ||
      paywallVendorHosts.any fun host => contains raw host
    let softMarker := patterns.paywallPhrase trimmed
    let consentWall := patterns.consentMarker raw || patterns.consentMarker trimmed
    if (hardMarker || (softMarker && !consentWall)) &&
        decide (patterns.sentenceEnds trimmed < proseSentenceFloor) then unusable .navChromePaywall
    else classifyBodyUsability patterns text

variable {urls patterns fromStr}

theorem classifyBodyUsability_usable {text : Option Text}
    (usable : (classifyBodyUsability patterns text).usable = true) :
    ∃ body, text = some body ∧ shortBodyFloor ≤ (Text.trim body).length := by
  cases text with
  | none => cases usable
  | some body =>
      refine ⟨body, rfl, ?_⟩
      by_contra short
      unfold classifyBodyUsability at usable
      simp only [Nat.not_le.mp short, if_true] at usable
      repeat' split at usable
      all_goals cases usable

/-- A usable body is at least as long as the floor. -/
theorem classifySourceUsability_usable {sourceUrl contentType : Text} {rawHtml text : Option Text}
    (usable : (classifySourceUsability urls patterns fromStr sourceUrl contentType rawHtml
      text).usable = true) :
    ∃ body, text = some body ∧ shortBodyFloor ≤ (Text.trim body).length := by
  unfold classifySourceUsability at usable
  split at usable
  · cases usable
  · split at usable
    · cases usable
    · dsimp only at usable
      split at usable
      · cases usable
      · exact classifyBodyUsability_usable usable

end Classifier

end SP42.Citation

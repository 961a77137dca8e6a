import SP42.Citation.Fuzzy
import SP42.Citation.Usability
import SP42.Lib.Counts

/-!
Verdicts and the vote of a panel: the most frequent verdict, and on a tie at the maximum
the one that the skeptical rank puts first.
-/
namespace SP42.Citation

inductive SupportLevel where
  | supported
  | partially
  | notSupported
  deriving DecidableEq, Repr

/-- The verdict of the contract: judged, or no usable source. -/
inductive CitationVerdict where
  | judged (level : SupportLevel)
  | sourceUnavailable
  deriving DecidableEq, Repr

/-- The flat scale that votes are counted over. -/
inductive Verdict where
  | supported
  | partially
  | notSupported
  | sourceUnavailable
  deriving DecidableEq, Repr

namespace Verdict

/-- `Verdict::ALL`. -/
def all : List Verdict := [supported, partially, notSupported, sourceUnavailable]

def isSupportClass : Verdict → Bool
  | supported => true
  | partially => true
  | _ => false

def toCitation : Verdict → CitationVerdict
  | supported => .judged .supported
  | partially => .judged .partially
  | notSupported => .judged .notSupported
  | sourceUnavailable => .sourceUnavailable

/-- `tiebreaker_rank`. -/
def tiebreakerRank : Verdict → Nat
  | partially => 4
  | notSupported => 3
  | sourceUnavailable => 2
  | supported => 1

@[simp] theorem mem_all (verdict : Verdict) : verdict ∈ all := by cases verdict <;> decide

theorem tiebreakerRank_injective {a b : Verdict} (same : tiebreakerRank a = tiebreakerRank b) :
    a = b := by
  cases a <;> cases b <;> first | rfl | cases same

theorem supported_lowest (verdict : Verdict) :
    tiebreakerRank supported ≤ tiebreakerRank verdict := by
  cases verdict <;> decide

theorem toCitation_injective {a b : Verdict} (same : toCitation a = toCitation b) : a = b := by
  cases a <;> cases b <;> first | rfl | cases same

end Verdict

/-- `u8::try_from(n).unwrap_or(u8::MAX)`. -/
def u8OrMax (n : Nat) : Nat := min n 255

structure PanelAgreement where
  panelSize : Nat
  winnerVotes : Nat
  deriving DecidableEq, Repr

structure NClassVote where
  winner : Verdict
  agreement : PanelAgreement
  counts : Verdict → Nat

/-- The largest of the four counts. -/
def maxCount (counts : Verdict → Nat) : Nat := (Verdict.all.map counts).foldl max 0

def nClassVote (verdicts : List Verdict) : Option NClassVote :=
  if verdicts = [] then none
  else do
    let counts verdict := verdicts.count verdict
    let most := maxCount counts
    let winner ← Verdict.all.foldl
      (Plurality.lead Verdict.tiebreakerRank fun candidate => counts candidate == most) none
    some ⟨winner, ⟨u8OrMax verdicts.length, u8OrMax most⟩, counts⟩

/-- No verdict has more votes, and none with as many votes stands higher. -/
structure Elected (counts : Verdict → Nat) (winner : Verdict) : Prop where
  most : ∀ verdict, counts verdict ≤ counts winner
  rank : ∀ verdict, counts verdict = counts winner →
    verdict.tiebreakerRank ≤ winner.tiebreakerRank

theorem Elected.unique {counts : Verdict → Nat} {a b : Verdict} (ha : Elected counts a)
    (hb : Elected counts b) : a = b := by
  have level := Nat.le_antisymm (ha.most b) (hb.most a)
  exact Verdict.tiebreakerRank_injective
    (Nat.le_antisymm (hb.rank a level.symm) (ha.rank b level))

/-- A tie never resolves up to `Supported`. -/
theorem Elected.supported_strict {counts : Verdict → Nat}
    (elected : Elected counts .supported) {verdict : Verdict} (other : verdict ≠ .supported) :
    counts verdict < counts .supported := by
  refine Nat.lt_of_le_of_ne (elected.most verdict) ?_
  intro level
  have low := elected.rank verdict level
  exact other (Verdict.tiebreakerRank_injective
    (Nat.le_antisymm low (Verdict.supported_lowest verdict)))

theorem maxCount_eq (counts : Verdict → Nat) : maxCount counts =
    max (max (max (counts .supported) (counts .partially)) (counts .notSupported))
      (counts .sourceUnavailable) := by
  simp [maxCount, Verdict.all]

theorem le_maxCount (counts : Verdict → Nat) (verdict : Verdict) :
    counts verdict ≤ maxCount counts := by
  rw [maxCount_eq]
  cases verdict <;> omega

theorem exists_maxCount (counts : Verdict → Nat) : ∃ verdict, counts verdict = maxCount counts := by
  rw [maxCount_eq]
  rcases Nat.le_total (max (max (counts .supported) (counts .partially)) (counts .notSupported))
    (counts .sourceUnavailable) with h | h
  · exact ⟨.sourceUnavailable, by omega⟩
  · rcases Nat.le_total (max (counts .supported) (counts .partially)) (counts .notSupported) with
      g | g
    · exact ⟨.notSupported, by omega⟩
    · rcases Nat.le_total (counts .supported) (counts .partially) with f | f
      · exact ⟨.partially, by omega⟩
      · exact ⟨.supported, by omega⟩

/-- The vote of a panel that is not empty. -/
theorem nClassVote_spec {verdicts : List Verdict} (inhabited : verdicts ≠ []) :
    ∃ winner, nClassVote verdicts =
        some ⟨winner, ⟨u8OrMax verdicts.length, u8OrMax (verdicts.count winner)⟩,
          fun verdict => verdicts.count verdict⟩ ∧
      Elected (fun verdict => verdicts.count verdict) winner := by
  obtain ⟨best, reached⟩ := exists_maxCount fun verdict => verdicts.count verdict
  obtain ⟨winner, run, leads⟩ := @Plurality.exists_winner Verdict Verdict.tiebreakerRank
    (fun candidate => verdicts.count candidate == maxCount fun verdict => verdicts.count verdict)
    Verdict.all best (Verdict.mem_all best) (beq_iff_eq.mpr reached)
  have top := beq_iff_eq.mp leads.best
  refine ⟨winner, ?_, ?_, ?_⟩
  · simp only [nClassVote, if_neg inhabited]
    rw [run, top]
    rfl
  · intro verdict
    exact Nat.le_trans (le_maxCount (fun verdict => verdicts.count verdict) verdict)
      (Nat.le_of_eq top.symm)
  · intro verdict level
    exact leads.highest verdict (Verdict.mem_all verdict) (beq_iff_eq.mpr (level.trans top))

/-- The vote does not depend on the order of the panel. -/
theorem nClassVote_perm {verdicts others : List Verdict} (reordered : verdicts.Perm others) :
    nClassVote verdicts = nClassVote others := by
  have counts : (fun verdict => verdicts.count verdict) = fun verdict => others.count verdict := by
    funext verdict
    exact reordered.count_eq verdict
  by_cases empty : verdicts = []
  · subst empty
    rw [reordered.nil_eq]
  · have inhabited : others ≠ [] := by
      rintro rfl
      exact empty reordered.eq_nil
    obtain ⟨winner, run, elected⟩ := nClassVote_spec empty
    obtain ⟨other, run', elected'⟩ := nClassVote_spec inhabited
    rw [counts] at elected
    obtain rfl := elected.unique elected'
    rw [run, run', counts, reordered.length_eq, reordered.count_eq]

end SP42.Citation

/-!
The finding that a panel's votes are assembled into, and the gate on it: which support
judgments are confirmed by a quote that stands in the fetched source.
-/
namespace SP42.Citation

def schemaVersion : Nat := 1

structure LocatedPassage where
  quote : Text
  offset : Nat
  deriving DecidableEq

/-- Provenance of a fetched source, over the type of URLs. -/
structure SourceProvenance (Url : Type) where
  url : Url
  contentHash : Text
  fetchedAt : Int
  httpStatus : Option Nat
  deriving DecidableEq

inductive GroundingAssertion where
  | locatedQuote (quote sourceHash : Text) (offset : Nat)
  | sourceFetched (sourceHash : Text)
  deriving DecidableEq

inductive GroundingStatus where
  | located
  | locatedFuzzy
  | unlocated
  | notApplicable
  deriving DecidableEq, Repr

structure BookScanProvenance where
  ocaid : Text
  scannedPage : Option Nat
  citedPage : Option Text
  note : Option Text
  deriving DecidableEq

inductive SourceUnavailableReason where
  | unreachable
  | unusable
  deriving DecidableEq, Repr

structure CitoidMetadata where
  publication : Option Text
  published : Option Text
  author : Option Text
  title : Option Text
  url : Text
  deriving DecidableEq

inductive CitationFindingKind where
  | citationVerdict
  deriving DecidableEq, Repr

structure CitationFinding (Url : Type) where
  kind : CitationFindingKind
  verdict : CitationVerdict
  groundingStatus : GroundingStatus
  sourceUnavailableReason : Option SourceUnavailableReason
  unusableReason : Option BodyUsabilityReason
  agreement : PanelAgreement
  passage : Option LocatedPassage
  provenance : SourceProvenance Url
  sourceExcerpt : Option Text
  metadata : Option CitoidMetadata
  grounding : GroundingAssertion
  useSiteOrdinal : Nat
  refId : Text
  claim : Text
  precedingContext : List Text
  archiveOf : Option Url
  isBareUrlRef : Bool
  bookScan : Option BookScanProvenance
  schemaVersion : Nat
  deriving DecidableEq

structure ModelRef where
  provider : Text
  model : Text
  version : Text
  deriving DecidableEq

/-- The fingerprint of a call. -/
structure ModelInvocation where
  model : ModelRef
  quant : Option Text
  params : List (Text × Text)
  promptHash : Text
  deriving DecidableEq

structure ParsedVerdict where
  verdict : Verdict
  quote : Option Text
  deriving DecidableEq

structure RepairAttempt where
  invocation : ModelInvocation
  quote : Option Text
  deriving DecidableEq

structure ModelVerdict where
  invocation : ModelInvocation
  parsed : ParsedVerdict
  repair : Option RepairAttempt
  deriving DecidableEq

structure ModelVote where
  invocation : ModelInvocation
  verdict : CitationVerdict
  locatedPassage : Option LocatedPassage
  claimedQuote : Option Text
  repairedQuote : Option Text
  repairInvocation : Option ModelInvocation
  deriving DecidableEq

section Assembly

variable {Url : Type} (unicode : Unicode)

def locateWith (quote sourceText : Text) : Option (Text × Nat) :=
  (locateQuote unicode quote sourceText).map fun offset => (quote, offset)

/-- The claimed quote first, then the repaired one. -/
def locateVoteQuote (vote : ModelVerdict) (sourceText : Text) : Option (Text × Nat) :=
  (vote.parsed.quote.bind fun quote => locateWith unicode quote sourceText).or
    ((vote.repair.bind RepairAttempt.quote).bind fun quote => locateWith unicode quote sourceText)

def fuzzyLocateVoteQuote (vote : ModelVerdict) (sourceText : Text) : Option FuzzyLocate :=
  (vote.parsed.quote.bind fun quote => locateQuoteFuzzy unicode quote sourceText).or
    ((vote.repair.bind RepairAttempt.quote).bind fun quote =>
      locateQuoteFuzzy unicode quote sourceText)

def deriveSourceUnavailableReason (verdict : CitationVerdict) (provenance : SourceProvenance Url) :
    Option SourceUnavailableReason :=
  if verdict ≠ .sourceUnavailable then none
  else
    match provenance.httpStatus with
    | some status => if 200 ≤ status ∧ status ≤ 299 then some .unusable else some .unreachable
    | none => some .unreachable

/-- A finding without a passage. -/
def noQuoteFinding (verdict : CitationVerdict) (groundingStatus : GroundingStatus)
    (agreement : PanelAgreement) (provenance : SourceProvenance Url) (useSiteOrdinal : Nat) :
    CitationFinding Url where
  kind := .citationVerdict
  verdict := verdict
  groundingStatus := groundingStatus
  sourceUnavailableReason := deriveSourceUnavailableReason verdict provenance
  unusableReason := none
  agreement := agreement
  passage := none
  provenance := provenance
  sourceExcerpt := none
  metadata := none
  grounding := .sourceFetched provenance.contentHash
  useSiteOrdinal := useSiteOrdinal
  refId := []
  claim := []
  precedingContext := []
  archiveOf := none
  isBareUrlRef := false
  bookScan := none
  schemaVersion := schemaVersion

/-- The finding of a support verdict whose passage was located. -/
def locatedFinding (verdict : CitationVerdict) (groundingStatus : GroundingStatus)
    (agreement : PanelAgreement) (passage : LocatedPassage) (provenance : SourceProvenance Url)
    (useSiteOrdinal : Nat) : CitationFinding Url where
  kind := .citationVerdict
  verdict := verdict
  groundingStatus := groundingStatus
  sourceUnavailableReason := deriveSourceUnavailableReason verdict provenance
  unusableReason := none
  agreement := agreement
  passage := some passage
  provenance := provenance
  sourceExcerpt := none
  metadata := none
  grounding := .locatedQuote passage.quote provenance.contentHash passage.offset
  useSiteOrdinal := useSiteOrdinal
  refId := []
  claim := []
  precedingContext := []
  archiveOf := none
  isBareUrlRef := false
  bookScan := none
  schemaVersion := schemaVersion

/-- The passage of a winning vote: an exact one of the first vote that has one, else a
fuzzy one. -/
def locateWinner (sourceText : Text) (winners : List ModelVerdict) :
    Option (LocatedPassage × GroundingStatus) :=
  (winners.findSome? fun vote =>
      (locateVoteQuote unicode vote sourceText).map fun hit => (⟨hit.1, hit.2⟩, .located)).or
    (winners.findSome? fun vote =>
      (fuzzyLocateVoteQuote unicode vote sourceText).map fun hit =>
        (⟨hit.span, hit.offset⟩, .locatedFuzzy))

def assembleCitationFinding (sourceText : Text) (provenance : SourceProvenance Url)
    (votes : List ModelVerdict) (useSiteOrdinal : Nat) : CitationFinding Url :=
  match nClassVote (votes.map fun vote => vote.parsed.verdict) with
  | none => noQuoteFinding .sourceUnavailable .notApplicable ⟨0, 0⟩ provenance useSiteOrdinal
  | some vote =>
      if vote.winner.isSupportClass then
        match locateWinner unicode sourceText
            (votes.filter fun candidate => candidate.parsed.verdict = vote.winner) with
        | some (passage, groundingStatus) =>
            locatedFinding vote.winner.toCitation groundingStatus vote.agreement passage provenance
              useSiteOrdinal
        | none =>
            noQuoteFinding vote.winner.toCitation .unlocated vote.agreement provenance
              useSiteOrdinal
      else
        noQuoteFinding vote.winner.toCitation .notApplicable vote.agreement provenance
          useSiteOrdinal

/-- The only gate that an autonomous path may use. -/
def isGroundableSupport (finding : CitationFinding Url) : Bool :=
  finding.groundingStatus = .located &&
    (finding.verdict = .judged .supported || finding.verdict = .judged .partially)

def buildModelVotes (votes : List ModelVerdict) (sourceText : Text) : List ModelVote :=
  votes.map fun vote =>
    { invocation := vote.invocation
      verdict := vote.parsed.verdict.toCitation
      locatedPassage :=
        if vote.parsed.verdict.isSupportClass then
          (locateVoteQuote unicode vote sourceText).map fun hit => ⟨hit.1, hit.2⟩
        else none
      claimedQuote := vote.parsed.quote
      repairedQuote := vote.repair.bind RepairAttempt.quote
      repairInvocation := vote.repair.map RepairAttempt.invocation }

end Assembly

end SP42.Citation

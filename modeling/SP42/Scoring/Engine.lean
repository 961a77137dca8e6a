import SP42.Scoring.Types
import SP42.Lib.Search

/-!
The composite scorer. The running total and the contributions travel together as a
score; the identity total of the primary pass goes beside it. `none` is a panic.
-/
namespace SP42.Scoring

inductive ScoringError where
  | computation (message : String)
  deriving DecidableEq, Repr

def wikitextContentModel : String := "wikitext"
def wikibaseItemContentModel : String := "wikibase-item"
def wikibasePropertyContentModel : String := "wikibase-property"

inductive ContentModelClass where
  | wikitext
  | wikibaseEntity
  | other
  | unknown
  deriving DecidableEq, Repr

def classifyContentModel : Option String → ContentModelClass
  | none => .unknown
  | some contentModel =>
      if contentModel = wikitextContentModel then .wikitext
      else if contentModel = wikibaseItemContentModel ∨ contentModel = wikibasePropertyContentModel
        then .wikibaseEntity
      else .other

structure ContentModelCapabilities where
  wikitextSignals : Bool
  revertriskScoring : Bool
  entityDiff : Bool
  deriving DecidableEq, Repr

def deriveContentModelCapabilities (contentModel : Option String) : ContentModelCapabilities :=
  match classifyContentModel contentModel with
  | .wikitext | .other | .unknown =>
      { wikitextSignals := true, revertriskScoring := true, entityDiff := false }
  | .wikibaseEntity =>
      { wikitextSignals := false, revertriskScoring := false, entityDiff := true }

def mergeNotes : Option Text → Option Text → Option Text
  | none, none => none
  | some note, none | none, some note => some note
  | some existing, some incoming =>
      if existing = incoming then some existing else some (existing ++ "; ".toList ++ incoming)

/-- The first entry of the signal takes the weight and the note; else the entry is new. -/
def record (entry : SignalContribution) : List SignalContribution → List SignalContribution
  | [] => [entry]
  | existing :: rest =>
      if existing.signal = entry.signal then
        { existing with
          weight := existing.weight.saturatingAdd entry.weight
          note := mergeNotes existing.note entry.note } :: rest
      else existing :: record entry rest

def pushSignal (score : CompositeScore) (entry : SignalContribution) : CompositeScore where
  total := score.total.saturatingAdd entry.weight
  contributions := record entry score.contributions

def scaleWeight (weight : I32) (numerator denominator : Int) : I32 :=
  if denominator ≤ 0 then .zero
  else
    let product := max i64Min (min i64Max (weight.val * numerator))
    let adjustment := denominator / 2
    let rounded :=
      if product < 0 then i64SaturatingSub product adjustment
      else max i64Min (min i64Max (product + adjustment))
    .saturate (rounded.tdiv denominator)

def asciiLowercase (text : Text) : Text := text.map Char.toLower

def containsAny (haystack : Option Text) (markers : List Text) : Bool :=
  match haystack with
  | none => false
  | some haystack =>
      markers.any fun marker => (Search.find marker (asciiLowercase haystack)).isSome

def containsTag (tag : Text) (markers : List Text) : Bool :=
  markers.any fun marker => (Search.find marker (asciiLowercase tag)).isSome

/-- The loop of `has_repeated_character_run` over lower-cased characters. -/
def scanRun (threshold : Nat) (last : Char) (run : Nat) : Text → Bool
  | [] => false
  | c :: rest =>
      if c.isAlphanum && c == last then
        let run := saturatingSucc 255 run
        if threshold ≤ run then true else scanRun threshold last run rest
      else scanRun threshold c 1 rest

section Events

variable (toLowercase : Char → Text)

def hasRepeatedCharacterRun (value : Option Text) (threshold : Nat) : Bool :=
  match value with
  | none => false
  | some value => scanRun threshold '\x00' 0 (value.flatMap toLowercase)

def vandalismReasons (event : EditEvent) (config : ScoringConfig) : List Text :=
  let parameters := config.signalParameters
  (if event.byteDelta.val ≤ parameters.massiveBlankingThreshold.val then
      ["massive blanking byte_delta=".toList ++ Text.ofInt event.byteDelta.val] else []) ++
  (if containsAny event.comment parameters.profanityMarkers then
      ["profanity marker in comment".toList] else []) ++
  (if containsAny event.comment parameters.linkMarkers then
      ["external link marker in comment".toList] else []) ++
  (if containsAny event.comment parameters.suspiciousCommentMarkers then
      ["suspicious moderation-style comment marker".toList] else []) ++
  (if hasRepeatedCharacterRun toLowercase event.comment parameters.repeatedCharacterRunThreshold ||
      hasRepeatedCharacterRun toLowercase (some event.title)
        parameters.repeatedCharacterRunThreshold then
      ["repeated-character noise detected".toList] else [])

def detectObviousVandalism (event : EditEvent) (config : ScoringConfig) : Option Text :=
  let reasons := vandalismReasons toLowercase event config
  if reasons = [] then none
  else
    let severeBlanking :=
      decide (event.byteDelta.val ≤ config.signalParameters.massiveBlankingThreshold.val)
    let layeredSignals := decide (2 ≤ reasons.length)
    if severeBlanking || layeredSignals then some (Text.join "; ".toList reasons) else none

def applyEditorSignal (event : EditEvent) (config : ScoringConfig)
    (state : CompositeScore × I32) : CompositeScore × I32 :=
  let state :=
    if config.identity.anonymousModifierEnabled.isEnabled && event.performer.isAnonymous then
      (pushSignal state.1 ⟨.anonymousUser, config.weights.anonymousUser, none⟩,
        state.2.saturatingAdd config.weights.anonymousUser)
    else state
  if config.identity.temporaryModifierEnabled.isEnabled && event.performer.isTemporary then
    (pushSignal state.1 ⟨.temporaryAccount, config.weights.temporaryAccount,
        some "temporary account editors are newcomer-like but not raw IPs".toList⟩,
      state.2.saturatingAdd config.weights.temporaryAccount)
  else state

def applyEditShapeSignals (event : EditEvent) (config : ScoringConfig) (score : CompositeScore) :
    CompositeScore :=
  let score :=
    if event.isNewPage.isEnabled then pushSignal score ⟨.newPage, config.weights.newPage, none⟩
    else score
  let score :=
    if event.byteDelta.val ≤ config.signalParameters.largeContentRemovalThreshold.val then
      pushSignal score ⟨.largeContentRemoval, config.weights.largeContentRemoval,
        some ("byte delta ".toList ++ Text.ofInt event.byteDelta.val)⟩
    else score
  let score :=
    if event.isBot.isEnabled then
      pushSignal score ⟨.botLikeEdit, config.weights.botLikeEdit, none⟩
    else score
  let score :=
    if containsAny event.comment config.signalParameters.profanityMarkers then
      pushSignal score ⟨.profanity, config.weights.profanity, event.comment⟩
    else score
  let score :=
    if containsAny event.comment config.signalParameters.linkMarkers then
      pushSignal score ⟨.linkSpam, config.weights.linkSpam, event.comment⟩
    else score
  match detectObviousVandalism toLowercase event config with
  | some reason =>
      pushSignal score ⟨.obviousVandalism, config.weights.obviousVandalism, some reason⟩
  | none => score

def trustNote (trustedTagDetected trustedOverrideDetected : Bool) : Option Text :=
  match trustedTagDetected, trustedOverrideDetected with
  | true, true => some "trusted tag and public trusted-user rule matched".toList
  | true, false => some "trusted tag detected".toList
  | false, true => some "public trusted-user rule matched".toList
  | false, false => none

def applyTrustedAndRevertSignals (event : EditEvent) (context : ScoringContext)
    (config : ScoringConfig) (state : CompositeScore × I32) : CompositeScore × I32 :=
  let trustedTagDetected :=
    event.tags.any fun tag => containsTag tag config.signalParameters.trustedTags
  let trustedOverrideDetected := context.trustOverride.isEnabled
  let state :=
    if trustedTagDetected || trustedOverrideDetected then
      (pushSignal state.1 ⟨.trustedUser, config.weights.trustedUser,
          trustNote trustedTagDetected trustedOverrideDetected⟩,
        state.2.saturatingAdd config.weights.trustedUser)
    else state
  if event.tags.any fun tag => containsTag tag config.signalParameters.revertTags then
    (pushSignal state.1 ⟨.revertedBefore, config.weights.revertedBefore,
      some "revert-related tag detected".toList⟩, state.2)
  else state

/-- What the cap takes away or gives back, unless it is nothing. -/
def pushAdjustment (score : CompositeScore) (cap adjustment : I32) : CompositeScore :=
  if adjustment = .zero then score
  else pushSignal score ⟨.identityCapAdjustment, adjustment,
    some ("identity contribution capped to +/- ".toList ++ Text.ofInt cap.val)⟩

def applyIdentityContributionCap (cap : Option I32) (state : CompositeScore × I32) :
    Option CompositeScore :=
  match cap with
  | none => some state.1
  | some cap => do
      let cap ← cap.abs
      let low ← cap.neg
      let bounded ← state.2.clamp low cap
      return pushAdjustment state.1 cap (bounded.saturatingSub state.2)

def applyPrimaryEditSignals (event : EditEvent) (config : ScoringConfig) (context : ScoringContext)
    (score : CompositeScore) : Option CompositeScore :=
  let (score, identityTotal) := applyEditorSignal event config (score, .zero)
  let score := applyEditShapeSignals toLowercase event config score
  let state := applyTrustedAndRevertSignals event context config (score, identityTotal)
  applyIdentityContributionCap config.identity.contributionCap state

def applyWarningHistorySignal (context : ScoringContext) (weights : ScoreWeights)
    (score : CompositeScore) : CompositeScore :=
  match context.userRisk with
  | none => score
  | some profile =>
      let severity := profile.warningLevel.severity
      if severity ≤ 0 then score
      else pushSignal score ⟨.warningHistory, scaleWeight weights.warningHistory severity 4,
        some ("warning level ".toList ++ profile.warningLevel.debug ++ ", ".toList ++
          Text.ofNat profile.warningCount ++ " warning templates".toList)⟩

/-- A finite probability, clamped to the unit interval. -/
def normalizeProbability : F32 → Option Rat
  | .finite value => some (max 0 (min 1 value))
  | .nan | .infinite _ => none

/-- A number of hundredths with two decimals. -/
def writeHundredths (n : Nat) : Text :=
  Text.ofNat (n / 100) ++ ".".toList ++ Text.ofNat (n / 10 % 10) ++ Text.ofNat (n % 10)

/-- Both the percentage and the two decimals of the note are hundredths of the risk. -/
def applyLiftwingSignal (context : ScoringContext) (weights : ScoreWeights)
    (score : CompositeScore) : CompositeScore :=
  match context.liftwingRisk.bind normalizeProbability with
  | none => score
  | some boundedRisk =>
      if boundedRisk ≤ 0 then score
      else
        let percentage := roundHalfEven (boundedRisk * 100)
        pushSignal score ⟨.liftWingRisk, scaleWeight weights.liftwingRisk percentage 100,
          some ("probability ".toList ++ writeHundredths percentage.toNat)⟩

def applyFlaggedContextSignal (enabled : Bool) (signal : ScoringSignal) (weight : I32)
    (note : String) (score : CompositeScore) : CompositeScore :=
  if !enabled then score else pushSignal score ⟨signal, weight, some note.toList⟩

def applyBooleanContextSignals (context : ScoringContext) (weights : ScoreWeights)
    (score : CompositeScore) : CompositeScore :=
  let score := applyFlaggedContextSignal context.linkAdditionOnly.isEnabled .linkAddition
    weights.linkAddition "only wikilink wrapper characters were added" score
  let score := applyFlaggedContextSignal context.referenceAdditionOnly.isEnabled .referenceAddition
    weights.referenceAddition "only references or citation templates were added" score
  let score := applyFlaggedContextSignal context.categoryAdditionOnly.isEnabled .categoryAddition
    weights.categoryAddition "only category links were added" score
  let score := applyFlaggedContextSignal context.interwikiAdditionOnly.isEnabled .interwikiAddition
    weights.interwikiAddition "only interwiki or language links were added" score
  let score := applyFlaggedContextSignal context.massBlankingDetected.isEnabled .massBlanking
    weights.massBlanking "diff removed substantially more content than it inserted" score
  let score := applyFlaggedContextSignal context.insertedProfanityDetected.isEnabled
    .insertedProfanity weights.insertedProfanity
    "inserted diff text contains configured profanity markers" score
  applyFlaggedContextSignal context.repeatedCharacterNoiseDetected.isEnabled
    .repeatedCharacterNoise weights.repeatedCharacterNoise
    "inserted diff text contains repeated-character noise" score

def applyDuplicatePatternSignal (context : ScoringContext) (weights : ScoreWeights)
    (score : CompositeScore) : CompositeScore :=
  match context.duplicateClusterSize with
  | none => score
  | some clusterSize =>
      if clusterSize ≤ 1 then score
      else
        let numerator := min i32Max (clusterSize - 1 : Nat)
        pushSignal score ⟨.duplicatePattern, scaleWeight weights.duplicatePattern (min numerator 4) 4,
          some ("duplicate cluster size ".toList ++ Text.ofNat clusterSize)⟩

def applyContextSignals (context : ScoringContext) (weights : ScoreWeights)
    (score : CompositeScore) : CompositeScore :=
  let score := applyWarningHistorySignal context weights score
  let score := applyLiftwingSignal context weights score
  let score := applyBooleanContextSignals context weights score
  applyDuplicatePatternSignal context weights score

/-- The test of `apply_combination_rules`: every signal of the rule has contributed. -/
def allPresent (rule : ScoringCombinationRule) (contributions : List SignalContribution) : Bool :=
  rule.whenAll.all fun signal => contributions.any fun entry => decide (entry.signal = signal)

def applyCombinationRules (rules : List ScoringCombinationRule) (score : CompositeScore) :
    CompositeScore :=
  rules.foldl (fun score rule =>
    if allPresent rule score.contributions then
      pushSignal score ⟨.combinationRule, rule.weight,
        some ("combination rule `".toList ++ rule.slug.toList ++ "` matched".toList)⟩
    else score) score

def scoreEditWithContext (event : EditEvent) (config : ScoringConfig) (context : ScoringContext) :
    Option (Except ScoringError CompositeScore) :=
  if config.maxScore.val < config.baseScore.val then
    some (.error (.computation "max_score must be greater than or equal to base_score"))
  else if (deriveContentModelCapabilities event.contentModel).entityDiff then
    (config.baseScore.clamp .zero config.maxScore).map fun total =>
      .ok { total := total, contributions := [] }
  else do
    let score ← applyPrimaryEditSignals toLowercase event config context
      { total := config.baseScore, contributions := [] }
    let score := applyContextSignals context config.weights score
    let score := applyCombinationRules config.combinationRules score
    let total ← score.total.clamp .zero config.maxScore
    return .ok { score with total := total }

def scoreEdit (event : EditEvent) (config : ScoringConfig) :
    Option (Except ScoringError CompositeScore) :=
  scoreEditWithContext toLowercase event config .default

end Events

end SP42.Scoring

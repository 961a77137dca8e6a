import SP42.Base.Arithmetic
import SP42.Base.Machine

/-!
What scoring reads and returns: the edit event, its context, the compiled
configuration and the composite score.
-/
namespace SP42.Scoring

inductive EditorIdentity where
  | registered (username : Text)
  | anonymous (label : Text)
  | temporary (label : Text)
  deriving DecidableEq

def EditorIdentity.isAnonymous : EditorIdentity → Bool
  | .anonymous _ => true
  | _ => false

def EditorIdentity.isTemporary : EditorIdentity → Bool
  | .temporary _ => true
  | _ => false

structure EditEvent where
  title : Text
  performer : EditorIdentity
  isBot : FlagState
  isNewPage : FlagState
  tags : List Text
  comment : Option Text
  byteDelta : I32
  contentModel : Option String
  deriving DecidableEq

inductive ScoringSignal where
  | anonymousUser
  | temporaryAccount
  | newPage
  | revertedBefore
  | largeContentRemoval
  | linkAddition
  | referenceAddition
  | categoryAddition
  | interwikiAddition
  | massBlanking
  | insertedProfanity
  | repeatedCharacterNoise
  | profanity
  | linkSpam
  | trustedUser
  | botLikeEdit
  | liftWingRisk
  | warningHistory
  | obviousVandalism
  | duplicatePattern
  | combinationRule
  | identityCapAdjustment
  deriving DecidableEq, Repr

structure ScoreWeights where
  anonymousUser : I32
  temporaryAccount : I32
  newPage : I32
  revertedBefore : I32
  largeContentRemoval : I32
  linkAddition : I32
  referenceAddition : I32
  categoryAddition : I32
  interwikiAddition : I32
  massBlanking : I32
  insertedProfanity : I32
  repeatedCharacterNoise : I32
  profanity : I32
  linkSpam : I32
  trustedUser : I32
  botLikeEdit : I32
  liftwingRisk : I32
  warningHistory : I32
  obviousVandalism : I32
  duplicatePattern : I32
  deriving DecidableEq

structure ScoringSignalParameters where
  largeContentRemovalThreshold : I32
  massiveBlankingThreshold : I32
  repeatedCharacterRunThreshold : Nat
  profanityMarkers : List Text
  linkMarkers : List Text
  trustedTags : List Text
  revertTags : List Text
  suspiciousCommentMarkers : List Text
  deriving DecidableEq

structure ScoringIdentityConfig where
  contributionCap : Option I32
  anonymousModifierEnabled : FlagState
  temporaryModifierEnabled : FlagState
  accountAgeModifierEnabled : FlagState
  deriving DecidableEq

structure ScoringCombinationRule where
  slug : String
  weight : I32
  whenAll : List ScoringSignal
  notes : Option String
  deriving DecidableEq

structure ScoringExternalEvaluationConfig where
  liftwingEnabled : FlagState
  liftwingMaxContribution : I32
  deriving DecidableEq

structure ScoringConfig where
  baseScore : I32
  maxScore : I32
  identity : ScoringIdentityConfig
  weights : ScoreWeights
  signalParameters : ScoringSignalParameters
  combinationRules : List ScoringCombinationRule
  externalEvaluation : ScoringExternalEvaluationConfig
  deriving DecidableEq

structure SignalContribution where
  signal : ScoringSignal
  weight : I32
  note : Option Text
  deriving DecidableEq

structure CompositeScore where
  total : I32
  contributions : List SignalContribution
  deriving DecidableEq

inductive WarningLevel where
  | none
  | level1
  | level2
  | level3
  | level4
  | final
  deriving DecidableEq, Repr

def WarningLevel.severity : WarningLevel → Int
  | .none => 0
  | .level1 => 1
  | .level2 => 2
  | .level3 => 3
  | .level4 | .final => 4

/-- The derived `Debug` text, which the note of a warning uses. -/
def WarningLevel.debug : WarningLevel → Text
  | .none => "None".toList
  | .level1 => "Level1".toList
  | .level2 => "Level2".toList
  | .level3 => "Level3".toList
  | .level4 => "Level4".toList
  | .final => "Final".toList

structure UserRiskProfile where
  warningLevel : WarningLevel
  warningCount : Nat
  deriving DecidableEq

structure ScoringContext where
  userRisk : Option UserRiskProfile
  liftwingRisk : Option F32
  trustOverride : FlagState
  linkAdditionOnly : FlagState
  referenceAdditionOnly : FlagState
  categoryAdditionOnly : FlagState
  interwikiAdditionOnly : FlagState
  massBlankingDetected : FlagState
  insertedProfanityDetected : FlagState
  repeatedCharacterNoiseDetected : FlagState
  duplicateClusterSize : Option Nat
  deriving DecidableEq

/-- `ScoringContext::default()`. -/
def ScoringContext.default : ScoringContext where
  userRisk := none
  liftwingRisk := none
  trustOverride := .disabled
  linkAdditionOnly := .disabled
  referenceAdditionOnly := .disabled
  categoryAdditionOnly := .disabled
  interwikiAdditionOnly := .disabled
  massBlankingDetected := .disabled
  insertedProfanityDetected := .disabled
  repeatedCharacterNoiseDetected := .disabled
  duplicateClusterSize := none

end SP42.Scoring

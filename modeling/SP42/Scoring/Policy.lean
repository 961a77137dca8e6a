import SP42.Scoring.Types

/-!
The scoring policy document, its validation, and its compilation into the
configuration that the scorer runs with. `none` is a panic of the compiler.
-/
namespace SP42.Scoring

def requiredRules : List String :=
  ["anonymous_user", "temporary_account", "new_page", "reverted_before", "large_content_removal",
   "link_addition", "reference_addition", "category_addition", "interwiki_addition",
   "mass_blanking", "inserted_profanity", "repeated_character_noise", "profanity", "link_spam",
   "trusted_user", "bot_like_edit", "liftwing_risk", "warning_history", "obvious_vandalism",
   "duplicate_pattern"]

inductive ScoringDomain where
  | vandalismPatrol
  | articleQuality
  | sourcingReview
  | structuredData
  | maintenance
  | policyCompliance
  | custom
  deriving DecidableEq, Repr

inductive PolicyLifecycle where
  | active
  | candidate
  | suggested
  deriving DecidableEq, Repr

structure ScoringDimensionWeights where
  content : F32
  actor : F32
  subject : F32
  context : F32
  temporal : F32
  policy : F32
  externalEvaluation : F32
  deriving DecidableEq

structure IdentityPolicyConfig where
  contributionCap : I32
  anonymousModifierEnabled : Bool
  temporaryModifierEnabled : Bool
  accountAgeModifierEnabled : Bool
  deriving DecidableEq

structure QueuePolicyConfig where
  defaultLimit : U16
  maxLimit : U16
  minScoreCutoff : I32
  deriving DecidableEq

structure RulePolicyConfig where
  enabled : Bool
  weight : I32
  deriving DecidableEq

structure SignalParametersPolicyConfig where
  largeContentRemovalThreshold : I32
  massiveBlankingThreshold : I32
  repeatedCharacterRunThreshold : Nat
  profanityMarkers : List Text
  linkMarkers : List Text
  trustedTags : List Text
  revertTags : List Text
  suspiciousCommentMarkers : List Text
  deriving DecidableEq

structure CombinationRulePolicy where
  slug : String
  enabled : Bool
  weight : I32
  whenAll : List String
  notes : Option String
  deriving DecidableEq

inductive ExternalEvaluatorRole where
  | disabled
  | supportingSignal
  | tieBreaker
  deriving DecidableEq, Repr

structure LiftWingPolicyConfig where
  enabled : Bool
  role : ExternalEvaluatorRole
  maxContribution : I32
  deriving DecidableEq

structure ExternalEvaluationPolicyConfig where
  liftwing : Option LiftWingPolicyConfig
  deriving DecidableEq

structure FairnessPolicyConfig where
  maxNewcomerFpRegressionBps : Nat
  maxTemporaryFpRegressionBps : Nat
  maxAnonymousFpRegressionBps : Nat
  deriving DecidableEq

structure ScoringPolicyDocument where
  domain : ScoringDomain
  wikiId : String
  policyVersion : String
  evaluationProfile : String
  lifecycle : PolicyLifecycle
  dimensions : ScoringDimensionWeights
  identity : IdentityPolicyConfig
  queue : QueuePolicyConfig
  signalParameters : SignalParametersPolicyConfig
  rules : List (String × RulePolicyConfig)
  combinationRules : List CombinationRulePolicy
  externalEvaluationConfig : ExternalEvaluationPolicyConfig
  fairness : FairnessPolicyConfig

structure QueueHeuristicPolicy where
  trustedUsernames : List Text
  duplicateClusterBoost : FlagState
  deriving DecidableEq

structure CompiledScoringPolicy where
  domain : ScoringDomain
  wikiId : String
  policyVersion : String
  evaluationProfile : String
  lifecycle : PolicyLifecycle
  dimensions : ScoringDimensionWeights
  scoringConfig : ScoringConfig
  queuePolicy : QueueHeuristicPolicy
  queueDefaults : QueuePolicyConfig
  combinationRules : List CombinationRulePolicy
  externalEvaluationConfig : ExternalEvaluationPolicyConfig
  fairness : FairnessPolicyConfig
  deriving DecidableEq

inductive ScoringPolicyError where
  | invalidField (field message : String)
  | missingRule (rule : String)
  deriving DecidableEq, Repr

def isBlank (value : String) : Bool := decide (Text.trim value.toList = [])

def reject (condition : Prop) [Decidable condition] (error : ScoringPolicyError) :
    Except ScoringPolicyError Unit :=
  if condition then .error error else .ok ()

theorem reject_ok {condition : Prop} [Decidable condition] {error : ScoringPolicyError} :
    reject condition error = .ok () ↔ ¬ condition := by
  unfold reject
  split <;> simp_all

theorem then_ok {ε α : Type} {first : Except ε Unit} {rest : Except ε α} {a : α} :
    (first >>= fun _ => rest) = .ok a ↔ first = .ok () ∧ rest = .ok a := by
  cases first with
  | error e => exact ⟨nofun, nofun⟩
  | ok _ => exact ⟨fun h => ⟨rfl, h⟩, And.right⟩

def validateMarkerList (field : String) (markers : List Text) : Except ScoringPolicyError Unit := do
  reject (markers = []) (.invalidField field "must not be empty")
  reject (markers.any fun marker => decide (Text.trim marker = []))
    (.invalidField field "must not contain blank entries")

def validateCombination (combination : CombinationRulePolicy) :
    Except ScoringPolicyError Unit := do
  reject (isBlank combination.slug) (.invalidField "combination_rules.slug" "must not be blank")
  reject (combination.whenAll = [])
    (.invalidField "combination_rules.when_all" "must not be empty")

def validateScoringPolicy (document : ScoringPolicyDocument) : Except ScoringPolicyError Unit := do
  reject (isBlank document.wikiId) (.invalidField "wiki_id" "must not be blank")
  reject (isBlank document.policyVersion) (.invalidField "policy_version" "must not be blank")
  reject (isBlank document.evaluationProfile)
    (.invalidField "evaluation_profile" "must not be blank")
  reject (document.identity.contributionCap.val < 0)
    (.invalidField "identity.contribution_cap" "must not be negative")
  reject (document.queue.defaultLimit.val = 0 ∨ document.queue.maxLimit.val = 0)
    (.invalidField "queue" "default_limit and max_limit must be positive")
  reject (document.queue.maxLimit.val < document.queue.defaultLimit.val)
    (.invalidField "queue" "default_limit must not exceed max_limit")
  reject (document.signalParameters.repeatedCharacterRunThreshold < 2)
    (.invalidField "signal_parameters.repeated_character_run_threshold" "must be at least 2")
  requiredRules.forM fun required =>
    reject ((document.rules.lookup required).isNone) (.missingRule required)
  validateMarkerList "signal_parameters.profanity_markers" document.signalParameters.profanityMarkers
  validateMarkerList "signal_parameters.link_markers" document.signalParameters.linkMarkers
  validateMarkerList "signal_parameters.trusted_tags" document.signalParameters.trustedTags
  validateMarkerList "signal_parameters.revert_tags" document.signalParameters.revertTags
  validateMarkerList "signal_parameters.suspicious_comment_markers"
    document.signalParameters.suspiciousCommentMarkers
  document.combinationRules.forM validateCombination

def ruleWeight (document : ScoringPolicyDocument) (slug : String) : I32 :=
  match document.rules.lookup slug with
  | none => .zero
  | some rule => if rule.enabled then rule.weight else .zero

def signalFromSlug (slug : String) : Except ScoringPolicyError ScoringSignal :=
  match slug with
  | "anonymous_user" => .ok .anonymousUser
  | "temporary_account" => .ok .temporaryAccount
  | "new_page" => .ok .newPage
  | "reverted_before" => .ok .revertedBefore
  | "large_content_removal" => .ok .largeContentRemoval
  | "link_addition" => .ok .linkAddition
  | "reference_addition" => .ok .referenceAddition
  | "category_addition" => .ok .categoryAddition
  | "interwiki_addition" => .ok .interwikiAddition
  | "mass_blanking" => .ok .massBlanking
  | "inserted_profanity" => .ok .insertedProfanity
  | "repeated_character_noise" => .ok .repeatedCharacterNoise
  | "profanity" => .ok .profanity
  | "link_spam" => .ok .linkSpam
  | "trusted_user" => .ok .trustedUser
  | "bot_like_edit" => .ok .botLikeEdit
  | "liftwing_risk" => .ok .liftWingRisk
  | "warning_history" => .ok .warningHistory
  | "obvious_vandalism" => .ok .obviousVandalism
  | "duplicate_pattern" => .ok .duplicatePattern
  | _ =>
    .error (.invalidField "combination_rules.when_all"
      ("unknown scoring signal `" ++ slug ++ "`"))

/-- One enabled combination rule, its slugs read left to right. -/
def compileCombinationRule (rule : CombinationRulePolicy) :
    Except ScoringPolicyError ScoringCombinationRule := do
  let whenAll ← rule.whenAll.mapM signalFromSlug
  return { slug := rule.slug, weight := rule.weight, whenAll := whenAll, notes := rule.notes }

def compileCombinationRules (document : ScoringPolicyDocument) :
    Except ScoringPolicyError (List ScoringCombinationRule) :=
  (document.combinationRules.filter CombinationRulePolicy.enabled).mapM compileCombinationRule

/-- The bound is negated and the weight clamped, either of which can panic. -/
def compileLiftwingWeight (document : ScoringPolicyDocument) : Option I32 :=
  let configured := ruleWeight document "liftwing_risk"
  match document.externalEvaluationConfig.liftwing with
  | none => some configured
  | some liftwing =>
    if !liftwing.enabled || liftwing.role == .disabled then some .zero
    else (I32.neg liftwing.maxContribution).bind fun low =>
      I32.clamp configured low liftwing.maxContribution

def compileWeights (document : ScoringPolicyDocument) (liftwingWeight : I32) : ScoreWeights where
  anonymousUser := ruleWeight document "anonymous_user"
  temporaryAccount := ruleWeight document "temporary_account"
  newPage := ruleWeight document "new_page"
  revertedBefore := ruleWeight document "reverted_before"
  largeContentRemoval := ruleWeight document "large_content_removal"
  linkAddition := ruleWeight document "link_addition"
  referenceAddition := ruleWeight document "reference_addition"
  categoryAddition := ruleWeight document "category_addition"
  interwikiAddition := ruleWeight document "interwiki_addition"
  massBlanking := ruleWeight document "mass_blanking"
  insertedProfanity := ruleWeight document "inserted_profanity"
  repeatedCharacterNoise := ruleWeight document "repeated_character_noise"
  profanity := ruleWeight document "profanity"
  linkSpam := ruleWeight document "link_spam"
  trustedUser := ruleWeight document "trusted_user"
  botLikeEdit := ruleWeight document "bot_like_edit"
  liftwingRisk := liftwingWeight
  warningHistory := ruleWeight document "warning_history"
  obviousVandalism := ruleWeight document "obvious_vandalism"
  duplicatePattern := ruleWeight document "duplicate_pattern"

def compileScoringConfig (document : ScoringPolicyDocument) (liftwingWeight : I32)
    (combinationRules : List ScoringCombinationRule) : ScoringConfig where
  baseScore := .zero
  maxScore := ⟨100, by decide⟩
  identity :=
    { contributionCap := some document.identity.contributionCap
      anonymousModifierEnabled := .ofBool document.identity.anonymousModifierEnabled
      temporaryModifierEnabled := .ofBool document.identity.temporaryModifierEnabled
      accountAgeModifierEnabled := .ofBool document.identity.accountAgeModifierEnabled }
  weights := compileWeights document liftwingWeight
  signalParameters :=
    { largeContentRemovalThreshold := document.signalParameters.largeContentRemovalThreshold
      massiveBlankingThreshold := document.signalParameters.massiveBlankingThreshold
      repeatedCharacterRunThreshold := document.signalParameters.repeatedCharacterRunThreshold
      profanityMarkers := document.signalParameters.profanityMarkers
      linkMarkers := document.signalParameters.linkMarkers
      trustedTags := document.signalParameters.trustedTags
      revertTags := document.signalParameters.revertTags
      suspiciousCommentMarkers := document.signalParameters.suspiciousCommentMarkers }
  combinationRules := combinationRules
  externalEvaluation :=
    { liftwingEnabled :=
        .ofBool (document.externalEvaluationConfig.liftwing.any LiftWingPolicyConfig.enabled)
      liftwingMaxContribution :=
        (document.externalEvaluationConfig.liftwing.map LiftWingPolicyConfig.maxContribution).getD
          .zero }

def compileQueuePolicy (document : ScoringPolicyDocument) : QueueHeuristicPolicy where
  trustedUsernames := []
  duplicateClusterBoost :=
    .ofBool ((document.rules.lookup "duplicate_pattern").all RulePolicyConfig.enabled)

def compileScoringPolicy (document : ScoringPolicyDocument) :
    Option (Except ScoringPolicyError CompiledScoringPolicy) :=
  match validateScoringPolicy document with
  | .error e => some (.error e)
  | .ok () =>
    (compileLiftwingWeight document).map fun liftwingWeight =>
      (compileCombinationRules document).map fun combinationRules =>
        { domain := document.domain
          wikiId := document.wikiId
          policyVersion := document.policyVersion
          evaluationProfile := document.evaluationProfile
          lifecycle := document.lifecycle
          dimensions := document.dimensions
          scoringConfig := compileScoringConfig document liftwingWeight combinationRules
          queuePolicy := compileQueuePolicy document
          queueDefaults := document.queue
          combinationRules := document.combinationRules
          externalEvaluationConfig := document.externalEvaluationConfig
          fairness := document.fairness }

theorem validate_cap {document : ScoringPolicyDocument}
    (h : validateScoringPolicy document = .ok ()) : 0 ≤ document.identity.contributionCap.val := by
  simp only [validateScoringPolicy, then_ok, reject_ok] at h
  obtain ⟨-, -, -, cap, -⟩ := h
  omega

/-- An accepted document was validated, and its three fallible parts were compiled. -/
theorem compileScoringPolicy_ok {document : ScoringPolicyDocument}
    {compiled : CompiledScoringPolicy}
    (accepted : compileScoringPolicy document = some (.ok compiled)) :
    validateScoringPolicy document = .ok () ∧
      ∃ liftwingWeight combinationRules,
        compileLiftwingWeight document = some liftwingWeight ∧
          compileCombinationRules document = .ok combinationRules ∧
            compiled.scoringConfig =
              compileScoringConfig document liftwingWeight combinationRules := by
  unfold compileScoringPolicy at accepted
  cases valid : validateScoringPolicy document with
  | error e => rw [valid] at accepted; cases accepted
  | ok _ =>
      rw [valid, Option.map_eq_some_iff] at accepted
      obtain ⟨liftwingWeight, weighed, rest⟩ := accepted
      cases combined : compileCombinationRules document with
      | error e => rw [combined] at rest; cases rest
      | ok combinationRules =>
          rw [combined] at rest
          cases rest
          exact ⟨rfl, liftwingWeight, combinationRules, weighed, rfl, rfl⟩

theorem ruleWeight_disabled {document : ScoringPolicyDocument} {slug : String}
    {rule : RulePolicyConfig} (listed : document.rules.lookup slug = some rule)
    (disabled : rule.enabled = false) : ruleWeight document slug = .zero := by
  unfold ruleWeight
  rw [listed]
  simp [disabled]

/-- Clamping nothing gives nothing, whatever the bound. -/
theorem compileLiftwingWeight_disabled {document : ScoringPolicyDocument} {weight : I32}
    (off : ruleWeight document "liftwing_risk" = .zero)
    (compiled : compileLiftwingWeight document = some weight) : weight = .zero := by
  unfold compileLiftwingWeight at compiled
  rw [off] at compiled
  cases liftwing : document.externalEvaluationConfig.liftwing with
  | none => rw [liftwing] at compiled; exact (Option.some.inj compiled).symm
  | some config =>
      simp only [liftwing] at compiled
      split at compiled
      · exact (Option.some.inj compiled).symm
      · obtain ⟨low, negated, clamped⟩ := Option.bind_eq_some_iff.mp compiled
        exact I32.clamp_zero negated clamped

end SP42.Scoring

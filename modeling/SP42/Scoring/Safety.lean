import Mathlib
import SP42.Diff.Additions
import SP42.Scoring.Disabled
import SP42.Scoring.Explained
import SP42.Scoring.Types

/-!
What the scorer is told about a diff: the hints of `analyze_diff_for_scoring`. `none` is
a panic.
-/
namespace SP42.Scoring

open Diff (StructuredDiff beforeText afterText)

/-- `i32::try_from` of a count, or the maximum. -/
def countOrMax (count : Nat) : I32 := .saturate count

def saturatingMul (a : I32) (n : Int) : I32 := .saturate (a.val * n)

/-- The threshold's absolute value is taken before anything else is looked at. -/
def detectMassBlanking (diff : StructuredDiff) (parameters : ScoringSignalParameters) :
    Option Bool :=
  let deleted := countOrMax diff.stats.deletedCharCount
  let inserted := countOrMax diff.stats.insertedCharCount
  (I32.abs parameters.massiveBlankingThreshold).map fun threshold =>
    decide (threshold.val ≤ deleted.val ∧ inserted.val ≤ 64 ∧
      (saturatingMul inserted 4).val ≤ deleted.val)

def containsAnyMarker (text : Text) (markers : List Text) : Bool :=
  if Text.trim text = [] then false
  else markers.any fun marker => (Search.find marker (Text.toAsciiLowercase text)).isSome

/-- The longest run so far of one ASCII letter or digit, over lower-cased characters. -/
def longestRun (last : Char) (run longest : Nat) : Text → Nat
  | [] => longest
  | c :: rest =>
      if c.isAlphanum && c == last then
        let run := saturatingSucc 255 run
        longestRun last run (max longest run) rest
      else longestRun c 1 (max longest 1) rest

section Lowered

variable (toLowercase : Char → Text)

def maxRepeatedCharacterRun (value : Text) : Nat :=
  longestRun '\x00' 0 0 (value.flatMap toLowercase)

def hasRepeatedRun (value : Text) (threshold : Nat) : Bool :=
  decide (threshold ≤ maxRepeatedCharacterRun toLowercase value)

structure DiffScoringHints extends Diff.AdditionHints where
  massBlankingDetected : Bool
  insertedProfanityDetected : Bool
  repeatedCharacterNoiseDetected : Bool
  deriving DecidableEq

def analyzeDiffForScoring (diff : StructuredDiff) (parameters : ScoringSignalParameters) :
    Option DiffScoringHints := do
  let before := beforeText diff
  let after := afterText diff
  let massBlanking ← detectMassBlanking diff parameters
  return {
    Diff.analyzeDiffForScoring diff with
    massBlankingDetected := massBlanking
    insertedProfanityDetected := containsAnyMarker after parameters.profanityMarkers &&
      !containsAnyMarker before parameters.profanityMarkers
    repeatedCharacterNoiseDetected :=
      hasRepeatedRun toLowercase after parameters.repeatedCharacterRunThreshold &&
        !hasRepeatedRun toLowercase before parameters.repeatedCharacterRunThreshold }

/-- Only the least threshold has no absolute value. -/
theorem detectMassBlanking_isSome_iff (diff : StructuredDiff)
    (parameters : ScoringSignalParameters) :
    (detectMassBlanking diff parameters).isSome ↔
      parameters.massiveBlankingThreshold.val ≠ i32Min := by
  unfold detectMassBlanking
  dsimp only
  rw [Option.isSome_map]
  constructor
  · intro returned least
    rw [I32.abs_min least] at returned
    cases returned
  · intro greater
    obtain ⟨threshold, absolute, -⟩ := I32.abs_eq_some _ greater
    rw [absolute]
    rfl

theorem analyzeDiffForScoring_isSome_iff (diff : StructuredDiff)
    (parameters : ScoringSignalParameters) :
    (analyzeDiffForScoring toLowercase diff parameters).isSome ↔
      parameters.massiveBlankingThreshold.val ≠ i32Min := by
  rw [← detectMassBlanking_isSome_iff diff parameters]
  unfold analyzeDiffForScoring
  cases detectMassBlanking diff parameters <;> rfl

end Lowered

end SP42.Scoring

/-!
What a compiled policy is safe for: the documents on which neither the compiler nor, with
the configuration it returns, the scorer and the diff hints can panic.
-/
namespace SP42.Scoring

section Scorer

variable {toLowercase : Char → Text} {config : ScoringConfig} {event : EditEvent}
  {context : ScoringContext}

/-- The configurations and edits for which there is a score: no error and no panic. -/
def Scores (config : ScoringConfig) (event : EditEvent) : Prop :=
  config.baseScore.val ≤ config.maxScore.val ∧ 0 ≤ config.maxScore.val ∧
    ((deriveContentModelCapabilities event.contentModel).entityDiff = true ∨
      ∀ cap ∈ config.identity.contributionCap, cap.val ≠ i32Min)

/-- Whether an edit gets a score does not depend on its context. -/
theorem scoreEditWithContext_ok_iff :
    (∃ score, scoreEditWithContext toLowercase event config context = some (.ok score)) ↔
      Scores config event := by
  unfold Scores
  by_cases ordered : config.baseScore.val ≤ config.maxScore.val
  · by_cases bounded : 0 ≤ config.maxScore.val
    · cases content : (deriveContentModelCapabilities event.contentModel).entityDiff with
      | true =>
          obtain ⟨total, clamped⟩ := Option.isSome_iff_exists.mp
            (@I32.clamp_isSome config.baseScore .zero config.maxScore bounded)
          refine iff_of_true ⟨{ total := total, contributions := [] }, ?_⟩
            ⟨ordered, bounded, .inl rfl⟩
          rw [scoreEditWithContext, if_neg (by omega), if_pos content, clamped]
          rfl
      | false =>
          rw [scoreEditWithContext_pushed toLowercase config event context ordered content]
          simp only [ordered, bounded, Bool.false_eq_true, false_or, true_and]
          rw [← @pushed_isSome_iff toLowercase config event context]
          cases pushed toLowercase config event context with
          | none =>
              refine iff_of_false ?_ Bool.false_ne_true
              rintro ⟨_, returned⟩
              cases returned
          | some entries =>
              obtain ⟨total, clamped⟩ := Option.isSome_iff_exists.mp (@I32.clamp_isSome
                (pushAll (startScore config) entries).total .zero config.maxScore bounded)
              rw [Option.bind_some, clamped]
              exact iff_of_true ⟨_, rfl⟩ rfl
    · have panics : scored toLowercase config event context = none :=
        scored_panics ordered (by omega)
      refine iff_of_false ?_ fun scores => bounded scores.2.1
      rintro ⟨score, returned⟩
      rw [scored, returned] at panics
      cases panics
  · refine iff_of_false ?_ fun scores => ordered scores.1
    rintro ⟨score, returned⟩
    rw [scoreEditWithContext, if_pos (by omega)] at returned
    cases returned

theorem CompiledFrom.accepts {document : ScoringPolicyDocument}
    (origin : CompiledFrom document config) :
    ∃ score, scoreEditWithContext toLowercase event config context = some (.ok score) := by
  obtain ⟨cap, capped, positive⟩ := origin.cap
  refine scoreEditWithContext_ok_iff.mpr ⟨origin.ordered, origin.bounded, .inr ?_⟩
  intro other member
  rw [capped] at member
  cases member
  unfold i32Min
  omega

end Scorer

section Compiler

variable {document : ScoringPolicyDocument}

/-- The evaluator is absent or off, or its bound is not negative. -/
def LiftwingBounded (document : ScoringPolicyDocument) : Prop :=
  ∀ liftwing ∈ document.externalEvaluationConfig.liftwing,
    liftwing.enabled = true → liftwing.role ≠ .disabled → 0 ≤ liftwing.maxContribution.val

/-- Every slug of an enabled combination rule names a signal. -/
def SlugsKnown (document : ScoringPolicyDocument) : Prop :=
  ∀ combination ∈ document.combinationRules, combination.enabled = true →
    ∀ slug ∈ combination.whenAll, ∃ signal, signalFromSlug slug = .ok signal

theorem clamp_opposite_isSome_iff (a bound : I32) :
    ((I32.neg bound).bind fun low => I32.clamp a low bound).isSome ↔ 0 ≤ bound.val := by
  constructor
  · intro returned
    obtain ⟨b, clamped⟩ := Option.isSome_iff_exists.mp returned
    obtain ⟨low, negated, clamped⟩ := Option.bind_eq_some_iff.mp clamped
    obtain ⟨above, below, -⟩ := I32.clamp_val clamped
    have bounds := bound.property
    unfold I32.neg at negated
    split at negated
    · cases negated
    · rw [← Option.some.inj negated] at above
      simp only [I32.saturate] at above
      unfold i32Min i32Max at *
      omega
  · intro positive
    obtain ⟨low, negated, value⟩ := I32.neg_of_nonneg positive
    rw [negated, Option.bind_some]
    exact I32.clamp_isSome (by omega)

theorem compileLiftwingWeight_isSome_iff :
    (compileLiftwingWeight document).isSome ↔ LiftwingBounded document := by
  unfold compileLiftwingWeight LiftwingBounded
  cases document.externalEvaluationConfig.liftwing with
  | none =>
      refine iff_of_true rfl fun liftwing member => ?_
      cases member
  | some liftwing =>
      dsimp only
      simp only [Option.mem_some_iff, forall_eq']
      split
      · next off =>
          refine iff_of_true rfl fun on role => ?_
          rw [on] at off
          simp [role] at off
      · next off =>
          rw [clamp_opposite_isSome_iff]
          obtain ⟨on, role⟩ : liftwing.enabled = true ∧ liftwing.role ≠ .disabled := by
            simpa using off
          exact ⟨fun positive _ _ => positive, fun h => h on role⟩

theorem compileCombinationRules_ok_iff :
    (∃ rules, compileCombinationRules document = .ok rules) ↔ SlugsKnown document := by
  have rule (combination : CombinationRulePolicy) :
      (∃ compiled, compileCombinationRule combination = .ok compiled) ↔
        ∀ slug ∈ combination.whenAll, ∃ signal, signalFromSlug slug = .ok signal := by
    rw [← Traverse.mapM_ok_iff]
    unfold compileCombinationRule
    cases combination.whenAll.mapM signalFromSlug with
    | error e => exact iff_of_false (fun ⟨_, read⟩ => nomatch read) fun ⟨_, read⟩ => nomatch read
    | ok signals => exact iff_of_true ⟨_, rfl⟩ ⟨signals, rfl⟩
  unfold compileCombinationRules SlugsKnown
  rw [Traverse.mapM_ok_iff]
  simp only [List.mem_filter, and_imp, rule]

/-- The compiler returns, and what it compiles is safe to score and to analyse with. -/
def SafeToScore (toLowercase : Char → Text) (document : ScoringPolicyDocument) : Prop :=
  ∃ outcome, compileScoringPolicy document = some outcome ∧
    ∀ compiled, outcome = .ok compiled →
      (∀ event context,
        (scoreEditWithContext toLowercase event compiled.scoringConfig context).isSome) ∧
      ∀ diff, (analyzeDiffForScoring toLowercase diff compiled.scoringConfig.signalParameters).isSome

/-- Two numbers of a document pass the validation and are negated later on: the evaluator's
bound by the compiler, and the blanking threshold by the diff hints. -/
theorem safe_to_score_iff (toLowercase : Char → Text) (document : ScoringPolicyDocument) :
    SafeToScore toLowercase document ↔
      (validateScoringPolicy document = .ok () → LiftwingBounded document ∧
        (SlugsKnown document →
          document.signalParameters.massiveBlankingThreshold.val ≠ i32Min)) := by
  unfold SafeToScore
  cases valid : validateScoringPolicy document with
  | error e =>
      have rejected : compileScoringPolicy document = some (.error e) := by
        rw [compileScoringPolicy, valid]
      refine iff_of_true ⟨.error e, rejected, fun compiled accepted => ?_⟩ fun accepted => ?_
      · cases accepted
      · cases accepted
  | ok _ =>
      rw [← compileLiftwingWeight_isSome_iff, ← compileCombinationRules_ok_iff]
      constructor
      · rintro ⟨outcome, compiled, safe⟩ -
        rw [compileScoringPolicy, valid] at compiled
        obtain ⟨weight, weighed, rest⟩ := Option.map_eq_some_iff.mp compiled
        refine ⟨Option.isSome_iff_exists.mpr ⟨weight, weighed⟩, ?_⟩
        rintro ⟨rules, combined⟩
        rw [combined] at rest
        have returned := (safe _ rest.symm).2 ⟨.lines, [], [], .default⟩
        exact (analyzeDiffForScoring_isSome_iff toLowercase _ _).mp returned
      · intro bounded
        obtain ⟨weighs, thresholded⟩ := bounded rfl
        obtain ⟨weight, weighed⟩ := Option.isSome_iff_exists.mp weighs
        obtain ⟨outcome, compiled⟩ : ∃ outcome, compileScoringPolicy document = some outcome := by
          rw [compileScoringPolicy, valid, weighed]
          exact ⟨_, rfl⟩
        refine ⟨outcome, compiled, fun policy accepted => ⟨fun event context => ?_, fun diff => ?_⟩⟩
        · rw [accepted] at compiled
          obtain ⟨score, scored⟩ := (compiledFrom compiled).accepts
          exact Option.isSome_iff_exists.mpr ⟨_, scored⟩
        · rw [accepted] at compiled
          obtain ⟨-, _, rules, -, combined, config⟩ := compileScoringPolicy_ok compiled
          rw [analyzeDiffForScoring_isSome_iff, config]
          exact thresholded ⟨rules, combined⟩

end Compiler

section Panics

/-- A policy whose evaluator is bounded by -1. -/
def negativelyBounded : ScoringPolicyDocument where
  __ := pilotDocument
  externalEvaluationConfig := ⟨some ⟨true, .supportingSignal, ⟨-1, by decide⟩⟩⟩

/-- A policy whose blanking threshold is the least `i32`. -/
def leastThreshold : ScoringPolicyDocument where
  __ := pilotDocument
  signalParameters :=
    { pilotDocument.signalParameters with massiveBlankingThreshold := ⟨i32Min, by decide⟩ }

theorem inRange_twenty : i32Min ≤ 20 ∧ 20 ≤ i32Max := by decide

theorem inRange_thirty : i32Min ≤ 30 ∧ 30 ≤ i32Max := by decide

def leastPolicy : CompiledScoringPolicy where
  __ := pilotPolicy
  scoringConfig := compileScoringConfig leastThreshold ⟨20, inRange_twenty⟩
    [⟨"new_page_watch", ⟨30, inRange_thirty⟩, [.newPage], none⟩]

/-- Both documents are valid: the first panics in the compiler, the second in the diff hints. -/
theorem valid_policies_panic :
    validateScoringPolicy negativelyBounded = .ok () ∧
      ¬ SafeToScore asciiLower negativelyBounded ∧
      validateScoringPolicy leastThreshold = .ok () ∧ ¬ SafeToScore asciiLower leastThreshold := by
  have first : compileScoringPolicy negativelyBounded = none := by decide +kernel
  have second : compileScoringPolicy leastThreshold = some (.ok leastPolicy) := by decide +kernel
  refine ⟨by decide +kernel, ?_, by decide +kernel, ?_⟩
  · rintro ⟨outcome, compiled, -⟩
    rw [first] at compiled
    cases compiled
  · rintro ⟨outcome, compiled, safe⟩
    rw [second] at compiled
    have returned := (safe leastPolicy (Option.some.inj compiled).symm).2 ⟨.lines, [], [], .default⟩
    exact absurd returned (by decide +kernel)

end Panics

end SP42.Scoring

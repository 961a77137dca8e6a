import SP42.Scoring.Policy
import SP42.Scoring.Count
import SP42.Lib.Total

/-!
What a disabled rule still does. Its weight is compiled to nothing, so its signal moves
no total by itself; a combination rule still reads the signal.
-/
namespace SP42.Scoring

/-- The weight that the contribution of a signal's rule is made from. -/
def ScoreWeights.of (weights : ScoreWeights) : ScoringSignal → I32
  | .anonymousUser => weights.anonymousUser
  | .temporaryAccount => weights.temporaryAccount
  | .newPage => weights.newPage
  | .revertedBefore => weights.revertedBefore
  | .largeContentRemoval => weights.largeContentRemoval
  | .linkAddition => weights.linkAddition
  | .referenceAddition => weights.referenceAddition
  | .categoryAddition => weights.categoryAddition
  | .interwikiAddition => weights.interwikiAddition
  | .massBlanking => weights.massBlanking
  | .insertedProfanity => weights.insertedProfanity
  | .repeatedCharacterNoise => weights.repeatedCharacterNoise
  | .profanity => weights.profanity
  | .linkSpam => weights.linkSpam
  | .trustedUser => weights.trustedUser
  | .botLikeEdit => weights.botLikeEdit
  | .liftWingRisk => weights.liftwingRisk
  | .warningHistory => weights.warningHistory
  | .obviousVandalism => weights.obviousVandalism
  | .duplicatePattern => weights.duplicatePattern
  | .combinationRule | .identityCapAdjustment => .zero

/-- What is scored: an edit event in its context. -/
structure Input where
  event : EditEvent
  context : ScoringContext
  deriving DecidableEq

variable (toLowercase : Char → Text)

def Input.firing (config : ScoringConfig) (input : Input) :
    ScoringSignal → Option SignalContribution :=
  SP42.Scoring.firing toLowercase config input.event input.context

def Input.isEntity (input : Input) : Bool :=
  (deriveContentModelCapabilities input.event.contentModel).entityDiff

def Input.score (config : ScoringConfig) (input : Input) :
    Option (Except ScoringError CompositeScore) :=
  scoreEditWithContext toLowercase input.event config input.context

/-- The trigger of the rule with this slug fires. -/
def Input.Fires (config : ScoringConfig) (input : Input) (slug : String) : Prop :=
  ∃ signal, signalFromSlug slug = .ok signal ∧ (input.firing toLowercase config signal).isSome

/-- The inputs differ at most in the trigger of one rule: every other rule contributes the
same weight to both, or to neither. -/
structure DifferOnlyIn (config : ScoringConfig) (slug : String) (a b : Input) : Prop where
  content : a.isEntity = b.isEntity
  others : ∀ signal, signalFromSlug slug ≠ .ok signal →
    (a.firing toLowercase config signal).map SignalContribution.weight =
      (b.firing toLowercase config signal).map SignalContribution.weight

/-- No combination rule that reads the signal of this slug is satisfied in the score. -/
def NotCombined (config : ScoringConfig) (slug : String) (score : CompositeScore) : Prop :=
  ∀ rule ∈ config.combinationRules, ∀ signal ∈ rule.whenAll,
    signalFromSlug slug = .ok signal → allPresent rule score.contributions = false

/-- Whenever the rule fires, every enabled combination rule that names it also names one
that does not fire. -/
def Input.Blocks (config : ScoringConfig) (document : ScoringPolicyDocument) (slug : String)
    (input : Input) : Prop :=
  input.Fires toLowercase config slug →
    ∀ combination ∈ document.combinationRules, combination.enabled = true →
      slug ∈ combination.whenAll →
        ∃ other ∈ combination.whenAll, ¬ input.Fires toLowercase config other

theorem scaleWeight_zero {numerator denominator : Int} (small : denominator ≤ 100) :
    scaleWeight .zero numerator denominator = .zero := by
  unfold scaleWeight
  split
  · rfl
  · rename_i positive
    have half : 0 ≤ denominator / 2 ∧ denominator / 2 < denominator := by omega
    have product : max i64Min (min i64Max (I32.zero.val * numerator)) = 0 := by
      rw [show I32.zero.val = 0 from rfl, Int.zero_mul]
      rfl
    have rounded : max i64Min (min i64Max (0 + denominator / 2)) = denominator / 2 := by
      unfold i64Min i64Max
      omega
    simp only [product, rounded]
    rw [if_neg (by omega), Int.tdiv_eq_zero_of_lt half.1 half.2]
    rfl

/-- A contribution is the weight of its rule, as it is or scaled. -/
theorem firing_weight {config : ScoringConfig} {event : EditEvent} {context : ScoringContext}
    {signal : ScoringSignal} {entry : SignalContribution}
    (fires : firing toLowercase config event context signal = some entry) :
    entry.weight = config.weights.of signal ∨
      ∃ numerator denominator, denominator ≤ 100 ∧
        entry.weight = scaleWeight (config.weights.of signal) numerator denominator := by
  cases signal
  case warningHistory =>
    obtain ⟨profile, -, scaled⟩ := Option.bind_eq_some_iff.mp fires
    obtain ⟨-, ⟨⟩⟩ := Option.ite_none_left_eq_some.mp scaled
    exact .inr ⟨_, 4, by decide, rfl⟩
  case liftWingRisk =>
    obtain ⟨risk, -, scaled⟩ := Option.bind_eq_some_iff.mp fires
    obtain ⟨-, ⟨⟩⟩ := Option.ite_none_left_eq_some.mp scaled
    exact .inr ⟨_, 100, by decide, rfl⟩
  case duplicatePattern =>
    obtain ⟨size, -, scaled⟩ := Option.bind_eq_some_iff.mp fires
    obtain ⟨-, ⟨⟩⟩ := Option.ite_none_left_eq_some.mp scaled
    exact .inr ⟨_, 4, by decide, rfl⟩
  case obviousVandalism =>
    obtain ⟨reason, -, rfl⟩ := Option.map_eq_some_iff.mp fires
    exact .inl rfl
  case combinationRule => cases fires
  case identityCapAdjustment => cases fires
  all_goals
    obtain ⟨-, ⟨⟩⟩ := Option.ite_none_right_eq_some.mp fires
    exact .inl rfl

/-- A rule of weight zero contributes nothing. -/
theorem firing_neutral {config : ScoringConfig} {event : EditEvent} {context : ScoringContext}
    {signal : ScoringSignal} {entry : SignalContribution}
    (off : config.weights.of signal = .zero)
    (fires : firing toLowercase config event context signal = some entry) :
    entry.weight = .zero := by
  rcases firing_weight toLowercase fires with plain | ⟨numerator, denominator, small, scaled⟩
  · exact plain.trans off
  · rw [scaled, off, scaleWeight_zero small]

/-- The slug that names a signal; two signals have none. -/
def slugOf : ScoringSignal → String
  | .anonymousUser => "anonymous_user"
  | .temporaryAccount => "temporary_account"
  | .newPage => "new_page"
  | .revertedBefore => "reverted_before"
  | .largeContentRemoval => "large_content_removal"
  | .linkAddition => "link_addition"
  | .referenceAddition => "reference_addition"
  | .categoryAddition => "category_addition"
  | .interwikiAddition => "interwiki_addition"
  | .massBlanking => "mass_blanking"
  | .insertedProfanity => "inserted_profanity"
  | .repeatedCharacterNoise => "repeated_character_noise"
  | .profanity => "profanity"
  | .linkSpam => "link_spam"
  | .trustedUser => "trusted_user"
  | .botLikeEdit => "bot_like_edit"
  | .liftWingRisk => "liftwing_risk"
  | .warningHistory => "warning_history"
  | .obviousVandalism => "obvious_vandalism"
  | .duplicatePattern => "duplicate_pattern"
  | .combinationRule | .identityCapAdjustment => ""

theorem slug_of_signal {slug : String} {signal : ScoringSignal}
    (named : signalFromSlug slug = .ok signal) : Nameable signal ∧ slug = slugOf signal := by
  unfold signalFromSlug at named
  split at named <;> cases named <;> exact ⟨⟨nofun, nofun⟩, rfl⟩

theorem weight_of_slug {document : ScoringPolicyDocument} {slug : String} {signal : ScoringSignal}
    {liftwingWeight : I32} (named : signalFromSlug slug = .ok signal)
    (off : ruleWeight document slug = .zero)
    (weighed : compileLiftwingWeight document = some liftwingWeight) :
    (compileWeights document liftwingWeight).of signal = .zero := by
  obtain ⟨nameable, rfl⟩ := slug_of_signal named
  cases signal
  case liftWingRisk => exact compileLiftwingWeight_disabled off weighed
  case combinationRule => exact absurd rfl nameable.1
  case identityCapAdjustment => exact absurd rfl nameable.2
  all_goals exact off

theorem signalFromSlug_injective {slug slug' : String} {signal : ScoringSignal}
    (named : signalFromSlug slug = .ok signal) (named' : signalFromSlug slug' = .ok signal) :
    slug = slug' := (slug_of_signal named).2.trans (slug_of_signal named').2.symm

/-- The compiled combination rules are the enabled ones, slug by slug. -/
theorem compileCombinationRules_ok {document : ScoringPolicyDocument}
    {rules : List ScoringCombinationRule} (compiled : compileCombinationRules document = .ok rules) :
    List.Forall₂ (fun (combination : CombinationRulePolicy) (rule : ScoringCombinationRule) =>
        List.Forall₂ (fun slug signal => signalFromSlug slug = .ok signal) combination.whenAll
          rule.whenAll)
      (document.combinationRules.filter CombinationRulePolicy.enabled) rules := by
  refine ((Traverse.mapM_eq_ok _ _ _).mp compiled).imp fun combination rule read => ?_
  unfold compileCombinationRule at read
  cases slugs : combination.whenAll.mapM signalFromSlug with
  | error e => rw [slugs] at read; cases read
  | ok signals =>
      rw [slugs] at read
      cases read
      exact (Traverse.mapM_eq_ok _ _ _).mp slugs

/-- The claim about two inputs: equal totals, and no combination rule is satisfied by the
signal of the slug. -/
def Uninfluenced (config : ScoringConfig) (slug : String) (a b : Input) : Prop :=
  ∃ score score', a.score toLowercase config = some (.ok score) ∧
    b.score toLowercase config = some (.ok score') ∧ score.total = score'.total ∧
      NotCombined config slug score ∧ NotCombined config slug score'

section Wikitext

variable {toLowercase} {config : ScoringConfig} {input a b : Input} {slug : String}

theorem satisfied_iff {combination : CombinationRulePolicy} {rule : ScoringCombinationRule}
    (read : List.Forall₂ (fun slug signal => signalFromSlug slug = .ok signal) combination.whenAll
      rule.whenAll) :
    satisfied (input.firing toLowercase config) rule = true ↔
      ∀ slug ∈ combination.whenAll, input.Fires toLowercase config slug := by
  rw [satisfied, List.all_eq_true]
  constructor
  · intro all slug listed
    obtain ⟨signal, member, named⟩ := Traverse.exists_right read listed
    exact ⟨signal, named, all signal member⟩
  · intro all signal member
    obtain ⟨slug, listed, named⟩ := Traverse.exists_left read member
    obtain ⟨signal', named', fires⟩ := all slug listed
    rw [named] at named'
    cases named'
    exact fires

/-- A combination rule of the document reads a slug where its compiled rule reads the signal. -/
theorem reads_slug {combination : CombinationRulePolicy} {rule : ScoringCombinationRule}
    {signal : ScoringSignal} (named : signalFromSlug slug = .ok signal)
    (read : List.Forall₂ (fun slug signal => signalFromSlug slug = .ok signal) combination.whenAll
      rule.whenAll) : slug ∈ combination.whenAll ↔ signal ∈ rule.whenAll := by
  constructor
  · intro listed
    obtain ⟨signal', member, named'⟩ := Traverse.exists_right read listed
    rw [named] at named'
    cases named'
    exact member
  · intro member
    obtain ⟨slug', listed, named'⟩ := Traverse.exists_left read member
    rwa [signalFromSlug_injective named named']

/-- Both inputs satisfy a combination rule or neither does, where the differing rule blocks. -/
theorem satisfied_congr {combination : CombinationRulePolicy} {rule : ScoringCombinationRule}
    (read : List.Forall₂ (fun slug signal => signalFromSlug slug = .ok signal) combination.whenAll
      rule.whenAll)
    (alike : DifferOnlyIn toLowercase config slug a b)
    (block : slug ∈ combination.whenAll → ∀ input ∈ [a, b],
      satisfied (input.firing toLowercase config) rule = false) :
    satisfied (a.firing toLowercase config) rule = satisfied (b.firing toLowercase config) rule := by
  by_cases listed : slug ∈ combination.whenAll
  · rw [block listed a (by simp), block listed b (by simp)]
  · unfold satisfied
    rw [Bool.eq_iff_iff, List.all_eq_true, List.all_eq_true]
    refine forall₂_congr fun signal member => ?_
    have other : signalFromSlug slug ≠ .ok signal := fun named =>
      listed ((reads_slug named read).mpr member)
    rw [← Option.isSome_map (f := SignalContribution.weight), alike.others signal other,
      Option.isSome_map]

end Wikitext

/-- A configuration with the document it was compiled from. -/
structure CompiledFrom (document : ScoringPolicyDocument) (config : ScoringConfig) : Prop where
  ordered : config.baseScore.val ≤ config.maxScore.val
  bounded : 0 ≤ config.maxScore.val
  cap : ∃ cap : I32, config.identity.contributionCap = some cap ∧ 0 ≤ cap.val
  combinations : compileCombinationRules document = .ok config.combinationRules
  weights : ∃ liftwingWeight, compileLiftwingWeight document = some liftwingWeight ∧
    config.weights = compileWeights document liftwingWeight

theorem compiledFrom {document : ScoringPolicyDocument} {compiled : CompiledScoringPolicy}
    (accepted : compileScoringPolicy document = some (.ok compiled)) :
    CompiledFrom document compiled.scoringConfig := by
  obtain ⟨valid, liftwingWeight, rules, weighed, combined, config⟩ :=
    compileScoringPolicy_ok accepted
  rw [config]
  exact
    { ordered := show (0 : Int) ≤ 100 by decide
      bounded := show (0 : Int) ≤ 100 by decide
      cap := ⟨_, rfl, validate_cap valid⟩
      combinations := combined
      weights := ⟨liftwingWeight, weighed, rfl⟩ }

section Compiled

variable {toLowercase} {document : ScoringPolicyDocument} {config : ScoringConfig}
  {input a b : Input} {slug : String}

theorem CompiledFrom.nameable (origin : CompiledFrom document config)
    {rule : ScoringCombinationRule} (compiled : rule ∈ config.combinationRules)
    {signal : ScoringSignal} (member : signal ∈ rule.whenAll) : Nameable signal := by
  obtain ⟨combination, -, read⟩ :=
    Traverse.exists_left (compileCombinationRules_ok origin.combinations) compiled
  obtain ⟨slug, -, named⟩ := Traverse.exists_left read member
  exact (slug_of_signal named).1

/-- On wikitext a compiled configuration scores every input, with the counted total. -/
theorem CompiledFrom.scores (origin : CompiledFrom document config)
    (wikitext : input.isEntity = false) :
    ∃ score, input.score toLowercase config = some (.ok score) ∧
      countedTotal config (input.firing toLowercase config) = some score.total := by
  have total : (input.score toLowercase config).map (Except.map CompositeScore.total) =
      (countedTotal config (input.firing toLowercase config)).map .ok :=
    scoreEditWithContext_total toLowercase origin.ordered
      (fun rule compiled signal member => origin.nameable compiled member) wikitext
  obtain ⟨cap, capped, positive⟩ := origin.cap
  obtain ⟨counted, value⟩ := Option.isSome_iff_exists.mp (@countedTotal_isSome config cap
    (input.firing toLowercase config) capped positive origin.bounded)
  rw [value, Option.map_some, Option.map_eq_some_iff] at total
  obtain ⟨returned, scored, mapped⟩ := total
  cases returned with
  | error e => cases mapped
  | ok score => cases mapped; exact ⟨score, scored, value⟩

theorem CompiledFrom.allPresent_eq (origin : CompiledFrom document config)
    {rule : ScoringCombinationRule} (compiled : rule ∈ config.combinationRules)
    (wikitext : input.isEntity = false) {score : CompositeScore}
    (scored : input.score toLowercase config = some (.ok score)) :
    allPresent rule score.contributions = satisfied (input.firing toLowercase config) rule := by
  rw [Bool.eq_iff_iff, allPresent_iff, satisfied, List.all_eq_true]
  exact forall₂_congr fun signal member =>
    scoreEditWithContext_signals toLowercase (origin.nameable compiled member) wikitext scored

/-- On wikitext the signal of a slug satisfies no combination rule exactly when each one
that names it is blocked. -/
theorem CompiledFrom.notCombined_iff (origin : CompiledFrom document config)
    (wikitext : input.isEntity = false) {score : CompositeScore}
    (scored : input.score toLowercase config = some (.ok score)) :
    NotCombined config slug score ↔ input.Blocks toLowercase config document slug := by
  have compiled := compileCombinationRules_ok origin.combinations
  constructor
  · rintro apart ⟨signal, named, fires⟩ combination member enabled listed
    obtain ⟨rule, compiledRule, read⟩ :=
      Traverse.exists_right compiled (List.mem_filter.mpr ⟨member, enabled⟩)
    have unsatisfied := apart rule compiledRule signal ((reads_slug named read).mp listed) named
    rw [origin.allPresent_eq compiledRule wikitext scored] at unsatisfied
    by_contra all
    push Not at all
    rw [(satisfied_iff read).mpr all] at unsatisfied
    cases unsatisfied
  · intro blocks rule compiledRule signal reads named
    obtain ⟨combination, member, read⟩ := Traverse.exists_left compiled compiledRule
    obtain ⟨member, enabled⟩ := List.mem_filter.mp member
    have listed := (reads_slug named read).mpr reads
    rw [origin.allPresent_eq compiledRule wikitext scored, ← Bool.not_eq_true, satisfied_iff read]
    intro all
    obtain ⟨other, otherListed, silent⟩ :=
      blocks (all slug listed) combination member enabled listed
    exact silent (all other otherListed)

/-- Where both inputs block the disabled rule, they have one total. -/
theorem CompiledFrom.total_congr (origin : CompiledFrom document config)
    (off : ruleWeight document slug = .zero) (alike : DifferOnlyIn toLowercase config slug a b)
    (blocked : ∀ input ∈ [a, b], input.Blocks toLowercase config document slug) :
    countedTotal config (a.firing toLowercase config) =
      countedTotal config (b.firing toLowercase config) := by
  obtain ⟨liftwingWeight, weighed, weights⟩ := origin.weights
  have count : ∀ start order, Tally.count addWeight start order (a.firing toLowercase config) =
      Tally.count addWeight start order (b.firing toLowercase config) := by
    intro start order
    have weigh : ∀ input : Input,
        Tally.count addWeight start order (input.firing toLowercase config) =
          Tally.count I32.saturatingAdd start order fun signal =>
            (input.firing toLowercase config signal).map SignalContribution.weight :=
      fun input => Tally.count_map SignalContribution.weight _
    rw [weigh, weigh]
    refine Tally.count_congr_neutral alike.others fun signal weight total named moved => ?_
    rw [not_not] at named
    have neutral : ∀ input : Input, (input.firing toLowercase config signal).map
        SignalContribution.weight = some weight → weight = .zero := by
      intro input fires
      obtain ⟨entry, fired, rfl⟩ := Option.map_eq_some_iff.mp fires
      refine firing_neutral toLowercase ?_ fired
      rw [weights]
      exact weight_of_slug named off weighed
    rw [moved.elim (neutral a) (neutral b), I32.saturatingAdd_zero]
  have combined : config.combinationRules.filter (satisfied (a.firing toLowercase config)) =
      config.combinationRules.filter (satisfied (b.firing toLowercase config)) := by
    refine List.filter_congr fun rule compiledRule => ?_
    obtain ⟨combination, member, read⟩ :=
      Traverse.exists_left (compileCombinationRules_ok origin.combinations) compiledRule
    obtain ⟨member, enabled⟩ := List.mem_filter.mp member
    refine satisfied_congr read alike fun listed input chosen => ?_
    rw [← Bool.not_eq_true, satisfied_iff read]
    intro all
    obtain ⟨other, otherListed, silent⟩ :=
      blocked input chosen (all slug listed) combination member enabled listed
    exact silent (all other otherListed)
  simp only [countedTotal, count, combined]

end Compiled

theorem entity_score {config : ScoringConfig} {input : Input}
    (ordered : config.baseScore.val ≤ config.maxScore.val) (entity : input.isEntity = true) :
    input.score toLowercase config =
      (config.baseScore.clamp .zero config.maxScore).map fun total =>
        .ok { total := total, contributions := [] } := by
  have entity : (deriveContentModelCapabilities input.event.contentModel).entityDiff = true := entity
  rw [Input.score, scoreEditWithContext, if_neg (by omega), if_pos entity]

/-- Exactly when a disabled rule has no influence on two inputs that differ in it only. -/
theorem disabled_rule_inert_iff {document : ScoringPolicyDocument}
    {compiled : CompiledScoringPolicy}
    (accepted : compileScoringPolicy document = some (.ok compiled)) {slug : String}
    {rule : RulePolicyConfig} (listed : document.rules.lookup slug = some rule)
    (disabled : rule.enabled = false) {a b : Input}
    (alike : DifferOnlyIn toLowercase compiled.scoringConfig slug a b) :
    Uninfluenced toLowercase compiled.scoringConfig slug a b ↔
      a.isEntity = true ∨
        a.Blocks toLowercase compiled.scoringConfig document slug ∧
          b.Blocks toLowercase compiled.scoringConfig document slug := by
  have origin := compiledFrom accepted
  have off := ruleWeight_disabled listed disabled
  cases content : a.isEntity with
  | true =>
      refine iff_of_true ?_ (.inl rfl)
      obtain ⟨total, clamped⟩ := Option.isSome_iff_exists.mp
        (@I32.clamp_isSome compiled.scoringConfig.baseScore .zero _ origin.bounded)
      have apart : NotCombined compiled.scoringConfig slug { total := total, contributions := [] } := by
        intro rule _ signal reads _
        rw [← Bool.not_eq_true, allPresent_iff]
        exact fun all => List.not_mem_nil (all signal reads)
      refine ⟨_, _, ?_, ?_, rfl, apart, apart⟩
      · rw [entity_score toLowercase origin.ordered content, clamped]
        rfl
      · rw [entity_score toLowercase origin.ordered (alike.content ▸ content), clamped]
        rfl
  | false =>
      obtain ⟨score, scored, total⟩ := @CompiledFrom.scores toLowercase _ _ _ origin content
      obtain ⟨score', scored', total'⟩ :=
        @CompiledFrom.scores toLowercase _ _ _ origin (alike.content ▸ content)
      have here := @CompiledFrom.notCombined_iff _ _ _ _ slug origin content _ scored
      have there := @CompiledFrom.notCombined_iff _ _ _ _ slug origin (alike.content ▸ content) _ scored'
      constructor
      · rintro ⟨_, _, first, second, -, apart, apart'⟩
        rw [scored] at first
        rw [scored'] at second
        cases first
        cases second
        exact .inr ⟨here.mp apart, there.mp apart'⟩
      · rintro (entity | ⟨blocks, blocks'⟩)
        · cases entity
        · refine ⟨score, score', scored, scored', ?_, here.mpr blocks, there.mpr blocks'⟩
          have same := origin.total_congr off alike (by simp [blocks, blocks'])
          rw [total, total'] at same
          exact Option.some.inj same

section Pilot

/-- A policy whose rule for new pages is switched off, while a combination rule names it. -/
def pilotDocument : ScoringPolicyDocument where
  domain := .vandalismPatrol
  wikiId := "testwiki"
  policyVersion := "v0.1"
  evaluationProfile := "vandalism_patrol_default"
  lifecycle := .active
  dimensions := ⟨.finite 1, .finite 1, .finite 1, .finite 1, .finite 1, .finite 1, .finite 1⟩
  identity := ⟨⟨25, by decide⟩, true, true, false⟩
  queue := ⟨⟨25, by decide⟩, ⟨250, by decide⟩, .zero⟩
  signalParameters :=
    { largeContentRemovalThreshold := ⟨-500, by decide⟩
      massiveBlankingThreshold := ⟨-5000, by decide⟩
      repeatedCharacterRunThreshold := 6
      profanityMarkers := ["idiot".toList]
      linkMarkers := ["http://".toList]
      trustedTags := ["mw-trusted".toList]
      revertTags := ["mw-reverted".toList]
      suspiciousCommentMarkers := ["lol".toList] }
  rules := requiredRules.map fun slug => (slug, ⟨slug != "new_page", ⟨20, by decide⟩⟩)
  combinationRules := [⟨"new_page_watch", true, ⟨30, by decide⟩, ["new_page"], none⟩]
  externalEvaluationConfig := ⟨none⟩
  fairness := ⟨50, 50, 50⟩

def pilotPolicy : CompiledScoringPolicy where
  domain := .vandalismPatrol
  wikiId := "testwiki"
  policyVersion := "v0.1"
  evaluationProfile := "vandalism_patrol_default"
  lifecycle := .active
  dimensions := pilotDocument.dimensions
  scoringConfig := compileScoringConfig pilotDocument ⟨20, by decide⟩
    [⟨"new_page_watch", ⟨30, by decide⟩, [.newPage], none⟩]
  queuePolicy := compileQueuePolicy pilotDocument
  queueDefaults := pilotDocument.queue
  combinationRules := pilotDocument.combinationRules
  externalEvaluationConfig := pilotDocument.externalEvaluationConfig
  fairness := pilotDocument.fairness

/-- An edit by a registered user that creates a page or not. -/
def pilotInput (isNewPage : FlagState) : Input where
  event :=
    { title := "Example".toList
      performer := .registered "Ada".toList
      isBot := .disabled
      isNewPage := isNewPage
      tags := []
      comment := none
      byteDelta := ⟨200, by decide⟩
      contentModel := some wikitextContentModel }
  context := .default

def asciiLower (c : Char) : Text := [c.toLower]

theorem pilot_compiles : compileScoringPolicy pilotDocument = some (.ok pilotPolicy) := by
  decide +kernel

theorem pilot_differ : DifferOnlyIn asciiLower pilotPolicy.scoringConfig "new_page"
    (pilotInput .enabled) (pilotInput .disabled) where
  content := rfl
  others := by
    intro signal other
    cases signal
    case newPage => exact absurd rfl other
    all_goals rfl

theorem disabled_rule_inert_iff_pilot :
    Uninfluenced asciiLower pilotPolicy.scoringConfig "new_page" (pilotInput .enabled)
        (pilotInput .disabled) ↔
      (pilotInput .enabled).isEntity = true ∨
        (pilotInput .enabled).Blocks asciiLower pilotPolicy.scoringConfig pilotDocument "new_page" ∧
          (pilotInput .disabled).Blocks asciiLower pilotPolicy.scoringConfig pilotDocument
            "new_page" :=
  disabled_rule_inert_iff asciiLower pilot_compiles
    (show pilotDocument.rules.lookup "new_page" = some ⟨false, ⟨20, by decide⟩⟩ from rfl)
    rfl pilot_differ

/-- The rule is off and the inputs differ in its trigger only; yet the totals are 30 and 0. -/
theorem disabled_rule_moves_total :
    compileScoringPolicy pilotDocument = some (.ok pilotPolicy) ∧
      (pilotDocument.rules.lookup "new_page").map RulePolicyConfig.enabled = some false ∧
      DifferOnlyIn asciiLower pilotPolicy.scoringConfig "new_page" (pilotInput .enabled)
        (pilotInput .disabled) ∧
      ((pilotInput .enabled).score asciiLower pilotPolicy.scoringConfig).map
          (Except.map fun score => score.total.val) = some (.ok 30) ∧
      ((pilotInput .disabled).score asciiLower pilotPolicy.scoringConfig).map
          (Except.map fun score => score.total.val) = some (.ok 0) :=
  ⟨pilot_compiles, rfl, pilot_differ, by decide +kernel, by decide +kernel⟩

end Pilot

end SP42.Scoring

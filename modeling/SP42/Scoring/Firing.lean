import SP42.Scoring.Engine
import SP42.Lib.Counts

/-!
What one rule contributes to a score, and the scorer as a count of these
contributions: the primary pass and the context pass each push what has fired, in a
fixed order.
-/
namespace SP42.Scoring

variable (toLowercase : Char → Text)

def flagged (flag : FlagState) (signal : ScoringSignal) (weight : I32) (note : String) :
    Option SignalContribution :=
  if flag.isEnabled then some ⟨signal, weight, some note.toList⟩ else none

/-- The contribution of a signal's rule, when its trigger fires. -/
def firing (config : ScoringConfig) (event : EditEvent) (context : ScoringContext) :
    ScoringSignal → Option SignalContribution
  | .anonymousUser =>
      if config.identity.anonymousModifierEnabled.isEnabled && event.performer.isAnonymous then
        some ⟨.anonymousUser, config.weights.anonymousUser, none⟩
      else none
  | .temporaryAccount =>
      if config.identity.temporaryModifierEnabled.isEnabled && event.performer.isTemporary then
        some ⟨.temporaryAccount, config.weights.temporaryAccount,
          some "temporary account editors are newcomer-like but not raw IPs".toList⟩
      else none
  | .newPage =>
      if event.isNewPage.isEnabled then some ⟨.newPage, config.weights.newPage, none⟩ else none
  | .largeContentRemoval =>
      if event.byteDelta.val ≤ config.signalParameters.largeContentRemovalThreshold.val then
        some ⟨.largeContentRemoval, config.weights.largeContentRemoval,
          some ("byte delta ".toList ++ Text.ofInt event.byteDelta.val)⟩
      else none
  | .botLikeEdit =>
      if event.isBot.isEnabled then some ⟨.botLikeEdit, config.weights.botLikeEdit, none⟩ else none
  | .profanity =>
      if containsAny event.comment config.signalParameters.profanityMarkers then
        some ⟨.profanity, config.weights.profanity, event.comment⟩
      else none
  | .linkSpam =>
      if containsAny event.comment config.signalParameters.linkMarkers then
        some ⟨.linkSpam, config.weights.linkSpam, event.comment⟩
      else none
  | .obviousVandalism =>
      (detectObviousVandalism toLowercase event config).map fun reason =>
        ⟨.obviousVandalism, config.weights.obviousVandalism, some reason⟩
  | .trustedUser =>
      let tagged := event.tags.any fun tag => containsTag tag config.signalParameters.trustedTags
      if tagged || context.trustOverride.isEnabled then
        some ⟨.trustedUser, config.weights.trustedUser,
          trustNote tagged context.trustOverride.isEnabled⟩
      else none
  | .revertedBefore =>
      if event.tags.any fun tag => containsTag tag config.signalParameters.revertTags then
        some ⟨.revertedBefore, config.weights.revertedBefore,
          some "revert-related tag detected".toList⟩
      else none
  | .warningHistory =>
      context.userRisk.bind fun profile =>
        if profile.warningLevel.severity ≤ 0 then none
        else some ⟨.warningHistory,
          scaleWeight config.weights.warningHistory profile.warningLevel.severity 4,
          some ("warning level ".toList ++ profile.warningLevel.debug ++ ", ".toList ++
            Text.ofNat profile.warningCount ++ " warning templates".toList)⟩
  | .liftWingRisk =>
      (context.liftwingRisk.bind normalizeProbability).bind fun boundedRisk =>
        if boundedRisk ≤ 0 then none
        else some ⟨.liftWingRisk,
          scaleWeight config.weights.liftwingRisk (roundHalfEven (boundedRisk * 100)) 100,
          some ("probability ".toList ++ writeHundredths (roundHalfEven (boundedRisk * 100)).toNat)⟩
  | .linkAddition =>
      flagged context.linkAdditionOnly .linkAddition config.weights.linkAddition
        "only wikilink wrapper characters were added"
  | .referenceAddition =>
      flagged context.referenceAdditionOnly .referenceAddition config.weights.referenceAddition
        "only references or citation templates were added"
  | .categoryAddition =>
      flagged context.categoryAdditionOnly .categoryAddition config.weights.categoryAddition
        "only category links were added"
  | .interwikiAddition =>
      flagged context.interwikiAdditionOnly .interwikiAddition config.weights.interwikiAddition
        "only interwiki or language links were added"
  | .massBlanking =>
      flagged context.massBlankingDetected .massBlanking config.weights.massBlanking
        "diff removed substantially more content than it inserted"
  | .insertedProfanity =>
      flagged context.insertedProfanityDetected .insertedProfanity config.weights.insertedProfanity
        "inserted diff text contains configured profanity markers"
  | .repeatedCharacterNoise =>
      flagged context.repeatedCharacterNoiseDetected .repeatedCharacterNoise
        config.weights.repeatedCharacterNoise
        "inserted diff text contains repeated-character noise"
  | .duplicatePattern =>
      context.duplicateClusterSize.bind fun clusterSize =>
        if clusterSize ≤ 1 then none
        else some ⟨.duplicatePattern,
          scaleWeight config.weights.duplicatePattern
            (min (min i32Max (clusterSize - 1 : Nat)) 4) 4,
          some ("duplicate cluster size ".toList ++ Text.ofNat clusterSize)⟩
  | .combinationRule | .identityCapAdjustment => none

def editorOrder : List ScoringSignal := [.anonymousUser, .temporaryAccount]

def shapeOrder : List ScoringSignal :=
  [.newPage, .largeContentRemoval, .botLikeEdit, .profanity, .linkSpam, .obviousVandalism]

def trustOrder : List ScoringSignal := [.trustedUser, .revertedBefore]

def contextOrder : List ScoringSignal :=
  [.warningHistory, .liftWingRisk, .linkAddition, .referenceAddition, .categoryAddition,
   .interwikiAddition, .massBlanking, .insertedProfanity, .repeatedCharacterNoise,
   .duplicatePattern]

def primaryOrder : List ScoringSignal := editorOrder ++ shapeOrder ++ trustOrder

/-- The signals whose weights the identity cap bounds. -/
def identityOrder : List ScoringSignal := [.anonymousUser, .temporaryAccount, .trustedUser]

def addWeight (total : I32) (entry : SignalContribution) : I32 := total.saturatingAdd entry.weight

/-- Push every contribution that is cast, in order. -/
abbrev pushFired (score : CompositeScore) (order : List ScoringSignal)
    (fired : ScoringSignal → Option SignalContribution) : CompositeScore :=
  Tally.count pushSignal score order fired

def CompositeScore.signals (score : CompositeScore) : List ScoringSignal :=
  score.contributions.map SignalContribution.signal

theorem mem_signals_record {signal : ScoringSignal} {entry : SignalContribution}
    {contributions : List SignalContribution} :
    signal ∈ (record entry contributions).map SignalContribution.signal ↔
      signal = entry.signal ∨ signal ∈ contributions.map SignalContribution.signal := by
  induction contributions with
  | nil => simp [record]
  | cons existing rest ih =>
      rw [record]
      split
      · rename_i same
        simp [same]
      · rw [List.map_cons, List.mem_cons, ih, List.map_cons, List.mem_cons]
        tauto

theorem mem_signals_pushSignal {signal : ScoringSignal} {score : CompositeScore}
    {entry : SignalContribution} :
    signal ∈ (pushSignal score entry).signals ↔ signal = entry.signal ∨ signal ∈ score.signals :=
  mem_signals_record

theorem pushFired_total (score : CompositeScore) (order : List ScoringSignal)
    (fired : ScoringSignal → Option SignalContribution) :
    (pushFired score order fired).total = Tally.count addWeight score.total order fired := by
  induction order generalizing score with
  | nil => rfl
  | cons signal order ih =>
      rw [pushFired, Tally.count_cons, Tally.count_cons, ih]
      cases fired signal <;> rfl

theorem mem_signals_pushFired {signal : ScoringSignal} {score : CompositeScore}
    {order : List ScoringSignal} {fired : ScoringSignal → Option SignalContribution}
    (named : ∀ s e, fired s = some e → e.signal = s) :
    signal ∈ (pushFired score order fired).signals ↔
      signal ∈ score.signals ∨ signal ∈ order ∧ (fired signal).isSome := by
  induction order generalizing score with
  | nil => simp [pushFired, Tally.count, Tally.cast]
  | cons next order ih =>
      rw [pushFired, Tally.count_cons, ih]
      cases h : fired next with
      | none =>
          rw [Option.elim_none, List.mem_cons]
          constructor
          · rintro (old | ⟨later, fires⟩)
            · exact .inl old
            · exact .inr ⟨.inr later, fires⟩
          · rintro (old | ⟨rfl | later, fires⟩)
            · exact .inl old
            · rw [h] at fires; cases fires
            · exact .inr ⟨later, fires⟩
      | some entry =>
          rw [Option.elim_some, mem_signals_pushSignal, List.mem_cons, named next entry h]
          constructor
          · rintro ((rfl | old) | ⟨later, fires⟩)
            · exact .inr ⟨.inl rfl, by rw [h]; rfl⟩
            · exact .inl old
            · exact .inr ⟨.inr later, fires⟩
          · rintro (old | ⟨rfl | later, fires⟩)
            · exact .inl (.inr old)
            · exact .inl (.inl rfl)
            · exact .inr ⟨later, fires⟩

section Passes

variable (config : ScoringConfig) (event : EditEvent) (context : ScoringContext)

attribute [local simp] firing

theorem firing_signal (signal : ScoringSignal) (entry : SignalContribution)
    (h : firing toLowercase config event context signal = some entry) : entry.signal = signal := by
  cases signal
  all_goals
    simp only [firing, flagged, Option.bind_eq_some_iff, Option.map_eq_some_iff,
      Option.ite_none_right_eq_some, Option.ite_none_left_eq_some, reduceCtorEq] at h
  all_goals grind

theorem elim_ite {condition : Prop} [Decidable condition] (entry : SignalContribution)
    (score : CompositeScore) :
    (if condition then some entry else none).elim score (pushSignal score) =
      if condition then pushSignal score entry else score := by
  split <;> rfl

theorem applyEditorSignal_eq (score : CompositeScore) (identityTotal : I32) :
    applyEditorSignal event config (score, identityTotal) =
      (pushFired score editorOrder (firing toLowercase config event context),
        Tally.count addWeight identityTotal editorOrder
          (firing toLowercase config event context)) := by
  simp only [editorOrder, pushFired, Tally.count_cons, firing, applyEditorSignal]
  split <;> split <;> rfl

theorem applyEditShapeSignals_eq (score : CompositeScore) :
    applyEditShapeSignals toLowercase event config score =
      pushFired score shapeOrder (firing toLowercase config event context) := by
  simp only [shapeOrder, pushFired, Tally.count_cons, firing, elim_ite]
  cases h : detectObviousVandalism toLowercase event config with
  | none => simp only [applyEditShapeSignals, h]; rfl
  | some reason => simp only [applyEditShapeSignals, h]; rfl

theorem applyTrustedAndRevertSignals_eq (score : CompositeScore) (identityTotal : I32) :
    applyTrustedAndRevertSignals event context config (score, identityTotal) =
      (pushFired score trustOrder (firing toLowercase config event context),
        Tally.count addWeight identityTotal [.trustedUser]
          (firing toLowercase config event context)) := by
  simp only [trustOrder, pushFired, Tally.count_cons, firing, elim_ite,
    applyTrustedAndRevertSignals]
  split <;> split <;> rfl

/-- Before the cap the primary pass is one push of what has fired. -/
theorem applyPrimaryEditSignals_eq (score : CompositeScore) :
    applyPrimaryEditSignals toLowercase event config context score =
      applyIdentityContributionCap config.identity.contributionCap
        (pushFired score primaryOrder (firing toLowercase config event context),
          Tally.count addWeight .zero identityOrder (firing toLowercase config event context)) := by
  have identity : identityOrder = editorOrder ++ [.trustedUser] := rfl
  rw [applyPrimaryEditSignals, applyEditorSignal_eq toLowercase config event context]
  dsimp only
  rw [applyEditShapeSignals_eq toLowercase config event context,
    applyTrustedAndRevertSignals_eq toLowercase config event context, identity,
    Tally.count_append, primaryOrder, pushFired, pushFired, pushFired, pushFired,
    Tally.count_append, Tally.count_append]

theorem applyFlaggedContextSignal_eq (flag : FlagState) (signal : ScoringSignal) (weight : I32)
    (note : String) (score : CompositeScore) :
    applyFlaggedContextSignal flag.isEnabled signal weight note score =
      (flagged flag signal weight note).elim score (pushSignal score) := by
  cases flag <;> rfl

theorem applyWarningHistorySignal_eq (score : CompositeScore) :
    applyWarningHistorySignal context config.weights score =
      (firing toLowercase config event context .warningHistory).elim score (pushSignal score) := by
  unfold applyWarningHistorySignal firing
  cases context.userRisk with
  | none => rfl
  | some profile => dsimp only [Option.bind_some]; split <;> rfl

theorem applyLiftwingSignal_eq (score : CompositeScore) :
    applyLiftwingSignal context config.weights score =
      (firing toLowercase config event context .liftWingRisk).elim score (pushSignal score) := by
  unfold applyLiftwingSignal firing
  cases context.liftwingRisk.bind normalizeProbability with
  | none => rfl
  | some boundedRisk => dsimp only [Option.bind_some]; split <;> rfl

theorem applyDuplicatePatternSignal_eq (score : CompositeScore) :
    applyDuplicatePatternSignal context config.weights score =
      (firing toLowercase config event context .duplicatePattern).elim score (pushSignal score) := by
  unfold applyDuplicatePatternSignal firing
  cases context.duplicateClusterSize with
  | none => rfl
  | some clusterSize => dsimp only [Option.bind_some]; split <;> rfl

theorem applyContextSignals_eq (score : CompositeScore) :
    applyContextSignals context config.weights score =
      pushFired score contextOrder (firing toLowercase config event context) := by
  simp only [contextOrder, pushFired, Tally.count_cons, applyContextSignals,
    applyBooleanContextSignals, applyFlaggedContextSignal_eq,
    applyWarningHistorySignal_eq toLowercase config event,
    applyLiftwingSignal_eq toLowercase config event,
    applyDuplicatePatternSignal_eq toLowercase config event]
  rfl

end Passes

end SP42.Scoring

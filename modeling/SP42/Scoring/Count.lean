import SP42.Scoring.Firing

/-!
The total of a score as a function of what has fired: the weights are counted in the
order of the passes, the identity weights are capped in between, and every combination
rule whose signals have all fired adds its own weight.
-/
namespace SP42.Scoring

/-- The total after the identity cap. -/
def capTotal (cap : Option I32) (total identityTotal : I32) : Option I32 :=
  match cap with
  | none => some total
  | some cap => do
      let cap ← cap.abs
      let low ← cap.neg
      let bounded ← identityTotal.clamp low cap
      return total.saturatingAdd (bounded.saturatingSub identityTotal)

/-- Every signal of the rule has fired. -/
def satisfied (fired : ScoringSignal → Option SignalContribution) (rule : ScoringCombinationRule) :
    Bool :=
  rule.whenAll.all fun signal => (fired signal).isSome

def combine (total : I32) (rules : List ScoringCombinationRule) : I32 :=
  rules.foldl (fun total rule => total.saturatingAdd rule.weight) total

def countedTotal (config : ScoringConfig) (fired : ScoringSignal → Option SignalContribution) :
    Option I32 := do
  let primary := Tally.count addWeight config.baseScore primaryOrder fired
  let identityTotal := Tally.count addWeight .zero identityOrder fired
  let capped ← capTotal config.identity.contributionCap primary identityTotal
  let counted := Tally.count addWeight capped contextOrder fired
  (combine counted (config.combinationRules.filter (satisfied fired))).clamp .zero config.maxScore

/-- The signals that a policy can name: neither a combination nor the cap. -/
def Nameable (signal : ScoringSignal) : Prop :=
  signal ≠ .combinationRule ∧ signal ≠ .identityCapAdjustment

theorem capTotal_isSome {cap total identityTotal : I32} (h : 0 ≤ cap.val) :
    (capTotal (some cap) total identityTotal).isSome := by
  obtain ⟨low, negated, value⟩ := I32.neg_of_nonneg h
  have magnitude : cap.abs = some cap := if_neg (by omega)
  obtain ⟨bounded, clamped⟩ := Option.isSome_iff_exists.mp
    (@I32.clamp_isSome identityTotal low cap (by omega))
  simp [capTotal, magnitude, negated, clamped]

theorem countedTotal_isSome {config : ScoringConfig} {cap : I32}
    {fired : ScoringSignal → Option SignalContribution}
    (capped : config.identity.contributionCap = some cap) (positive : 0 ≤ cap.val)
    (bounded : 0 ≤ config.maxScore.val) : (countedTotal config fired).isSome := by
  obtain ⟨total, value⟩ := Option.isSome_iff_exists.mp (@capTotal_isSome cap
    (Tally.count addWeight config.baseScore primaryOrder fired)
    (Tally.count addWeight .zero identityOrder fired) positive)
  simp only [countedTotal, capped, Option.bind_eq_bind, value, Option.bind_some]
  exact I32.clamp_isSome bounded

theorem pushAdjustment_total (score : CompositeScore) (cap adjustment : I32) :
    (pushAdjustment score cap adjustment).total = score.total.saturatingAdd adjustment := by
  unfold pushAdjustment
  by_cases even : adjustment = .zero
  · rw [if_pos even, even, I32.saturatingAdd_zero]
  · rw [if_neg even]
    rfl

theorem pushAdjustment_signals {score : CompositeScore} {cap adjustment : I32}
    {signal : ScoringSignal} (nameable : Nameable signal) :
    signal ∈ (pushAdjustment score cap adjustment).signals ↔ signal ∈ score.signals := by
  unfold pushAdjustment
  by_cases even : adjustment = .zero
  · rw [if_pos even]
  · rw [if_neg even, mem_signals_pushSignal]
    exact or_iff_right nameable.2

theorem applyIdentityContributionCap_total (cap : Option I32) (state : CompositeScore × I32) :
    (applyIdentityContributionCap cap state).map CompositeScore.total =
      capTotal cap state.1.total state.2 := by
  cases cap with
  | none => rfl
  | some cap =>
      simp only [applyIdentityContributionCap, capTotal, Option.map_bind, Option.bind_eq_bind,
        Option.pure_def, Function.comp_def, Option.map_some, pushAdjustment_total]

theorem applyIdentityContributionCap_signals {cap : Option I32} {state : CompositeScore × I32}
    {score : CompositeScore} {signal : ScoringSignal} (nameable : Nameable signal)
    (h : applyIdentityContributionCap cap state = some score) :
    signal ∈ score.signals ↔ signal ∈ state.1.signals := by
  cases cap with
  | none => cases h; exact Iff.rfl
  | some cap =>
      simp only [applyIdentityContributionCap, Option.bind_eq_bind, Option.bind_eq_some_iff] at h
      obtain ⟨_, -, _, -, _, -, pushed⟩ := h
      cases pushed
      exact pushAdjustment_signals nameable

theorem allPresent_iff {rule : ScoringCombinationRule} {contributions : List SignalContribution} :
    allPresent rule contributions = true ↔
      ∀ signal ∈ rule.whenAll, signal ∈ contributions.map SignalContribution.signal := by
  simp only [allPresent, List.all_eq_true, List.any_eq_true, decide_eq_true_eq, List.mem_map]

theorem combinationRules_signals {rules : List ScoringCombinationRule} {score : CompositeScore}
    {signal : ScoringSignal} (nameable : Nameable signal) :
    signal ∈ (applyCombinationRules rules score).signals ↔ signal ∈ score.signals := by
  induction rules generalizing score with
  | nil => exact Iff.rfl
  | cons rule rules ih =>
      rw [applyCombinationRules, List.foldl_cons]
      refine ih.trans ?_
      split
      · rw [mem_signals_pushSignal]
        exact or_iff_right nameable.1
      · exact Iff.rfl

/-- A combination rule that fires does not change which ones are satisfied. -/
theorem combinationRules_total {rules : List ScoringCombinationRule} {score : CompositeScore}
    {fired : ScoringSignal → Option SignalContribution}
    (named : ∀ rule ∈ rules, ∀ signal ∈ rule.whenAll, Nameable signal)
    (present : ∀ signal, Nameable signal → (signal ∈ score.signals ↔ (fired signal).isSome)) :
    (applyCombinationRules rules score).total =
      combine score.total (rules.filter (satisfied fired)) := by
  induction rules generalizing score with
  | nil => rfl
  | cons rule rules ih =>
      obtain ⟨own, others⟩ := List.forall_mem_cons.mp named
      have test : allPresent rule score.contributions = satisfied fired rule := by
        rw [Bool.eq_iff_iff, allPresent_iff, satisfied, List.all_eq_true]
        exact forall₂_congr fun signal listed => present signal (own signal listed)
      rw [applyCombinationRules, List.foldl_cons, test, List.filter_cons]
      split
      · refine (ih others fun signal nameable => ?_).trans rfl
        rw [mem_signals_pushSignal]
        exact (or_iff_right nameable.1).trans (present signal nameable)
      · exact ih others present

section Run

variable (toLowercase : Char → Text) {config : ScoringConfig} {event : EditEvent}
  {context : ScoringContext}

theorem mem_order {signal : ScoringSignal} (nameable : Nameable signal) :
    signal ∈ primaryOrder ∨ signal ∈ contextOrder := by
  obtain ⟨combination, cap⟩ := nameable
  cases signal with
  | combinationRule => exact absurd rfl combination
  | identityCapAdjustment => exact absurd rfl cap
  | _ => decide

/-- After both passes the signals present are those that have fired. -/
theorem passes_signals {primary : CompositeScore} {signal : ScoringSignal}
    (nameable : Nameable signal)
    (h : applyPrimaryEditSignals toLowercase event config context
      { total := config.baseScore, contributions := [] } = some primary) :
    signal ∈ (applyContextSignals context config.weights primary).signals ↔
      (firing toLowercase config event context signal).isSome := by
  rw [applyPrimaryEditSignals_eq] at h
  have named := firing_signal toLowercase config event context
  rw [applyContextSignals_eq toLowercase config event, mem_signals_pushFired named,
    applyIdentityContributionCap_signals nameable h, mem_signals_pushFired named]
  constructor
  · rintro ((none | ⟨-, fires⟩) | ⟨-, fires⟩)
    · cases none
    · exact fires
    · exact fires
  · intro fires
    exact (mem_order nameable).imp (fun early => .inr ⟨early, fires⟩) fun late => ⟨late, fires⟩

/-- On wikitext the scorer computes the counted total. -/
theorem scoreEditWithContext_total
    (ordered : config.baseScore.val ≤ config.maxScore.val)
    (named : ∀ rule ∈ config.combinationRules, ∀ signal ∈ rule.whenAll, Nameable signal)
    (wikitext : (deriveContentModelCapabilities event.contentModel).entityDiff = false) :
    (scoreEditWithContext toLowercase event config context).map
        (Except.map CompositeScore.total) =
      (countedTotal config (firing toLowercase config event context)).map .ok := by
  have base := applyIdentityContributionCap_total config.identity.contributionCap
    (pushFired { total := config.baseScore, contributions := [] } primaryOrder
      (firing toLowercase config event context),
      Tally.count addWeight .zero identityOrder (firing toLowercase config event context))
  rw [← applyPrimaryEditSignals_eq, pushFired_total] at base
  rw [scoreEditWithContext, if_neg (by omega), if_neg (by simp [wikitext]), countedTotal, ← base]
  cases h : applyPrimaryEditSignals toLowercase event config context
      { total := config.baseScore, contributions := [] } with
  | none => rfl
  | some primary =>
      have combined := combinationRules_total named
        fun signal nameable => passes_signals toLowercase nameable h
      have counted : (applyContextSignals context config.weights primary).total =
          Tally.count addWeight primary.total contextOrder
            (firing toLowercase config event context) := by
        rw [applyContextSignals_eq toLowercase config event, pushFired_total]
      simp only [Option.bind_eq_bind, Option.bind_some, Option.map_some, combined, counted]
      cases (combine _ _).clamp .zero config.maxScore <;> rfl

/-- What a returned score lists, on wikitext. -/
theorem scoreEditWithContext_signals {score : CompositeScore} {signal : ScoringSignal}
    (nameable : Nameable signal)
    (wikitext : (deriveContentModelCapabilities event.contentModel).entityDiff = false)
    (h : scoreEditWithContext toLowercase event config context = some (.ok score)) :
    signal ∈ score.signals ↔ (firing toLowercase config event context signal).isSome := by
  unfold scoreEditWithContext at h
  split at h
  · cases h
  · rw [if_neg (by simp [wikitext])] at h
    simp only [Option.bind_eq_bind, Option.bind_eq_some_iff] at h
    obtain ⟨primary, passed, total, -, returned⟩ := h
    cases returned
    exact (combinationRules_signals nameable).trans (passes_signals toLowercase nameable passed)

end Run

end SP42.Scoring

import SP42.Scoring.Firing

/-!
A score is explained by its contributions. Everything a run pushes is one list of
entries; where no addition of the run saturates, the total and the merged
contributions both carry the sum of that list.
-/
namespace SP42.Scoring

/-- The saturating addition of the two is their sum. -/
def ExactAdd (a b : I32) : Prop := (a.saturatingAdd b).val = a.val + b.val

/-- Neither the total nor the entry that takes the weight saturates. -/
def ExactPush (score : CompositeScore) (entry : SignalContribution) : Prop :=
  ExactAdd score.total entry.weight ∧
    ∀ existing ∈ score.contributions, existing.signal = entry.signal →
      ExactAdd existing.weight entry.weight

def ExactPushes : CompositeScore → List SignalContribution → Prop
  | _, [] => True
  | score, entry :: rest => ExactPush score entry ∧ ExactPushes (pushSignal score entry) rest

/-- No addition of the weights to `total` saturates, one after the other. -/
def ExactSum : I32 → List SignalContribution → Prop
  | _, [] => True
  | total, entry :: rest => ExactAdd total entry.weight ∧ ExactSum (addWeight total entry) rest

def pushAll (score : CompositeScore) (entries : List SignalContribution) : CompositeScore :=
  entries.foldl pushSignal score

/-- The weight that the entries of the signals in `which` carry together. -/
def weightOf (which : ScoringSignal → Bool) (entries : List SignalContribution) : Int :=
  ((entries.filter fun entry => which entry.signal).map fun entry => entry.weight.val).sum

def everySignal : ScoringSignal → Bool := fun _ => true

def isIdentity : ScoringSignal → Bool
  | .anonymousUser | .temporaryAccount | .trustedUser | .identityCapAdjustment => true
  | _ => false

section Weights

variable {which : ScoringSignal → Bool}

@[simp] theorem weightOf_nil : weightOf which [] = 0 := rfl

theorem weightOf_cons (entry : SignalContribution) (entries : List SignalContribution) :
    weightOf which (entry :: entries) =
      (if which entry.signal then entry.weight.val else 0) + weightOf which entries := by
  unfold weightOf
  rw [List.filter_cons]
  split
  · rw [List.map_cons, List.sum_cons]
  · rw [Int.zero_add]

theorem weightOf_append (front back : List SignalContribution) :
    weightOf which (front ++ back) = weightOf which front + weightOf which back := by
  unfold weightOf
  rw [List.filter_append, List.map_append, List.sum_append]

theorem weightOf_eq_zero {entries : List SignalContribution}
    (h : ∀ entry ∈ entries, which entry.signal = false) : weightOf which entries = 0 := by
  unfold weightOf
  rw [List.filter_eq_nil_iff.mpr fun entry member => by simp [h entry member]]
  rfl

/-- A merge that does not saturate adds the weight of the entry, to its signal only. -/
theorem weightOf_record {entry : SignalContribution} {contributions : List SignalContribution}
    (exact : ∀ existing ∈ contributions, existing.signal = entry.signal →
      ExactAdd existing.weight entry.weight) :
    weightOf which (record entry contributions) =
      weightOf which contributions + weightOf which [entry] := by
  induction contributions with
  | nil => rw [record, weightOf_nil, Int.zero_add]
  | cons existing rest ih =>
      obtain ⟨own, others⟩ := List.forall_mem_cons.mp exact
      rw [record]
      by_cases same : existing.signal = entry.signal
      · have sum : (existing.weight.saturatingAdd entry.weight).val =
            existing.weight.val + entry.weight.val := own same
        rw [if_pos same]
        simp only [weightOf_cons, weightOf_nil, sum, same]
        split <;> omega
      · rw [if_neg same, weightOf_cons, weightOf_cons existing rest, ih others]
        omega

end Weights

theorem nodup_record {entry : SignalContribution} {contributions : List SignalContribution}
    (h : (contributions.map SignalContribution.signal).Nodup) :
    ((record entry contributions).map SignalContribution.signal).Nodup := by
  induction contributions with
  | nil => exact List.nodup_cons.mpr ⟨List.not_mem_nil, List.nodup_nil⟩
  | cons existing rest ih =>
      obtain ⟨fresh, distinct⟩ := List.nodup_cons.mp h
      rw [record]
      split
      · exact h
      · rename_i other
        rw [List.map_cons, List.nodup_cons]
        refine ⟨fun again => ?_, ih distinct⟩
        rcases mem_signals_record.mp again with same | old
        · exact other same
        · exact fresh old

section Pushes

variable {score : CompositeScore} {entries : List SignalContribution}

theorem pushAll_nodup (h : score.signals.Nodup) : (pushAll score entries).signals.Nodup := by
  induction entries generalizing score with
  | nil => exact h
  | cons entry rest ih => exact ih (nodup_record h)

theorem pushAll_total (exact : ExactPushes score entries) :
    (pushAll score entries).total.val = score.total.val + weightOf everySignal entries := by
  induction entries generalizing score with
  | nil => exact (Int.add_zero _).symm
  | cons entry rest ih =>
      obtain ⟨⟨sum, -⟩, later⟩ := exact
      have first : (pushSignal score entry).total.val = score.total.val + entry.weight.val := sum
      rw [pushAll, List.foldl_cons]
      refine (ih later).trans ?_
      rw [first, weightOf_cons, everySignal, if_pos rfl, Int.add_assoc]

theorem pushAll_weightOf (which : ScoringSignal → Bool) (exact : ExactPushes score entries) :
    weightOf which (pushAll score entries).contributions =
      weightOf which score.contributions + weightOf which entries := by
  induction entries generalizing score with
  | nil => exact (Int.add_zero _).symm
  | cons entry rest ih =>
      obtain ⟨⟨-, merges⟩, later⟩ := exact
      rw [pushAll, List.foldl_cons]
      refine (ih later).trans ?_
      rw [pushSignal, weightOf_record merges, weightOf_cons entry rest, weightOf_cons entry [],
        weightOf_nil, Int.add_zero, Int.add_assoc]

theorem exactSum_total {total : I32} (exact : ExactSum total entries) :
    (entries.foldl addWeight total).val = total.val + weightOf everySignal entries := by
  induction entries generalizing total with
  | nil => exact (Int.add_zero _).symm
  | cons entry rest ih =>
      obtain ⟨sum, later⟩ := exact
      have first : (addWeight total entry).val = total.val + entry.weight.val := sum
      rw [List.foldl_cons]
      refine (ih later).trans ?_
      rw [first, weightOf_cons, everySignal, if_pos rfl, Int.add_assoc]

end Pushes

/-- The entry that the identity cap pushes, if any. -/
def capEntries (cap : Option I32) (identityTotal : I32) : Option (List SignalContribution) :=
  match cap with
  | none => some []
  | some cap => do
      let cap ← cap.abs
      let low ← cap.neg
      let bounded ← identityTotal.clamp low cap
      let adjustment := bounded.saturatingSub identityTotal
      return if adjustment = .zero then []
        else [⟨.identityCapAdjustment, adjustment,
          some ("identity contribution capped to +/- ".toList ++ Text.ofInt cap.val)⟩]

theorem applyIdentityContributionCap_eq (cap : Option I32) (state : CompositeScore × I32) :
    applyIdentityContributionCap cap state = (capEntries cap state.2).map (pushAll state.1) := by
  cases cap with
  | none => rfl
  | some cap =>
      simp only [applyIdentityContributionCap, capEntries, Option.map_bind, Option.bind_eq_bind,
        Option.pure_def, Function.comp_def, Option.map_some, pushAdjustment]
      congr 1
      funext magnitude
      congr 1
      funext low
      congr 1
      funext bounded
      split <;> rfl

/-- The entries that the combination rules push onto a score. -/
def combinationEntries : List ScoringCombinationRule → CompositeScore → List SignalContribution
  | [], _ => []
  | rule :: rules, score =>
      let entry : SignalContribution := ⟨.combinationRule, rule.weight,
        some ("combination rule `".toList ++ rule.slug.toList ++ "` matched".toList)⟩
      if allPresent rule score.contributions then
        entry :: combinationEntries rules (pushSignal score entry)
      else combinationEntries rules score

theorem applyCombinationRules_eq (rules : List ScoringCombinationRule) (score : CompositeScore) :
    applyCombinationRules rules score = pushAll score (combinationEntries rules score) := by
  induction rules generalizing score with
  | nil => rfl
  | cons rule rules ih =>
      rw [applyCombinationRules, List.foldl_cons, combinationEntries]
      split
      · exact ih _
      · exact ih _

theorem combinationEntries_signal {rules : List ScoringCombinationRule} {score : CompositeScore}
    {entry : SignalContribution} (h : entry ∈ combinationEntries rules score) :
    entry.signal = .combinationRule := by
  induction rules generalizing score with
  | nil => cases h
  | cons rule rules ih =>
      rw [combinationEntries] at h
      split at h
      · rcases List.mem_cons.mp h with rfl | later
        · rfl
        · exact ih later
      · exact ih h

section Identity

variable (toLowercase : Char → Text) (config : ScoringConfig) (event : EditEvent)
  (context : ScoringContext)

def fired (order : List ScoringSignal) : List SignalContribution :=
  Tally.cast order (firing toLowercase config event context)

def identityTotal : I32 :=
  (fired toLowercase config event context identityOrder).foldl addWeight .zero

def startScore : CompositeScore := { total := config.baseScore, contributions := [] }

/-- Everything that scoring a wikitext edit pushes, in order; `none` is a panic. -/
def pushed : Option (List SignalContribution) := do
  let capped ← capEntries config.identity.contributionCap
    (identityTotal toLowercase config event context)
  let passes := fired toLowercase config event context primaryOrder ++ capped ++
    fired toLowercase config event context contextOrder
  return passes ++ combinationEntries config.combinationRules (pushAll (startScore config) passes)

theorem fired_signal {order : List ScoringSignal} {entry : SignalContribution}
    (h : entry ∈ fired toLowercase config event context order) : entry.signal ∈ order := by
  obtain ⟨signal, member, fires⟩ := List.mem_filterMap.mp h
  rwa [firing_signal toLowercase config event context signal entry fires]

/-- The identity weights among what has fired are those of the identity signals. -/
theorem weightOf_fired (which : ScoringSignal → Bool) (order : List ScoringSignal) :
    weightOf which (fired toLowercase config event context order) =
      weightOf everySignal (fired toLowercase config event context (order.filter which)) := by
  have own := firing_signal toLowercase config event context
  unfold fired Tally.cast
  induction order with
  | nil => rfl
  | cons signal order ih =>
      rw [List.filter_cons]
      cases fires : firing toLowercase config event context signal with
      | none =>
          rw [List.filterMap_cons_none fires, ih]
          split
          · rw [List.filterMap_cons_none fires]
          · rfl
      | some entry =>
          rw [List.filterMap_cons_some fires, weightOf_cons, ih, own signal entry fires]
          split
          · rw [List.filterMap_cons_some fires, weightOf_cons, everySignal, if_pos rfl]
          · exact Int.zero_add _

theorem identity_primaryOrder : primaryOrder.filter isIdentity = identityOrder := rfl

/-- On wikitext the scorer pushes the entries and clamps the total. -/
theorem scoreEditWithContext_pushed (ordered : config.baseScore.val ≤ config.maxScore.val)
    (wikitext : (deriveContentModelCapabilities event.contentModel).entityDiff = false) :
    scoreEditWithContext toLowercase event config context =
      (pushed toLowercase config event context).bind fun entries =>
        ((pushAll (startScore config) entries).total.clamp .zero config.maxScore).map fun total =>
          .ok { pushAll (startScore config) entries with total := total } := by
  have counted : Tally.count addWeight .zero identityOrder
      (firing toLowercase config event context) =
        identityTotal toLowercase config event context := rfl
  rw [scoreEditWithContext, if_neg (by omega), if_neg (by simp [wikitext]),
    applyPrimaryEditSignals_eq, applyIdentityContributionCap_eq, counted, pushed]
  cases capEntries config.identity.contributionCap
      (identityTotal toLowercase config event context) with
  | none => rfl
  | some capped =>
      have passes : applyContextSignals context config.weights
          (pushAll (pushFired (startScore config) primaryOrder
            (firing toLowercase config event context)) capped) =
          pushAll (startScore config) (fired toLowercase config event context primaryOrder ++
            capped ++ fired toLowercase config event context contextOrder) := by
        rw [applyContextSignals_eq toLowercase config event, pushAll, pushAll, List.foldl_append,
          List.foldl_append]
        rfl
      have all : applyCombinationRules config.combinationRules
          (applyContextSignals context config.weights (pushAll (pushFired (startScore config)
            primaryOrder (firing toLowercase config event context)) capped)) =
          pushAll (startScore config) (fired toLowercase config event context primaryOrder ++
            capped ++ fired toLowercase config event context contextOrder ++
            combinationEntries config.combinationRules (pushAll (startScore config)
              (fired toLowercase config event context primaryOrder ++ capped ++
                fired toLowercase config event context contextOrder))) := by
        rw [passes, applyCombinationRules_eq]
        conv_rhs => rw [pushAll, List.foldl_append]
        rfl
      unfold startScore at all ⊢
      simp only [Option.map_some, Option.bind_eq_bind, Option.bind_some, Option.pure_def, all]
      cases (pushAll _ _).total.clamp .zero config.maxScore <;> rfl

/-- No `i32` operation of the run saturates: not the identity total, nor its distance from
the cap, nor the total, nor an entry that takes a second weight. -/
structure Unsaturated : Prop where
  identity : ExactSum .zero (fired toLowercase config event context identityOrder)
  adjustment : ∀ cap ∈ config.identity.contributionCap, ∀ magnitude ∈ cap.abs,
    ∀ low ∈ magnitude.neg, ∀ bounded ∈ (identityTotal toLowercase config event context).clamp low
      magnitude, (bounded.saturatingSub (identityTotal toLowercase config event context)).val =
        bounded.val - (identityTotal toLowercase config event context).val
  pushes : ∀ entries ∈ pushed toLowercase config event context,
    ExactPushes (startScore config) entries

def scored : Option (Except ScoringError CompositeScore) :=
  scoreEditWithContext toLowercase event config context

/-- The total is the base score and the weights of the contributions, no signal contributes
twice, and a cap that is not negative bounds what the identity signals add. -/
structure Explains (score : CompositeScore) : Prop where
  total : score.total.val = max 0 (min config.maxScore.val
    (config.baseScore.val + weightOf everySignal score.contributions))
  once : score.signals.Nodup
  capped : ∀ cap ∈ config.identity.contributionCap, 0 ≤ cap.val →
    -cap.val ≤ weightOf isIdentity score.contributions ∧
      weightOf isIdentity score.contributions ≤ cap.val

/-- The scorer returns an error or a score in range, which its contributions explain where
nothing saturates. -/
def Explained : Prop :=
  (∃ error, scored toLowercase config event context = some (.error error)) ∨
    ∃ score, scored toLowercase config event context = some (.ok score) ∧
      0 ≤ score.total.val ∧ score.total.val ≤ config.maxScore.val ∧
      (Unsaturated toLowercase config event context → Explains config score)

/-- The configurations and edits on which the scorer does not panic. -/
def Scorable : Prop :=
  config.maxScore.val < config.baseScore.val ∨ 0 ≤ config.maxScore.val ∧
    ((deriveContentModelCapabilities event.contentModel).entityDiff = true ∨
      ∀ cap ∈ config.identity.contributionCap, cap.val ≠ i32Min)

variable {toLowercase config event context}

theorem weightOf_identityOrder : weightOf everySignal (fired toLowercase config event context
    identityOrder) = weightOf isIdentity (fired toLowercase config event context primaryOrder) := by
  rw [weightOf_fired _ _ _ _ isIdentity, identity_primaryOrder]

theorem identityTotal_val (exact : Unsaturated toLowercase config event context) :
    (identityTotal toLowercase config event context).val =
      weightOf isIdentity (fired toLowercase config event context primaryOrder) := by
  rw [identityTotal, exactSum_total exact.identity, weightOf_identityOrder]
  exact Int.zero_add _

/-- What the cap pushes brings the identity weights into the cap's range. -/
theorem capEntries_bounds {cap : I32} {capped : List SignalContribution}
    (set : config.identity.contributionCap = some cap) (positive : 0 ≤ cap.val)
    (exact : Unsaturated toLowercase config event context)
    (h : capEntries (some cap) (identityTotal toLowercase config event context) = some capped) :
    -cap.val ≤ weightOf isIdentity (fired toLowercase config event context primaryOrder) +
        weightOf isIdentity capped ∧
      weightOf isIdentity (fired toLowercase config event context primaryOrder) +
        weightOf isIdentity capped ≤ cap.val := by
  obtain ⟨low, negated, value⟩ := I32.neg_of_nonneg positive
  have magnitude : cap.abs = some cap := if_neg (by omega)
  simp only [capEntries, magnitude, negated, Option.bind_eq_bind, Option.bind_some,
    Option.bind_eq_some_iff] at h
  obtain ⟨bounded, clamped, pushed⟩ := h
  obtain ⟨above, below, -⟩ := I32.clamp_val clamped
  have distance := exact.adjustment cap set cap magnitude low negated bounded clamped
  have weight : weightOf isIdentity capped =
      bounded.val - (identityTotal toLowercase config event context).val := by
    rw [← distance]
    split at pushed
    · next even =>
        cases pushed
        rw [even]
        rfl
    · cases pushed
      rw [weightOf_cons, weightOf_nil, isIdentity, if_pos rfl, Int.add_zero]
  rw [weight, ← identityTotal_val exact]
  omega

/-- Of what is pushed only the primary pass and the cap carry identity weight. -/
theorem weightOf_pushed {entries : List SignalContribution}
    (h : pushed toLowercase config event context = some entries) :
    ∃ capped, capEntries config.identity.contributionCap
        (identityTotal toLowercase config event context) = some capped ∧
      weightOf isIdentity entries =
        weightOf isIdentity (fired toLowercase config event context primaryOrder) +
          weightOf isIdentity capped := by
  simp only [pushed, Option.bind_eq_bind, Option.bind_eq_some_iff] at h
  obtain ⟨capped, counted, returned⟩ := h
  cases returned
  have late : weightOf isIdentity (fired toLowercase config event context contextOrder) = 0 := by
    refine weightOf_eq_zero fun entry member => ?_
    have listed := fired_signal toLowercase config event context member
    revert listed
    cases entry.signal <;> decide
  have combined : ∀ score, weightOf isIdentity
      (combinationEntries config.combinationRules score) = 0 := by
    refine fun score => weightOf_eq_zero fun entry member => ?_
    rw [combinationEntries_signal member]
    rfl
  refine ⟨capped, counted, ?_⟩
  rw [weightOf_append, weightOf_append, weightOf_append, late, combined]
  omega

/-- Where nothing saturates, the pushed entries explain the score with its clamped total. -/
theorem explains_pushed {entries : List SignalContribution} {total : I32}
    (h : pushed toLowercase config event context = some entries)
    (clamped : (pushAll (startScore config) entries).total.clamp .zero config.maxScore = some total)
    (exact : Unsaturated toLowercase config event context) :
    Explains config { pushAll (startScore config) entries with total := total } := by
  have pushes := exact.pushes entries h
  have none : ∀ which, weightOf which (startScore config).contributions = 0 := fun _ => rfl
  constructor
  · obtain ⟨-, -, value⟩ := I32.clamp_val clamped
    dsimp only
    rw [pushAll_weightOf everySignal pushes, none, Int.zero_add, value, pushAll_total pushes]
    rfl
  · exact pushAll_nodup List.nodup_nil
  · intro cap set positive
    obtain ⟨capped, counted, weight⟩ := weightOf_pushed h
    dsimp only
    rw [pushAll_weightOf isIdentity pushes, none, Int.zero_add, weight]
    rw [set] at counted
    exact capEntries_bounds set positive exact counted

theorem capEntries_isSome_iff (cap : Option I32) (identityTotal : I32) :
    (capEntries cap identityTotal).isSome ↔ ∀ c ∈ cap, c.val ≠ i32Min := by
  cases cap with
  | none =>
      refine iff_of_true rfl fun c member => ?_
      cases member
  | some cap =>
      simp only [Option.mem_some_iff, forall_eq']
      by_cases least : cap.val = i32Min
      · refine iff_of_false ?_ (not_not_intro least)
        rw [capEntries, I32.abs_min least]
        exact Bool.false_ne_true
      · refine iff_of_true ?_ least
        obtain ⟨magnitude, absolute, positive⟩ := I32.abs_eq_some cap least
        obtain ⟨low, negated, value⟩ := I32.neg_of_nonneg positive
        obtain ⟨bounded, clamped⟩ := Option.isSome_iff_exists.mp
          (@I32.clamp_isSome identityTotal low magnitude (by omega))
        simp only [capEntries, absolute, negated, clamped, Option.bind_eq_bind, Option.bind_some]
        rfl

theorem pushed_isSome_iff : (pushed toLowercase config event context).isSome ↔
    ∀ cap ∈ config.identity.contributionCap, cap.val ≠ i32Min := by
  rw [← capEntries_isSome_iff _ (identityTotal toLowercase config event context), pushed]
  cases capEntries config.identity.contributionCap
    (identityTotal toLowercase config event context) <;> rfl

theorem clamp_zero_none {a high : I32} (h : high.val < 0) : a.clamp .zero high = none :=
  if_pos h

/-- Entity content has the clamped base score and no contributions. -/
theorem explained_entity (ordered : config.baseScore.val ≤ config.maxScore.val)
    (bounded : 0 ≤ config.maxScore.val)
    (content : (deriveContentModelCapabilities event.contentModel).entityDiff = true) :
    Explained toLowercase config event context := by
  obtain ⟨total, clamped⟩ := Option.isSome_iff_exists.mp
    (@I32.clamp_isSome config.baseScore .zero config.maxScore bounded)
  obtain ⟨above, below, value⟩ := I32.clamp_val clamped
  have returned : scored toLowercase config event context =
      some (.ok { total := total, contributions := [] }) := by
    rw [scored, scoreEditWithContext, if_neg (by omega), if_pos content, clamped]
    rfl
  refine .inr ⟨_, returned, above, below, fun _ => ⟨?_, List.nodup_nil, ?_⟩⟩
  · rw [value, weightOf_nil, Int.add_zero]
    rfl
  · intro cap _ positive
    rw [weightOf_nil]
    omega

theorem explained_wikitext_iff (ordered : config.baseScore.val ≤ config.maxScore.val)
    (bounded : 0 ≤ config.maxScore.val)
    (content : (deriveContentModelCapabilities event.contentModel).entityDiff = false) :
    Explained toLowercase config event context ↔
      (pushed toLowercase config event context).isSome := by
  have run : scored toLowercase config event context = _ :=
    scoreEditWithContext_pushed toLowercase config event context ordered content
  rw [Explained, run]
  cases entered : pushed toLowercase config event context with
  | none => simp
  | some entries =>
      obtain ⟨total, clamped⟩ := Option.isSome_iff_exists.mp (@I32.clamp_isSome
        (pushAll (startScore config) entries).total .zero config.maxScore bounded)
      obtain ⟨above, below, -⟩ := I32.clamp_val clamped
      refine iff_of_true (.inr ⟨{ pushAll (startScore config) entries with total := total },
        ?_, above, below, explains_pushed entered clamped⟩) rfl
      rw [Option.bind_some, clamped]
      rfl

/-- The last clamp asserts that the maximum is not below zero. -/
theorem scored_panics (ordered : config.baseScore.val ≤ config.maxScore.val)
    (negative : config.maxScore.val < 0) : scored toLowercase config event context = none := by
  cases content : (deriveContentModelCapabilities event.contentModel).entityDiff with
  | true =>
      rw [scored, scoreEditWithContext, if_neg (by omega), if_pos content,
        clamp_zero_none negative]
      rfl
  | false =>
      rw [scored, scoreEditWithContext_pushed toLowercase config event context ordered content]
      refine Option.bind_eq_none_iff.mpr fun entries _ => ?_
      rw [clamp_zero_none negative]
      rfl

/-- Exactly when the scorer keeps its contract: it panics on a maximum below zero that is not
below the base score and, on wikitext, on the least `i32` as the cap. -/
theorem explained_iff :
    Explained toLowercase config event context ↔ Scorable config event := by
  by_cases ordered : config.baseScore.val ≤ config.maxScore.val
  · by_cases bounded : 0 ≤ config.maxScore.val
    · cases content : (deriveContentModelCapabilities event.contentModel).entityDiff with
      | true =>
          exact iff_of_true (explained_entity ordered bounded content)
            (.inr ⟨bounded, .inl content⟩)
      | false =>
          rw [explained_wikitext_iff ordered bounded content, pushed_isSome_iff, Scorable, content]
          simp only [Bool.false_eq_true, false_or]
          exact ⟨fun h => .inr ⟨bounded, h⟩, fun h => h.elim (fun less => by omega) And.right⟩
    · have panics := @scored_panics toLowercase config event context ordered (by omega)
      refine iff_of_false ?_ fun scorable => scorable.elim (fun less => by omega)
        fun positive => bounded positive.1
      rw [Explained, panics]
      simp
  · refine iff_of_true (.inl ?_) (.inl (by omega))
    rw [scored, scoreEditWithContext, if_pos (by omega)]
    exact ⟨_, rfl⟩

end Identity

section Negative

/-- A scale below zero: the maximum is above the base score. -/
def negativeConfig : ScoringConfig where
  baseScore := .saturate (-5)
  maxScore := .saturate (-1)
  identity := ⟨none, .disabled, .disabled, .disabled⟩
  weights := ⟨.zero, .zero, .zero, .zero, .zero, .zero, .zero, .zero, .zero, .zero, .zero, .zero,
    .zero, .zero, .zero, .zero, .zero, .zero, .zero, .zero⟩
  signalParameters := ⟨.saturate (-500), .saturate (-5000), 6, [], [], [], [], []⟩
  combinationRules := []
  externalEvaluation := ⟨.disabled, .zero⟩

def plainEvent : EditEvent where
  title := "Example".toList
  performer := .registered "Ada".toList
  isBot := .disabled
  isNewPage := .disabled
  tags := []
  comment := none
  byteDelta := .zero
  contentModel := some wikitextContentModel

/-- The configuration passes the check of the scorer, which then panics. -/
theorem negative_maximum_panics :
    ¬ Explained (fun c => [c.toLower]) negativeConfig plainEvent .default := by
  have panics : scored (fun c => [c.toLower]) negativeConfig plainEvent .default = none := by
    decide +kernel
  rw [Explained, panics]
  simp

end Negative

end SP42.Scoring

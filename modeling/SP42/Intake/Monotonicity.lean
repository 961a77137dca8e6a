import SP42.Intake.Verdict

/-!
Filling in a fact that was never fetched completes a verdict and never
contradicts one. `Fills` is the information order on items; leaves respect it
because an absent field is their only source of unknown about built-in facts,
and the connectives respect it because they are Kleene connectives.
-/
namespace SP42.Intake

/-- `item'` is `item` with some of its missing facts filled in. A custom field may
answer anything on `item'` only where it was absent on `item`. -/
structure Fills (context : IntakeContext) (item item' : IntakeItem) : Prop where
  wikiId : item'.wikiId = item.wikiId
  eventType : item'.eventType = item.eventType
  namespace_ : item'.namespace_ = item.namespace_
  pageId : item.pageId = none ∨ item'.pageId = item.pageId
  revisionId : item.revisionId = none ∨ item'.revisionId = item.revisionId
  createdAt : item.createdAt = none ∨ item'.createdAt = item.createdAt
  lastRevisionAt : item.lastRevisionAt = none ∨ item'.lastRevisionAt = item.lastRevisionAt
  username : item.actor.username = none ∨ item'.actor.username = item.actor.username
  rights : item.actor.rights = none ∨ item'.actor.rights = item.actor.rights
  isBot : item'.actor.isBot = item.actor.isBot
  accountCreatedAt : item.actor.accountCreatedAt = none ∨
    item'.actor.accountCreatedAt = item.actor.accountCreatedAt
  observedAt : item'.observedAt = item.observedAt
  payloadRef : item'.payloadRef = item.payloadRef
  customFields : ∀ name, context.customFields name item = .ok .absent ∨
    context.customFields name item' = context.customFields name item

theorem resolveField_fills {context : IntakeContext} {item item' : IntakeItem}
    (fills : Fills context item item') (field : IntakeField) :
    resolveField field item context = .ok .absent ∨
      resolveField field item' context = resolveField field item context := by
  cases field with
  | eventType => exact .inr (by simp only [resolveField, fills.eventType])
  | namespace_ => exact .inr (by simp only [resolveField, fills.namespace_])
  | actorIsBot => exact .inr (by simp only [resolveField, fills.isBot])
  | observedAt => exact .inr (by simp only [resolveField, fills.observedAt])
  | pageId =>
      refine fills.pageId.imp (fun h => ?_) (fun h => ?_)
      · simp [resolveField, optionalNumber, h]
      · simp only [resolveField, h]
  | revisionId =>
      refine fills.revisionId.imp (fun h => ?_) (fun h => ?_)
      · simp [resolveField, optionalNumber, h]
      · simp only [resolveField, h]
  | createdAt =>
      refine fills.createdAt.imp (fun h => ?_) (fun h => ?_)
      · simp [resolveField, optionalInstant, h]
      · simp only [resolveField, h]
  | lastRevisionAt =>
      refine fills.lastRevisionAt.imp (fun h => ?_) (fun h => ?_)
      · simp [resolveField, optionalInstant, h]
      · simp only [resolveField, h]
  | actorUsername =>
      refine fills.username.imp (fun h => ?_) (fun h => ?_)
      · simp [resolveField, h]
      · simp only [resolveField, h]
  | actorRights =>
      refine fills.rights.imp (fun h => ?_) (fun h => ?_)
      · simp [resolveField, h]
      · simp only [resolveField, h]
  | actorAccountCreatedAt =>
      refine fills.accountCreatedAt.imp (fun h => ?_) (fun h => ?_)
      · simp [resolveField, optionalInstant, h]
      · simp only [resolveField, h]
  | custom name =>
      rw [resolveField_custom, resolveField_custom]
      rcases fills.customFields name with absent | same
      · exact .inl (by rw [absent]; rfl)
      · exact .inr (by rw [same])

theorem evalRule_fills {context : IntakeContext} {item item' : IntakeItem}
    (fills : Fills context item item') (rule : IntakeRule) :
    evalRule rule item context = .ok .unknown ∨
      evalRule rule item' context = evalRule rule item context := by
  rcases resolveField_fills fills rule.field with absent | same
  · exact .inl (evalRule_absent absent)
  · exact .inr (by simp only [evalRule, same])

theorem map_eq_ok {ε α β : Type} {f : α → β} {result : Except ε α} {y : β} :
    f <$> result = .ok y ↔ ∃ x, result = .ok x ∧ f x = y := by
  cases result <;> simp [Functor.map, Except.map]

/-- Children that are each monotone are monotone as a list. -/
theorem verdicts_mono {cs : List IntakeCondition} {context : IntakeContext}
    {item item' : IntakeItem}
    (h : ∀ c ∈ cs, ∀ {t u}, verdict c item context = .ok t → verdict c item' context = .ok u →
      t.Refines u)
    {ts us : List Tri} (ht : verdicts cs item context = .ok ts)
    (hu : verdicts cs item' context = .ok us) : List.Forall₂ Tri.Refines ts us := by
  rw [verdicts_eq_mapM, Traverse.mapM_eq_ok] at ht hu
  induction cs generalizing ts us with
  | nil =>
      cases ht
      cases hu
      exact .nil
  | cons c cs ih =>
      cases ht with
      | cons ht hts =>
          cases hu with
          | cons hu hus =>
              exact .cons (h c List.mem_cons_self ht hu)
                (ih (fun d hd => h d (List.mem_cons_of_mem _ hd)) hts hus)

theorem verdict_mono {context : IntakeContext} {item item' : IntakeItem}
    (fills : Fills context item item') (c : IntakeCondition) {t u : Tri}
    (ht : verdict c item context = .ok t) (hu : verdict c item' context = .ok u) :
    t.Refines u := by
  induction c generalizing t u with
  | all cs ih =>
      rw [verdict, map_eq_ok] at ht hu
      obtain ⟨ts, hts, rfl⟩ := ht
      obtain ⟨us, hus, rfl⟩ := hu
      exact triAll_mono (verdicts_mono (fun c hc => ih c hc) hts hus)
  | any cs ih =>
      rw [verdict, map_eq_ok] at ht hu
      obtain ⟨ts, hts, rfl⟩ := ht
      obtain ⟨us, hus, rfl⟩ := hu
      exact triAny_mono (verdicts_mono (fun c hc => ih c hc) hts hus)
  | not c ih =>
      rw [verdict, map_eq_ok] at ht hu
      obtain ⟨s, hs, rfl⟩ := ht
      obtain ⟨r, hr, rfl⟩ := hu
      exact triNot_mono (ih hs hr)
  | rule r =>
      rw [verdict] at ht hu
      rcases evalRule_fills fills r with unknown | same
      · rw [ht] at unknown
        cases unknown
        exact Tri.unknown_refines u
      · rw [same, ht] at hu
        cases hu
        exact Tri.Refines.refl t

/-- Edits, and whatever happens outside one listed page. -/
def sampleEdits : IntakePipeline where
  id := "edits"
  condition := .any [.rule ⟨.eventType, .eq, .str "edit"⟩, .rule ⟨.pageId, .notIn, .intList [7]⟩]
  onPass := .admitTo "patrol"
  onFail := .drop
  onUnknown := none

/-- A definite verdict survives every completion of the item, up to a report of a
misconfiguration the missing facts had hidden. -/
theorem evaluateIntake_monotone (sha256Hex : ByteArray → String) (p : IntakePipeline)
    (compiled : CompiledPipeline) (context : IntakeContext) (item item' : IntakeItem) (t : Tri)
    (outcome : IntakeOutcome) (accepted : compilePipeline sha256Hex p = .ok compiled)
    (fills : Fills context item item') (definite : t ≠ .unknown)
    (routed : RoutedBy compiled context item t outcome) :
    IsMisconfigured compiled context item' ∨ RoutedBy compiled context item' t outcome := by
  have valid := compilePipeline_valid accepted
  obtain ⟨known, rfl⟩ := (routedBy_iff valid t outcome).mp routed
  rcases misconfigured_or_routed context item' valid with bad | ⟨u, good⟩
  · exact .inl bad
  · obtain ⟨completed, _⟩ := (routedBy_iff valid u _).mp good
    have same := (verdict_mono fills _ known completed).eq definite
    exact .inr (same ▸ good)

/-- Whatever `sha256Hex` is elsewhere, this is its value on the bytes of `sampleEdits`. -/
def sampleEditsSha256 : ByteArray → String :=
  fun _ => "c67311b09596e90cfed63874af09679096090d3ee47aeba39d2943a229ee6d6d"

/-- An edit whose page was not fetched, completed with a page id. -/
theorem evaluateIntake_monotone_edit :
    IsMisconfigured ⟨sampleEdits, configDigest sampleEditsSha256 sampleEdits⟩ (.bare 10000)
        { IntakeItem.unfetched "frwiki" "edit" 0 10000 with pageId := some 7 } ∨
      RoutedBy ⟨sampleEdits, configDigest sampleEditsSha256 sampleEdits⟩ (.bare 10000)
        { IntakeItem.unfetched "frwiki" "edit" 0 10000 with pageId := some 7 } .true
        (.admitTo "patrol") :=
  evaluateIntake_monotone sampleEditsSha256 sampleEdits _ (.bare 10000)
    (.unfetched "frwiki" "edit" 0 10000) _ .true (.admitTo "patrol") rfl
    ⟨rfl, rfl, rfl, .inl rfl, .inr rfl, .inr rfl, .inr rfl, .inr rfl, .inr rfl, rfl, .inr rfl, rfl,
      rfl, fun _ => .inr rfl⟩
    (by decide) ⟨["event_type.eq"], by decide, by decide⟩

end SP42.Intake

import Mathlib
import SP42.Intake.Agreement
import SP42.Intake.Monotonicity

/-!
Rewriting a ruleset. The connectives are Kleene's, so a condition may be reordered, flattened,
distributed and negated by De Morgan's laws. As long as its rules stay, the pipeline is accepted
as before, routes every item as before and reports the same items as misconfigured.
-/
namespace SP42.Intake

/-- Conditions that say the same in another order or form, with the same rules. -/
inductive Rearranged : IntakeCondition → IntakeCondition → Prop
  | refl (c : IntakeCondition) : Rearranged c c
  | symm {c d : IntakeCondition} : Rearranged c d → Rearranged d c
  | trans {c d e : IntakeCondition} : Rearranged c d → Rearranged d e → Rearranged c e
  | all_perm {cs ds : List IntakeCondition} : cs.Perm ds → Rearranged (.all cs) (.all ds)
  | any_perm {cs ds : List IntakeCondition} : cs.Perm ds → Rearranged (.any cs) (.any ds)
  | all_child {c d : IntakeCondition} (cs : List IntakeCondition) :
      Rearranged c d → Rearranged (.all (c :: cs)) (.all (d :: cs))
  | any_child {c d : IntakeCondition} (cs : List IntakeCondition) :
      Rearranged c d → Rearranged (.any (c :: cs)) (.any (d :: cs))
  | not_child {c d : IntakeCondition} : Rearranged c d → Rearranged (.not c) (.not d)
  | not_not (c : IntakeCondition) : Rearranged (.not (.not c)) c
  | not_all {cs : List IntakeCondition} : cs ≠ [] →
      Rearranged (.not (.all cs)) (.any (cs.map .not))
  | all_nested (cs ds : List IntakeCondition) :
      Rearranged (.all (.all cs :: ds)) (.all (cs ++ ds))
  | all_twice (c : IntakeCondition) (cs : List IntakeCondition) :
      Rearranged (.all (c :: c :: cs)) (.all (c :: cs))
  | all_any {cs : List IntakeCondition} (ds : List IntakeCondition) : cs ≠ [] →
      Rearranged (.all (.any cs :: ds)) (.any (cs.map fun c => .all (c :: ds)))

section Connectives

theorem Tri.denote_inj {t u : Tri} (same : t.denote = u.denote) : t = u := by
  cases t <;> cases u <;> first | rfl | cases same

theorem triNot_triNot (t : Tri) : triNot (triNot t) = t := by
  cases t <;> rfl

theorem triAll_perm {ts us : List Tri} (reordered : ts.Perm us) : triAll ts = triAll us := by
  apply Tri.denote_inj
  rw [triAll_denote, triAll_denote, Kleene.conj_perm (reordered.map _)]

theorem triAll_nested (ts us : List Tri) : triAll (triAll ts :: us) = triAll (ts ++ us) := by
  apply Tri.denote_inj
  rw [triAll_denote, triAll_denote, List.map_cons, triAll_denote, Kleene.conj_nested,
    List.map_append]

theorem triAll_cons (t : Tri) (ts : List Tri) : triAll (t :: ts) = triAll [t, triAll ts] := by
  have nested := triAll_nested ts [t]
  rw [triAll_perm (List.Perm.swap (triAll ts) t []), nested]
  exact triAll_perm (List.perm_append_singleton t ts).symm

theorem triAll_twice (t : Tri) (ts : List Tri) : triAll (t :: t :: ts) = triAll (t :: ts) := by
  rw [triAll_cons, triAll_cons t ts]
  cases t <;> cases triAll ts <;> rfl

theorem triAny_perm {ts us : List Tri} (reordered : ts.Perm us) : triAny ts = triAny us := by
  rcases eq_or_ne ts [] with rfl | inhabited
  · rw [reordered.nil_eq]
  · have other : us ≠ [] := fun empty => inhabited (reordered.trans (by rw [empty])).eq_nil
    rw [triAny_dual inhabited, triAny_dual other, triAll_perm (reordered.map _)]

theorem triNot_triAll {ts : List Tri} (inhabited : ts ≠ []) :
    triNot (triAll ts) = triAny (ts.map triNot) := by
  have back : (ts.map triNot).map triNot = ts := by
    rw [List.map_map]
    exact (List.map_congr_left fun t _ => triNot_triNot t).trans (List.map_id ts)
  rw [triAny_dual (by simpa using inhabited), back]

theorem triAny_cons (t : Tri) {ts : List Tri} (inhabited : ts ≠ []) :
    triAny (t :: ts) = triAny [t, triAny ts] := by
  rw [triAny_dual (List.cons_ne_nil _ _), List.map_cons, triAll_cons, triAny_dual inhabited]
  cases t <;> cases triAll (ts.map triNot) <;> rfl

/-- A conjunct is taken into every alternative. -/
theorem triAll_triAny {ts : List Tri} (inhabited : ts ≠ []) (us : List Tri) :
    triAll (triAny ts :: us) = triAny (ts.map fun t => triAll (t :: us)) := by
  have first : ∀ t, triAll (t :: us) = triAll [t, triAll us] := fun t => triAll_cons t us
  simp only [first]
  induction ts with
  | nil => exact absurd rfl inhabited
  | cons t ts ih =>
      rcases eq_or_ne ts [] with rfl | more
      · cases t <;> cases triAll us <;> rfl
      · have rest := ih more
        have mapped : ts.map (fun t => triAll [t, triAll us]) ≠ [] := by simpa using more
        rw [triAny_cons t more, List.map_cons, triAny_cons _ mapped, ← rest]
        cases t <;> cases triAny ts <;> cases triAll us <;> rfl

end Connectives

section Verdicts

variable {item : IntakeItem} {context : IntakeContext}

/-- The verdicts of the children, one by one. -/
abbrev Values (item : IntakeItem) (context : IntakeContext) :
    List IntakeCondition → List Tri → Prop :=
  List.Forall₂ fun c t => verdict c item context = .ok t

theorem verdict_all_iff (cs : List IntakeCondition) (t : Tri) :
    verdict (.all cs) item context = .ok t ↔ ∃ ts, Values item context cs ts ∧ triAll ts = t := by
  rw [verdict, map_eq_ok]
  simp only [verdicts_eq_mapM, Traverse.mapM_eq_ok]

theorem verdict_any_iff (cs : List IntakeCondition) (t : Tri) :
    verdict (.any cs) item context = .ok t ↔ ∃ ts, Values item context cs ts ∧ triAny ts = t := by
  rw [verdict, map_eq_ok]
  simp only [verdicts_eq_mapM, Traverse.mapM_eq_ok]

theorem verdict_not_iff (c : IntakeCondition) (t : Tri) :
    verdict (.not c) item context = .ok t ↔ ∃ u, verdict c item context = .ok u ∧ triNot u = t := by
  rw [verdict, map_eq_ok]

/-- The verdicts follow their conditions to another order. -/
theorem Values.reordered {cs ds : List IntakeCondition} {ts : List Tri}
    (values : Values item context cs ts) (perm : cs.Perm ds) :
    ∃ us, Values item context ds us ∧ us.Perm ts :=
  List.perm_comp_forall₂ perm.symm values

theorem values_map_iff {f : IntakeCondition → IntakeCondition} {g : Tri → Tri}
    (through : ∀ c t, verdict (f c) item context = .ok t ↔
      ∃ u, verdict c item context = .ok u ∧ g u = t) (cs : List IntakeCondition) (us : List Tri) :
    Values item context (cs.map f) us ↔ ∃ ts, Values item context cs ts ∧ ts.map g = us := by
  induction cs generalizing us with
  | nil => simp [Values, eq_comm]
  | cons c cs ih =>
      rw [List.map_cons]
      constructor
      · intro values
        cases values with
        | cons head tail =>
            obtain ⟨t, here, rfl⟩ := (through c _).mp head
            obtain ⟨ts, there, rfl⟩ := (ih _).mp tail
            exact ⟨t :: ts, .cons here there, rfl⟩
      · rintro ⟨ts, values, rfl⟩
        cases values with
        | cons head tail => exact .cons ((through c _).mpr ⟨_, head, rfl⟩) ((ih _).mpr ⟨_, tail, rfl⟩)

theorem Values.ne_nil {cs : List IntakeCondition} {ts : List Tri} (values : Values item context cs ts)
    (inhabited : cs ≠ []) : ts ≠ [] := by
  rintro rfl
  exact inhabited (List.forall₂_nil_right_iff.mp values)

theorem Values.unique {cs : List IntakeCondition} {ts us : List Tri}
    (values : Values item context cs ts) (others : Values item context cs us) : us = ts := by
  induction values generalizing us with
  | nil => exact List.forall₂_nil_left_iff.mp others
  | cons head _ ih =>
      cases others with
      | cons other rest =>
          rw [ih rest, Except.ok.inj (other.symm.trans head)]

/-- With the verdicts of the other conjuncts known, one verdict decides a conjunction. -/
theorem verdict_all_cons_iff {ds : List IntakeCondition} {us : List Tri}
    (tail : Values item context ds us) (c : IntakeCondition) (t : Tri) :
    verdict (.all (c :: ds)) item context = .ok t ↔
      ∃ u, verdict c item context = .ok u ∧ triAll (u :: us) = t := by
  rw [verdict_all_iff]
  constructor
  · rintro ⟨_, values, rfl⟩
    obtain ⟨u, vs, head, rest, rfl⟩ := List.forall₂_cons_left_iff.mp values
    exact ⟨u, head, by rw [tail.unique rest]⟩
  · rintro ⟨u, head, rfl⟩
    exact ⟨_, .cons head tail, rfl⟩

/-- Where one of the distributed alternatives has a verdict, the common conjuncts have. -/
theorem values_of_any {cs ds : List IntakeCondition} {vs : List Tri} (inhabited : cs ≠ [])
    (values : Values item context (cs.map fun c => .all (c :: ds)) vs) :
    ∃ us, Values item context ds us := by
  obtain ⟨c, cs, rfl⟩ := List.exists_cons_of_ne_nil inhabited
  obtain ⟨v, _, head, -, -⟩ := List.forall₂_cons_left_iff.mp values
  obtain ⟨_, inner, -⟩ := (verdict_all_iff _ v).mp head
  obtain ⟨_, us, -, tail, -⟩ := List.forall₂_cons_left_iff.mp inner
  exact ⟨us, tail⟩

/-- Rearranged conditions have the same verdict, on every item and in every context. -/
theorem rearranged_verdict {c d : IntakeCondition} (same : Rearranged c d) (t : Tri) :
    verdict c item context = .ok t ↔ verdict d item context = .ok t := by
  induction same generalizing t with
  | refl c => exact Iff.rfl
  | symm _ ih => exact (ih t).symm
  | trans _ _ first second => exact (first t).trans (second t)
  | all_perm perm =>
      rw [verdict_all_iff, verdict_all_iff]
      constructor
      · rintro ⟨ts, values, rfl⟩
        obtain ⟨us, values, same⟩ := values.reordered perm
        exact ⟨us, values, triAll_perm same⟩
      · rintro ⟨ts, values, rfl⟩
        obtain ⟨us, values, same⟩ := values.reordered perm.symm
        exact ⟨us, values, triAll_perm same⟩
  | any_perm perm =>
      rw [verdict_any_iff, verdict_any_iff]
      constructor
      · rintro ⟨ts, values, rfl⟩
        obtain ⟨us, values, same⟩ := values.reordered perm
        exact ⟨us, values, triAny_perm same⟩
      · rintro ⟨ts, values, rfl⟩
        obtain ⟨us, values, same⟩ := values.reordered perm.symm
        exact ⟨us, values, triAny_perm same⟩
  | all_child cs _ ih =>
      rw [verdict_all_iff, verdict_all_iff]
      simp only [Values, List.forall₂_cons_left_iff, ih]
  | any_child cs _ ih =>
      rw [verdict_any_iff, verdict_any_iff]
      simp only [Values, List.forall₂_cons_left_iff, ih]
  | not_child _ ih =>
      rw [verdict_not_iff, verdict_not_iff]
      simp only [ih]
  | not_not c =>
      rw [verdict_not_iff]
      constructor
      · rintro ⟨u, inner, rfl⟩
        obtain ⟨v, value, rfl⟩ := (verdict_not_iff c u).mp inner
        rw [triNot_triNot]
        exact value
      · intro value
        exact ⟨triNot t, (verdict_not_iff c _).mpr ⟨t, value, rfl⟩, triNot_triNot t⟩
  | @not_all cs inhabited =>
      rw [verdict_not_iff, verdict_any_iff]
      simp only [verdict_all_iff, values_map_iff verdict_not_iff]
      constructor
      · rintro ⟨_, ⟨ts, values, rfl⟩, rfl⟩
        exact ⟨_, ⟨ts, values, rfl⟩, (triNot_triAll (values.ne_nil inhabited)).symm⟩
      · rintro ⟨_, ⟨ts, values, rfl⟩, rfl⟩
        exact ⟨_, ⟨ts, values, rfl⟩, triNot_triAll (values.ne_nil inhabited)⟩
  | all_nested cs ds =>
      rw [verdict_all_iff, verdict_all_iff]
      constructor
      · rintro ⟨_, values, rfl⟩
        cases values with
        | cons head tail =>
            obtain ⟨ts, inner, rfl⟩ := (verdict_all_iff cs _).mp head
            exact ⟨_, List.rel_append inner tail, (triAll_nested ts _).symm⟩
      · rintro ⟨ts, values, rfl⟩
        have front := (List.forall₂_take_append ts cs ds values.flip).flip
        have back := (List.forall₂_drop_append ts cs ds values.flip).flip
        refine ⟨_, .cons ((verdict_all_iff cs _).mpr ⟨_, front, rfl⟩) back, ?_⟩
        rw [triAll_nested, List.take_append_drop]
  | all_twice c cs =>
      rw [verdict_all_iff, verdict_all_iff]
      constructor
      · rintro ⟨_, values, rfl⟩
        obtain ⟨u, ts, head, rest, rfl⟩ := List.forall₂_cons_left_iff.mp values
        obtain ⟨v, ts, again, tail, rfl⟩ := List.forall₂_cons_left_iff.mp rest
        obtain rfl : v = u := Except.ok.inj (again.symm.trans head)
        exact ⟨_, .cons head tail, (triAll_twice v ts).symm⟩
      · rintro ⟨_, values, rfl⟩
        obtain ⟨u, ts, head, tail, rfl⟩ := List.forall₂_cons_left_iff.mp values
        exact ⟨_, .cons head (.cons head tail), triAll_twice u ts⟩
  | @all_any cs ds inhabited =>
      rw [verdict_all_iff, verdict_any_iff]
      constructor
      · rintro ⟨_, values, rfl⟩
        obtain ⟨v, us, head, tail, rfl⟩ := List.forall₂_cons_left_iff.mp values
        obtain ⟨ts, inner, rfl⟩ := (verdict_any_iff cs v).mp head
        refine ⟨_, (values_map_iff (verdict_all_cons_iff tail) cs _).mpr ⟨ts, inner, rfl⟩, ?_⟩
        exact (triAll_triAny (inner.ne_nil inhabited) us).symm
      · rintro ⟨vs, values, rfl⟩
        obtain ⟨us, tail⟩ := values_of_any inhabited values
        obtain ⟨ts, inner, rfl⟩ := (values_map_iff (verdict_all_cons_iff tail) cs vs).mp values
        refine ⟨_, .cons ((verdict_any_iff cs _).mpr ⟨ts, inner, rfl⟩) tail, ?_⟩
        exact triAll_triAny (inner.ne_nil inhabited) us

end Verdicts

section Rules

variable {r : IntakeRule}

theorem occurs_all_iff (cs : List IntakeCondition) :
    Occurs r (.all cs) ↔ ∃ c ∈ cs, Occurs r c := by
  constructor
  · intro here
    cases here with
    | all mem inner => exact ⟨_, mem, inner⟩
  · rintro ⟨c, mem, inner⟩
    exact .all mem inner

theorem occurs_any_iff (cs : List IntakeCondition) :
    Occurs r (.any cs) ↔ ∃ c ∈ cs, Occurs r c := by
  constructor
  · intro here
    cases here with
    | any mem inner => exact ⟨_, mem, inner⟩
  · rintro ⟨c, mem, inner⟩
    exact .any mem inner

theorem occurs_not_iff (c : IntakeCondition) : Occurs r (.not c) ↔ Occurs r c := by
  constructor
  · intro here
    cases here with
    | not inner => exact inner
  · exact .not

/-- Rearranged conditions have the same rules. -/
theorem rearranged_occurs {c d : IntakeCondition} (same : Rearranged c d) :
    Occurs r c ↔ Occurs r d := by
  induction same with
  | refl c => exact Iff.rfl
  | symm _ ih => exact ih.symm
  | trans _ _ first second => exact first.trans second
  | all_perm perm => simp only [occurs_all_iff, perm.mem_iff]
  | any_perm perm => simp only [occurs_any_iff, perm.mem_iff]
  | all_child cs _ ih => simp [occurs_all_iff, ih]
  | any_child cs _ ih => simp [occurs_any_iff, ih]
  | not_child _ ih => simp only [occurs_not_iff, ih]
  | not_not c => simp only [occurs_not_iff]
  | not_all _ => simp [occurs_not_iff, occurs_all_iff, occurs_any_iff]
  | all_nested cs ds => simp [occurs_all_iff, or_and_right, exists_or]
  | all_twice c cs => simp [occurs_all_iff]
  | @all_any cs ds inhabited =>
      simp only [occurs_all_iff, occurs_any_iff, List.mem_cons, List.mem_map, exists_eq_or_imp,
        exists_exists_and_eq_and]
      obtain ⟨first, cs, rfl⟩ := List.exists_cons_of_ne_nil inhabited
      constructor
      · rintro (⟨c, mem, inner⟩ | ⟨d, mem, inner⟩)
        · exact ⟨c, mem, .inl inner⟩
        · exact ⟨first, List.mem_cons_self, .inr ⟨d, mem, inner⟩⟩
      · rintro ⟨c, mem, inner | other⟩
        · exact .inl ⟨c, mem, inner⟩
        · exact .inr other

end Rules

/-- The two pipelines route the same items the same way, and report the same as misconfigured. -/
def Alike (left right : CompiledPipeline) : Prop :=
  ∀ context item,
    (∀ t outcome, RoutedBy left context item t outcome ↔ RoutedBy right context item t outcome) ∧
      (IsMisconfigured left context item ↔ IsMisconfigured right context item)

/-- A rearranged ruleset is accepted just if the first one is, and decides every item alike. -/
theorem evaluateIntake_rearranged (sha256Hex : ByteArray → String) (p : IntakePipeline)
    {condition : IntakeCondition} (same : Rearranged p.condition condition) :
    ((∃ compiled, compilePipeline sha256Hex p = .ok compiled) ↔
      ∃ compiled, compilePipeline sha256Hex { p with condition } = .ok compiled) ∧
    ∀ left right, compilePipeline sha256Hex p = .ok left →
      compilePipeline sha256Hex { p with condition } = .ok right → Alike left right := by
  have accepted : validateCondition p.condition = .ok () ↔ validateCondition condition = .ok () := by
    simp only [validateCondition_ok_iff, rearranged_occurs same]
  constructor
  · simp only [compilePipeline_ok_iff, accepted, exists_and_left]
    exact and_congr_right fun _ => ⟨fun _ => ⟨_, rfl⟩, fun _ => ⟨_, rfl⟩⟩
  · intro left right first second context item
    have valid := compilePipeline_valid first
    have valid' := compilePipeline_valid second
    obtain ⟨-, rfl⟩ := (compilePipeline_ok_iff _ _ _).mp first
    obtain ⟨-, rfl⟩ := (compilePipeline_ok_iff _ _ _).mp second
    constructor
    · intro t outcome
      rw [routedBy_iff valid, routedBy_iff valid', rearranged_verdict same]
      rfl
    · rw [isMisconfigured_iff valid, isMisconfigured_iff valid', verdict_fails_iff,
        verdict_fails_iff]
      simp only [rearranged_occurs same]

/-- The rules of `trustedEdits` in the other order. -/
def pagesFirst : IntakeCondition :=
  .all [.rule ⟨.pageId, .notIn, .intList [7]⟩, .rule ⟨.actorUsername, .in_, .capabilityRef "editors"⟩]

theorem evaluateIntake_rearranged_trusted :
    Alike ⟨trustedEdits, configDigest trustedEditsSha256 trustedEdits⟩
      ⟨{ trustedEdits with condition := pagesFirst },
        configDigest trustedEditsSha256 { trustedEdits with condition := pagesFirst }⟩ := by
  have swapped : Rearranged trustedEdits.condition pagesFirst :=
    .all_perm (List.Perm.swap _ _ [])
  exact (evaluateIntake_rearranged trustedEditsSha256 trustedEdits swapped).2 _ _ rfl rfl

end SP42.Intake

import Mathlib
import SP42.Lib.Framing
import SP42.Intake.Digest

/-!
Reading a pipeline back from the bytes of its digest. The rendering escapes
nothing, so the bytes determine the pipeline only when no free text contains a
delimiter of its surroundings, and even then only up to the places where a list
of strings is cut by commas.
-/
namespace SP42.Intake

/-- The pieces the joined rendering of a list of strings is made of. -/
def cutAtCommas (items : List String) : List String :=
  if items = [] then [""]
  else items.flatMap fun item => (item.toList.splitOn ',').map String.ofList

def respellValue : IntakeValue → IntakeValue
  | .strList items => .strList (cutAtCommas items)
  | value => value

mutual
/-- The same tree with every list operand cut at its commas. -/
def respellCondition : IntakeCondition → IntakeCondition
  | .all children => .all (respellChildren children)
  | .any children => .any (respellChildren children)
  | .not child => .not (respellCondition child)
  | .rule rule => .rule { rule with value := respellValue rule.value }

def respellChildren : List IntakeCondition → List IntakeCondition
  | [] => []
  | child :: rest => respellCondition child :: respellChildren rest
end

def respell (p : IntakePipeline) : IntakePipeline :=
  { p with condition := respellCondition p.condition }

theorem respellChildren_eq_map (cs : List IntakeCondition) :
    respellChildren cs = cs.map respellCondition := by
  induction cs with
  | nil => rfl
  | cons c cs ih => rw [respellChildren, ih, List.map_cons]

/-- The free text of a field name and of an operand. -/
def customName : IntakeField → List Char
  | .custom name => name.toList
  | _ => []

def operandText : IntakeValue → List Char
  | .str text => text.toList
  | .strList items => (items.map String.toList).flatten
  | .capabilityRef name => name.toList
  | _ => []

def outcomeName : IntakeOutcome → List Char
  | .admitTo routeTo => routeTo.toList
  | .drop => []
  | .reclassify pipeline => pipeline.toList

/-- The free text of a rule stays inside its own delimiters. -/
structure RuleDelimited (rule : IntakeRule) : Prop where
  nameUncut : ',' ∉ customName rule.field
  operandNested : Framing.nestedFrom '(' ')' 0 (operandText rule.value) = true
  nameNulFree : '\x00' ∉ customName rule.field
  operandNulFree : '\x00' ∉ operandText rule.value

def ConditionDelimited (c : IntakeCondition) : Prop := ∀ r, Occurs r c → RuleDelimited r

/-- The free text of a pipeline stays inside its own delimiters; its id may be anything. -/
structure WellDelimited (p : IntakePipeline) : Prop where
  condition : ConditionDelimited p.condition
  onPass : '\x00' ∉ outcomeName p.onPass
  onFail : '\x00' ∉ outcomeName p.onFail
  onUnknown : ∀ outcome, p.onUnknown = some outcome → '\x00' ∉ outcomeName outcome

section Values

theorem mem_toString_int {n : Int} {c : Char} (h : c ∈ (toString n).toList) :
    c.isDigit = true ∨ c = '-' := by
  have digits : ∀ m : Nat, c ∈ m.repr.toList → c.isDigit = true := by
    intro m hc
    rw [Nat.repr, String.toList_ofList] at hc
    exact Nat.isDigit_of_mem_toDigits (by decide) (by decide) hc
  cases n with
  | ofNat m => exact .inl (digits m h)
  | negSucc m =>
      have split : c = '-' ∨ c ∈ (m + 1).repr.toList := by
        simpa [toString, Int.repr] using h
      exact split.symm.imp (digits (m + 1)) id

/-- A numeral has none of the delimiters. -/
theorem not_mem_toString_int (n : Int) {c : Char} (delimiter : c ∈ ['(', ')', ',', '\x00']) :
    c ∉ (toString n).toList := by
  intro h
  rcases mem_toString_int h with digit | rfl
  · simp only [List.mem_cons, List.not_mem_nil, or_false] at delimiter
    rcases delimiter with rfl | rfl | rfl | rfl <;> revert digit <;> decide
  · revert delimiter; decide

theorem toString_int_inj {m n : Int} (h : toString m = toString n) : m = n :=
  Int.repr_injective h

theorem joinNumbers_toList (values : List Int) :
    (joinNumbers values).toList =
      [','].intercalate (values.map fun n => (toString n).toList) := by
  rw [joinNumbers, String.toList_intercalate, List.map_map]
  rfl

theorem toString_int_ne_nil (n : Int) : (toString n).toList ≠ [] := by
  cases n with
  | ofNat m =>
      intro h
      exact Nat.repr_ne_empty (String.toList_inj.mp (h.trans String.toList_empty.symm))
  | negSucc m => simp [toString, Int.repr]

/-- The numerals of a list are the pieces of its rendering, and an empty list has an empty one. -/
theorem splitOn_joinNumbers (values : List Int) :
    (joinNumbers values).toList.splitOn ',' =
      if values = [] then [[]] else values.map fun n => (toString n).toList := by
  by_cases empty : values = []
  · subst empty; decide
  · rw [if_neg empty, joinNumbers_toList]
    refine List.splitOn_intercalate ',' ?_ (by simpa using empty)
    intro piece member
    obtain ⟨n, _, rfl⟩ := List.mem_map.mp member
    exact not_mem_toString_int n (by decide)

theorem joinNumbers_inj {ms ns : List Int} (h : joinNumbers ms = joinNumbers ns) : ms = ns := by
  have pieces := congrArg (fun text => text.toList.splitOn ',') h
  simp only [splitOn_joinNumbers] at pieces
  have numeral : Function.Injective fun n : Int => (toString n).toList :=
    fun m n same => toString_int_inj (String.toList_inj.mp same)
  have blank : ∀ ns : List Int, [[]] ≠ ns.map fun n => (toString n).toList := by
    intro ns same
    cases ns with
    | nil => cases same
    | cons n ns => exact toString_int_ne_nil n (List.cons.inj same).1.symm
  by_cases hm : ms = [] <;> by_cases hn : ns = [] <;> simp only [hm, hn, if_true, if_false] at pieces
  · rw [hm, hn]
  · exact absurd pieces (blank ns)
  · exact absurd pieces.symm (blank ms)
  · exact List.map_injective_iff.mpr numeral pieces

theorem join_eq_cut (items : List String) :
    cutAtCommas items = ((",".intercalate items).toList.splitOn ',').map String.ofList := by
  by_cases empty : items = []
  · subst empty; decide
  · rw [cutAtCommas, if_neg empty, String.toList_intercalate]
    have inhabited : items.map String.toList ≠ [] := by simpa using empty
    have cut := @Framing.splitOn_join Char _ _ ',' _ inhabited
    rw [show ",".toList = [','] from rfl, cut, List.flatMap_map, List.map_flatMap]

theorem join_cutAtCommas (items : List String) :
    ",".intercalate (cutAtCommas items) = ",".intercalate items := by
  apply String.toList_inj.mp
  rw [join_eq_cut, String.toList_intercalate, List.map_map]
  simp [Function.comp_def, List.intercalate_splitOn]

theorem canonicalValue_respell (value : IntakeValue) :
    canonicalValue (respellValue value) = canonicalValue value := by
  cases value <;> simp only [respellValue, canonicalValue, join_cutAtCommas]

/-- The rendering of an operand determines it up to the cutting of lists. -/
theorem canonicalValue_unique {u v : IntakeValue} (h : canonicalValue u = canonicalValue v) :
    respellValue u = respellValue v := by
  have chars := congrArg String.toList h
  cases u <;> cases v <;> first | (simp [canonicalValue] at chars; done) | skip
  case strList.strList xs ys =>
      have joined : ",".intercalate xs = ",".intercalate ys := by
        apply String.toList_inj.mp
        rw [String.toList_intercalate, String.toList_intercalate]
        simpa [canonicalValue] using chars
      rw [respellValue, respellValue, join_eq_cut, join_eq_cut, joined]
  case intList.intList ms ns =>
      have joined : joinNumbers ms = joinNumbers ns := by
        simpa [canonicalValue, String.toList_inj] using chars
      rw [joinNumbers_inj joined]
  case bool.bool a b => cases a <;> cases b <;> first | rfl | exact absurd chars (by decide)
  all_goals simpa [respellValue, canonicalValue, String.toList_inj] using chars

/-- The delimiters in an operand's rendering are those of its free text. -/
theorem canonicalValue_filter {keep : Char → Bool}
    (delimiters : ∀ c, keep c = true → c ∈ ['(', ')', '\x00']) (value : IntakeValue) :
    (canonicalValue value).toList.filter keep = (operandText value).filter keep := by
  have plain : ∀ text : List Char, (∀ c ∈ text, c ∉ ['(', ')', '\x00']) → text.filter keep = [] :=
    fun text h => List.filter_eq_nil_iff.mpr fun c hc hk => h c hc (delimiters c hk)
  have literal : ∀ text : String,
      (text.toList.all fun c => !(['(', ')', '\x00'].contains c)) = true →
        text.toList.filter keep = [] := by
    intro text h
    refine plain _ fun c hc hd => ?_
    have free := List.all_eq_true.mp h c hc
    rw [List.contains_iff_mem.mpr hd] at free
    cases free
  have numeral : ∀ n : Int, (toString n).toList.filter keep = [] := fun n =>
    plain _ fun c hc hd => not_mem_toString_int n (by revert hd; simp; tauto) hc
  have comma : keep ',' = false :=
    Bool.eq_false_iff.mpr fun hk => absurd (delimiters _ hk) (by decide)
  cases value with
  | str text =>
      rw [canonicalValue, String.toList_append, List.filter_append, literal "str:" rfl]
      rfl
  | int n =>
      rw [canonicalValue, String.toList_append, List.filter_append, literal "int:" rfl,
        numeral]
      rfl
  | strList items =>
      rw [canonicalValue, String.toList_append, String.toList_append, List.filter_append,
        List.filter_append, literal "strs:[" rfl, literal "]" rfl,
        String.toList_intercalate, List.nil_append, List.append_nil]
      exact Framing.filter_join comma _
  | intList values =>
      rw [canonicalValue, String.toList_append, String.toList_append, List.filter_append,
        List.filter_append, literal "ints:[" rfl, literal "]" rfl,
        joinNumbers_toList, Framing.filter_join comma, List.nil_append, List.append_nil]
      refine plain _ fun c hc hd => ?_
      obtain ⟨text, member, hc⟩ := List.mem_flatten.mp hc
      obtain ⟨n, _, rfl⟩ := List.mem_map.mp member
      exact not_mem_toString_int n (by revert hd; simp; tauto) hc
  | bool flag =>
      rw [canonicalValue, String.toList_append, List.filter_append, literal "bool:" rfl]
      cases flag <;> exact literal _ rfl
  | timestamp ms =>
      rw [canonicalValue, String.toList_append, List.filter_append, literal "ts:" rfl,
        numeral]
      rfl
  | duration ms =>
      rw [canonicalValue, String.toList_append, List.filter_append, literal "dur:" rfl,
        numeral]
      rfl
  | capabilityRef name =>
      rw [canonicalValue, String.toList_append, List.filter_append, literal "cap:" rfl]
      rfl

theorem canonicalValue_nested {value : IntakeValue}
    (h : Framing.nestedFrom '(' ')' 0 (operandText value) = true) :
    Framing.nestedFrom '(' ')' 0 (canonicalValue value).toList = true := by
  rw [← Framing.nestedFrom_filter, canonicalValue_filter, Framing.nestedFrom_filter]
  · exact h
  · intro c hc
    rcases Bool.or_eq_true_iff.mp hc with hc | hc
    · simp [of_decide_eq_true hc]
    · simp [of_decide_eq_true hc]

theorem canonicalValue_nulFree {value : IntakeValue} (h : '\x00' ∉ operandText value) :
    '\x00' ∉ (canonicalValue value).toList := by
  have same : (canonicalValue value).toList.filter (· == '\x00') =
      (operandText value).filter (· == '\x00') :=
    canonicalValue_filter (by simp +contextual) value
  intro hc
  have kept : '\x00' ∈ (operandText value).filter (· == '\x00') :=
    same ▸ List.mem_filter.mpr ⟨hc, by decide⟩
  exact h (List.mem_filter.mp kept).1

end Values

theorem label_inj {f g : IntakeField} (h : label f = label g) : f = g := by
  have chars := congrArg String.toList h
  cases f <;> cases g <;> first | rfl | (simp [label] at chars; done) | skip
  case custom.custom m n =>
    have same : m = n := by simpa [label, String.toList_inj] using chars
    rw [same]

theorem opLabel_inj {o p : IntakeOp} (h : opLabel o = opLabel p) : o = p := by
  cases o <;> cases p <;> first | rfl | exact absurd h (by decide)

theorem delimiter_mem_label {c : Char} (delimiter : c ∈ [',', '\x00']) {field : IntakeField}
    (h : c ∈ (label field).toList) : c ∈ customName field := by
  rcases List.mem_pair.mp delimiter with rfl | rfl <;> cases field <;>
    simp_all [label, customName]

theorem delimiter_not_mem_opLabel {c : Char} (delimiter : c ∈ [',', '\x00']) (op : IntakeOp) :
    c ∉ (opLabel op).toList := by
  rcases List.mem_pair.mp delimiter with rfl | rfl <;> cases op <;> simp [opLabel]

theorem canonicalRule_toList (rule : IntakeRule) :
    (canonicalRule rule).toList = 'r' :: 'u' :: 'l' :: 'e' :: '(' :: ((label rule.field).toList ++
      ',' :: ((opLabel rule.op).toList ++ ',' :: ((canonicalValue rule.value).toList ++ [')']))) := by
  simp [canonicalRule]

/-- A rule is read back from the front of a text: its label and operator end at
their commas, its operand at the bracket it does not open. -/
theorem canonicalRule_reads {q r : IntakeRule} (hq : RuleDelimited q) (hr : RuleDelimited r)
    {s t : List Char} (h : (canonicalRule q).toList ++ s = (canonicalRule r).toList ++ t) :
    { q with value := respellValue q.value } = { r with value := respellValue r.value } ∧
      s = t := by
  rw [canonicalRule_toList, canonicalRule_toList] at h
  simp only [List.cons_append, List.cons.injEq, true_and, List.append_assoc,
    List.nil_append] at h
  have comma : ',' ∈ [',', '\x00'] := by decide
  obtain ⟨field, h⟩ := Framing.first_unique (fun m => hq.nameUncut (delimiter_mem_label comma m))
    (fun m => hr.nameUncut (delimiter_mem_label comma m)) h
  obtain ⟨op, h⟩ := Framing.first_unique (delimiter_not_mem_opLabel comma q.op)
    (delimiter_not_mem_opLabel comma r.op) h
  obtain ⟨value, rest⟩ := Framing.nested_unique (by decide) (canonicalValue_nested hq.operandNested)
    (canonicalValue_nested hr.operandNested) h
  refine ⟨?_, rest⟩
  rw [label_inj (String.toList_inj.mp field), opLabel_inj (String.toList_inj.mp op),
    canonicalValue_unique (String.toList_inj.mp value)]

theorem canonicalRule_nulFree {rule : IntakeRule} (h : RuleDelimited rule) :
    '\x00' ∉ (canonicalRule rule).toList := by
  have field : '\x00' ∉ (label rule.field).toList :=
    fun m => h.nameNulFree (delimiter_mem_label (by decide) m)
  have op := @delimiter_not_mem_opLabel '\x00' (by decide) rule.op
  have value := canonicalValue_nulFree h.operandNulFree
  rw [canonicalRule_toList]
  simp [field, op, value]

theorem canonicalCondition_all_toList (cs : List IntakeCondition) :
    (canonicalCondition (.all cs)).toList = 'a' :: 'l' :: 'l' :: '(' ::
      ([','].intercalate (cs.map fun c => (canonicalCondition c).toList) ++ [')']) := by
  simp [canonicalCondition, Function.comp_def]

theorem canonicalCondition_any_toList (cs : List IntakeCondition) :
    (canonicalCondition (.any cs)).toList = 'a' :: 'n' :: 'y' :: '(' ::
      ([','].intercalate (cs.map fun c => (canonicalCondition c).toList) ++ [')']) := by
  simp [canonicalCondition, Function.comp_def]

theorem canonicalCondition_not_toList (c : IntakeCondition) :
    (canonicalCondition (.not c)).toList =
      'n' :: 'o' :: 't' :: '(' :: ((canonicalCondition c).toList ++ [')']) := by
  simp [canonicalCondition]

theorem canonicalCondition_opens (c : IntakeCondition) :
    ∃ a rest, (canonicalCondition c).toList = a :: rest ∧ a ≠ ')' := by
  cases c with
  | all cs => exact ⟨'a', _, canonicalCondition_all_toList cs, by decide⟩
  | any cs => exact ⟨'a', _, canonicalCondition_any_toList cs, by decide⟩
  | not c => exact ⟨'n', _, canonicalCondition_not_toList c, by decide⟩
  | rule r => exact ⟨'r', _, canonicalRule_toList r, by decide⟩

theorem canonicalCondition_rule_toList (r : IntakeRule) :
    (canonicalCondition (.rule r)).toList = (canonicalRule r).toList := by
  rw [canonicalCondition]

/-- Children that can each be read back are read back from the list they close. -/
theorem canonicalChildren_reads {cs ds : List IntakeCondition}
    (reads : ∀ c ∈ cs, ∀ d ∈ ds, ∀ s t,
      (canonicalCondition c).toList ++ s = (canonicalCondition d).toList ++ t →
        respellCondition c = respellCondition d ∧ s = t) {s t : List Char}
    (h : [','].intercalate (cs.map fun c => (canonicalCondition c).toList) ++ ')' :: s =
      [','].intercalate (ds.map fun d => (canonicalCondition d).toList) ++ ')' :: t) :
    respellChildren cs = respellChildren ds ∧ s = t := by
  rw [respellChildren_eq_map, respellChildren_eq_map]
  exact Framing.join_unique (by decide) canonicalCondition_opens reads h

/-- A tree is read back from the front of a text, up to the cutting of lists. -/
theorem canonicalCondition_reads (c : IntakeCondition) (hc : ConditionDelimited c)
    (d : IntakeCondition) (hd : ConditionDelimited d) (s t : List Char)
    (h : (canonicalCondition c).toList ++ s = (canonicalCondition d).toList ++ t) :
    respellCondition c = respellCondition d ∧ s = t := by
  induction c generalizing d s t with
  | all cs ih =>
      cases d with
      | all ds =>
          simp only [canonicalCondition_all_toList, List.cons_append, List.cons.injEq, true_and,
            List.append_assoc, List.nil_append] at h
          obtain ⟨children, rest⟩ := canonicalChildren_reads (fun c mc d md =>
            ih c mc (fun r hr => hc r (.all mc hr)) d fun r hr => hd r (.all md hr)) h
          exact ⟨by rw [respellCondition, respellCondition, children], rest⟩
      | _ => simp [canonicalCondition_all_toList, canonicalCondition_any_toList,
          canonicalCondition_not_toList, canonicalCondition_rule_toList, canonicalRule_toList] at h
  | any cs ih =>
      cases d with
      | any ds =>
          simp only [canonicalCondition_any_toList, List.cons_append, List.cons.injEq, true_and,
            List.append_assoc, List.nil_append] at h
          obtain ⟨children, rest⟩ := canonicalChildren_reads (fun c mc d md =>
            ih c mc (fun r hr => hc r (.any mc hr)) d fun r hr => hd r (.any md hr)) h
          exact ⟨by rw [respellCondition, respellCondition, children], rest⟩
      | _ => simp [canonicalCondition_all_toList, canonicalCondition_any_toList,
          canonicalCondition_not_toList, canonicalCondition_rule_toList, canonicalRule_toList] at h
  | not c ih =>
      cases d with
      | not d =>
          simp only [canonicalCondition_not_toList, List.cons_append, List.cons.injEq, true_and,
            List.append_assoc] at h
          obtain ⟨child, rest⟩ := ih (fun r hr => hc r (.not hr)) d (fun r hr => hd r (.not hr)) _ _ h
          exact ⟨by rw [respellCondition, respellCondition, child], (List.cons.inj rest).2⟩
      | _ => simp [canonicalCondition_all_toList, canonicalCondition_any_toList,
          canonicalCondition_not_toList, canonicalCondition_rule_toList, canonicalRule_toList] at h
  | rule r =>
      cases d with
      | rule q =>
          rw [canonicalCondition_rule_toList, canonicalCondition_rule_toList] at h
          obtain ⟨same, rest⟩ := canonicalRule_reads (hc r .rule) (hd q .rule) h
          exact ⟨by rw [respellCondition, respellCondition, same], rest⟩
      | _ => simp [canonicalCondition_all_toList, canonicalCondition_any_toList,
          canonicalCondition_not_toList, canonicalCondition_rule_toList, canonicalRule_toList] at h

theorem canonicalCondition_nulFree (c : IntakeCondition) (h : ConditionDelimited c) :
    '\x00' ∉ (canonicalCondition c).toList := by
  induction c with
  | all cs ih =>
      have free : ∀ piece ∈ cs.map fun c => (canonicalCondition c).toList, '\x00' ∉ piece := by
        intro piece member
        obtain ⟨c, hc, rfl⟩ := List.mem_map.mp member
        exact ih c hc fun r hr => h r (.all hc hr)
      rw [canonicalCondition_all_toList]
      simpa using Framing.not_mem_join (by decide) free
  | any cs ih =>
      have free : ∀ piece ∈ cs.map fun c => (canonicalCondition c).toList, '\x00' ∉ piece := by
        intro piece member
        obtain ⟨c, hc, rfl⟩ := List.mem_map.mp member
        exact ih c hc fun r hr => h r (.any hc hr)
      rw [canonicalCondition_any_toList]
      simpa using Framing.not_mem_join (by decide) free
  | not c ih =>
      have free := ih fun r hr => h r (.not hr)
      rw [canonicalCondition_not_toList]
      simpa using free
  | rule r => exact canonicalRule_nulFree (h r .rule)

end SP42.Intake

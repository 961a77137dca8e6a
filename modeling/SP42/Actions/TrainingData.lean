import SP42.Base.Number
import SP42.Coordination.State
import SP42.Lib.Csv

/-!
The export of training labels as comma separated values, and what a reader of such files makes of
it.
-/
namespace SP42.Actions

open Coordination (Action)

section Encoding

structure TrainingLabel where
  wikiId : Text
  revId : Nat
  actor : Text
  action : Action
  capturedAtMs : Int
  note : Option Text

/-- The derived `Debug` text. -/
def actionDebug : Action → Text
  | .rollback => "Rollback".toList
  | .revert => "Revert".toList
  | .warn => "Warn".toList
  | .report => "Report".toList
  | .markPatrolled => "MarkPatrolled".toList

def encodeCsvField (value : Text) : Text :=
  if ',' ∈ value ∨ '"' ∈ value ∨ '\n' ∈ value then
    '"' :: (value.flatMap fun c => if c = '"' then ['"', '"'] else [c]) ++ ['"']
  else value

def csvRow (label : TrainingLabel) : Text :=
  Text.join [','] [encodeCsvField label.wikiId, Text.ofNat label.revId, encodeCsvField label.actor,
    encodeCsvField (actionDebug label.action), Text.ofInt label.capturedAtMs,
    encodeCsvField (label.note.getD [])]

def encodeCsv (labels : List TrainingLabel) : Text :=
  Text.join ['\n'] ("wiki_id,rev_id,actor,action,captured_at_ms,note".toList :: labels.map csvRow)

end Encoding

section Reading

def csvHeader : List Text :=
  ["wiki_id", "rev_id", "actor", "action", "captured_at_ms", "note"].map String.toList

/-- The fields of a label. -/
def labelFields (label : TrainingLabel) : List Text :=
  [label.wikiId, Text.ofNat label.revId, label.actor, actionDebug label.action,
    Text.ofInt label.capturedAtMs, label.note.getD []]

/-- A carriage return stands between quotes. -/
def Covered (field : Text) : Prop := '\r' ∈ field → ',' ∈ field ∨ '"' ∈ field ∨ '\n' ∈ field

instance (field : Text) : Decidable (Covered field) :=
  inferInstanceAs (Decidable ('\r' ∈ field → ',' ∈ field ∨ '"' ∈ field ∨ '\n' ∈ field))

/-- The texts of a label that are not numbers or names of the program. -/
def labelTexts (label : TrainingLabel) : List Text :=
  [label.wikiId, label.actor, label.note.getD []]

theorem plain_iff {c : Char} :
    Csv.plain c = true ↔ c ≠ ',' ∧ c ≠ '"' ∧ c ≠ '\n' ∧ c ≠ '\r' := by
  simp only [Csv.plain, decide_eq_true_eq, List.mem_cons, List.not_mem_nil, or_false, not_or]

theorem Covered.written {field : Text} (covered : Covered field) :
    Csv.Written field (encodeCsvField field) := by
  unfold encodeCsvField
  by_cases special : ',' ∈ field ∨ '"' ∈ field ∨ '\n' ∈ field
  · rw [if_pos special]
    exact .quoted
  · rw [if_neg special]
    refine .bare fun c member => plain_iff.mpr ?_
    refine ⟨?_, ?_, ?_, ?_⟩
    · rintro rfl
      exact special (.inl member)
    · rintro rfl
      exact special (.inr (.inl member))
    · rintro rfl
      exact special (.inr (.inr member))
    · rintro rfl
      exact special (covered member)

/-- What is written as it is breaks at the first carriage return. -/
theorem broken_field {field : Text} (bare : ¬ Covered field) : ∃ word rest,
    encodeCsvField field = word ++ '\r' :: rest ∧ (∀ c ∈ word, Csv.plain c = true) ∧
      word ≠ field := by
  obtain ⟨carriage, simple⟩ := Classical.not_imp.mp bare
  obtain ⟨word, rest, rfl, fresh⟩ := List.eq_append_cons_of_mem carriage
  refine ⟨word, rest, if_neg simple, fun c member => plain_iff.mpr ?_, ?_⟩
  · simp only [not_or] at simple
    refine ⟨?_, ?_, ?_, ?_⟩
    · rintro rfl
      exact simple.1 (List.mem_append_left _ member)
    · rintro rfl
      exact simple.2.1 (List.mem_append_left _ member)
    · rintro rfl
      exact simple.2.2 (List.mem_append_left _ member)
    · rintro rfl
      exact fresh member
  · intro same
    exact fresh (same ▸ List.mem_append_right _ List.mem_cons_self)

def textColumn (field : Text) (covered : Covered field) : Csv.Column :=
  ⟨field, encodeCsvField field, covered.written⟩

theorem plain_ofNat (n : Nat) : ∀ c ∈ Text.ofNat n, Csv.plain c = true := by
  intro c member
  have digit := Text.isDigit_of_mem_ofNat member
  refine plain_iff.mpr ⟨?_, ?_, ?_, ?_⟩ <;> (rintro rfl; revert digit; decide)

theorem plain_ofInt (z : Int) : ∀ c ∈ Text.ofInt z, Csv.plain c = true := by
  intro c member
  rcases Text.mem_ofInt member with digit | rfl
  · refine plain_iff.mpr ⟨?_, ?_, ?_, ?_⟩ <;> (rintro rfl; revert digit; decide)
  · rfl

def revColumn (label : TrainingLabel) : Csv.Column :=
  ⟨Text.ofNat label.revId, Text.ofNat label.revId, .bare (plain_ofNat label.revId)⟩

theorem covered_actionDebug (action : Action) : Covered (actionDebug action) := by
  cases action with
  | rollback => decide
  | revert => decide
  | warn => decide
  | report => decide
  | markPatrolled => decide

def actionColumn (label : TrainingLabel) : Csv.Column :=
  textColumn (actionDebug label.action) (covered_actionDebug label.action)

def capturedColumn (label : TrainingLabel) : Csv.Column :=
  ⟨Text.ofInt label.capturedAtMs, Text.ofInt label.capturedAtMs,
    .bare (plain_ofInt label.capturedAtMs)⟩

theorem row_line (label : TrainingLabel) (covered : ∀ field ∈ labelTexts label, Covered field) :
    Csv.Line (labelFields label) (csvRow label) := by
  have wiki := covered label.wikiId (by simp [labelTexts])
  have actor := covered label.actor (by simp [labelTexts])
  have note := covered (label.note.getD []) (by simp [labelTexts])
  exact Csv.line_columns (textColumn label.wikiId wiki)
    [revColumn label, textColumn label.actor actor, actionColumn label, capturedColumn label]
    (textColumn (label.note.getD []) note)

theorem header_line :
    Csv.Line csvHeader "wiki_id,rev_id,actor,action,captured_at_ms,note".toList := by
  have column : ∀ name ∈ csvHeader, Covered name := by decide
  have columns := Csv.line_columns (textColumn "wiki_id".toList (column _ (by decide)))
    [textColumn "rev_id".toList (column _ (by decide)),
      textColumn "actor".toList (column _ (by decide)),
      textColumn "action".toList (column _ (by decide)),
      textColumn "captured_at_ms".toList (column _ (by decide))]
    (textColumn "note".toList (column _ (by decide)))
  exact columns

/-- A row with a bare carriage return is read as another record, whatever stands behind it. -/
theorem broken_row (label : TrainingLabel) (bare : ∃ field ∈ labelTexts label, ¬ Covered field) :
    ∃ fields, fields ≠ labelFields label ∧
      ∀ after, ∃ more, Csv.read (csvRow label ++ after) = fields :: more := by
  have row : csvRow label = encodeCsvField label.wikiId ++ ',' :: (Text.ofNat label.revId ++ ',' ::
      (encodeCsvField label.actor ++ ',' :: (encodeCsvField (actionDebug label.action) ++ ',' ::
        (Text.ofInt label.capturedAtMs ++ ',' :: encodeCsvField (label.note.getD []))))) := by
    rw [csvRow, Text.join, Csv.intercalate_cons]
    simp only [List.flatMap_cons, List.flatMap_nil, List.append_nil, List.cons_append]
  by_cases wiki : Covered label.wikiId
  · by_cases actor : Covered label.actor
    · have note : ¬ Covered (label.note.getD []) := by
        obtain ⟨field, member, there⟩ := bare
        simp only [labelTexts, List.mem_cons, List.not_mem_nil, or_false] at member
        rcases member with rfl | rfl | rfl
        · exact absurd wiki there
        · exact absurd actor there
        · exact there
      obtain ⟨word, rest, written, solid, other⟩ := broken_field note
      refine ⟨[label.wikiId, Text.ofNat label.revId, label.actor, actionDebug label.action,
        Text.ofInt label.capturedAtMs] ++ [word], ?_, fun after => ?_⟩
      · intro same
        simp only [labelFields, List.cons_append, List.nil_append, List.cons.injEq, and_true,
          true_and] at same
        exact other same
      · have breaks := Csv.read_broken [textColumn label.wikiId wiki, revColumn label,
          textColumn label.actor actor, actionColumn label, capturedColumn label] solid
          (rest ++ after)
        rw [row, written]
        simpa [Csv.columnsText, textColumn, revColumn, actionColumn, capturedColumn] using breaks
    · obtain ⟨word, rest, written, solid, other⟩ := broken_field actor
      refine ⟨[label.wikiId, Text.ofNat label.revId] ++ [word], fun same => ?_, fun after => ?_⟩
      · exact absurd (congrArg List.length same) (by simp [labelFields])
      have breaks := Csv.read_broken [textColumn label.wikiId wiki, revColumn label] solid
        (rest ++ ',' :: (encodeCsvField (actionDebug label.action) ++ ',' ::
          (Text.ofInt label.capturedAtMs ++ ',' :: encodeCsvField (label.note.getD []))) ++ after)
      rw [row, written]
      simpa [Csv.columnsText, textColumn, revColumn] using breaks
  · obtain ⟨word, rest, written, solid, other⟩ := broken_field wiki
    refine ⟨[] ++ [word], fun same => ?_, fun after => ?_⟩
    · exact absurd (congrArg List.length same) (by simp [labelFields])
    have breaks := Csv.read_broken [] solid (rest ++ ',' :: (Text.ofNat label.revId ++ ',' ::
      (encodeCsvField label.actor ++ ',' :: (encodeCsvField (actionDebug label.action) ++ ',' ::
        (Text.ofInt label.capturedAtMs ++ ',' :: encodeCsvField (label.note.getD []))))) ++ after)
    rw [row, written]
    simpa [Csv.columnsText] using breaks

theorem first_broken {labels : List TrainingLabel}
    (broken : ∃ label ∈ labels, ∃ field ∈ labelTexts label, ¬ Covered field) :
    ∃ before label after, labels = before ++ label :: after ∧
      (∃ field ∈ labelTexts label, ¬ Covered field) ∧
      ∀ earlier ∈ before, ∀ field ∈ labelTexts earlier, Covered field := by
  induction labels with
  | nil =>
      obtain ⟨label, member, -⟩ := broken
      cases member
  | cons label labels ih =>
      by_cases here : ∃ field ∈ labelTexts label, ¬ Covered field
      · exact ⟨[], label, labels, rfl, here, fun _ member => absurd member List.not_mem_nil⟩
      · push Not at here
        obtain ⟨bad, member, bare⟩ := broken
        have later : ∃ label ∈ labels, ∃ field ∈ labelTexts label, ¬ Covered field := by
          rcases List.mem_cons.mp member with rfl | later
          · obtain ⟨field, inside, there⟩ := bare
            exact absurd (here field inside) there
          · exact ⟨bad, later, bare⟩
        obtain ⟨before, first, after, rfl, broken, covered⟩ := ih later
        refine ⟨label :: before, first, after, rfl, broken, fun earlier among => ?_⟩
        rcases List.mem_cons.mp among with rfl | among
        · exact here
        · exact covered earlier among

/-- The rows with what they are read as. -/
def labelLine (label : TrainingLabel) : List Text × Text := (labelFields label, csvRow label)

/-- An export is read as its labels just when every carriage return in it stands between quotes. -/
theorem csv_readable_iff (labels : List TrainingLabel) :
    Csv.read (encodeCsv labels) = csvHeader :: labels.map labelFields ↔
      ∀ label ∈ labels, ∀ field ∈ labelTexts label, Covered field := by
  let header : List Text × Text :=
    (csvHeader, "wiki_id,rev_id,actor,action,captured_at_ms,note".toList)
  have lines : ∀ others : List TrainingLabel,
      (∀ label ∈ others, ∀ field ∈ labelTexts label, Covered field) →
        ∀ line ∈ header :: others.map labelLine, Csv.Line line.1 line.2 := by
    intro others covered line member
    rcases List.mem_cons.mp member with rfl | member
    · exact header_line
    · obtain ⟨label, among, rfl⟩ := List.mem_map.mp member
      exact row_line label (covered label among)
  constructor
  · intro reads
    by_contra broken
    push Not at broken
    obtain ⟨before, label, after, rfl, bare, covered⟩ := first_broken broken
    obtain ⟨fields, other, breaks⟩ := broken_row label bare
    obtain ⟨more, rest⟩ := breaks ((after.map csvRow).flatMap ('\n' :: ·))
    have text : encodeCsv (before ++ label :: after) =
        ((header :: before.map labelLine).flatMap fun line => line.2 ++ ['\n']) ++
          (csvRow label ++ (after.map csvRow).flatMap ('\n' :: ·)) := by
      rw [encodeCsv, Text.join, List.map_append, List.map_cons, ← List.cons_append,
        Csv.intercalate_split]
      simp only [List.flatMap_cons, List.flatMap_map, header, labelLine]
    rw [text, Csv.read_lines _ (lines before covered), rest, List.map_append, List.map_cons,
      List.map_cons, List.cons_append, List.map_map] at reads
    have tails := List.append_cancel_left (List.cons.inj reads).2
    exact other (List.cons.inj tails).1
  · intro covered
    rcases List.eq_nil_or_concat labels with rfl | ⟨before, label, rfl⟩
    · exact header_line.ended
    · rw [List.concat_eq_append] at covered ⊢
      have earlier := lines before fun other member =>
        covered other (List.mem_append_left _ member)
      have final := row_line label (covered label (List.mem_append_right _ List.mem_cons_self))
      have table := Csv.read_table _ earlier (labelLine label) final
      rw [List.map_cons, List.map_cons, List.map_map, List.map_map] at table
      rw [encodeCsv, Text.join, List.map_append, List.map_append, List.map_singleton,
        List.map_singleton, ← List.cons_append, ← List.cons_append]
      exact table

def carriageLabel : TrainingLabel where
  wikiId := "frwiki".toList
  revId := 7
  actor := "Ann".toList
  action := .warn
  capturedAtMs := 0
  note := some "a\rb".toList

/-- A note with a carriage return is cut in two records. -/
theorem carriage_cut : Csv.read (encodeCsv [carriageLabel]) =
      [csvHeader, ["frwiki".toList, "7".toList, "Ann".toList, "Warn".toList, "0".toList, ['a']],
        [['b']]] ∧
    Csv.read (encodeCsv [carriageLabel]) ≠ csvHeader :: [carriageLabel].map labelFields := by
  decide +kernel

end Reading

end SP42.Actions

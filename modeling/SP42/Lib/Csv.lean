import Mathlib.Data.List.Basic
import Mathlib.Tactic.Common

/-!
Comma separated values: a reader, and what it makes of records whose fields are written plainly or
between quotes. A carriage return that is written plainly ends its record.
-/
namespace Csv

section Reader

/-- Where the reader stands: before a field, in one without quotes, between quotes, or behind a
quote that may be the first of two. -/
inductive Place where
  | start
  | bare
  | quoted
  | closed
  deriving DecidableEq

/-- The records of a text: the fields that were read of the current one, and the field in hand. A
quote closes a field unless another follows it. -/
def records : Place → List (List Char) → List Char → List Char → List (List (List Char))
  | place, fields, field, [] =>
      if place = .start ∧ fields = [] then [] else [fields ++ [field]]
  | .quoted, fields, field, '"' :: rest => records .closed fields field rest
  | .quoted, fields, field, c :: rest => records .quoted fields (field ++ [c]) rest
  | .closed, fields, field, '"' :: rest => records .quoted fields (field ++ ['"']) rest
  | .start, fields, field, '"' :: rest => records .quoted fields field rest
  | _, fields, field, ',' :: rest => records .start (fields ++ [field]) [] rest
  | _, fields, field, '\n' :: rest => (fields ++ [field]) :: records .start [] [] rest
  | _, fields, field, '\r' :: '\n' :: rest => (fields ++ [field]) :: records .start [] [] rest
  | _, fields, field, '\r' :: rest => (fields ++ [field]) :: records .start [] [] rest
  | .closed, fields, field, c :: rest => records .closed fields (field ++ [c]) rest
  | _, fields, field, c :: rest => records .bare fields (field ++ [c]) rest

def read (text : List Char) : List (List (List Char)) := records .start [] [] text

end Reader

section Fields

/-- A character that means itself outside of quotes. -/
def plain (c : Char) : Bool := decide (c ∉ [',', '"', '\n', '\r'])

def doubled (field : List Char) : List Char :=
  field.flatMap fun c => if c = '"' then ['"', '"'] else [c]

/-- A field between quotes, with its own quotes doubled. -/
def quote (field : List Char) : List Char := '"' :: doubled field ++ ['"']

/-- The two ways to write a field. -/
inductive Written (field : List Char) : List Char → Prop
  | bare (solid : ∀ c ∈ field, plain c = true) : Written field field
  | quoted : Written field (quote field)

theorem records_nil (place : Place) (fields : List (List Char)) (field : List Char) :
    records place fields field [] =
      if place = .start ∧ fields = [] then [] else [fields ++ [field]] := by
  cases place <;> rfl

/-- What a character that means itself does at the three places that keep it. -/
theorem records_letter {c : Char} (mark : c ≠ '"') (fields : List (List Char))
    (field rest : List Char) :
    records .quoted fields field (c :: rest) = records .quoted fields (field ++ [c]) rest ∧
    (c ≠ ',' → c ≠ '\n' → c ≠ '\r' →
      records .start fields field (c :: rest) = records .bare fields (field ++ [c]) rest ∧
      records .bare fields field (c :: rest) = records .bare fields (field ++ [c]) rest) := by
  refine ⟨?_, fun comma line carriage => ⟨?_, ?_⟩⟩
  · rw [records]
    simp_all
  · rw [records] <;> simp_all
  · rw [records] <;> simp_all

theorem records_plain {place : Place} (outside : place = .start ∨ place = .bare) {c : Char}
    (solid : plain c = true) (fields : List (List Char)) (field rest : List Char) :
    records place fields field (c :: rest) = records .bare fields (field ++ [c]) rest := by
  simp only [plain, decide_eq_true_eq, List.mem_cons, List.not_mem_nil, or_false, not_or] at solid
  obtain ⟨comma, mark, line, carriage⟩ := solid
  obtain ⟨starts, goesOn⟩ := (records_letter mark fields field rest).2 comma line carriage
  rcases outside with rfl | rfl
  · exact starts
  · exact goesOn

theorem records_bare {word : List Char} (solid : ∀ c ∈ word, plain c = true)
    (fields : List (List Char)) (field rest : List Char) :
    records .bare fields field (word ++ rest) = records .bare fields (field ++ word) rest := by
  induction word generalizing field with
  | nil => rw [List.append_nil, List.nil_append]
  | cons c word ih =>
      rw [List.cons_append, records_plain (.inr rfl) (solid c List.mem_cons_self),
        ih (fun d later => solid d (List.mem_cons_of_mem c later)), List.append_assoc,
        List.singleton_append]

/-- Inside of quotes every character is kept. -/
theorem records_quoted (word : List Char) (fields : List (List Char)) (field rest : List Char) :
    records .quoted fields field (doubled word ++ '"' :: rest) =
      records .closed fields (field ++ word) rest := by
  induction word generalizing field with
  | nil =>
      rw [List.append_nil]
      rfl
  | cons c word ih =>
      by_cases mark : c = '"'
      · subst mark
        have step := ih (field ++ ['"'])
        rw [List.append_assoc, List.singleton_append] at step
        exact step
      · have step := ih (field ++ [c])
        rw [List.append_assoc, List.singleton_append] at step
        rw [doubled, List.flatMap_cons, if_neg mark, List.singleton_append, List.cons_append,
          (records_letter mark fields field _).1]
        exact step

/-- A written field is in hand when it was read. -/
theorem Written.reads {field text : List Char} (written : Written field text)
    (fields : List (List Char)) : ∃ place, place ≠ .quoted ∧ (place = .start → text = []) ∧
      ∀ rest, records .start fields [] (text ++ rest) = records place fields field rest := by
  cases written with
  | bare solid =>
      cases field with
      | nil => exact ⟨.start, nofun, fun _ => rfl, fun rest => rfl⟩
      | cons c word =>
          refine ⟨.bare, nofun, nofun, fun rest => ?_⟩
          rw [List.cons_append, records_plain (.inl rfl) (solid c List.mem_cons_self),
            records_bare fun d later => solid d (List.mem_cons_of_mem c later)]
          rfl
  | quoted =>
      refine ⟨.closed, nofun, nofun, fun rest => ?_⟩
      have step := records_quoted field fields [] rest
      rw [List.nil_append] at step
      rw [quote, List.append_assoc, List.cons_append, List.singleton_append]
      exact step

theorem records_comma {place : Place} (outside : place ≠ .quoted) (fields : List (List Char))
    (field rest : List Char) :
    records place fields field (',' :: rest) = records .start (fields ++ [field]) [] rest := by
  cases place with
  | quoted => exact absurd rfl outside
  | start => rfl
  | bare => rfl
  | closed => rfl

theorem records_line {place : Place} (outside : place ≠ .quoted) (fields : List (List Char))
    (field rest : List Char) :
    records place fields field ('\n' :: rest) =
      (fields ++ [field]) :: records .start [] [] rest := by
  cases place with
  | quoted => exact absurd rfl outside
  | start => rfl
  | bare => rfl
  | closed => rfl

/-- A carriage return ends a record, alone or before a line feed. -/
theorem records_carriage {place : Place} (outside : place ≠ .quoted) (fields : List (List Char))
    (field rest : List Char) : ∃ more, records place fields field ('\r' :: rest) =
      (fields ++ [field]) :: more := by
  cases rest with
  | nil =>
      cases place with
      | quoted => exact absurd rfl outside
      | start => exact ⟨_, rfl⟩
      | bare => exact ⟨_, rfl⟩
      | closed => exact ⟨_, rfl⟩
  | cons c rest =>
      by_cases line : c = '\n'
      · subst line
        cases place with
        | quoted => exact absurd rfl outside
        | start => exact ⟨_, rfl⟩
        | bare => exact ⟨_, rfl⟩
        | closed => exact ⟨_, rfl⟩
      · cases place with
        | quoted => exact absurd rfl outside
        | start => exact ⟨_, by rw [records] <;> simp_all⟩
        | bare => exact ⟨_, by rw [records] <;> simp_all⟩
        | closed => exact ⟨_, by rw [records] <;> simp_all⟩

end Fields

section Lines

/-- A field and how it is written. -/
structure Column where
  field : List Char
  text : List Char
  written : Written field text

/-- The columns before the last one, each with its comma. -/
def columnsText (columns : List Column) : List Char := columns.flatMap fun c => c.text ++ [',']

theorem intercalate_cons {α : Type*} (sep : α) (piece : List α) (after : List (List α)) :
    [sep].intercalate (piece :: after) = piece ++ after.flatMap (sep :: ·) := by
  induction after generalizing piece with
  | nil => simp [List.intercalate]
  | cons next after ih =>
      rw [List.intercalate_cons_cons, ih, List.flatMap_cons, List.append_assoc,
        List.singleton_append]
      rfl

/-- A piece among others that are joined. -/
theorem intercalate_split {α : Type*} (sep : α) (before : List (List α)) (piece : List α)
    (after : List (List α)) : [sep].intercalate (before ++ piece :: after) =
      before.flatMap (· ++ [sep]) ++ (piece ++ after.flatMap (sep :: ·)) := by
  induction before with
  | nil => exact intercalate_cons sep piece after
  | cons first before ih =>
      rw [List.cons_append]
      cases rest : before ++ piece :: after with
      | nil => simp at rest
      | cons next pieces =>
          rw [List.intercalate_cons_cons, ← rest, ih, List.flatMap_cons]
          simp only [List.append_assoc]

theorem records_columns (columns : List Column) (fields : List (List Char)) (rest : List Char) :
    records .start fields [] (columnsText columns ++ rest) =
      records .start (fields ++ columns.map (·.field)) [] rest := by
  induction columns generalizing fields with
  | nil => rw [List.map_nil, List.append_nil, columnsText, List.flatMap_nil, List.nil_append]
  | cons c columns ih =>
      obtain ⟨place, outside, -, reads⟩ := c.written.reads fields
      rw [columnsText, List.flatMap_cons, List.append_assoc, List.append_assoc, reads,
        List.singleton_append, records_comma outside]
      refine (ih _).trans ?_
      rw [List.map_cons, List.append_assoc, List.singleton_append]

/-- The text of a record, read as it ends and as it is followed by others. -/
structure Line (fields : List (List Char)) (text : List Char) : Prop where
  followed : ∀ rest, read (text ++ '\n' :: rest) = fields :: read rest
  ended : read text = [fields]

/-- A record of several fields. -/
theorem line_columns (first : Column) (columns : List Column) (last : Column) :
    Line (((first :: columns) ++ [last]).map (·.field))
      ([','].intercalate (((first :: columns) ++ [last]).map (·.text))) := by
  obtain ⟨place, outside, -, reads⟩ :=
    last.written.reads ([] ++ (first :: columns).map (·.field))
  have joined : [','].intercalate ((first :: columns).map (·.text) ++ [last.text]) =
      columnsText (first :: columns) ++ last.text := by
    rw [intercalate_split, List.flatMap_map, List.flatMap_nil, List.append_nil]
    rfl
  rw [List.map_append, List.map_append, List.map_singleton, List.map_singleton, joined]
  have opened : ∀ rest, read (columnsText (first :: columns) ++ last.text ++ rest) =
      records place ((first :: columns).map (·.field)) last.field rest := by
    intro rest
    rw [read, List.append_assoc, records_columns, reads, List.nil_append]
  refine ⟨fun rest => ?_, ?_⟩
  · rw [opened, records_line outside, read]
  · have ends := opened []
    rw [List.append_nil] at ends
    rw [ends, records_nil]
    exact if_neg fun empty => List.cons_ne_nil _ _ empty.2

/-- A field with a bare carriage return ends its record too early. -/
theorem read_broken (columns : List Column) {word : List Char}
    (solid : ∀ c ∈ word, plain c = true) (rest : List Char) :
    ∃ more, read (columnsText columns ++ (word ++ '\r' :: rest)) =
      (columns.map (·.field) ++ [word]) :: more := by
  obtain ⟨place, outside, -, reads⟩ := (Written.bare solid).reads (columns.map (·.field))
  obtain ⟨more, breaks⟩ := records_carriage outside (columns.map (·.field)) word rest
  refine ⟨more, ?_⟩
  rw [read, records_columns, List.nil_append, reads, breaks]

/-- Records that are written line by line are read in their order. -/
theorem read_lines (lines : List (List (List Char) × List Char))
    (good : ∀ line ∈ lines, Line line.1 line.2) (rest : List Char) :
    read ((lines.flatMap fun line => line.2 ++ ['\n']) ++ rest) =
      lines.map Prod.fst ++ read rest := by
  induction lines with
  | nil => rfl
  | cons line lines ih =>
      have here := good line List.mem_cons_self
      rw [List.flatMap_cons, List.append_assoc, List.append_assoc, List.singleton_append,
        here.followed, ih fun other later => good other (List.mem_cons_of_mem _ later)]
      rfl

/-- A table is read as its records. -/
theorem read_table (lines : List (List (List Char) × List Char))
    (good : ∀ line ∈ lines, Line line.1 line.2) (last : List (List Char) × List Char)
    (final : Line last.1 last.2) :
    read (['\n'].intercalate (lines.map Prod.snd ++ [last.2])) =
      lines.map Prod.fst ++ [last.1] := by
  rw [intercalate_split, List.flatMap_map, List.flatMap_nil, List.append_nil,
    read_lines lines good, final.ended]

end Lines

end Csv

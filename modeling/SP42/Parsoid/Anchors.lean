import SP42.Lib.Framing
import SP42.Lib.Words
import SP42.Parsoid.Document

/-!
The anchor texts that hold a node edit to the node it was made for, and what two nodes
with one anchor have in common.
-/
namespace SP42.Parsoid

/-- `str::split_whitespace`. -/
def splitWhitespace (text : Text) : List Text :=
  (Words.words Text.isWhitespace text).filter fun word => !word.isEmpty

def normalizeAnchorText (text : Text) : Text := Text.join [' '] (splitWhitespace text)

/-- The parameters as an anchor has them behind the name. -/
def paramsText (params : List (Text × Text)) : Text :=
  params.flatMap fun param => '|' :: param.1 ++ '=' :: param.2

/-- `{{name|param=value|…}}`, before normalization. -/
def templateText (template : Template) : Text :=
  ['{', '{'] ++ template.name ++ paramsText template.params ++ ['}', '}']

def templateAnchorText (template : Template) : Text := normalizeAnchorText (templateText template)

def referenceAnchorText (contents : Dom) : Text := normalizeAnchorText contents.textContents

section Words

theorem solid_of_mem_splitWhitespace {text word : Text} (member : word ∈ splitWhitespace text) :
    word ≠ [] ∧ ∀ c ∈ word, Text.isWhitespace c = false := by
  obtain ⟨inside, solid⟩ := List.mem_filter.mp member
  exact ⟨by simpa using solid, Words.solid_of_mem_words inside⟩

theorem mem_splitWhitespace {text word : Text} (member : word ∈ splitWhitespace text) :
    word ≠ [] ∧ ' ' ∉ word := by
  obtain ⟨inked, solid⟩ := solid_of_mem_splitWhitespace member
  exact ⟨inked, fun space => absurd (solid ' ' space) (by decide)⟩

/-- Texts with one normal form have the same words. -/
theorem words_of_normalized {text other : Text}
    (same : normalizeAnchorText text = normalizeAnchorText other) :
    splitWhitespace text = splitWhitespace other :=
  Words.intercalate_inj (fun _ => mem_splitWhitespace) (fun _ => mem_splitWhitespace) same

theorem splitWhitespace_join {words : List Text}
    (solid : ∀ word ∈ words, word ≠ [] ∧ ∀ c ∈ word, Text.isWhitespace c = false) :
    splitWhitespace (Text.join [' '] words) = words := by
  induction words with
  | nil => rfl
  | cons word rest ih =>
      obtain ⟨inked, ink⟩ := solid word List.mem_cons_self
      have later := ih fun other member => solid other (List.mem_cons_of_mem _ member)
      unfold Text.join splitWhitespace at later ⊢
      cases rest with
      | nil => simp [Words.words_solid ink, inked]
      | cons next rest =>
          rw [List.intercalate_cons_cons, List.append_assoc, List.singleton_append,
            Words.words_spaced ink (by decide), List.filter_cons_of_pos (by simpa using inked),
            later]

/-- Normalizing twice is normalizing once. -/
theorem normalizeAnchorText_idem (text : Text) :
    normalizeAnchorText (normalizeAnchorText text) = normalizeAnchorText text := by
  unfold normalizeAnchorText
  rw [splitWhitespace_join fun _ => solid_of_mem_splitWhitespace]

end Words

section Squeezing

/-- Each run of blanks as one space; none at the front behind one already written. -/
def squeezeFrom : Bool → Text → Text
  | _, [] => []
  | spaced, c :: rest =>
      if Text.isWhitespace c then (if spaced then [] else [' ']) ++ squeezeFrom true rest
      else c :: squeezeFrom false rest

def squeeze (text : Text) : Text := squeezeFrom false text

theorem squeezeFrom_append {solid : Char} (ink : Text.isWhitespace solid = false) (spaced : Bool)
    (before after : Text) :
    squeezeFrom spaced (before ++ solid :: after) =
      squeezeFrom spaced before ++ solid :: squeeze after := by
  induction before generalizing spaced with
  | nil => simp [squeezeFrom, ink, squeeze]
  | cons c rest ih =>
      rw [List.cons_append, squeezeFrom, squeezeFrom, ih true, ih false]
      split <;> simp

theorem mem_squeezeFrom {spaced : Bool} {text : Text} {c : Char} (solid : c ≠ ' ')
    (member : c ∈ squeezeFrom spaced text) : c ∈ text := by
  induction text generalizing spaced with
  | nil => exact member
  | cons d rest ih =>
      rw [squeezeFrom] at member
      split at member
      · rcases List.mem_append.mp member with space | later
        · cases spaced with
          | true => cases space
          | false => exact absurd (List.mem_singleton.mp space) solid
        · exact List.mem_cons_of_mem _ (ih later)
      · rcases List.mem_cons.mp member with rfl | later
        · exact List.mem_cons_self
        · exact List.mem_cons_of_mem _ (ih later)

theorem squeezeFrom_solid {word : Text} (solid : ∀ c ∈ word, Text.isWhitespace c = false)
    (spaced : Bool) (rest : Text) (inked : word ≠ []) :
    squeezeFrom spaced (word ++ rest) = word ++ squeeze rest := by
  induction word generalizing spaced with
  | nil => exact absurd rfl inked
  | cons c word ih =>
      rw [List.cons_append, squeezeFrom, solid c List.mem_cons_self, List.cons_append]
      simp only [Bool.false_eq_true, if_false]
      cases word with
      | nil => rfl
      | cons d word =>
          rw [ih (fun e member => solid e (List.mem_cons_of_mem _ member)) false
            (List.cons_ne_nil d word)]

theorem splitWhitespace_solid {word : Text} (solid : ∀ c ∈ word, Text.isWhitespace c = false)
    (inked : word ≠ []) : splitWhitespace word = [word] := by
  simp [splitWhitespace, Words.words_solid solid, inked]

theorem splitWhitespace_spaced {word : Text} (solid : ∀ c ∈ word, Text.isWhitespace c = false)
    {space : Char} (gap : Text.isWhitespace space = true) (rest : Text) :
    splitWhitespace (word ++ space :: rest) =
      (if word = [] then [] else [word]) ++ splitWhitespace rest := by
  unfold splitWhitespace
  rw [Words.words_spaced solid gap]
  by_cases empty : word = []
  · simp [empty]
  · simp [empty]

/-- Behind a space, a text that ends with a solid character is squeezed to its words. -/
theorem squeezeFrom_eq (text : Text)
    (ends : ∃ front last, text = front ++ [last] ∧ Text.isWhitespace last = false) :
    squeezeFrom true text = normalizeAnchorText text ∧ splitWhitespace text ≠ [] := by
  revert ends
  refine @Words.words_induction _ Text.isWhitespace
    (fun text => (∃ front last, text = front ++ [last] ∧ Text.isWhitespace last = false) →
      squeezeFrom true text = normalizeAnchorText text ∧ splitWhitespace text ≠ []) ?_ ?_ text
  · rintro word solid ⟨front, last, same, -⟩
    have inked : word ≠ [] := by simp [same]
    have squeezed := squeezeFrom_solid solid true [] inked
    rw [List.append_nil] at squeezed
    refine ⟨?_, by simp [splitWhitespace_solid solid inked]⟩
    rw [squeezed, normalizeAnchorText, splitWhitespace_solid solid inked]
    simp [Text.join, squeeze, squeezeFrom]
  · rintro word space rest solid gap ih ⟨front, last, same, ink⟩
    have later : ∃ front last, rest = front ++ [last] ∧ Text.isWhitespace last = false := by
      rcases List.eq_nil_or_concat rest with rfl | ⟨start, final, rfl⟩
      · have edge := List.append_inj_right' same rfl
        rw [(List.cons.inj edge).1, ink] at gap
        cases gap
      · refine ⟨start, final, List.concat_eq_append, ?_⟩
        have whole : word ++ space :: start ++ [final] = front ++ [last] := by simpa using same
        have edge := List.append_inj_right' whole rfl
        rw [(List.cons.inj edge).1]
        exact ink
    obtain ⟨squeezed, spoken⟩ := ih later
    rw [normalizeAnchorText, splitWhitespace_spaced solid gap]
    by_cases empty : word = []
    · subst empty
      refine ⟨?_, by simpa using spoken⟩
      simp [squeezeFrom, gap, squeezed, normalizeAnchorText]
    · refine ⟨?_, by simp [empty]⟩
      rw [squeezeFrom_solid solid true _ empty]
      obtain ⟨first, others, split⟩ := List.exists_cons_of_ne_nil spoken
      simp [squeeze, squeezeFrom, gap, squeezed, normalizeAnchorText, empty, split, Text.join,
        List.intercalate_cons_cons]

end Squeezing

section Templates

/-- No bar inside, and no equals sign in a parameter name. -/
structure Plain (template : Template) : Prop where
  name : '|' ∉ template.name
  params : ∀ param ∈ template.params, '|' ∉ param.1 ∧ '=' ∉ param.1 ∧ '|' ∉ param.2

/-- The template with each run of blanks as one space. -/
def Template.squeezed (template : Template) : Template where
  name := squeeze template.name
  params := template.params.map fun param => (squeeze param.1, squeeze param.2)

theorem squeeze_paramsText (params : List (Text × Text)) (before after : Text) :
    squeeze (before ++ paramsText params ++ '}' :: after) =
      squeeze before ++ paramsText (params.map fun param => (squeeze param.1, squeeze param.2)) ++
        '}' :: squeeze after := by
  induction params generalizing before with
  | nil =>
      unfold squeeze
      simp only [paramsText, List.flatMap_nil, List.map_nil, List.append_nil]
      exact squeezeFrom_append (by decide) false before after
  | cons param rest ih =>
      have cut : before ++ paramsText (param :: rest) ++ '}' :: after =
          before ++ '|' :: (param.1 ++ '=' :: (param.2 ++ paramsText rest ++ '}' :: after)) := by
        simp [paramsText]
      rw [cut, squeeze, squeezeFrom_append (by decide), squeeze, squeezeFrom_append (by decide), ih]
      simp [paramsText, squeeze]

theorem squeeze_templateText (template : Template) :
    squeeze (templateText template) =
      '{' :: '{' :: (squeeze template.name ++ paramsText template.squeezed.params ++ ['}', '}']) := by
  have opened : templateText template =
      '{' :: '{' :: (template.name ++ paramsText template.params ++ '}' :: ['}']) := by
    simp [templateText, paramsText]
  rw [opened]
  have one := @squeezeFrom_append '{' (by decide) false []
    ('{' :: (template.name ++ paramsText template.params ++ '}' :: ['}']))
  have two := @squeezeFrom_append '{' (by decide) false []
    (template.name ++ paramsText template.params ++ '}' :: ['}'])
  have close : squeeze ['}'] = ['}'] := by decide
  unfold squeeze at one two close ⊢
  rw [List.nil_append] at one two
  rw [one, two]
  have body := squeeze_paramsText template.params template.name ['}']
  unfold squeeze at body
  rw [body, close]
  rfl

theorem anchor_eq_squeeze (template : Template) :
    templateAnchorText template = squeeze (templateText template) := by
  have ends : ∃ front last, templateText template = front ++ [last] ∧
      Text.isWhitespace last = false :=
    ⟨['{', '{'] ++ template.name ++ paramsText template.params ++ ['}'], '}', by
      simp [templateText, paramsText], by decide⟩
  rw [templateAnchorText, ← (squeezeFrom_eq _ ends).1]
  rfl

theorem paramsText_eq (params : List (Text × Text)) (name : Text) :
    name ++ paramsText params =
      ['|'].intercalate (name :: params.map fun param => param.1 ++ '=' :: param.2) := by
  induction params generalizing name with
  | nil => simp [paramsText]
  | cons param rest ih =>
      rw [List.map_cons, List.intercalate_cons_cons, ← ih]
      simp [paramsText]

theorem pairs_unique {params others : List (Text × Text)}
    (free : ∀ param ∈ params, '=' ∉ param.1) (freeOthers : ∀ param ∈ others, '=' ∉ param.1)
    (same : (params.map fun param => param.1 ++ '=' :: param.2) =
      others.map fun param => param.1 ++ '=' :: param.2) : params = others := by
  induction params generalizing others with
  | nil =>
      cases others with
      | nil => rfl
      | cons other others => cases same
  | cons param params ih =>
      cases others with
      | nil => cases same
      | cons other others =>
          obtain ⟨here, rest⟩ := List.cons.inj same
          obtain ⟨name, value⟩ := Framing.first_unique (free param List.mem_cons_self)
            (freeOthers other List.mem_cons_self) here
          rw [Prod.ext name value,
            ih (fun p member => free p (List.mem_cons_of_mem _ member))
              (fun p member => freeOthers p (List.mem_cons_of_mem _ member)) rest]

theorem Plain.squeezed {template : Template} (plain : Plain template) :
    Plain template.squeezed where
  name := fun member => plain.name (mem_squeezeFrom (by decide) member)
  params := by
    intro param member
    obtain ⟨source, held, rfl⟩ := List.mem_map.mp member
    obtain ⟨bar, equals, value⟩ := plain.params source held
    exact ⟨fun inside => bar (mem_squeezeFrom (by decide) inside),
      fun inside => equals (mem_squeezeFrom (by decide) inside),
      fun inside => value (mem_squeezeFrom (by decide) inside)⟩

theorem Plain.pieces {template : Template} (plain : Plain template) :
    ∀ piece ∈ template.name :: template.params.map fun param => param.1 ++ '=' :: param.2,
      '|' ∉ piece := by
  intro piece member
  rcases List.mem_cons.mp member with rfl | later
  · exact plain.name
  · obtain ⟨param, held, rfl⟩ := List.mem_map.mp later
    obtain ⟨name, -, value⟩ := plain.params param held
    intro inside
    rcases List.mem_append.mp inside with first | second
    · exact name first
    · rcases List.mem_cons.mp second with no | rest
      · exact absurd no (by decide)
      · exact value rest

/-- Plain templates with one anchor agree up to runs of blanks. -/
theorem squeezed_of_anchor {one two : Template} (plainOne : Plain one) (plainTwo : Plain two)
    (same : templateAnchorText one = templateAnchorText two) : one.squeezed = two.squeezed := by
  rw [anchor_eq_squeeze, anchor_eq_squeeze, squeeze_templateText, squeeze_templateText] at same
  have body := List.append_cancel_right (List.cons.inj (List.cons.inj same).2).2
  rw [paramsText_eq, paramsText_eq] at body
  have pieces := congrArg (List.splitOn '|') body
  have readOne := List.splitOn_intercalate '|' plainOne.squeezed.pieces (List.cons_ne_nil _ _)
  have readTwo := List.splitOn_intercalate '|' plainTwo.squeezed.pieces (List.cons_ne_nil _ _)
  obtain ⟨name, params⟩ := List.cons.inj (readOne.symm.trans (pieces.trans readTwo))
  have pairs := pairs_unique (fun param member => (plainOne.squeezed.params param member).2.1)
    (fun param member => (plainTwo.squeezed.params param member).2.1) params
  exact Template.mk.injEq .. ▸ ⟨name, pairs⟩

end Templates

end SP42.Parsoid

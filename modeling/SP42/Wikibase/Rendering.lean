import SP42.Wikibase.Conservation
import SP42.Wikibase.Snaks

/-!
The rows that a diff of entities is rendered to, and what a row of a change shows: the two sides of
its arrows, and notes that say what no arrow shows.
-/
namespace SP42.Wikibase

inductive EntityChangeKind where
  | added
  | removed
  | changed
deriving DecidableEq

structure EntityChangeRowReport where
  kind : EntityChangeKind
  text : Text

structure EntityDiffSectionReport where
  title : Text
  rows : List EntityChangeRowReport

structure EntityDiffReport where
  sections : List EntityDiffSectionReport

section Report

variable (print : Json → Text) (labels : Text → Option Text)

/-- Two texts with an arrow between them. -/
def arrowText (before after : Text) : Text := before ++ " → ".toList ++ after

def changeKind {α : Type} : Option α → Option α → EntityChangeKind
  | none, some _ => .added
  | some _, none => .removed
  | _, _ => .changed

def termRow (change : TermChange) : EntityChangeRowReport where
  kind := changeKind change.before change.after
  text := change.language.toList ++ ": ".toList ++
    arrowText (optionalTerm change.before) (optionalTerm change.after)

def aliasText (aliases : List Text) : Text :=
  "[".toList ++ Text.join ", ".toList aliases ++ "]".toList

def aliasRow (change : AliasChange) : EntityChangeRowReport where
  kind := .changed
  text := change.language.toList ++ ": ".toList ++
    arrowText (aliasText change.before) (aliasText change.after)

def sitelinkRow (change : SitelinkChange) : EntityChangeRowReport where
  kind := changeKind change.before change.after
  text := change.site.toList ++ ": ".toList ++
    arrowText (optionalTerm change.before) (optionalTerm change.after)

def changedPartDetails (before after : WikibaseStatement) (parts : StatementChangeParts) :
    List Text :=
  (if parts.value ∧ statementValueText print labels before = statementValueText print labels after
    then ["value details beyond the rendered form changed".toList] else []) ++
  (if parts.qualifiers then
    ["qualifiers ".toList ++ arrowText (snakListText print labels before.qualifiers)
      (snakListText print labels after.qualifiers)] else []) ++
  (if parts.rank then
    ["rank ".toList ++ arrowText (rankText before.rank) (rankText after.rank)] else []) ++
  (if parts.references then
    ["references ".toList ++ arrowText (referencesText print labels before.references)
      (referencesText print labels after.references)] else []) ++
  if parts.other then ["other statement fields changed".toList] else []

def statementSubpartDetails (statement : WikibaseStatement) : List Text :=
  (if statement.qualifiers.isEmpty then []
    else ["qualifiers ".toList ++ snakListText print labels statement.qualifiers]) ++
  (if statement.rank = .normal then [] else ["rank ".toList ++ rankText statement.rank]) ++
  if statement.references.isEmpty then []
    else ["references ".toList ++ referencesText print labels statement.references]

/-- A text with its details in parentheses. -/
def withDetails (core : Text) (details : List Text) : Text :=
  if details = [] then core
  else core ++ " (".toList ++ Text.join "; ".toList details ++ ")".toList

def wholeStatementRowText (statement : WikibaseStatement) : Text :=
  withDetails (statementRowText print labels statement)
    (statementSubpartDetails print labels statement)

def statementRow : StatementChange → EntityChangeRowReport
  | .added statement => ⟨.added, wholeStatementRowText print labels statement⟩
  | .removed statement => ⟨.removed, wholeStatementRowText print labels statement⟩
  | .changed before after parts =>
      ⟨.changed, withDetails
        (labeled labels after.property.toList ++ ": ".toList ++
          arrowText (statementValueText print labels before)
            (statementValueText print labels after))
        (changedPartDetails print labels before after parts)⟩
  | .reordered property =>
      ⟨.changed, labeled labels property.toList ++ ": statement order changed".toList⟩

def otherRow (change : UnknownEntityChange) : EntityChangeRowReport :=
  ⟨.changed, change.key.toList ++ " changed".toList⟩

def reportSection (title : String) (rows : List EntityChangeRowReport) :
    Option EntityDiffSectionReport :=
  if rows = [] then none else some ⟨title.toList, rows⟩

def renderEntityDiffReport (diff : EntityDiff) : EntityDiffReport where
  sections := [
    reportSection "Labels" (diff.labels.map termRow),
    reportSection "Descriptions" (diff.descriptions.map termRow),
    reportSection "Aliases" (diff.aliases.map aliasRow),
    reportSection "Sitelinks" (diff.sitelinks.map sitelinkRow),
    reportSection "Statements" (diff.statements.map (statementRow print labels)),
    reportSection "Other fields" (diff.other.map otherRow)].filterMap id

end Report

section Views

/-- What a row of a changed statement says beside its main arrow. -/
inductive Detail where
  | valueNote
  | qualifiers (before after : Text)
  | rank (before after : Text)
  | references (before after : Text)
  | otherNote

def Detail.text : Detail → Text
  | valueNote => "value details beyond the rendered form changed".toList
  | qualifiers before after => "qualifiers ".toList ++ arrowText before after
  | rank before after => "rank ".toList ++ arrowText before after
  | references before after => "references ".toList ++ arrowText before after
  | otherNote => "other statement fields changed".toList

/-- It says that something changed, or its arrow has different sides. -/
def Detail.Tells : Detail → Prop
  | valueNote | otherNote => True
  | qualifiers before after | rank before after | references before after => before ≠ after

/-- A row by its arrows. -/
inductive RowView where
  /-- A statement as a whole, which is on one side only. -/
  | whole (kind : EntityChangeKind) (text : Text)
  /-- The text itself is a note. -/
  | note (text : Text)
  | arrows (kind : EntityChangeKind) (subject before after : Text) (details : List Detail)

def RowView.report : RowView → EntityChangeRowReport
  | whole kind text => ⟨kind, text⟩
  | note text => ⟨.changed, text⟩
  | arrows kind subject before after details =>
      ⟨kind, withDetails (subject ++ ": ".toList ++ arrowText before after)
        (details.map Detail.text)⟩

/-- A row of the kind `Changed` does not look as if nothing had changed. -/
def RowView.Honest : RowView → Prop
  | whole kind _ => kind ≠ .changed
  | note _ => True
  | arrows kind _ before after details =>
      kind = .changed → before ≠ after ∨ ∃ detail ∈ details, detail.Tells

def termView (change : TermChange) : RowView :=
  .arrows (changeKind change.before change.after) change.language.toList
    (optionalTerm change.before) (optionalTerm change.after) []

def aliasView (change : AliasChange) : RowView :=
  .arrows .changed change.language.toList (aliasText change.before) (aliasText change.after) []

def sitelinkView (change : SitelinkChange) : RowView :=
  .arrows (changeKind change.before change.after) change.site.toList
    (optionalTerm change.before) (optionalTerm change.after) []

variable (print : Json → Text) (labels : Text → Option Text)

def changedDetails (before after : WikibaseStatement) (parts : StatementChangeParts) :
    List Detail :=
  (if parts.value ∧ statementValueText print labels before = statementValueText print labels after
    then [.valueNote] else []) ++
  (if parts.qualifiers then [.qualifiers (snakListText print labels before.qualifiers)
    (snakListText print labels after.qualifiers)] else []) ++
  (if parts.rank then [.rank (rankText before.rank) (rankText after.rank)] else []) ++
  (if parts.references then [.references (referencesText print labels before.references)
    (referencesText print labels after.references)] else []) ++
  if parts.other then [.otherNote] else []

def statementView : StatementChange → RowView
  | .added statement => .whole .added (wholeStatementRowText print labels statement)
  | .removed statement => .whole .removed (wholeStatementRowText print labels statement)
  | .changed before after parts =>
      .arrows .changed (labeled labels after.property.toList)
        (statementValueText print labels before) (statementValueText print labels after)
        (changedDetails print labels before after parts)
  | .reordered property =>
      .note (labeled labels property.toList ++ ": statement order changed".toList)

def otherView (change : UnknownEntityChange) : RowView :=
  .note (change.key.toList ++ " changed".toList)

/-- The rows of a report by their arrows, under the titles of its sections. -/
def reportViews (diff : EntityDiff) : List (String × List RowView) := [
  ("Labels", diff.labels.map termView),
  ("Descriptions", diff.descriptions.map termView),
  ("Aliases", diff.aliases.map aliasView),
  ("Sitelinks", diff.sitelinks.map sitelinkView),
  ("Statements", diff.statements.map (statementView print labels)),
  ("Other fields", diff.other.map otherView)]

theorem changedPartDetails_eq (before after : WikibaseStatement) (parts : StatementChangeParts) :
    changedPartDetails print labels before after parts =
      (changedDetails print labels before after parts).map Detail.text := by
  simp only [changedPartDetails, changedDetails, List.map_append]
  congr 1
  · congr 1
    · congr 1
      · congr 1 <;> split <;> rfl
      · split <;> rfl
    · split <;> rfl
  · split <;> rfl

theorem statementView_report (change : StatementChange) :
    (statementView print labels change).report = statementRow print labels change := by
  cases change with
  | changed before after parts =>
      rw [statementRow, changedPartDetails_eq, statementView, RowView.report]
  | _ => rfl

/-- The report is the texts of the views. -/
theorem renderEntityDiffReport_views (diff : EntityDiff) :
    renderEntityDiffReport print labels diff =
      ⟨(reportViews print labels diff).filterMap fun section_ =>
        reportSection section_.1 (section_.2.map RowView.report)⟩ := by
  have terms (changes : List TermChange) :
      (changes.map termView).map RowView.report = changes.map termRow := List.map_map
  have aliases : (diff.aliases.map aliasView).map RowView.report = diff.aliases.map aliasRow :=
    List.map_map
  have sitelinks : (diff.sitelinks.map sitelinkView).map RowView.report =
      diff.sitelinks.map sitelinkRow := List.map_map
  have statements : (diff.statements.map (statementView print labels)).map RowView.report =
      diff.statements.map (statementRow print labels) := by
    rw [List.map_map]
    exact List.map_congr_left fun change _ => statementView_report print labels change
  have other : (diff.other.map otherView).map RowView.report = diff.other.map otherRow :=
    List.map_map
  unfold renderEntityDiffReport reportViews
  refine congrArg EntityDiffReport.mk ?_
  rw [← terms, ← terms, ← aliases, ← sitelinks, ← statements, ← other]
  show ((reportViews print labels diff).map fun section_ =>
    reportSection section_.1 (section_.2.map RowView.report)).filterMap id = _
  rw [List.filterMap_map]
  rfl

end Views

section Parts

/-- The parts that the flags of a change tell apart. -/
inductive StatementPart where
  | mainsnak
  | qualifiers
  | rank
  | references
  | other

def partKeys : List String := ["mainsnak", "qualifiers", "qualifiers-order", "rank", "references"]

/-- The JSON of a part differs. -/
def StatementPart.Differs (before after : WikibaseStatement) : StatementPart → Prop
  | mainsnak => rawPart before "mainsnak" ≠ rawPart after "mainsnak"
  | qualifiers => rawPart before "qualifiers" ≠ rawPart after "qualifiers" ∨
      rawPart before "qualifiers-order" ≠ rawPart after "qualifiers-order"
  | rank => rawPart before "rank" ≠ rawPart after "rank"
  | references => rawPart before "references" ≠ rawPart after "references"
  | other => ∃ key ∉ partKeys, rawPart before key ≠ rawPart after key

/-- A row says something about a part: it shows two main values or that they differ, it has an arrow
for the part, or it says that something else changed. A rank that reads the same is something
else. -/
def StatementPart.Mentioned (shownBefore shownAfter : Text) (details : List Detail) :
    StatementPart → Prop
  | mainsnak => shownBefore ≠ shownAfter ∨ .valueNote ∈ details
  | qualifiers => ∃ before after, .qualifiers before after ∈ details
  | rank => (∃ before after, .rank before after ∈ details) ∨ .otherNote ∈ details
  | references => ∃ before after, .references before after ∈ details
  | other => .otherNote ∈ details

/-- One of the parts that have a flag of their own changed. -/
def Flagged (before after : WikibaseStatement) : Prop :=
  StatementPart.mainsnak.Differs before after ∨ StatementPart.qualifiers.Differs before after ∨
    before.rank ≠ after.rank ∨ StatementPart.references.Differs before after

/-- The flags of a change: if none of the four is up, the fifth is. -/
theorem statementChangeParts_flags (before after : WikibaseStatement) :
    let parts := statementChangeParts before after
    (parts.value = true ↔ StatementPart.mainsnak.Differs before after) ∧
    (parts.qualifiers = true ↔ StatementPart.qualifiers.Differs before after) ∧
    (parts.rank = true ↔ before.rank ≠ after.rank) ∧
    (parts.references = true ↔ StatementPart.references.Differs before after) ∧
    (parts.other = true ↔ ¬ Flagged before after) := by
  unfold statementChangeParts
  dsimp only
  split
  · next any =>
      have flagged : Flagged before after := by
        simpa [StatementChangeParts.any, Flagged, StatementPart.Differs, or_assoc] using any
      simp [StatementPart.Differs, flagged]
  · next none =>
      have calm : ¬ Flagged before after := by
        simpa [StatementChangeParts.any, Flagged, StatementPart.Differs, or_assoc] using none
      simp [StatementPart.Differs, calm]

variable {print : Json → Text} {labels : Text → Option Text}

theorem mem_changedDetails {before after : WikibaseStatement} {parts : StatementChangeParts}
    {detail : Detail} : detail ∈ changedDetails print labels before after parts ↔
      (detail = .valueNote ∧ parts.value = true ∧
        statementValueText print labels before = statementValueText print labels after) ∨
      (detail = .qualifiers (snakListText print labels before.qualifiers)
        (snakListText print labels after.qualifiers) ∧ parts.qualifiers = true) ∨
      (detail = .rank (rankText before.rank) (rankText after.rank) ∧ parts.rank = true) ∨
      (detail = .references (referencesText print labels before.references)
        (referencesText print labels after.references) ∧ parts.references = true) ∨
      (detail = .otherNote ∧ parts.other = true) := by
  simp only [changedDetails, List.mem_append, List.mem_ite_nil_right, List.mem_singleton, or_assoc,
    and_comm]

/-- What is shown of a main value is read from its JSON. -/
theorem differs_of_valueText {before after : WikibaseStatement}
    (shown : statementValueText print labels before ≠ statementValueText print labels after) :
    StatementPart.mainsnak.Differs before after := by
  intro same
  refine shown ?_
  unfold rawPart at same
  unfold statementValueText WikibaseStatement.value
  rw [same]
  cases after.raw.get "mainsnak" <;> rfl

theorem differs_of_qualifiersText {before after : WikibaseStatement}
    (shown : snakListText print labels before.qualifiers ≠
      snakListText print labels after.qualifiers) :
    StatementPart.qualifiers.Differs before after := by
  by_contra same
  obtain ⟨values, order⟩ := not_or.mp same
  refine shown (congrArg _ ?_)
  exact congrArg₂ parseSnakMap (not_not.mp values) (not_not.mp order)

theorem differs_of_referencesText {before after : WikibaseStatement}
    (shown : referencesText print labels before.references ≠
      referencesText print labels after.references) :
    StatementPart.references.Differs before after := by
  intro same
  exact shown (congrArg _ (congrArg parseReferences same))

/-- A row of a changed statement with the flags of its change shows the change exactly when the main
value or the rank changed, or the texts of the qualifiers or of the references differ, or nothing
that has a flag changed. -/
theorem changedRow_honest {before after : WikibaseStatement} :
    (statementView print labels
      (.changed before after (statementChangeParts before after))).Honest ↔
    (Flagged before after → StatementPart.mainsnak.Differs before after ∨ before.rank ≠ after.rank ∨
      snakListText print labels before.qualifiers ≠ snakListText print labels after.qualifiers ∨
      referencesText print labels before.references ≠
        referencesText print labels after.references) := by
  obtain ⟨value, qualifiers, rank, references, other⟩ := statementChangeParts_flags before after
  constructor
  · intro honest flagged
    rcases honest rfl with shown | ⟨detail, listed, tells⟩
    · exact .inl (differs_of_valueText shown)
    · rcases mem_changedDetails.mp listed with ⟨-, up, -⟩ | ⟨rfl, -⟩ | ⟨-, up⟩ | ⟨rfl, -⟩ | ⟨-, up⟩
      · exact .inl (value.mp up)
      · exact .inr (.inr (.inl tells))
      · exact .inr (.inl (rank.mp up))
      · exact .inr (.inr (.inr tells))
      · exact absurd flagged (other.mp up)
  · intro visible _
    by_cases flagged : Flagged before after
    · rcases visible flagged with differs | differs | shown | shown
      · by_cases same : statementValueText print labels before =
            statementValueText print labels after
        · exact .inr ⟨_, mem_changedDetails.mpr (.inl ⟨rfl, value.mpr differs, same⟩), trivial⟩
        · exact .inl same
      · refine .inr ⟨_, mem_changedDetails.mpr (.inr (.inr (.inl ⟨rfl, rank.mpr differs⟩))), ?_⟩
        exact mt rankText_injective differs
      · have up := qualifiers.mpr (differs_of_qualifiersText shown)
        exact .inr ⟨_, mem_changedDetails.mpr (.inr (.inl ⟨rfl, up⟩)), shown⟩
      · have up := references.mpr (differs_of_referencesText shown)
        exact .inr ⟨_, mem_changedDetails.mpr (.inr (.inr (.inr (.inl ⟨rfl, up⟩)))), shown⟩
    · have up := other.mpr flagged
      exact .inr ⟨_, mem_changedDetails.mpr (.inr (.inr (.inr (.inr ⟨rfl, up⟩)))), trivial⟩

/-- Such a row mentions all that differs exactly when, if something that has a flag changed, the
JSON of the rank differs with the rank only, and no key without a flag differs. -/
theorem changedRow_mentions {before after : WikibaseStatement} :
    (∀ part : StatementPart, part.Differs before after →
      part.Mentioned (statementValueText print labels before)
        (statementValueText print labels after)
        (changedDetails print labels before after (statementChangeParts before after))) ↔
    (Flagged before after →
      (StatementPart.rank.Differs before after → before.rank ≠ after.rank) ∧
        ¬ StatementPart.other.Differs before after) := by
  obtain ⟨value, qualifiers, rank, references, other⟩ := statementChangeParts_flags before after
  constructor
  · intro mentioned flagged
    have quiet : .otherNote ∉ changedDetails print labels before after
        (statementChangeParts before after) := by
      intro noted
      rcases mem_changedDetails.mp noted with ⟨is, -⟩ | ⟨is, -⟩ | ⟨is, -⟩ | ⟨is, -⟩ | ⟨-, up⟩
      · cases is
      · cases is
      · cases is
      · cases is
      · exact other.mp up flagged
    refine ⟨fun differs => ?_, fun differs => quiet (mentioned .other differs)⟩
    rcases mentioned .rank differs with ⟨old, new, listed⟩ | noted
    · rcases mem_changedDetails.mp listed with ⟨is, -⟩ | ⟨is, -⟩ | ⟨-, up⟩ | ⟨is, -⟩ | ⟨is, -⟩
      · cases is
      · cases is
      · exact rank.mp up
      · cases is
      · cases is
    · exact absurd noted quiet
  · intro told part differs
    by_cases flagged : Flagged before after
    · obtain ⟨ranked, unflagged⟩ := told flagged
      cases part with
      | mainsnak =>
          by_cases same : statementValueText print labels before =
              statementValueText print labels after
          · exact .inr (mem_changedDetails.mpr (.inl ⟨rfl, value.mpr differs, same⟩))
          · exact .inl same
      | qualifiers =>
          exact ⟨_, _, mem_changedDetails.mpr (.inr (.inl ⟨rfl, qualifiers.mpr differs⟩))⟩
      | rank =>
          have up := rank.mpr (ranked differs)
          exact .inl ⟨_, _, mem_changedDetails.mpr (.inr (.inr (.inl ⟨rfl, up⟩)))⟩
      | references =>
          have up := references.mpr differs
          exact ⟨_, _, mem_changedDetails.mpr (.inr (.inr (.inr (.inl ⟨rfl, up⟩))))⟩
      | other => exact absurd differs unflagged
    · have noted : .otherNote ∈ changedDetails print labels before after
          (statementChangeParts before after) :=
        mem_changedDetails.mpr (.inr (.inr (.inr (.inr ⟨rfl, other.mpr flagged⟩))))
      cases part with
      | mainsnak => exact absurd (.inl differs) flagged
      | qualifiers => exact absurd (.inr (.inl differs)) flagged
      | rank => exact .inr noted
      | references => exact absurd (.inr (.inr (.inr differs))) flagged
      | other => exact noted

end Parts

section Entities

/-- An old statement and the new one that it is paired with. -/
def PairOf (before after : List WikibaseStatement) (old new : WikibaseStatement) : Prop :=
  ∃ place index : Nat, before[place]? = some old ∧ after[index]? = some new ∧
    (partners before after)[place]? = some (some index)

theorem mem_changed_iff {property : String} {before after : List WikibaseStatement}
    {old new : WikibaseStatement} {parts : StatementChangeParts} :
    .changed old new parts ∈ diffStatementLists property before after ↔
      PairOf before after old new ∧ old.raw ≠ new.raw ∧ statementChangeParts old new = parts := by
  rw [listed_eq]
  simp only [List.mem_append, List.mem_filterMap]
  constructor
  · rintro ((⟨⟨held, partner⟩, member, made⟩ | ⟨entry, -, made⟩) | made)
    · obtain ⟨place, stands⟩ := List.mem_iff_getElem?.mp member
      obtain ⟨here, paired⟩ := List.getElem?_zip_eq_some.mp stands
      cases partner with
      | none => cases made
      | some index =>
          obtain ⟨other, there, made⟩ := Option.bind_eq_some_iff.mp made
          split at made
          · next differs =>
              cases made
              exact ⟨⟨place, index, here, there, paired⟩, differs, rfl⟩
          · cases made
    · split at made
      · cases made
      · cases made
    · split at made
      · cases made
      · cases List.mem_singleton.mp made
  · rintro ⟨⟨place, index, here, there, paired⟩, differs, rfl⟩
    have stands : (before.zip (partners before after))[place]? = some (old, some index) :=
      List.getElem?_zip_eq_some.mpr ⟨here, paired⟩
    refine .inl (.inl ⟨_, List.mem_of_getElem? stands, ?_⟩)
    rw [oldChange, there, Option.bind_some, if_pos differs]

/-- The statements of a property that two entities pair. -/
def Kept (old new : WikibaseEntity) (before after : WikibaseStatement) : Prop :=
  ∃ entry ∈ old.statements,
    PairOf entry.2 ((new.statements.lookup entry.1).getD []) before after

theorem mem_changedStatements_iff {old new : WikibaseEntity} {before after : WikibaseStatement}
    {parts : StatementChangeParts} :
    .changed before after parts ∈ (diffEntities (some old) new).statements ↔
      Kept old new before after ∧ before.raw ≠ after.raw ∧
        statementChangeParts before after = parts := by
  unfold diffEntities
  dsimp only [Option.getD_some]
  rw [List.mem_append, List.mem_flatMap, List.mem_flatMap]
  constructor
  · rintro (⟨entry, member, listed⟩ | ⟨entry, -, listed⟩)
    · obtain ⟨paired, made⟩ := mem_changed_iff.mp listed
      exact ⟨⟨entry, member, paired⟩, made⟩
    · split at listed
      · cases listed
      · obtain ⟨⟨_, _, here, -⟩, -⟩ := mem_changed_iff.mp listed
        cases here
  · rintro ⟨⟨entry, member, paired⟩, made⟩
    exact .inl ⟨entry, member, mem_changed_iff.mpr ⟨paired, made⟩⟩

theorem mem_aliases_iff {old new : WikibaseEntity} {change : AliasChange} :
    change ∈ (diffEntities (some old) new).aliases ↔ ∃ language before after,
      Entries.Differs old.aliases new.aliases language before after ∧
        (⟨language, before.getD [], after.getD []⟩ : AliasChange) = change := by
  unfold diffEntities
  dsimp only [Option.getD_some]
  rw [Entries.mem_changes_iff]

theorem mem_sitelinks_iff {old new : WikibaseEntity} {change : SitelinkChange} :
    change ∈ (diffEntities (some old) new).sitelinks ↔ ∃ site before after,
      Entries.Differs old.sitelinks new.sitelinks site before after ∧
        (⟨site, before.map WikibaseSitelink.display, after.map WikibaseSitelink.display⟩ :
          SitelinkChange) = change := by
  unfold diffEntities
  dsimp only [Option.getD_some]
  rw [Entries.mem_changes_iff]

variable (print : Json → Text) (labels : Text → Option Text)

/-- The rows of a report present no change as identical. -/
structure HonestReport (diff : EntityDiff) : Prop where
  /-- Each row of the kind `Changed` has an arrow with different sides, or says that something
  changed. -/
  rows : ∀ section_ ∈ reportViews print labels diff, ∀ view ∈ section_.2, view.Honest
  /-- All parts of a changed statement whose JSON differs are mentioned. -/
  parts : ∀ before after parts, .changed before after parts ∈ diff.statements →
    ∀ part : StatementPart, part.Differs before after →
      part.Mentioned (statementValueText print labels before)
        (statementValueText print labels after)
        (changedDetails print labels before after parts)
  aliases : ∀ change ∈ diff.aliases, change.before ≠ change.after →
    aliasText change.before ≠ aliasText change.after
  sitelinks : ∀ change ∈ diff.sitelinks,
    optionalTerm change.before ≠ optionalTerm change.after

/-- Two statements whose differences can be read off the row of a change. -/
def Readable (before after : WikibaseStatement) : Prop :=
  Flagged before after →
    (StatementPart.mainsnak.Differs before after ∨ before.rank ≠ after.rank ∨
      snakListText print labels before.qualifiers ≠ snakListText print labels after.qualifiers ∨
      referencesText print labels before.references ≠
        referencesText print labels after.references) ∧
    (StatementPart.rank.Differs before after → before.rank ≠ after.rank) ∧
    ¬ StatementPart.other.Differs before after

/-- What differs between two entities differs in its text. -/
structure Readably (old new : WikibaseEntity) : Prop where
  aliases : ∀ language before after, Entries.Differs old.aliases new.aliases language before after →
    Text.join ", ".toList (before.getD []) ≠ Text.join ", ".toList (after.getD [])
  sitelinks : ∀ site before after,
    Entries.Differs old.sitelinks new.sitelinks site (some before) (some after) →
      before.display ≠ after.display
  statements : ∀ before after, Kept old new before after → before.raw ≠ after.raw →
    Readable print labels before after

theorem aliasText_eq_iff {before after : List Text} : aliasText before = aliasText after ↔
    Text.join ", ".toList before = Text.join ", ".toList after := by
  refine ⟨fun same => ?_, fun same => ?_⟩
  · exact List.append_cancel_left (List.append_cancel_right same)
  · rw [aliasText, same]
    rfl

/-- A row of a term shows the change, for a value is not shown as another. -/
theorem termRow_honest {before after : List (String × Text)} :
    ∀ change ∈ diffTermMaps before after, (termView change).Honest := by
  intro change listed
  obtain ⟨language, old, new, differs, rfl⟩ := Entries.mem_changes_iff.mp listed
  intro _
  refine .inl fun same => ?_
  have equal := optionalTerm_injective same
  cases differs with
  | held member differs => exact differs equal.symm
  | fresh member absent => cases equal

variable {print labels}

theorem aliasRows_honest_iff {old new : WikibaseEntity} :
    (∀ change ∈ (diffEntities (some old) new).aliases, (aliasView change).Honest) ↔
      ∀ language before after, Entries.Differs old.aliases new.aliases language before after →
        Text.join ", ".toList (before.getD []) ≠ Text.join ", ".toList (after.getD []) := by
  constructor
  · intro honest language before after differs
    rcases honest _ (mem_aliases_iff.mpr ⟨_, _, _, differs, rfl⟩) rfl with shown | told
    · exact mt aliasText_eq_iff.mpr shown
    · obtain ⟨_, listed, -⟩ := told
      cases listed
  · intro readable change listed
    obtain ⟨language, before, after, differs, rfl⟩ := mem_aliases_iff.mp listed
    exact fun _ => .inl (mt aliasText_eq_iff.mp (readable _ _ _ differs))

theorem sitelinks_shown_iff {old new : WikibaseEntity} :
    (∀ change ∈ (diffEntities (some old) new).sitelinks,
      optionalTerm change.before ≠ optionalTerm change.after) ↔
      ∀ site before after,
        Entries.Differs old.sitelinks new.sitelinks site (some before) (some after) →
          before.display ≠ after.display := by
  constructor
  · intro shown site before after differs same
    refine shown _ (mem_sitelinks_iff.mpr ⟨_, _, _, differs, rfl⟩) ?_
    exact congrArg (fun text => optionalTerm (some text)) same
  · intro readable change listed same
    obtain ⟨site, before, after, differs, rfl⟩ := mem_sitelinks_iff.mp listed
    have equal := optionalTerm_injective same
    cases before with
    | none =>
        cases after with
        | none => cases differs
        | some after => cases equal
    | some before =>
        cases after with
        | none => cases equal
        | some after => exact readable _ _ _ differs (Option.some.inj equal)

/-- The rows of a report for two entities present no change as identical, mention every part of a
statement that differs, and tell aliases and sitelinks apart, exactly when all that differs can be
read off. -/
theorem report_honest_iff (print : Json → Text) (labels : Text → Option Text)
    (old new : WikibaseEntity) :
    HonestReport print labels (diffEntities (some old) new) ↔ Readably print labels old new := by
  constructor
  · intro honest
    have aliases : ("Aliases", (diffEntities (some old) new).aliases.map aliasView) ∈
        reportViews print labels (diffEntities (some old) new) := by
      simp [reportViews]
    have statements : ("Statements", (diffEntities (some old) new).statements.map
        (statementView print labels)) ∈
        reportViews print labels (diffEntities (some old) new) := by
      simp [reportViews]
    refine ⟨?_, sitelinks_shown_iff.mp honest.sitelinks, ?_⟩
    · refine aliasRows_honest_iff.mp fun change listed => ?_
      exact honest.rows _ aliases _ (List.mem_map_of_mem listed)
    · intro before after kept differs
      have listed := mem_changedStatements_iff.mpr ⟨kept, differs, rfl⟩
      have row := honest.rows _ statements _ (List.mem_map_of_mem listed)
      have mentioned := changedRow_mentions.mp (honest.parts _ _ _ listed)
      exact fun flagged => ⟨changedRow_honest.mp row flagged, mentioned flagged⟩
  · intro readable
    have sitelinks := sitelinks_shown_iff.mpr readable.sitelinks
    have aliases := aliasRows_honest_iff.mpr readable.aliases
    have statement : ∀ change ∈ (diffEntities (some old) new).statements,
        (statementView print labels change).Honest := by
      intro change listed
      cases change with
      | added statement => exact nofun
      | removed statement => exact nofun
      | changed before after parts =>
          obtain ⟨kept, differs, rfl⟩ := mem_changedStatements_iff.mp listed
          have told := readable.statements before after kept differs
          exact changedRow_honest.mpr fun flagged => (told flagged).1
      | reordered property => trivial
    refine ⟨?_, ?_, ?_, sitelinks⟩
    · intro section_ among view member
      simp only [reportViews, List.mem_cons, List.not_mem_nil, or_false] at among
      rcases among with rfl | rfl | rfl | rfl | rfl | rfl <;>
        obtain ⟨change, listed, rfl⟩ := List.mem_map.mp member
      · exact termRow_honest change listed
      · exact termRow_honest change listed
      · exact aliases change listed
      · exact fun _ => .inl (sitelinks change listed)
      · exact statement change listed
      · trivial
    · intro before after parts listed
      obtain ⟨kept, differs, rfl⟩ := mem_changedStatements_iff.mp listed
      have told := readable.statements before after kept differs
      exact changedRow_mentions.mpr fun flagged => (told flagged).2
    · intro change listed _
      rcases aliases change listed rfl with shown | ⟨_, none, -⟩
      · exact shown
      · cases none

/-- An item with English aliases and nothing else. -/
def itemCalled (aliases : List String) : Json :=
  .object [("aliases", .object [("en", .array (aliases.map fun name =>
      .object [("language", .string "en".toList), ("value", .string name.toList)]))]),
    ("id", .string "Q90".toList)]

/-- One alias with a comma and two aliases are shown as the same. -/
theorem joined_aliases_alike :
    ∃ old new, parseEntityContent (itemCalled ["Paris, France"]) = .ok old ∧
      parseEntityContent (itemCalled ["Paris", "France"]) = .ok new ∧
      ∀ print labels,
        renderEntityDiffReport print labels (diffEntities (some old) new) =
          ⟨[⟨"Aliases".toList,
            [⟨.changed, "en: [Paris, France] → [Paris, France]".toList⟩]⟩]⟩ ∧
        ¬ HonestReport print labels (diffEntities (some old) new) := by
  refine ⟨_, _, rfl, rfl, fun print labels => ⟨rfl, fun honest => ?_⟩⟩
  refine honest.aliases ⟨"en", ["Paris, France".toList], ["Paris".toList, "France".toList]⟩ ?_
    (by decide) rfl
  exact List.mem_singleton_self _

end Entities

end SP42.Wikibase

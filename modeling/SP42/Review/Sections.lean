import SP42.Base.Json
import SP42.Diff.Returns
import SP42.Diff.Sections
import SP42.Review.RevisionArtifacts

/-!
Which section a hunk preview asks for. The hunk has the text of a heading only, and that text is
looked up again among the sections that MediaWiki reports.
-/
namespace SP42.Review

open Diff (Side StructuredDiff DiffHunk DiffSegment)

section Lookup

/-- The index of a section, as a number or as its digits. -/
def indexOf (index : Json) : Option Nat :=
  (index.asU64.or (index.asStr.bind Text.parseU64)).filter (· ≤ u32Max)

def sectionEntry (entry : Json) : Option (Text × Nat) := do
  let label ← (entry.get "line").bind Json.asStr
  let index ← entry.get "index"
  return (Text.trim label, ← indexOf index)

/-- `fetch_revision_sections`, from the payload of the answer. -/
def parseSections (value : Json) : Except Text (List (Text × Nat)) :=
  match ((value.get "parse").bind (Json.get "sections")).bind Json.asArray with
  | some sections => .ok (sections.filterMap sectionEntry)
  | none => .error "section lookup payload does not contain parse.sections".toList

/-- The headings of a revision with the lines they stand on, as MediaWiki reports them. -/
structure Report where
  headings : List (Nat × Text)
  inOrder : headings.Pairwise fun earlier later => earlier.1 < later.1
  few : headings.length ≤ u32Max

def headingJson (heading : Text) (index : Nat) : Json :=
  .object [("line", .string heading), ("index", .string (Text.ofNat index))]

def Report.json (report : Report) : Json :=
  .object [("parse", .object [("sections", .array
    ((report.headings.zipIdx 1).map fun entry => headingJson entry.1.2 entry.2))])]

/-- The section that a line is in: 0 before the first heading. -/
def Report.containing (report : Report) (line : Nat) : Nat :=
  (report.headings.takeWhile fun heading => decide (heading.1 ≤ line)).length

/-- The first section with a label. -/
def Report.firstNamed (report : Report) (label : Text) : Option Nat :=
  (report.headings.findIdx? fun heading => label == Text.trim heading.2).map (· + 1)

theorem sectionEntry_heading {heading : Text} {index : Nat} (small : index ≤ u32Max) :
    sectionEntry (headingJson heading index) = some (Text.trim heading, index) := by
  have read := Text.parseU64_ofNat (Nat.le_trans small (by decide : u32Max ≤ u64Max))
  have found : indexOf (.string (Text.ofNat index)) = some index := by
    rw [indexOf]
    dsimp only [Json.asU64, Json.asStr, Option.bind_some]
    rw [read]
    exact Option.filter_eq_some_iff.mpr ⟨rfl, decide_eq_true small⟩
  show (indexOf (.string (Text.ofNat index))).bind (fun i => some (Text.trim heading, i)) = _
  rw [found]
  rfl

/-- The report is read as the headings with their numbers. -/
theorem parseSections_report (report : Report) : parseSections report.json =
    .ok ((report.headings.map fun heading => Text.trim heading.2).zipIdx 1) := by
  have entries : ∀ (headings : List (Nat × Text)) (first : Nat),
      first + headings.length ≤ u32Max + 1 →
        ((headings.zipIdx first).map fun entry => headingJson entry.1.2 entry.2).filterMap
          sectionEntry = (headings.map fun heading => Text.trim heading.2).zipIdx first := by
    intro headings
    induction headings with
    | nil => exact fun _ _ => rfl
    | cons heading headings ih =>
        intro first small
        rw [List.length_cons] at small
        rw [List.zipIdx_cons, List.map_cons, List.filterMap_cons_some
          (sectionEntry_heading (by omega)), ih (first + 1) (by omega)]
        rfl
  have few := report.few
  exact congrArg Except.ok (entries report.headings 1 (by omega))

/-- The lookup by label finds the first heading with it. -/
theorem lookup_report (report : Report) (label : Text) :
    ((report.headings.map fun heading => Text.trim heading.2).zipIdx 1).lookup label =
      report.firstNamed label := by
  have found : ∀ (headings : List (Nat × Text)) (first : Nat),
      ((headings.map fun heading => Text.trim heading.2).zipIdx first).lookup label =
        (headings.findIdx? fun heading => label == Text.trim heading.2).map (· + first) := by
    intro headings
    induction headings with
    | nil => exact fun _ => rfl
    | cons heading headings ih =>
        intro first
        rw [List.map_cons, List.zipIdx_cons, List.lookup_cons, List.findIdx?_cons]
        cases same : label == Text.trim heading.2 with
        | true => exact congrArg some (Nat.zero_add first).symm
        | false =>
            dsimp only
            rw [ih, if_neg Bool.false_ne_true, Option.map_map]
            refine congrArg (Option.map · _) (funext fun index => ?_)
            show index + (first + 1) = index + 1 + first
            omega
  exact found report.headings 1

end Lookup

section Previews

/-- The lines of a text that look like headings, with their labels. -/
def headingLines (text : Text) : List (Nat × Text) :=
  (Text.lines text).zipIdx.filterMap fun entry =>
    (Diff.parseSectionHeading entry.1).join.map fun label => (entry.2 + 1, label)

/-- The label of the last line that looks like a heading and is not below the given one. -/
def headingAbove (text : Text) (line : Nat) : Text :=
  (((headingLines text).takeWhile fun entry => entry.1 ≤ line).getLast?.map Prod.snd).getD leadLabel

/-- The first change of a hunk on a side, with its line as the diff counts lines, and as they are
told by the line feeds before it. -/
inductive FirstChange (side : Side) (diff : StructuredDiff) (hunk : DiffHunk) : Nat → Nat → Prop
  | mk {front back earlier : List DiffSegment} {segment : DiffSegment}
      (split : diff.segments = front ++ (hunk.segments ++ back))
      (first : side.First hunk.segments earlier segment) :
      FirstChange side diff hunk (1 + side.counted (front ++ earlier))
        (1 + (side.text (front ++ earlier)).count '\n')

/-- The side is rendered from the section, or it is missing. -/
def ShowsSection (wiki : Wiki) (revId : Nat) (label : Option Text) (index : Nat) : Prop :=
  (∃ shown, renderRevisionSectionSide wiki revId label =
    (wiki.sectionHtml revId index).map fun html => ⟨shown, html, false⟩) ∨
  ∃ shown, renderRevisionSectionSide wiki revId label = .ok ⟨shown, [], true⟩

/-- The heading above the counted line leads to the section that the line is in: it is called
`Lead` and there is no section before the line, or the first section of its name is that one, or
none has the name. -/
def LeadsTo (report : Report) (text : Text) (counted line : Nat) : Prop :=
  if headingAbove text counted = leadLabel then report.containing line = 0
  else ∀ index ∈ report.firstNamed (headingAbove text counted), report.containing line = index

/-- A label is looked up as it is, once it is trimmed. -/
structure Trimmed (label : Text) : Prop where
  inhabited : label ≠ []
  trimmed : Text.trim label = label

theorem lead_trimmed : Trimmed leadLabel := ⟨by decide, by decide⟩

theorem renderRevisionSectionSide_lead (wiki : Wiki) (revId : Nat) :
    renderRevisionSectionSide wiki revId (some leadLabel) =
      (wiki.sectionHtml revId 0).map fun html => ⟨leadLabel, html, false⟩ := by
  rw [renderRevisionSectionSide, Option.getD_some, lead_trimmed.trimmed, if_pos (.inr rfl)]
  cases wiki.sectionHtml revId 0 <;> rfl

theorem renderRevisionSectionSide_named {wiki : Wiki} {revId : Nat} {label : Text} {report : Report}
    (trimmed : Trimmed label) (named : label ≠ leadLabel)
    (reported : wiki.revisionSections revId = parseSections report.json) :
    renderRevisionSectionSide wiki revId (some label) =
      match report.firstNamed label with
      | none => .ok ⟨label, [], true⟩
      | some index => (wiki.sectionHtml revId index).map fun html => ⟨label, html, false⟩ := by
  rw [renderRevisionSectionSide, Option.getD_some, trimmed.trimmed,
    if_neg (not_or_intro trimmed.inhabited named), reported, parseSections_report]
  show (match ((report.headings.map fun heading => Text.trim heading.2).zipIdx 1).lookup label with
    | none => _ | some _ => _) = _
  rw [lookup_report]
  cases report.firstNamed label with
  | none => rfl
  | some index => cases wiki.sectionHtml revId index <;> rfl

/-- A wiki whose sections are told apart by their HTML. -/
def tellingWiki (report : Report) : Wiki where
  revisionContents _ := .ok []
  entityLabels _ := []
  revisionSections _ := parseSections report.json
  sectionHtml _ index := .ok (Text.ofNat index)

theorem ofNat_injective {m n : Nat} (same : Text.ofNat m = Text.ofNat n) : m = n := by
  have read := Text.parseDigits_ofNat m
  rw [same, Text.parseDigits_ofNat] at read
  exact (Option.some.inj read).symm

theorem telling_shows {report : Report} {revId asked index : Nat} {label : Option Text}
    {shown : Text} (rendered : renderRevisionSectionSide (tellingWiki report) revId label =
      .ok ⟨shown, Text.ofNat asked, false⟩)
    (shows_ : ShowsSection (tellingWiki report) revId label index) : index = asked := by
  rcases shows_ with ⟨other, same⟩ | ⟨other, same⟩
  · rw [rendered] at same
    have html := congrArg RenderedHunkSide.html (Except.ok.inj same)
    exact (ofNat_injective html).symm
  · rw [rendered] at same
    exact absurd (congrArg RenderedHunkSide.missing (Except.ok.inj same)) Bool.false_ne_true

/-- Which section is shown depends on the label and the report alone. -/
theorem shows_iff {report : Report} {label : Text} (trimmed : Trimmed label) (revId index : Nat) :
    (∀ wiki : Wiki, wiki.revisionSections revId = parseSections report.json →
      ShowsSection wiki revId (some label) index) ↔
    if label = leadLabel then index = 0 else ∀ first ∈ report.firstNamed label, index = first := by
  split
  · next lead =>
      subst lead
      constructor
      · intro every
        have rendered := renderRevisionSectionSide_lead (tellingWiki report) revId
        exact telling_shows rendered (every (tellingWiki report) rfl)
      · rintro rfl wiki -
        exact .inl ⟨_, renderRevisionSectionSide_lead wiki revId⟩
  · next named =>
      constructor
      · intro every first found
        have rendered := @renderRevisionSectionSide_named (tellingWiki report) revId label report
          trimmed named rfl
        rw [found] at rendered
        exact telling_shows rendered (every (tellingWiki report) rfl)
      · intro only wiki reported
        have rendered := renderRevisionSectionSide_named trimmed named reported
        cases found : report.firstNamed label with
        | none =>
            rw [found] at rendered
            exact .inr ⟨label, rendered⟩
        | some first =>
            rw [found] at rendered
            rw [only first found]
            exact .inl ⟨label, rendered⟩

end Previews

section Headings

theorem buildSectionIndex_eq {text : Text} {sections : List (Nat × Text)}
    (read : Diff.buildSectionIndex text = some sections) : sections = headingLines text := by
  obtain ⟨headings, each, same⟩ := Option.bind_eq_some_iff.mp read
  cases same
  have lines : ∀ (lines : List Text) (headings : List (Option Text)) (first : Nat),
      List.Forall₂ (fun line heading => Diff.parseSectionHeading line = some heading) lines
        headings →
        ((headings.zipIdx first).filterMap fun entry =>
          entry.1.map fun label => (entry.2 + 1, label)) =
        (lines.zipIdx first).filterMap fun entry =>
          (Diff.parseSectionHeading entry.1).join.map fun label => (entry.2 + 1, label) := by
    intro lines headings first each
    induction each generalizing first with
    | nil => rfl
    | cons here _ ih =>
        rw [List.zipIdx_cons, List.zipIdx_cons, List.filterMap_cons, List.filterMap_cons, ih, here]
        rfl
  exact lines _ _ 0 (Total.mapM_eq_some each)

theorem parseSectionHeading_trimmed {line label : Text}
    (read : Diff.parseSectionHeading line = some (some label)) : Trimmed label := by
  unfold Diff.parseSectionHeading at read
  dsimp only at read
  split at read
  · cases read
  · split at read
    · cases read
    · obtain ⟨stop, -, read⟩ := Option.bind_eq_some_iff.mp read
      obtain ⟨inner, -, read⟩ := Option.bind_eq_some_iff.mp read
      split at read
      · cases read
      · next inhabited =>
          cases read
          exact ⟨inhabited, Text.trim_trim inner⟩

theorem headingAbove_trimmed (text : Text) (line : Nat) : Trimmed (headingAbove text line) := by
  unfold headingAbove
  cases last : ((headingLines text).takeWhile fun entry => entry.1 ≤ line).getLast? with
  | none => exact lead_trimmed
  | some entry =>
      have member := (List.takeWhile_sublist _).mem (List.mem_of_getLast? last)
      obtain ⟨numbered, -, read⟩ := List.mem_filterMap.mp member
      obtain ⟨label, parsed, rfl⟩ := Option.map_eq_some_iff.mp read
      exact parseSectionHeading_trimmed (Option.join_eq_some_iff.mp parsed)

theorem resolveSectionLabel_headings (text : Text) (line : Nat) :
    Diff.resolveSectionLabel (some ⟨line, 1⟩) (headingLines text) =
      some (headingAbove text line) := by
  rw [Diff.resolveSectionLabel, headingAbove, Option.map_some]
  cases ((headingLines text).takeWhile fun entry => entry.1 ≤ line).getLast? <;> rfl

variable {isAlphanumeric : Char → Bool} {differ : Diff.TextDiff}

/-- The preview of a hunk shows the section of its first change on a side, or none, exactly when the
heading above the change leads to that section. -/
theorem preview_section_iff {before after : Text} {diff : StructuredDiff} {hunk : DiffHunk}
    (done : Diff.diffLines isAlphanumeric differ before after = some diff)
    (member : hunk ∈ diff.hunks) (side : Side) {counted line : Nat}
    (change : FirstChange side diff hunk counted line) (report : Report) (revId : Nat) :
    (∀ wiki : Wiki, wiki.revisionSections revId = parseSections report.json →
      ShowsSection wiki revId (side.label hunk.sections) (report.containing line)) ↔
    LeadsTo report (side.source before after) counted line := by
  cases change with
  | mk split first =>
      obtain ⟨sections, read, label⟩ := Diff.diffLines_label done member side split first
      rw [label, buildSectionIndex_eq read, resolveSectionLabel_headings]
      exact shows_iff (headingAbove_trimmed _ _) revId _

end Headings

section Examples

/-- The segment of a line that is the whole old text. -/
def removed (line : Text) : DiffSegment := ⟨.delete, line, some ⟨1, 1⟩, none, []⟩

/-- What the diff has of a removed line. -/
def Removes (diff : Option StructuredDiff) (line label : Text) : Prop :=
  diff.map (fun diff => (diff.segments, diff.hunks.map fun hunk =>
    (hunk.segments, hunk.sections.before))) =
      some ([removed line], [([removed line], some label)])

instance (diff : Option StructuredDiff) (line label : Text) : Decidable (Removes diff line label) :=
  inferInstanceAs (Decidable (_ = _))

theorem Removes.change {made : Option StructuredDiff} {line label : Text}
    (removes : Removes made line label) (inhabited : line ≠ []) :
    ∃ diff hunk, made = some diff ∧ hunk ∈ diff.hunks ∧ FirstChange .before diff hunk 1 1 ∧
      Side.before.label hunk.sections = some label := by
  obtain ⟨diff, rfl, same⟩ := Option.map_eq_some_iff.mp removes
  obtain ⟨segments, hunks⟩ := Prod.mk.inj same
  obtain ⟨hunk, alone, here⟩ := List.map_eq_singleton_iff.mp hunks
  obtain ⟨inside, sections⟩ := Prod.mk.inj here
  have split : diff.segments = [] ++ (hunk.segments ++ []) := by
    rw [segments, inside]
    rfl
  have first : Side.before.First hunk.segments [] (removed line) :=
    ⟨⟨[], inside⟩, rfl, inhabited, nofun⟩
  exact ⟨diff, hunk, rfl, alone ▸ List.mem_singleton_self hunk, .mk split first, sections⟩

def oneHeading (label : Text) : Report :=
  ⟨[(1, label)], List.pairwise_singleton _ _, (by decide : 1 ≤ u32Max)⟩

/-- A removed heading is shown with its section. -/
theorem removed_heading_preview : ∃ diff hunk,
    Diff.diffLines Char.isAlphanum ⟨Diff.replacing, Diff.replacing, Diff.replacing⟩
      "== A ==\n".toList [] = some diff ∧ hunk ∈ diff.hunks ∧
    ∀ wiki : Wiki, wiki.revisionSections 7 = parseSections (oneHeading "A".toList).json →
      ShowsSection wiki 7 (Side.before.label hunk.sections) 1 := by
  have removes : Removes (Diff.diffLines Char.isAlphanum
      ⟨Diff.replacing, Diff.replacing, Diff.replacing⟩ "== A ==\n".toList []) "== A ==\n".toList
      "A".toList := by decide +kernel
  obtain ⟨diff, hunk, made, member, change, -⟩ := removes.change (by decide)
  refine ⟨diff, hunk, made, member, ?_⟩
  exact (preview_section_iff made member .before change (oneHeading "A".toList) 7).mpr
    (by unfold LeadsTo; decide +kernel)

/-- A heading called `Lead` is shown as the lead. -/
theorem lead_heading_preview : Diff.Rebuilds Diff.replacing ∧ ∃ diff hunk,
    Diff.diffLines Char.isAlphanum ⟨Diff.replacing, Diff.replacing, Diff.replacing⟩
      "== Lead ==\n".toList [] = some diff ∧ hunk ∈ diff.hunks ∧
    FirstChange .before diff hunk 1 1 ∧ (oneHeading leadLabel).containing 1 = 1 ∧
    (∀ wiki : Wiki, renderRevisionSectionSide wiki 7 (Side.before.label hunk.sections) =
      (wiki.sectionHtml 7 0).map fun html => ⟨leadLabel, html, false⟩) ∧
    ¬ ∀ wiki : Wiki, wiki.revisionSections 7 = parseSections (oneHeading leadLabel).json →
      ShowsSection wiki 7 (Side.before.label hunk.sections) 1 := by
  have removes : Removes (Diff.diffLines Char.isAlphanum
      ⟨Diff.replacing, Diff.replacing, Diff.replacing⟩ "== Lead ==\n".toList [])
      "== Lead ==\n".toList leadLabel := by decide +kernel
  obtain ⟨diff, hunk, made, member, change, label⟩ := removes.change (by decide)
  refine ⟨Diff.replacing_rebuilds, diff, hunk, made, member, change, by decide, ?_, ?_⟩
  · intro wiki
    rw [label]
    exact renderRevisionSectionSide_lead wiki 7
  · intro every
    rw [label] at every
    have rendered := renderRevisionSectionSide_lead (tellingWiki (oneHeading leadLabel)) 7
    exact absurd (telling_shows rendered (every _ rfl)) (by decide)

end Examples

end SP42.Review

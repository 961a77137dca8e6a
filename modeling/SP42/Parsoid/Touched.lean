import SP42.Parsoid.NodeEdit

/-!
What a node edit touches: one node whose anchor is that of the node enumerated, and nothing
around it.
-/
namespace SP42.Parsoid

open Traverse (bind_ok)

section Places

variable {setParam : SetParam}

/-- An applied edit was made at a place whose anchor is not empty and the expected one. -/
theorem applied_at {σ : Type} {locator : WikitextNodeLocator} {spots : List σ} {anchor : σ → Text}
    {edit : σ → Except WikitextEditorError Dom} {revision : Dom}
    (applied : applyAt locator spots anchor edit = .ok (.edited revision)) :
    ∃ target, spots[locator.ordinal]? = some target ∧
      normalizeAnchorText locator.expectedText = anchor target ∧ edit target = .ok revision := by
  unfold applyAt at applied
  split at applied
  · cases applied
  · next target found =>
      split at applied
      · cases applied
      · next held =>
          refine ⟨target, found, ?_, ?_⟩
          · unfold refusalIfDrifted at held
            dsimp only at held
            split at held
            · next same => exact same.2
            · cases held
          · cases edited : edit target with
            | error reason =>
                rw [edited] at applied
                cases applied
            | ok result =>
                rw [edited] at applied
                cases applied
                rfl

/-- The template found, with some parameters set or with other nodes in its place. -/
inductive TemplateEdited (setParam : SetParam) (spot : TemplateSpot) : EditRequest → Dom → Prop where
  | params {params : List (Text × Text)} {template : Template}
      (set : setParams setParam spot.template params = .ok template) :
      TemplateEdited setParam spot (.setTemplateParams params) (spot.withTemplate template)
  | nodes {body : Dom} (alone : spot.before = [] ∧ spot.after = []) :
      TemplateEdited setParam spot (.replace (some body)) (spot.withNodes body)

/-- The reference found, with other contents. -/
inductive ReferenceEdited (spot : ReferenceSpot) : EditRequest → Dom → Prop where
  | contents {body : Dom} : ReferenceEdited spot (.replace (some body)) (spot.withContents body)

theorem template_edited {spot : TemplateSpot} {edit : EditRequest} {revision : Dom}
    (edited : editTemplate setParam spot edit = .ok revision) :
    TemplateEdited setParam spot edit revision := by
  cases edit with
  | setTemplateParams params =>
      rw [editTemplate] at edited
      cases set : setParams setParam spot.template params with
      | error reason =>
          rw [set] at edited
          cases edited
      | ok template =>
          rw [set] at edited
          cases edited
          exact .params set
  | replace fragment =>
      rw [editTemplate] at edited
      split at edited
      · cases edited
      · next single =>
          cases fragment with
          | none => cases edited
          | some body =>
              have alone : spot.before = [] ∧ spot.after = [] := by
                rw [transclusionPartCount, List.length_append, List.length_cons] at single
                exact ⟨List.length_eq_zero_iff.mp (by omega), List.length_eq_zero_iff.mp (by omega)⟩
              rw [fragmentBodyChildren] at edited
              obtain ⟨children, same, rest⟩ := bind_ok edited
              cases same
              split at rest
              · cases rest
              · cases rest
                exact .nodes alone

theorem reference_edited {spot : ReferenceSpot} {edit : EditRequest} {revision : Dom}
    (edited : editReference spot edit = .ok revision) : ReferenceEdited spot edit revision := by
  cases edit with
  | setTemplateParams params => cases edited
  | replace fragment =>
      cases fragment with
      | none => cases edited
      | some body =>
          cases edited
          exact .contents

end Places

section Touched

/-- What an applied edit may have done to the second revision, when the locator was taken
from the first: it changed the one node at the ordinal, whose anchor has the words of the
node seen before. -/
inductive Touched (setParam : SetParam) (first second : Dom) (ordinal : Nat) (edit : EditRequest)
    (result : Dom) : WikitextNodeKind → Prop where
  | template (seenSpots spots : List TemplateSpot) (seen spot : TemplateSpot)
      (seenIn : filterTemplates [] first = .ok seenSpots) (seenAt : seenSpots[ordinal]? = some seen)
      (foundIn : filterTemplates [] second = .ok spots) (foundAt : spots[ordinal]? = some spot)
      (whole : spot.withTemplate spot.template = second)
      (sameWords : splitWhitespace (templateText seen.template) =
        splitWhitespace (templateText spot.template))
      (samePlain : Plain seen.template → Plain spot.template →
        seen.template.squeezed = spot.template.squeezed)
      (edited : TemplateEdited setParam spot edit result) :
      Touched setParam first second ordinal edit result .template
  | reference (seen spot : ReferenceSpot)
      (seenAt : (filterReferences [] first)[ordinal]? = some seen)
      (foundAt : (filterReferences [] second)[ordinal]? = some spot)
      (whole : spot.withContents spot.contents = second)
      (sameWords : splitWhitespace seen.contents.textContents =
        splitWhitespace spot.contents.textContents)
      (edited : ReferenceEdited spot edit result) :
      Touched setParam first second ordinal edit result .reference

/-- What is saved is the wikitext of an edited revision. -/
def SavedFrom (setParam : SetParam) (client : ParsoidClient) (locator : WikitextNodeLocator)
    (wikitext : Text) : Prop :=
  ∃ revision edit result, client.getRevision = .ok revision ∧
    applyRevisionEdit setParam revision locator edit = .ok (.edited result) ∧
      client.transformToWikitext result = .ok wikitext

theorem edited_of_outcome {client : ParsoidClient} {applied : AppliedEdit} {wikitext : Text}
    (outcome : outcomeOf client applied = .ok (.applied wikitext)) :
    ∃ result, applied = .edited result ∧ client.transformToWikitext result = .ok wikitext := by
  cases applied with
  | refused refusal => cases outcome
  | edited result =>
      rw [outcomeOf] at outcome
      cases transformed : client.transformToWikitext result with
      | error reason =>
          rw [transformed] at outcome
          cases outcome
      | ok text =>
          rw [transformed] at outcome
          cases outcome
          exact ⟨result, rfl, transformed⟩

theorem saved_of_replaceNode {setParam : SetParam} {client : ParsoidClient}
    {locator : WikitextNodeLocator} {replacement wikitext : Text}
    (replaced : replaceNode setParam client locator replacement = .ok (.applied wikitext)) :
    SavedFrom setParam client locator wikitext := by
  obtain ⟨revision, read, rest⟩ := bind_ok replaced
  obtain ⟨fragment, -, rest⟩ := bind_ok rest
  obtain ⟨applied, edited, outcome⟩ := bind_ok rest
  obtain ⟨result, rfl, written⟩ := edited_of_outcome outcome
  exact ⟨revision, _, result, read, edited, written⟩

theorem saved_of_setTemplateParams {setParam : SetParam} {client : ParsoidClient}
    {locator : WikitextNodeLocator} {params : List (Text × Text)} {wikitext : Text}
    (set : setTemplateParams setParam client locator params = .ok (.applied wikitext)) :
    SavedFrom setParam client locator wikitext := by
  unfold setTemplateParams at set
  split at set
  · cases set
  · obtain ⟨revision, read, rest⟩ := bind_ok set
    obtain ⟨applied, edited, outcome⟩ := bind_ok rest
    obtain ⟨result, rfl, written⟩ := edited_of_outcome outcome
    exact ⟨revision, _, result, read, edited, written⟩

theorem mapError_ok {ε ε' α : Type} {x : Except ε α} {f : ε → ε'} {value : α}
    (done : x.mapError f = .ok value) : x = .ok value := by
  cases x with
  | error reason => cases done
  | ok found => exact congrArg Except.ok (Except.ok.inj done)

theorem mem_mapIdx {σ : Type} {spots : List σ} {kind : WikitextNodeKind} {anchor : σ → Text}
    {node : WikitextNodeDescriptor}
    (taken : node ∈ spots.mapIdx fun ordinal spot =>
      ({ kind, ordinal, anchorText := anchor spot } : WikitextNodeDescriptor)) :
    ∃ seen, spots[node.ordinal]? = some seen ∧ node.kind = kind ∧
      node.anchorText = anchor seen := by
  obtain ⟨i, bound, rfl⟩ := List.mem_mapIdx.mp taken
  exact ⟨spots[i], List.getElem?_eq_getElem bound, rfl, rfl⟩

/-- An applied edit touches only the node with the anchor that was seen, and only an
applied edit leaves something to save. -/
theorem edit_touches_seen {setParam : SetParam} {first : Dom} {kind : WikitextNodeKind}
    {nodes : List WikitextNodeDescriptor} {node : WikitextNodeDescriptor}
    (enumerated : enumerateRevision first kind = .ok nodes) (taken : node ∈ nodes) :
    (∀ second edit result,
      applyRevisionEdit setParam second node.locator edit = .ok (.edited result) →
        Touched setParam first second node.ordinal edit result kind) ∧
    (∀ client replacement wikitext,
      replaceNode setParam client node.locator replacement = .ok (.applied wikitext) →
        SavedFrom setParam client node.locator wikitext) ∧
    ∀ client params wikitext,
      setTemplateParams setParam client node.locator params = .ok (.applied wikitext) →
        SavedFrom setParam client node.locator wikitext := by
  refine ⟨fun second edit result applied => ?_, fun _ _ _ => saved_of_replaceNode,
    fun _ _ _ => saved_of_setTemplateParams⟩
  cases kind with
  | template =>
      obtain ⟨seenSpots, seenIn, listed⟩ := bind_ok enumerated
      cases listed
      obtain ⟨seen, seenAt, isTemplate, anchor⟩ :=
        @mem_mapIdx _ seenSpots _ (fun spot => templateAnchorText spot.template) _ taken
      unfold applyRevisionEdit at applied
      rw [show node.locator.kind = .template from isTemplate] at applied
      obtain ⟨spots, foundIn, rest⟩ := bind_ok applied
      obtain ⟨spot, foundAt, same, edited⟩ := applied_at rest
      have foundIn := mapError_ok foundIn
      have anchors : templateAnchorText seen.template = templateAnchorText spot.template := by
        rw [← same, show node.locator.expectedText = templateAnchorText seen.template from anchor]
        exact (normalizeAnchorText_idem _).symm
      exact .template seenSpots spots seen spot (mapError_ok seenIn) seenAt foundIn foundAt
        (mem_filterTemplates foundIn (List.mem_of_getElem? foundAt)) (words_of_normalized anchors)
        (fun plainSeen plainSpot => squeezed_of_anchor plainSeen plainSpot anchors)
        (template_edited edited)
  | reference =>
      cases enumerated
      obtain ⟨seen, seenAt, isReference, anchor⟩ :=
        @mem_mapIdx _ (filterReferences [] first) _
          (fun spot => referenceAnchorText spot.contents) _ taken
      unfold applyRevisionEdit at applied
      rw [show node.locator.kind = .reference from isReference] at applied
      obtain ⟨spot, foundAt, same, edited⟩ := applied_at applied
      have anchors : referenceAnchorText seen.contents = referenceAnchorText spot.contents := by
        rw [← same, show node.locator.expectedText = referenceAnchorText seen.contents from anchor]
        exact (normalizeAnchorText_idem _).symm
      exact .reference seen spot seenAt foundAt
        (mem_filterReferences (List.mem_of_getElem? foundAt)) (words_of_normalized anchors)
        (reference_edited edited)

end Touched

section Examples

/-- A reference with a link. -/
def linked (target : Text) : Dom :=
  .reference [] (.element target (.text "Title".toList .nil) .nil) .nil

def linkedNode : WikitextNodeDescriptor where
  kind := .reference
  ordinal := 0
  anchorText := "Title".toList

/-- The parameter added behind the others, whether it is there or not. -/
def addParam : SetParam := fun template name value =>
  .ok { template with params := template.params ++ [(name, value)] }

theorem linked_touched :
    (∀ second edit result,
      applyRevisionEdit addParam second linkedNode.locator edit = .ok (.edited result) →
        Touched addParam (linked ['a']) second 0 edit result .reference) ∧
    (∀ client replacement wikitext,
      replaceNode addParam client linkedNode.locator replacement = .ok (.applied wikitext) →
        SavedFrom addParam client linkedNode.locator wikitext) ∧
    ∀ client params wikitext,
      setTemplateParams addParam client linkedNode.locator params = .ok (.applied wikitext) →
        SavedFrom addParam client linkedNode.locator wikitext :=
  @edit_touches_seen addParam (linked ['a']) .reference [linkedNode] linkedNode rfl
    List.mem_cons_self

/-- A reference whose link target changed behind the same title is edited all the same. -/
theorem link_change_edited :
    ∃ nodes, enumerateRevision (linked ['a']) .reference = .ok nodes ∧ linkedNode ∈ nodes ∧
      ∃ result, applyRevisionEdit addParam (linked ['b']) linkedNode.locator
        (.replace (some .nil)) = .ok (.edited result) ∧
      (filterReferences [] (linked ['a']))[0]?.map ReferenceSpot.contents ≠
        (filterReferences [] (linked ['b']))[0]?.map ReferenceSpot.contents := by
  refine ⟨[linkedNode], rfl, List.mem_cons_self, _, rfl, by decide⟩

end Examples

end SP42.Parsoid

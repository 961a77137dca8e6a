import SP42.Base.Number
import SP42.Parsoid.Anchors

/-!
A node edit on a revision: the node at an ordinal is edited when its anchor is the one
expected, and the rest of the document stays.
-/
namespace SP42.Parsoid

inductive WikitextNodeKind where
  | reference
  | template
  deriving DecidableEq

structure WikitextNodeLocator where
  kind : WikitextNodeKind
  ordinal : Nat
  expectedText : Text
  deriving DecidableEq

structure WikitextNodeDescriptor where
  kind : WikitextNodeKind
  ordinal : Nat
  anchorText : Text
  deriving DecidableEq

/-- The locator of a node as it was enumerated. -/
def WikitextNodeDescriptor.locator (node : WikitextNodeDescriptor) : WikitextNodeLocator where
  kind := node.kind
  ordinal := node.ordinal
  expectedText := node.anchorText

inductive WikitextEditRefusal where
  | ordinalOutOfRange (requested available : Nat)
  | nodeDrifted (expected found : Text)
  deriving DecidableEq

inductive WikitextEditorError where
  | unavailable (message : Text) (retryable : Bool)
  | missingTarget (message : Text)
  | notConfigured (wikiId : Text)
  | unsupported (message : Text)
  deriving DecidableEq

inductive EditRequest where
  | replace (fragment : Option Dom)
  | setTemplateParams (params : List (Text × Text))

inductive AppliedEdit where
  | edited (revision : Dom)
  | refused (refusal : WikitextEditRefusal)

/-- `set_param` of the document library. -/
abbrev SetParam := Template → Text → Text → Except Text Template

section Edit

def domInterpretationError (error : Text) : WikitextEditorError :=
  .unavailable ("Parsoid HTML could not be interpreted: ".toList ++ error) false

def enumerateRevision (revision : Dom) (kind : WikitextNodeKind) :
    Except WikitextEditorError (List WikitextNodeDescriptor) :=
  match kind with
  | .template => do
      let templates ← (filterTemplates [] revision).mapError domInterpretationError
      .ok (templates.mapIdx fun ordinal spot =>
        { kind, ordinal, anchorText := templateAnchorText spot.template })
  | .reference =>
      .ok ((filterReferences [] revision).mapIdx fun ordinal spot =>
        { kind, ordinal, anchorText := referenceAnchorText spot.contents })

def refusalIfDrifted (expectedText found : Text) : Option WikitextEditRefusal :=
  let expected := normalizeAnchorText expectedText
  if expected ≠ [] ∧ expected = found then none else some (.nodeDrifted expected found)

/-- The children of the fragment's body. -/
def fragmentBodyChildren (fragment : Option Dom) : Except WikitextEditorError Dom :=
  match fragment with
  | some body => .ok body
  | none => .error (.unavailable "Parsoid fragment has no body element".toList false)

variable (setParam : SetParam)

def setParams (template : Template) (params : List (Text × Text)) :
    Except WikitextEditorError Template :=
  params.foldlM (fun target param =>
    (setParam target param.1 param.2).mapError fun error =>
      .unavailable ("failed to set template parameter \x60".toList ++ param.1 ++ "\x60: ".toList ++
        error) false) template

def transclusionPartCount (spot : TemplateSpot) : Nat :=
  (spot.before ++ .template spot.template :: spot.after).length

def editTemplate (spot : TemplateSpot) : EditRequest → Except WikitextEditorError Dom
  | .setTemplateParams params => (setParams setParam spot.template params).map spot.withTemplate
  | .replace fragment =>
      if transclusionPartCount spot > 1 then
        .error (.unsupported ("the addressed transclusion carries multiple template parts; ".toList ++
          "replacing it is not supported".toList))
      else do
        let children ← fragmentBodyChildren fragment
        if spot.nodes = .nil then
          .error (.unavailable "the addressed transclusion has no DOM nodes".toList false)
        else .ok (spot.withNodes children)

def editReference (spot : ReferenceSpot) : EditRequest → Except WikitextEditorError Dom
  | .setTemplateParams _ =>
      .error (.unsupported "set_template_params requires a template locator".toList)
  | .replace fragment => (fragmentBodyChildren fragment).map spot.withContents

/-- The edit of one of the nodes found, when the anchor holds. -/
def applyAt {σ : Type} (locator : WikitextNodeLocator) (spots : List σ) (anchor : σ → Text)
    (edit : σ → Except WikitextEditorError Dom) : Except WikitextEditorError AppliedEdit :=
  match spots[locator.ordinal]? with
  | none => .ok (.refused (.ordinalOutOfRange locator.ordinal spots.length))
  | some target =>
      match refusalIfDrifted locator.expectedText (anchor target) with
      | some refusal => .ok (.refused refusal)
      | none => (edit target).map .edited

def applyRevisionEdit (revision : Dom) (locator : WikitextNodeLocator) (edit : EditRequest) :
    Except WikitextEditorError AppliedEdit :=
  match locator.kind with
  | .template => do
      let templates ← (filterTemplates [] revision).mapError domInterpretationError
      applyAt locator templates (fun spot => templateAnchorText spot.template)
        fun spot => editTemplate setParam spot edit
  | .reference =>
      applyAt locator (filterReferences [] revision) (fun spot => referenceAnchorText spot.contents)
        fun spot => editReference spot edit

end Edit

section Operations

/-- The calls of the wiki's document service, each with its error. -/
structure ParsoidClient where
  getRevision : Except WikitextEditorError Dom
  transformToHtml : Text → Except WikitextEditorError (Option Dom)
  transformToWikitext : Dom → Except WikitextEditorError Text

inductive WikitextEditOutcome where
  | applied (newWikitext : Text)
  | refused (refusal : WikitextEditRefusal)

variable (setParam : SetParam) (client : ParsoidClient)

def outcomeOf (applied : AppliedEdit) : Except WikitextEditorError WikitextEditOutcome :=
  match applied with
  | .refused refusal => .ok (.refused refusal)
  | .edited edited => (client.transformToWikitext edited).map .applied

def replaceNode (locator : WikitextNodeLocator) (replacementWikitext : Text) :
    Except WikitextEditorError WikitextEditOutcome := do
  let revision ← client.getRevision
  let fragment ← client.transformToHtml replacementWikitext
  let applied ← applyRevisionEdit setParam revision locator (.replace fragment)
  outcomeOf client applied

def setTemplateParams (locator : WikitextNodeLocator) (params : List (Text × Text)) :
    Except WikitextEditorError WikitextEditOutcome :=
  if locator.kind ≠ .template then
    .error (.unsupported "set_template_params requires a template locator".toList)
  else do
    let revision ← client.getRevision
    let applied ← applyRevisionEdit setParam revision locator (.setTemplateParams params)
    outcomeOf client applied

end Operations

end SP42.Parsoid

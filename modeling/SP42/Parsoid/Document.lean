import SP42.Base.Text
import SP42.Lib.Total

/-!
The document tree of a revision, as far as node edits see it: transclusions with the parts
their data lists, references with their contents, and places in the tree.
-/
namespace SP42.Parsoid

open Traverse (bind_ok)

structure Template where
  name : Text
  params : List (Text × Text)
  deriving DecidableEq

/-- One part of a transclusion: a template, or text beside it. -/
inductive Part where
  | template (template : Template)
  | other (wikitext : Text)
  deriving DecidableEq

/-- A list of nodes. A tag stands for a name with its attributes, a transclusion for the
nodes that share its mark; data that cannot be read is `none`. -/
inductive Dom where
  | nil
  | text (content : Text) (next : Dom)
  | element (tag : Text) (children next : Dom)
  | transclusion (parts : Option (List Part)) (nodes next : Dom)
  | reference (tag : Text) (contents next : Dom)
  deriving DecidableEq

namespace Dom

def textContents : Dom → Text
  | .nil => []
  | .text content next => content ++ textContents next
  | .element _ children next => textContents children ++ textContents next
  | .transclusion _ nodes next => textContents nodes ++ textContents next
  | .reference _ contents next => textContents contents ++ textContents next

def append : Dom → Dom → Dom
  | .nil, behind => behind
  | .text content next, behind => .text content (append next behind)
  | .element tag children next, behind => .element tag children (append next behind)
  | .transclusion parts nodes next, behind => .transclusion parts nodes (append next behind)
  | .reference tag contents next, behind => .reference tag contents (append next behind)

end Dom

section Places

/-- One step from a list of nodes into a later part of it. -/
inductive Frame where
  | afterText (content : Text)
  | inElement (tag : Text) (next : Dom)
  | afterElement (tag : Text) (children : Dom)
  | inTransclusion (parts : Option (List Part)) (next : Dom)
  | afterTransclusion (parts : Option (List Part)) (nodes : Dom)
  | inReference (tag : Text) (next : Dom)
  | afterReference (tag : Text) (contents : Dom)
  deriving DecidableEq

def Frame.plug : Frame → Dom → Dom
  | .afterText content, dom => .text content dom
  | .inElement tag next, dom => .element tag dom next
  | .afterElement tag children, dom => .element tag children dom
  | .inTransclusion parts next, dom => .transclusion parts dom next
  | .afterTransclusion parts nodes, dom => .transclusion parts nodes dom
  | .inReference tag next, dom => .reference tag dom next
  | .afterReference tag contents, dom => .reference tag contents dom

/-- The document with the given nodes at the end of a path, outermost step first. -/
def plug (path : List Frame) (dom : Dom) : Dom := path.foldr Frame.plug dom

theorem plug_concat (path : List Frame) (frame : Frame) (dom : Dom) :
    plug (path ++ [frame]) dom = plug path (frame.plug dom) := by
  simp [plug, List.foldr_append]

/-- A template with its place: the parts beside it, the nodes, and what comes after. -/
structure TemplateSpot where
  path : List Frame
  before : List Part
  template : Template
  after : List Part
  nodes : Dom
  next : Dom
  deriving DecidableEq

/-- The document with another template at the place. -/
def TemplateSpot.withTemplate (spot : TemplateSpot) (template : Template) : Dom :=
  plug spot.path
    (.transclusion (some (spot.before ++ .template template :: spot.after)) spot.nodes spot.next)

/-- The document with other nodes for the whole transclusion. -/
def TemplateSpot.withNodes (spot : TemplateSpot) (nodes : Dom) : Dom :=
  plug spot.path (nodes.append spot.next)

structure ReferenceSpot where
  path : List Frame
  tag : Text
  contents : Dom
  next : Dom
  deriving DecidableEq

/-- The document with other contents of the reference. -/
def ReferenceSpot.withContents (spot : ReferenceSpot) (contents : Dom) : Dom :=
  plug spot.path (.reference spot.tag contents spot.next)

/-- The templates of one transclusion, behind the parts already passed. -/
def partSpots (path : List Frame) (nodes next : Dom) (before : List Part) :
    List Part → List TemplateSpot
  | [] => []
  | .template template :: after =>
      { path, before, template, after, nodes, next } ::
        partSpots path nodes next (before ++ [.template template]) after
  | .other wikitext :: after => partSpots path nodes next (before ++ [.other wikitext]) after

/-- `filter_templates`: in document order, or an error where data cannot be read. -/
def filterTemplates (path : List Frame) : Dom → Except Text (List TemplateSpot)
  | .nil => .ok []
  | .text content next => filterTemplates (path ++ [.afterText content]) next
  | .element tag children next => do
      let inside ← filterTemplates (path ++ [.inElement tag next]) children
      let behind ← filterTemplates (path ++ [.afterElement tag children]) next
      .ok (inside ++ behind)
  | .transclusion none _ _ => .error "invalid data-mw".toList
  | .transclusion (some parts) nodes next => do
      let inside ← filterTemplates (path ++ [.inTransclusion (some parts) next]) nodes
      let behind ← filterTemplates (path ++ [.afterTransclusion (some parts) nodes]) next
      .ok (partSpots path nodes next [] parts ++ inside ++ behind)
  | .reference tag contents next => do
      let inside ← filterTemplates (path ++ [.inReference tag next]) contents
      let behind ← filterTemplates (path ++ [.afterReference tag contents]) next
      .ok (inside ++ behind)

/-- `filter_references`, in document order. -/
def filterReferences (path : List Frame) : Dom → List ReferenceSpot
  | .nil => []
  | .text content next => filterReferences (path ++ [.afterText content]) next
  | .element tag children next =>
      filterReferences (path ++ [.inElement tag next]) children ++
        filterReferences (path ++ [.afterElement tag children]) next
  | .transclusion parts nodes next =>
      filterReferences (path ++ [.inTransclusion parts next]) nodes ++
        filterReferences (path ++ [.afterTransclusion parts nodes]) next
  | .reference tag contents next =>
      { path, tag, contents, next } ::
        filterReferences (path ++ [.inReference tag next]) contents ++
        filterReferences (path ++ [.afterReference tag contents]) next

theorem mem_partSpots {path : List Frame} {nodes next : Dom} {before parts : List Part}
    {spot : TemplateSpot} (member : spot ∈ partSpots path nodes next before parts) :
    spot.withTemplate spot.template =
      plug path (.transclusion (some (before ++ parts)) nodes next) := by
  induction parts generalizing before with
  | nil => cases member
  | cons part after ih =>
      cases part with
      | template template =>
          rcases List.mem_cons.mp member with rfl | later
          · rfl
          · rw [ih later, List.append_assoc, List.singleton_append]
      | other wikitext =>
          rw [ih member, List.append_assoc, List.singleton_append]

/-- Every template found is a place of the document. -/
theorem mem_filterTemplates {dom : Dom} {path : List Frame} {spots : List TemplateSpot}
    (found : filterTemplates path dom = .ok spots) {spot : TemplateSpot} (member : spot ∈ spots) :
    spot.withTemplate spot.template = plug path dom := by
  induction dom generalizing path spots with
  | nil =>
      cases found
      cases member
  | text content next ih =>
      rw [ih found member, plug_concat]
      rfl
  | element tag children next ihInside ihBehind =>
      obtain ⟨inside, foundInside, rest⟩ := bind_ok found
      obtain ⟨behind, foundBehind, same⟩ := bind_ok rest
      cases same
      rcases List.mem_append.mp member with here | there
      · rw [ihInside foundInside here, plug_concat]
        rfl
      · rw [ihBehind foundBehind there, plug_concat]
        rfl
  | transclusion parts nodes next ihInside ihBehind =>
      cases parts with
      | none => cases found
      | some parts =>
          obtain ⟨inside, foundInside, rest⟩ := bind_ok found
          obtain ⟨behind, foundBehind, same⟩ := bind_ok rest
          cases same
          rcases List.mem_append.mp member with front | there
          · rcases List.mem_append.mp front with own | here
            · exact mem_partSpots own
            · rw [ihInside foundInside here, plug_concat]
              rfl
          · rw [ihBehind foundBehind there, plug_concat]
            rfl
  | reference tag contents next ihInside ihBehind =>
      obtain ⟨inside, foundInside, rest⟩ := bind_ok found
      obtain ⟨behind, foundBehind, same⟩ := bind_ok rest
      cases same
      rcases List.mem_append.mp member with here | there
      · rw [ihInside foundInside here, plug_concat]
        rfl
      · rw [ihBehind foundBehind there, plug_concat]
        rfl

/-- Every reference found is a place of the document. -/
theorem mem_filterReferences {dom : Dom} {path : List Frame} {spot : ReferenceSpot}
    (member : spot ∈ filterReferences path dom) :
    spot.withContents spot.contents = plug path dom := by
  induction dom generalizing path with
  | nil => cases member
  | text content next ih =>
      rw [ih member, plug_concat]
      rfl
  | element tag children next ihInside ihBehind =>
      rcases List.mem_append.mp member with here | there
      · rw [ihInside here, plug_concat]
        rfl
      · rw [ihBehind there, plug_concat]
        rfl
  | transclusion parts nodes next ihInside ihBehind =>
      rcases List.mem_append.mp member with here | there
      · rw [ihInside here, plug_concat]
        rfl
      · rw [ihBehind there, plug_concat]
        rfl
  | reference tag contents next ihInside ihBehind =>
      rcases List.mem_append.mp member with front | there
      · rcases List.mem_cons.mp front with rfl | here
        · rfl
        · rw [ihInside here, plug_concat]
          rfl
      · rw [ihBehind there, plug_concat]
        rfl

end Places

end SP42.Parsoid

import SP42.Citation.Extract
import SP42.Lib.Bytes

/-!
A page cut into prose-bearing blocks: paragraphs, list items and table cells, each with
its text and the reference markers inside it.
-/
namespace SP42.Parsoid

/-- What a reference marker says about itself. -/
structure ReferenceLink where
  id : Text
  referenceId : Option Text
  name : Option Text

/-- The children of a node, from one sibling on; `other` is a comment or the like. -/
inductive Nodes where
  | nil
  | text (content : Text) (next : Nodes)
  | other (next : Nodes)
  | element (name : Text) (referenceLink : Option ReferenceLink) (children next : Nodes)

inductive BlockKind where
  | paragraph
  | listItem
  | tableCell
  | other
  deriving DecidableEq, Repr

/-- A reference of a block, with what the citation code does not read. -/
structure BlockRef (Url : Type) extends Citation.BlockRef Url where
  refText : Text
  named : Bool

structure ParsoidBlock (Url : Type) where
  text : Text
  refs : List (BlockRef Url)
  blockKind : BlockKind
  blockOrdinal : Nat

/-- What one reference cites. -/
structure RefSources (Url : Type) where
  cited : List (Citation.CitedSource Url)
  books : List Citation.BookSource
  shortCiteUnresolved : Bool

def Nodes.textContents : Nodes → Text
  | .nil => []
  | .text content next => content ++ next.textContents
  | .other next => next.textContents
  | .element _ _ children next => children.textContents ++ next.textContents

/-- Block detection by tag. -/
def blockKind (name : Text) : Option BlockKind :=
  if name = "p".toList then some .paragraph
  else if name ∈ ["li", "dd"].map String.toList then some .listItem
  else if name ∈ ["td", "th", "caption"].map String.toList then some .tableCell
  else none

section Cutting

variable {Url : Type} (refSources : Text → RefSources Url) (refBare : Text → Bool)

/-- The record of a marker at an offset; a marker without an id misses both maps. -/
def refFor (link : ReferenceLink) (refText : Text) (offset : Nat) : BlockRef Url where
  offset := offset
  refId := link.id
  sources := (refSources (link.referenceId.getD [])).cited
  bookSources := (refSources (link.referenceId.getD [])).books
  isBareUrlRef := refBare (link.referenceId.getD [])
  shortCiteUnresolved := (refSources (link.referenceId.getD [])).shortCiteUnresolved
  refText := refText
  named := link.name.isSome

/-- Text and references of a block; the text inside a marker is skipped. -/
def collectBlock : Nodes → Text × List (BlockRef Url) → Text × List (BlockRef Url)
  | .nil, collected => collected
  | .text content next, (text, refs) => collectBlock next (text ++ content, refs)
  | .other next, collected => collectBlock next collected
  | .element _ (some link) children next, (text, refs) =>
      collectBlock next
        (text, refs ++ [refFor refSources refBare link children.textContents (Bytes.size text)])
  | .element _ none children next, collected => collectBlock next (collectBlock children collected)

/-- One block; its text is trimmed, and the offsets are moved along. -/
def buildBlock (children : Nodes) (kind : BlockKind) (ordinal : Nat) : ParsoidBlock Url :=
  let collected := collectBlock refSources refBare children ([], [])
  let lead := Bytes.size collected.1 - Bytes.size (Text.trimStart collected.1)
  let trimmed := Text.trim collected.1
  { text := trimmed
    refs := collected.2.map fun ref => { ref with offset := min (ref.offset - lead) (Bytes.size trimmed) }
    blockKind := kind
    blockOrdinal := ordinal }

/-- The walk: a block is emitted and not descended into. -/
def walk : Nodes → List (ParsoidBlock Url) × Nat → List (ParsoidBlock Url) × Nat
  | .nil, emitted => emitted
  | .text _ next, emitted => walk next emitted
  | .other next, emitted => walk next emitted
  | .element name _ children next, (blocks, ordinal) =>
      match blockKind name with
      | some kind =>
          walk next (blocks ++ [buildBlock refSources refBare children kind ordinal], ordinal + 1)
      | none => walk next (walk children (blocks, ordinal))

def blocksFromRevision (body : Nodes) : List (ParsoidBlock Url) :=
  (walk refSources refBare body ([], 0)).1

end Cutting

section Markers

/-- Every reference link of the body. -/
def Nodes.links : Nodes → List ReferenceLink
  | .nil => []
  | .text _ next => next.links
  | .other next => next.links
  | .element _ link children next => link.toList ++ children.links ++ next.links

/-- The reference links inside a block element, each the first on the way down from it. -/
def Nodes.enclosed : Bool → Nodes → List ReferenceLink
  | _, .nil => []
  | inside, .text _ next => enclosed inside next
  | inside, .other next => enclosed inside next
  | true, .element _ (some link) _ next => link :: enclosed true next
  | true, .element _ none children next => enclosed true children ++ enclosed true next
  | false, .element name _ children next =>
      enclosed (blockKind name).isSome children ++ enclosed false next

/-- The outermost block elements in document order, each with its children. -/
def Nodes.blockElements : Nodes → List (BlockKind × Nodes)
  | .nil => []
  | .text _ next => next.blockElements
  | .other next => next.blockElements
  | .element name _ children next =>
      match blockKind name with
      | some kind => (kind, children) :: next.blockElements
      | none => children.blockElements ++ next.blockElements

/-- A piece of a block: text, shown or of a style or script element, or a marker. -/
inductive Piece where
  | text (content : Text) (visible : Bool)
  | mark (link : ReferenceLink) (label : Text)

/-- The pieces of a block in document order. -/
def Nodes.pieces : Bool → Nodes → List Piece
  | _, .nil => []
  | visible, .text content next => .text content visible :: pieces visible next
  | visible, .other next => pieces visible next
  | visible, .element _ (some link) children next =>
      .mark link children.textContents :: pieces visible next
  | visible, .element name none children next =>
      pieces (visible && !(["style", "script"].map String.toList).contains name) children ++
        pieces visible next

def Piece.shown : Piece → Text
  | .text content true => content
  | _ => []

def Piece.written : Piece → Text
  | .text content _ => content
  | .mark _ _ => []

def Piece.link : Piece → Option ReferenceLink
  | .mark link _ => some link
  | _ => none

end Markers

end SP42.Parsoid

/-!
What the blocks of a page hold: every marker inside a paragraph, a list item or a table
cell once, in document order, at the place of the text where it stood.
-/
namespace SP42.Parsoid

section Offsets

/-- The place in a trimmed text of what stands between the two halves of the text. -/
def offsetIn (before after : Text) : Nat :=
  min (Bytes.size before - (Bytes.size (before ++ after) -
      Bytes.size (Text.trimStart (before ++ after))))
    (Bytes.size (Text.trim (before ++ after)))

theorem size_trimStart (text : Text) :
    Bytes.size text - Bytes.size (Text.trimStart text) =
      Bytes.size (text.takeWhile Text.isWhitespace) := by
  have whole := congrArg Bytes.size (@List.takeWhile_append_dropWhile _ Text.isWhitespace text)
  rw [Bytes.size_append] at whole
  unfold Text.trimStart
  omega

theorem boundary_of_front {before text : Text} (begins : before <+: text) :
    Bytes.Boundary text (Bytes.size before) := by
  obtain ⟨after, rfl⟩ := begins
  exact ⟨before, after, rfl, rfl⟩

/-- The place is a character boundary of the trimmed text. -/
theorem boundary_offsetIn (before after : Text) :
    Bytes.Boundary (Text.trim (before ++ after)) (offsetIn before after) := by
  unfold offsetIn
  rw [size_trimStart]
  generalize whole : before ++ after = text
  have split := @List.takeWhile_append_dropWhile _ Text.isWhitespace text
  have core : Text.trim text <+: text.dropWhile Text.isWhitespace :=
    List.rdropWhile_prefix Text.isWhitespace _
  have begins : before <+: text.takeWhile Text.isWhitespace ++ text.dropWhile Text.isWhitespace := by
    rw [split, ← whole]
    exact List.prefix_append before after
  rcases List.prefix_or_prefix_of_prefix begins (List.prefix_append _ _) with
    inMargin | ⟨inner, rfl⟩
  · have short : Bytes.size before ≤ Bytes.size (text.takeWhile Text.isWhitespace) := by
      obtain ⟨more, same⟩ := inMargin
      rw [← same, Bytes.size_append]
      omega
    rw [Nat.sub_eq_zero_of_le short, Nat.zero_min]
    exact Bytes.boundary_zero _
  · have inRest := (List.prefix_append_right_inj _).mp begins
    rw [Bytes.size_append, Nat.add_sub_cancel_left]
    rcases List.prefix_or_prefix_of_prefix inRest core with shorter | longer
    · have bounded := (boundary_of_front shorter).le_size
      rw [Nat.min_eq_left bounded]
      exact boundary_of_front shorter
    · have bounded := (boundary_of_front longer).le_size
      rw [Nat.min_eq_right bounded]
      exact Bytes.boundary_size _

end Offsets

section Pieces

variable {Url : Type} (refSources : Text → RefSources Url) (refBare : Text → Bool)

/-- What one piece adds to a block. -/
def collectPiece (collected : Text × List (BlockRef Url)) : Piece → Text × List (BlockRef Url)
  | .text content _ => (collected.1 ++ content, collected.2)
  | .mark link label =>
      (collected.1, collected.2 ++ [refFor refSources refBare link label (Bytes.size collected.1)])

theorem collectBlock_eq (nodes : Nodes) (visible : Bool) (collected : Text × List (BlockRef Url)) :
    collectBlock refSources refBare nodes collected =
      (nodes.pieces visible).foldl (collectPiece refSources refBare) collected := by
  induction nodes generalizing visible collected with
  | nil => rfl
  | text content next ih => exact ih visible _
  | other next ih => exact ih visible _
  | element name link children next inner ih =>
      cases link with
      | some link => exact ih visible _
      | none =>
          rw [collectBlock, Nodes.pieces, List.foldl_append, ← inner, ← ih]

def written (pieces : List Piece) : Text := pieces.flatMap Piece.written

def shown (pieces : List Piece) : Text := pieces.flatMap Piece.shown

def links (pieces : List Piece) : List ReferenceLink := pieces.filterMap Piece.link

/-- The references of the pieces, behind the text so far. -/
def refsFrom (text : Text) : List Piece → List (BlockRef Url)
  | [] => []
  | .text content _ :: rest => refsFrom (text ++ content) rest
  | .mark link label :: rest =>
      refFor refSources refBare link label (Bytes.size text) :: refsFrom text rest

theorem foldl_collectPiece (pieces : List Piece) (text : Text) (refs : List (BlockRef Url)) :
    pieces.foldl (collectPiece refSources refBare) (text, refs) =
      (text ++ written pieces, refs ++ refsFrom refSources refBare text pieces) := by
  induction pieces generalizing text refs with
  | nil => simp [written, refsFrom]
  | cons piece rest ih =>
      cases piece with
      | text content visible =>
          rw [List.foldl_cons, collectPiece, ih]
          simp [written, refsFrom, Piece.written]
      | mark link label =>
          rw [List.foldl_cons, collectPiece, ih]
          simp [written, refsFrom, Piece.written]

theorem refsFrom_append (text : Text) (before after : List Piece) :
    refsFrom refSources refBare text (before ++ after) =
      refsFrom refSources refBare text before ++
        refsFrom refSources refBare (text ++ written before) after := by
  induction before generalizing text with
  | nil => simp [refsFrom, written]
  | cons piece rest ih =>
      cases piece with
      | text content visible => simp [refsFrom, written, Piece.written, ih]
      | mark link label => simp [refsFrom, written, Piece.written, ih]

theorem refsFrom_ids (text : Text) (pieces : List Piece) :
    (refsFrom refSources refBare text pieces).map (fun ref => ref.refId) =
      (links pieces).map ReferenceLink.id := by
  induction pieces generalizing text with
  | nil => rfl
  | cons piece rest ih =>
      cases piece with
      | text content visible => exact ih (text ++ content)
      | mark link label => exact congrArg (link.id :: ·) (ih text)

theorem refsFrom_length (text : Text) (pieces : List Piece) :
    (refsFrom refSources refBare text pieces).length = (links pieces).length := by
  have same := congrArg List.length (refsFrom_ids refSources refBare text pieces)
  simpa using same

/-- Every reference comes from a marker, behind the text before it. -/
theorem exists_mark {text : Text} {pieces : List Piece} {ref : BlockRef Url}
    (member : ref ∈ refsFrom refSources refBare text pieces) :
    ∃ before link label after, pieces = before ++ .mark link label :: after ∧
      ref = refFor refSources refBare link label (Bytes.size (text ++ written before)) := by
  induction pieces generalizing text with
  | nil => cases member
  | cons piece rest ih =>
      cases piece with
      | text content visible =>
          obtain ⟨before, link, label, after, rfl, same⟩ := ih member
          refine ⟨.text content visible :: before, link, label, after, rfl, ?_⟩
          rw [same]
          simp [written, Piece.written]
      | mark link label =>
          rcases List.mem_cons.mp member with here | later
          · exact ⟨[], link, label, rest, rfl, by simpa [written] using here⟩
          · obtain ⟨before, link', label', after, rfl, same⟩ := ih later
            refine ⟨.mark link label :: before, link', label', after, rfl, ?_⟩
            rw [same]
            simp [written, Piece.written]

theorem refsFrom_ordered (text : Text) (pieces : List Piece) :
    (refsFrom refSources refBare text pieces).Pairwise fun a b => a.offset ≤ b.offset := by
  induction pieces generalizing text with
  | nil => exact List.Pairwise.nil
  | cons piece rest ih =>
      cases piece with
      | text content visible => exact ih (text ++ content)
      | mark link label =>
          refine List.pairwise_cons.mpr ⟨?_, ih text⟩
          intro ref member
          obtain ⟨before, link', label', after, -, rfl⟩ := exists_mark refSources refBare member
          show Bytes.size text ≤ Bytes.size (text ++ written before)
          rw [Bytes.size_append]
          omega

theorem written_mark (before : List Piece) (link : ReferenceLink) (label : Text)
    (after : List Piece) :
    written (before ++ .mark link label :: after) = written before ++ written after := by
  simp [written, Piece.written]

theorem links_pieces (nodes : Nodes) (visible : Bool) :
    links (nodes.pieces visible) = nodes.enclosed true := by
  induction nodes generalizing visible with
  | nil => rfl
  | text content next ih => exact ih visible
  | other next ih => exact ih visible
  | element name link children next inner ih =>
      cases link with
      | some link => exact congrArg (link :: ·) (ih visible)
      | none =>
          rw [Nodes.pieces, Nodes.enclosed, ← inner, ← ih visible]
          exact List.filterMap_append

theorem links_blockElements (nodes : Nodes) :
    (nodes.blockElements.flatMap fun found => links (found.2.pieces true)) =
      nodes.enclosed false := by
  induction nodes with
  | nil => rfl
  | text content next ih => exact ih
  | other next ih => exact ih
  | element name link children next inner ih =>
      rw [Nodes.blockElements, Nodes.enclosed]
      cases blockKind name with
      | some kind =>
          dsimp only
          rw [List.flatMap_cons, ih, links_pieces]
          rfl
      | none =>
          dsimp only
          rw [List.flatMap_append, inner, ih]
          rfl

end Pieces

section Walk

variable {Url : Type} (refSources : Text → RefSources Url) (refBare : Text → Bool)

/-- The blocks of the elements, with ordinals from a number on. -/
def built : Nat → List (BlockKind × Nodes) → List (ParsoidBlock Url)
  | _, [] => []
  | ordinal, (kind, children) :: rest =>
      buildBlock refSources refBare children kind ordinal :: built (ordinal + 1) rest

theorem built_append (ordinal : Nat) (before after : List (BlockKind × Nodes)) :
    built refSources refBare ordinal (before ++ after) =
      built refSources refBare ordinal before ++
        built refSources refBare (ordinal + before.length) after := by
  induction before generalizing ordinal with
  | nil => rfl
  | cons found rest ih =>
      rw [List.cons_append, built, ih, built, List.length_cons, List.cons_append,
        Nat.add_assoc ordinal 1, Nat.add_comm 1]

/-- The walk emits one block for each outermost block element, in order. -/
theorem walk_eq (nodes : Nodes) (blocks : List (ParsoidBlock Url)) (ordinal : Nat) :
    walk refSources refBare nodes (blocks, ordinal) =
      (blocks ++ built refSources refBare ordinal nodes.blockElements,
        ordinal + nodes.blockElements.length) := by
  induction nodes generalizing blocks ordinal with
  | nil => exact Prod.ext (List.append_nil blocks).symm rfl
  | text content next ih => exact ih blocks ordinal
  | other next ih => exact ih blocks ordinal
  | element name link children next inner ih =>
      rw [walk, Nodes.blockElements]
      cases blockKind name with
      | some kind =>
          dsimp only
          rw [ih, built, List.append_assoc, List.length_cons, Nat.add_assoc ordinal 1,
            Nat.add_comm 1]
          rfl
      | none =>
          dsimp only
          rw [inner, ih, built_append, List.append_assoc, List.length_append, Nat.add_assoc]

theorem blocksFromRevision_eq (body : Nodes) :
    blocksFromRevision refSources refBare body =
      built refSources refBare 0 body.blockElements := by
  rw [blocksFromRevision, walk_eq]
  rfl

theorem built_getElem? (ordinal : Nat) (elements : List (BlockKind × Nodes)) (k : Nat) :
    (built refSources refBare ordinal elements)[k]? =
      elements[k]?.map fun found => buildBlock refSources refBare found.2 found.1 (ordinal + k) := by
  induction elements generalizing ordinal k with
  | nil => rfl
  | cons found rest ih =>
      cases k with
      | zero => rfl
      | succ k =>
          rw [built, List.getElem?_cons_succ, List.getElem?_cons_succ, ih,
            Nat.add_assoc ordinal 1, Nat.add_comm 1]

theorem built_ordinals (ordinal : Nat) (elements : List (BlockKind × Nodes)) :
    (built refSources refBare ordinal elements).map (fun block => block.blockOrdinal) =
      List.range' ordinal elements.length := by
  induction elements generalizing ordinal with
  | nil => rfl
  | cons found rest ih => exact congrArg (ordinal :: ·) (ih (ordinal + 1))

/-- A reference moved along with the trimming of its block. -/
def shift (text : Text) (ref : BlockRef Url) : BlockRef Url :=
  { ref with
    offset := min (ref.offset - (Bytes.size text - Bytes.size (Text.trimStart text)))
      (Bytes.size (Text.trim text)) }

theorem buildBlock_refs (children : Nodes) (kind : BlockKind) (ordinal : Nat) :
    (buildBlock refSources refBare children kind ordinal).refs =
      (refsFrom refSources refBare [] (children.pieces true)).map
        (shift (written (children.pieces true))) := by
  rw [buildBlock, collectBlock_eq _ _ _ true, foldl_collectPiece]
  rfl

theorem buildBlock_text (children : Nodes) (kind : BlockKind) (ordinal : Nat) :
    (buildBlock refSources refBare children kind ordinal).text =
      Text.trim (written (children.pieces true)) := by
  rw [buildBlock, collectBlock_eq _ _ _ true, foldl_collectPiece]
  rfl

/-- The style and script elements of a block hold no text. -/
def Shows (children : Nodes) : Prop :=
  ∀ content, .text content false ∈ children.pieces true → content = []

theorem written_eq_shown {pieces : List Piece}
    (shows : ∀ content, .text content false ∈ pieces → content = []) :
    written pieces = shown pieces := by
  unfold written shown
  refine List.flatMap_congr ?_
  intro piece member
  cases piece with
  | text content visible =>
      cases visible with
      | true => rfl
      | false => exact shows content member
  | mark link label => rfl

/-- A block as it was cut from an element: its markers in order, at character boundaries that
do not go back, each where it stood in the visible text. -/
structure Cut (found : BlockKind × Nodes) (ordinal : Nat) (block : ParsoidBlock Url) : Prop where
  kind : block.blockKind = found.1
  ordinal : block.blockOrdinal = ordinal
  ids : block.refs.map (fun ref => ref.refId) = (found.2.enclosed true).map ReferenceLink.id
  ordered : block.refs.Pairwise fun a b => a.offset ≤ b.offset
  boundaries : ∀ ref ∈ block.refs, Bytes.Boundary block.text ref.offset
  offsets : Shows found.2 → ∀ before link label after,
    found.2.pieces true = before ++ .mark link label :: after →
    ∃ ref, block.refs[(links before).length]? = some ref ∧ ref.refId = link.id ∧
      ref.offset = offsetIn (shown before) (shown after)

theorem buildBlock_cut (children : Nodes) (kind : BlockKind) (ordinal : Nat) :
    Cut (kind, children) ordinal (buildBlock refSources refBare children kind ordinal) where
  kind := rfl
  ordinal := rfl
  ids := by
    rw [buildBlock_refs, List.map_map, ← links_pieces children true,
      ← refsFrom_ids refSources refBare []]
    rfl
  ordered := by
    rw [buildBlock_refs, List.pairwise_map]
    refine (refsFrom_ordered refSources refBare [] _).imp ?_
    intro a b ordered
    show min _ _ ≤ min _ _
    omega
  boundaries := by
    intro ref member
    rw [buildBlock_refs] at member
    obtain ⟨found, inside, rfl⟩ := List.mem_map.mp member
    obtain ⟨before, link, label, after, split, rfl⟩ := exists_mark refSources refBare inside
    rw [buildBlock_text, split, written_mark]
    exact boundary_offsetIn (written before) (written after)
  offsets := by
    intro shows before link label after split
    have visible : ∀ content, .text content false ∈ before ++ .mark link label :: after →
        content = [] := by
      rw [← split]
      exact shows
    have front := written_eq_shown fun content member =>
      visible content (List.mem_append_left _ member)
    have back := written_eq_shown fun content member =>
      visible content (List.mem_append_right _ (List.mem_cons_of_mem _ member))
    refine ⟨refFor refSources refBare link label (offsetIn (written before) (written after)), ?_,
      rfl, ?_⟩
    · rw [buildBlock_refs, split, refsFrom_append, List.map_append,
        List.getElem?_append_right (by simp [refsFrom_length]), List.length_map, refsFrom_length,
        Nat.sub_self, written_mark]
      rfl
    · rw [front, back]
      rfl

/-- The blocks of a page: every reference link inside a block element is recorded once, in
document order; the blocks are numbered in document order; and each is cut as it should. -/
theorem page_cut (body : Nodes) :
    ((blocksFromRevision refSources refBare body).flatMap fun block =>
        block.refs.map fun ref => ref.refId) = (body.enclosed false).map ReferenceLink.id ∧
      (blocksFromRevision refSources refBare body).map (fun block => block.blockOrdinal) =
        List.range body.blockElements.length ∧
      ∀ ordinal found, body.blockElements[ordinal]? = some found →
        ∃ block, (blocksFromRevision refSources refBare body)[ordinal]? = some block ∧
          Cut found ordinal block := by
  rw [blocksFromRevision_eq]
  refine ⟨?_, ?_, ?_⟩
  · rw [← links_blockElements, List.map_flatMap]
    generalize body.blockElements = elements
    generalize 0 = ordinal
    induction elements generalizing ordinal with
    | nil => rfl
    | cons found rest ih =>
        rw [built, List.flatMap_cons, List.flatMap_cons, ih,
          (buildBlock_cut refSources refBare found.2 found.1 ordinal).ids, ← links_pieces]
  · rw [built_ordinals, List.range_eq_range']
  · intro ordinal found here
    refine ⟨buildBlock refSources refBare found.2 found.1 (0 + ordinal), ?_, ?_⟩
    · rw [built_getElem?, here]
      rfl
    · rw [Nat.zero_add]
      exact buildBlock_cut refSources refBare found.2 found.1 ordinal

end Walk

section Heading

/-- A cited statement in a heading. -/
def heading : Nodes :=
  .element "h2".toList none
    (.text "History".toList
      (.element "sup".toList (some ⟨"cite_ref-1".toList, some "cite_note-1".toList, none⟩)
        (.text "[1]".toList .nil) .nil)) .nil

/-- The marker of a heading is in no block. -/
theorem heading_lost : ¬ ∀ link ∈ heading.links,
    ∃ block ∈ blocksFromRevision (fun _ => (⟨[], [], false⟩ : RefSources Text)) (fun _ => false) heading,
      ∃ ref ∈ block.refs, ref.refId = link.id := by
  intro kept
  obtain ⟨block, member, -⟩ := kept _ (List.mem_singleton.mpr rfl)
  cases member

end Heading

end SP42.Parsoid

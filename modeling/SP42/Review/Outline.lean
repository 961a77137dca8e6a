import Mathlib
import SP42.Parsoid.Cutting
import SP42.Review.Session

/-!
The outline of a page under review, with the findings of the report laid over it: a finding stands
at the first block that cites its reference, or is handed back.
-/
namespace SP42.Review

open Parsoid (BlockKind ParsoidBlock)

structure ReviewBlockOutline where
  blockOrdinal : Nat
  kind : String
  text : Text
  refIds : List Text
  findings : List ReviewFindingMarker

def reviewOutlineTextLimit : Nat := 160

def blockKindLabel : BlockKind → String
  | .paragraph => "paragraph"
  | .listItem => "list-item"
  | .tableCell => "table-cell"
  | .other => "other"

def truncateChars (text : Text) (limit : Nat) : Text :=
  if text.length ≤ limit then text else text.take limit ++ ['…']

def outlineOf {Url : Type} (block : ParsoidBlock Url) : ReviewBlockOutline where
  blockOrdinal := block.blockOrdinal
  kind := blockKindLabel block.blockKind
  text := truncateChars block.text reviewOutlineTextLimit
  refIds := block.refs.map fun ref => ref.refId
  findings := []

def buildArticleOutline {Url : Type} (blocks : List (ParsoidBlock Url)) :
    List ReviewBlockOutline := blocks.map outlineOf

/-- The block takes the marker behind those it has. -/
def ReviewBlockOutline.push (marker : ReviewFindingMarker) (block : ReviewBlockOutline) :
    ReviewBlockOutline := { block with findings := block.findings ++ [marker] }

def cites (marker : ReviewFindingMarker) (block : ReviewBlockOutline) : Bool :=
  block.refIds.any (· == marker.refId.toList)

/-- The first block that cites the marker's reference. -/
def blockOf (outline : List ReviewBlockOutline) (marker : ReviewFindingMarker) : Option Nat :=
  outline.findIdx? (cites marker)

def annotateMarker (annotated : List ReviewBlockOutline × List ReviewFindingMarker)
    (marker : ReviewFindingMarker) : List ReviewBlockOutline × List ReviewFindingMarker :=
  match blockOf annotated.1 marker with
  | some k => (annotated.1.modify k (ReviewBlockOutline.push marker), annotated.2)
  | none => (annotated.1, annotated.2 ++ [marker])

def annotateOutline (outline : List ReviewBlockOutline) (findings : List ReviewFindingMarker) :
    List ReviewBlockOutline × List ReviewFindingMarker :=
  findings.foldl annotateMarker (outline, [])

/-- The outline with every finding at its block, in the order of the report. -/
def overlaid (outline : List ReviewBlockOutline) (findings : List ReviewFindingMarker) :
    List ReviewBlockOutline :=
  outline.mapIdx fun k block =>
    { block with findings := block.findings ++ findings.filter (blockOf outline · = some k) }

variable {outline : List ReviewBlockOutline} {findings : List ReviewFindingMarker}

theorem blockOf_overlaid (marker : ReviewFindingMarker) :
    blockOf (overlaid outline findings) marker = blockOf outline marker := by
  have kept : (overlaid outline findings).map ReviewBlockOutline.refIds =
      outline.map ReviewBlockOutline.refIds := by
    apply List.ext_getElem?
    intro k
    simp [overlaid, Function.comp_def]
  have read (blocks : List ReviewBlockOutline) : blockOf blocks marker =
      (blocks.map ReviewBlockOutline.refIds).findIdx? fun refIds =>
        refIds.any (· == marker.refId.toList) := by
    rw [List.findIdx?_map]
    rfl
  rw [read, read, kept]

theorem overlaid_placed {marker : ReviewFindingMarker} {k : Nat}
    (placed : blockOf outline marker = some k) :
    (overlaid outline findings).modify k (ReviewBlockOutline.push marker) =
      overlaid outline (findings ++ [marker]) := by
  apply List.ext_getElem?
  intro i
  rw [List.getElem?_modify, overlaid, overlaid, List.getElem?_mapIdx, List.getElem?_mapIdx]
  cases outline[i]? with
  | none => rfl
  | some block =>
      rcases eq_or_ne k i with rfl | other
      · simp [ReviewBlockOutline.push, List.filter_append, placed]
      · simp [List.filter_append, placed, other]

theorem overlaid_unplaced {marker : ReviewFindingMarker}
    (unplaced : blockOf outline marker = none) :
    overlaid outline (findings ++ [marker]) = overlaid outline findings := by
  apply List.ext_getElem?
  intro k
  simp [overlaid, List.filter_append, unplaced]

/-- The walk over the findings lays each over its block, and keeps those without one. -/
theorem annotateOutline_eq (outline : List ReviewBlockOutline)
    (findings : List ReviewFindingMarker) : annotateOutline outline findings =
      (overlaid outline findings, findings.filter (blockOf outline · = none)) := by
  induction findings using List.reverseRecOn with
  | nil =>
      have bare : overlaid outline [] = outline := by
        apply List.ext_getElem?
        intro k
        simp [overlaid]
      rw [bare]
      rfl
  | append_singleton findings marker ih =>
      have step : annotateOutline outline (findings ++ [marker]) =
          annotateMarker (annotateOutline outline findings) marker := List.foldl_append
      rw [step, ih, annotateMarker]
      dsimp only
      rw [blockOf_overlaid, List.filter_append, List.filter_singleton]
      cases placed : blockOf outline marker with
      | none => simp [overlaid_unplaced placed]
      | some k => simp [overlaid_placed placed]

/-- A block more or less, and a marker is with the block that took it. -/
theorem findings_modify {k : Nat} (inside : k < outline.length) (marker : ReviewFindingMarker) :
    ((outline.modify k (ReviewBlockOutline.push marker)).flatMap ReviewBlockOutline.findings).Perm
      (outline.flatMap ReviewBlockOutline.findings ++ [marker]) := by
  induction outline generalizing k with
  | nil => cases inside
  | cons block rest ih =>
      cases k with
      | zero =>
          rw [List.modify_zero_cons, List.flatMap_cons, List.flatMap_cons]
          unfold ReviewBlockOutline.push
          rw [List.append_assoc, List.append_assoc]
          exact List.perm_append_comm.append_left _
      | succ k =>
          rw [List.modify_succ_cons, List.flatMap_cons, List.flatMap_cons, List.append_assoc]
          exact (ih (Nat.lt_of_succ_lt_succ inside)).append_left _

/-- Over the outline of a page, every finding is shown at one block or handed back, once. -/
theorem annotated_conserves {Url : Type} (blocks : List (ParsoidBlock Url))
    (findings : List ReviewFindingMarker) :
    let annotated := annotateOutline (buildArticleOutline blocks) findings
    annotated = (overlaid (buildArticleOutline blocks) findings,
        findings.filter (blockOf (buildArticleOutline blocks) · = none)) ∧
      (annotated.1.flatMap ReviewBlockOutline.findings ++ annotated.2).Perm findings := by
  refine ⟨annotateOutline_eq _ _, ?_⟩
  induction findings using List.reverseRecOn with
  | nil =>
      have bare : (buildArticleOutline blocks).flatMap ReviewBlockOutline.findings = [] := by
        simp [buildArticleOutline, outlineOf]
      exact List.Perm.of_eq (by rw [annotateOutline, List.foldl_nil, bare, List.append_nil])
  | append_singleton findings marker ih =>
      have step : annotateOutline (buildArticleOutline blocks) (findings ++ [marker]) =
          annotateMarker (annotateOutline (buildArticleOutline blocks) findings) marker :=
        List.foldl_append
      rw [step, annotateMarker]
      revert ih
      generalize annotateOutline (buildArticleOutline blocks) findings = annotated
      intro ih
      cases placed : blockOf annotated.1 marker with
      | none =>
          dsimp only
          rw [← List.append_assoc]
          exact ih.append_right [marker]
      | some k =>
          have inside : k < annotated.1.length := (List.findIdx?_eq_some_iff_findIdx_eq.mp placed).1
          have grown := (findings_modify inside marker).append_right annotated.2
          have moved := @List.perm_append_comm _ [marker] annotated.2
          refine grown.trans ?_
          rw [List.append_assoc]
          refine (moved.append_left _).trans ?_
          rw [← List.append_assoc]
          exact ih.append_right [marker]

end SP42.Review

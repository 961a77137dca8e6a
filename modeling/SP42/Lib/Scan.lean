import Mathlib.Data.List.Basic
import Mathlib.Order.Nat

/-!
Scanners that run over a text once and drop what they consume, and texts with pieces
inserted. What a scanner leaves is the text with the consumed pieces taken out.
-/
namespace Scan

variable {α : Type*}

/-- What a scanner comes across: a letter that it keeps or a piece that it takes. -/
inductive Item (α : Type*) where
  | kept (c : α)
  | taken (piece : List α)
  deriving DecidableEq

def Item.text : Item α → List α
  | .kept c => [c]
  | .taken piece => piece

def Item.letter : Item α → Option α
  | .kept c => some c
  | .taken _ => none

/-- The run of a scanner; `fuel` is at least the length of the text. -/
def itemsFrom (consume : List α → Option (List α)) : Nat → List α → List (Item α)
  | 0, _ => []
  | _, [] => []
  | fuel + 1, c :: text =>
      match consume (c :: text) with
      | some next =>
          .taken ((c :: text).take ((c :: text).length - next.length)) :: itemsFrom consume fuel next
      | none => .kept c :: itemsFrom consume fuel text

def items (consume : List α → Option (List α)) (text : List α) : List (Item α) :=
  itemsFrom consume text.length text

/-- The text without what is consumed. -/
def strip (consume : List α → Option (List α)) (text : List α) : List α :=
  (items consume text).filterMap Item.letter

/-- What is consumed comes first, and is something. -/
def Forward (consume : List α → Option (List α)) : Prop :=
  ∀ text next, consume text = some next → ∃ piece, piece ≠ [] ∧ text = piece ++ next

/-- The second text is the first one with pieces inserted. -/
inductive Inserted (Piece : List α → Prop) : List α → List α → Prop
  | nil : Inserted Piece [] []
  | keep (c : α) {before after : List α} : Inserted Piece before after →
      Inserted Piece (c :: before) (c :: after)
  | insert {piece before after : List α} : Piece piece → Inserted Piece before after →
      Inserted Piece before (piece ++ after)

namespace Inserted

variable {Piece Other : List α → Prop} {before after : List α}

theorem refl (text : List α) : Inserted Piece text text := by
  induction text with
  | nil => exact .nil
  | cons c text ih => exact .keep c ih

theorem append_left (kept : List α) (inserted : Inserted Piece before after) :
    Inserted Piece (kept ++ before) (kept ++ after) := by
  induction kept with
  | nil => exact inserted
  | cons c kept ih => exact .keep c ih

theorem mono (weaker : ∀ piece, Piece piece → Other piece) (inserted : Inserted Piece before after) :
    Inserted Other before after := by
  induction inserted with
  | nil => exact .nil
  | keep c _ ih => exact .keep c ih
  | insert piece _ ih => exact .insert (weaker _ piece) ih

theorem length_le (inserted : Inserted Piece before after) : before.length ≤ after.length := by
  induction inserted with
  | nil => exact le_refl 0
  | keep c _ ih => exact Nat.succ_le_succ ih
  | insert _ _ ih =>
      rw [List.length_append]
      omega

/-- A list of items is what it keeps, with what it takes inserted. -/
theorem of_items (items : List (Item α)) :
    Inserted (fun piece => .taken piece ∈ items) (items.filterMap Item.letter)
      (items.flatMap Item.text) := by
  induction items with
  | nil => exact .nil
  | cons item items ih =>
      have rest := ih.mono fun _ member => List.mem_cons_of_mem item member
      cases item with
      | kept c => exact .keep c rest
      | taken piece => exact .insert List.mem_cons_self rest

end Inserted

section Runs

variable {consume : List α → Option (List α)}

theorem itemsFrom_eq (forward : Forward consume) {fuel other : Nat} {text : List α}
    (enough : text.length ≤ fuel) (also : text.length ≤ other) :
    itemsFrom consume fuel text = itemsFrom consume other text := by
  induction fuel generalizing other text with
  | zero =>
      rw [List.eq_nil_of_length_eq_zero (Nat.le_zero.mp enough)]
      cases other <;> rfl
  | succ fuel ih =>
      cases text with
      | nil => cases other <;> rfl
      | cons c text =>
          cases other with
          | zero => exact absurd also (Nat.not_succ_le_zero _)
          | succ other =>
              have fits := Nat.le_of_succ_le_succ enough
              have fitsToo := Nat.le_of_succ_le_succ also
              rw [itemsFrom, itemsFrom]
              cases consumed : consume (c :: text) with
              | none => exact congrArg (.kept c :: ·) (ih fits fitsToo)
              | some next =>
                  obtain ⟨piece, inhabited, whole⟩ := forward _ _ consumed
                  have size := congrArg List.length whole
                  have some := List.length_pos_of_ne_nil inhabited
                  rw [List.length_append, List.length_cons] at size
                  have rest : itemsFrom consume fuel next = itemsFrom consume other next :=
                    ih (by omega) (by omega)
                  dsimp only
                  rw [rest]

theorem items_kept {c : α} {text : List α} (kept : consume (c :: text) = none) :
    items consume (c :: text) = .kept c :: items consume text := by
  unfold items
  rw [List.length_cons, itemsFrom, kept]

theorem items_taken (forward : Forward consume) {piece next : List α} (inhabited : piece ≠ [])
    (consumed : consume (piece ++ next) = some next) :
    items consume (piece ++ next) = .taken piece :: items consume next := by
  cases piece with
  | nil => exact absurd rfl inhabited
  | cons c piece =>
      have first : (c :: (piece ++ next)).take ((c :: (piece ++ next)).length - next.length) =
          c :: piece := by
        refine @List.take_left' _ (c :: piece) next _ ?_
        simp only [List.length_cons, List.length_append]
        omega
      unfold items
      rw [List.cons_append, List.length_cons, itemsFrom]
      rw [List.cons_append] at consumed
      rw [consumed]
      dsimp only
      rw [first]
      have enough : next.length ≤ (piece ++ next).length := by
        rw [List.length_append]
        omega
      rw [itemsFrom_eq forward enough (le_refl _)]

/-- Every letter of the text is kept or taken. -/
theorem items_text (forward : Forward consume) (text : List α) :
    (items consume text).flatMap Item.text = text := by
  induction size : text.length using Nat.strong_induction_on generalizing text with
  | _ n ih =>
      subst size
      cases text with
      | nil => rfl
      | cons c text =>
          cases consumed : consume (c :: text) with
          | none =>
              rw [items_kept consumed, List.flatMap_cons, ih text.length (Nat.lt_succ_self _) text rfl]
              rfl
          | some next =>
              obtain ⟨piece, inhabited, whole⟩ := forward _ _ consumed
              have shorter := congrArg List.length whole
              have some := List.length_pos_of_ne_nil inhabited
              rw [List.length_append] at shorter
              rw [whole, items_taken forward inhabited (whole ▸ consumed), List.flatMap_cons,
                ih next.length (by omega) next rfl]
              rfl

/-- The text is what the scanner leaves, with what it takes inserted. -/
theorem inserted_strip (forward : Forward consume) (text : List α) :
    Inserted (fun piece => .taken piece ∈ items consume text) (strip consume text) text := by
  have inserted := Inserted.of_items (items consume text)
  rw [items_text forward] at inserted
  exact inserted

theorem strip_length (forward : Forward consume) (text : List α) :
    (strip consume text).length ≤ text.length :=
  (inserted_strip forward text).length_le

theorem strip_consumed (forward : Forward consume) {text next : List α}
    (consumed : consume text = some next) : strip consume text = strip consume next := by
  obtain ⟨piece, inhabited, rfl⟩ := forward _ _ consumed
  unfold strip
  rw [items_taken forward inhabited consumed]
  rfl

theorem strip_kept {c : α} {text : List α} (kept : consume (c :: text) = none) :
    strip consume (c :: text) = c :: strip consume text := by
  unfold strip
  rw [items_kept kept]
  rfl

/-- The scanner passes what it does not consume. -/
theorem strip_append {front text : List α}
    (passed : ∀ back, back ≠ [] → back <:+ front → consume (back ++ text) = none) :
    strip consume (front ++ text) = front ++ strip consume text := by
  induction front with
  | nil => rfl
  | cons c front ih =>
      have here : consume (c :: (front ++ text)) = none :=
        passed (c :: front) (List.cons_ne_nil _ _) (List.suffix_refl _)
      rw [List.cons_append, strip_kept here, List.cons_append]
      refine congrArg (c :: ·) (ih fun back inhabited inside => ?_)
      exact passed back inhabited (inside.trans (List.suffix_cons c front))

/-- Where only inserted pieces are consumed, the scanner undoes the insertion. -/
theorem strip_inserted (forward : Forward consume) {Piece Quiet : List α → Prop}
    (takes : ∀ piece, Piece piece → ∀ next, consume (piece ++ next) = some next)
    (shrinks : ∀ c text, Quiet (c :: text) → Quiet text)
    (passes : ∀ c before after, Inserted Piece before after → Quiet (c :: before) →
      consume (c :: after) = none) {before after : List α}
    (inserted : Inserted Piece before after) (quiet : Quiet before) :
    strip consume after = before := by
  induction inserted with
  | nil => rfl
  | keep c inner ih =>
      rw [strip_kept (passes c _ _ inner quiet), ih (shrinks c _ quiet)]
  | insert piece _ ih =>
      rw [strip_consumed forward (takes _ piece _)]
      exact ih quiet

end Runs

end Scan

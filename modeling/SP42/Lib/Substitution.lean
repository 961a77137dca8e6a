import Mathlib.Data.List.Infix
import Mathlib.Tactic.Common
import SP42.Lib.Search

/-!
Words in a text replaced one after another, and the slots of a template filled at once. A word
that does not overlap itself is replaced piece by piece; then the two agree when every place where
a slot's mark is found is a slot.
-/
namespace Substitution

variable {α : Type*} [DecidableEq α]

section Replacing

/-- The loop of `str::replace` for a nonempty word, behind the letters to skip. -/
def replaceFrom (word other : List α) : Nat → List α → List α
  | _, [] => []
  | skip + 1, _ :: rest => replaceFrom word other skip rest
  | 0, c :: rest =>
      if word.isPrefixOf (c :: rest) then other ++ replaceFrom word other (word.length - 1) rest
      else c :: replaceFrom word other 0 rest

def replace (word other text : List α) : List α := replaceFrom word other 0 text

/-- How many times the word is replaced. -/
def countFrom (word : List α) : Nat → List α → Nat
  | _, [] => 0
  | skip + 1, _ :: rest => countFrom word skip rest
  | 0, c :: rest =>
      if word.isPrefixOf (c :: rest) then countFrom word (word.length - 1) rest + 1
      else countFrom word 0 rest

def count (word text : List α) : Nat := countFrom word 0 text

/-- No end of the word is a beginning of it. -/
def Unbordered (word : List α) : Prop :=
  ∀ border, border ≠ [] → border <+: word → border <:+ word → border = word

variable {word other : List α}

theorem replaceFrom_skip (skipped text : List α) :
    replaceFrom word other skipped.length (skipped ++ text) = replace word other text := by
  induction skipped with
  | nil => rfl
  | cons x skipped ih => exact ih

theorem countFrom_skip (skipped text : List α) :
    countFrom word skipped.length (skipped ++ text) = count word text := by
  induction skipped with
  | nil => rfl
  | cons x skipped ih => exact ih

theorem replace_absent {text : List α} (absent : ¬ word <:+: text) :
    replace word other text = text := by
  induction text with
  | nil => rfl
  | cons x text ih =>
      rw [List.infix_cons_iff, not_or] at absent
      rw [replace, replaceFrom, if_neg (mt List.isPrefixOf_iff_prefix.mp absent.1)]
      exact congrArg (x :: ·) (ih absent.2)

theorem count_absent {text : List α} (absent : ¬ word <:+: text) : count word text = 0 := by
  induction text with
  | nil => rfl
  | cons x text ih =>
      rw [List.infix_cons_iff, not_or] at absent
      rw [count, countFrom, if_neg (mt List.isPrefixOf_iff_prefix.mp absent.1)]
      exact ih absent.2

omit [DecidableEq α] in
/-- Two places of a word without borders are one, or do not overlap. -/
theorem Unbordered.cases (unbordered : Unbordered word) {before after front back : List α}
    (whole : before ++ (word ++ after) = front ++ (word ++ back)) :
    (∃ gap, front = before ++ (word ++ gap) ∧ after = gap ++ (word ++ back)) ∨
      (before = front ∧ after = back) ∨
        ∃ gap, before = front ++ (word ++ gap) ∧ back = gap ++ (word ++ after) := by
  have apart : ∀ {before after front back : List α}, before.length < front.length →
      before ++ (word ++ after) = front ++ (word ++ back) →
        ∃ gap, front = before ++ (word ++ gap) ∧ after = gap ++ (word ++ back) := by
    intro before after front back less whole
    rw [← List.append_assoc] at whole
    rcases List.append_eq_append_iff.mp whole with ⟨gap, long, tail⟩ | ⟨border, short, tail⟩
    · exact ⟨gap, by rw [long, List.append_assoc], tail⟩
    · -- the border ends the first word and begins the second
      rcases List.append_eq_append_iff.mp short with ⟨more, long, inner⟩ | ⟨more, long, -⟩
      · cases border with
        | nil =>
            rw [List.append_nil] at inner
            exact ⟨[], by rw [long, inner, List.append_nil], tail.symm⟩
        | cons c border =>
            have ends : c :: border <:+ word := ⟨more, inner.symm⟩
            have begins : c :: border <+: word :=
              List.prefix_of_prefix_length_le (tail ▸ List.prefix_append (c :: border) after)
                (List.prefix_append word back) ends.length_le
            have same := unbordered (c :: border) (List.cons_ne_nil _ _) begins ends
            rw [same] at inner
            have none_ : more = [] := List.append_left_eq_self.mp inner.symm
            rw [long, none_, List.append_nil] at less
            exact absurd less (Nat.lt_irrefl _)
      · have longer := congrArg List.length long
        rw [List.length_append] at longer
        omega
  rcases Nat.lt_trichotomy before.length front.length with less | same | more
  · exact .inl (apart less whole)
  · obtain ⟨rfl, rest⟩ := List.append_inj whole same
    exact .inr (.inl ⟨rfl, List.append_cancel_left rest⟩)
  · obtain ⟨gap, long, tail⟩ := apart more whole.symm
    exact .inr (.inr ⟨gap, long, tail⟩)

/-- A text is without the word, or goes on behind the first place of it. -/
theorem induction_on_places {motive : List α → Prop} (inhabited : word ≠ [])
    (clear : ∀ text, ¬ word <:+: text → motive text)
    (place : ∀ before after, ¬ word <:+: before → motive after →
      motive (before ++ (word ++ after))) (text : List α) : motive text := by
  induction long : text.length using Nat.strongRecOn generalizing text with
  | ind n ih =>
      subst long
      cases found : Search.find word text with
      | none => exact clear text (Search.find_eq_none.mp found)
      | some position =>
          obtain ⟨inside, ⟨after, there⟩, first⟩ := Search.find_eq_some_iff.mp found
          have whole : text = text.take position ++ (word ++ after) := by
            rw [there, List.take_append_drop]
          have positive := List.length_pos_iff.mpr inhabited
          rw [whole]
          refine place _ _ ?_ (ih after.length ?_ after rfl)
          · rintro ⟨before, rest, earlier⟩
            have shorter := congrArg List.length earlier
            rw [List.length_append, List.length_append, List.length_take] at shorter
            refine first before.length (by omega) ⟨rest ++ (word ++ after), ?_⟩
            conv_rhs => rw [whole, ← earlier]
            simp only [List.append_assoc, List.drop_left]
          · have longer := congrArg List.length whole
            rw [List.length_append, List.length_append] at longer
            omega

omit [DecidableEq α] in
theorem Unbordered.not_prefix (unbordered : Unbordered word) {x : α} {before after : List α}
    (absent : ¬ word <:+: x :: before) : ¬ word <+: x :: before ++ (word ++ after) := by
  rintro ⟨rest, whole⟩
  rcases unbordered.cases (show [] ++ (word ++ rest) = x :: before ++ (word ++ after) from whole)
    with ⟨gap, there, -⟩ | ⟨none_, -⟩ | ⟨gap, none_, -⟩
  · exact absent (there ▸ (List.prefix_append word gap).isInfix)
  · cases none_
  · cases none_

theorem replace_word (inhabited : word ≠ []) (after : List α) :
    replace word other (word ++ after) = other ++ replace word other after := by
  cases word with
  | nil => exact absurd rfl inhabited
  | cons c word =>
      rw [List.cons_append, replace, replaceFrom, ← List.cons_append,
        if_pos (List.isPrefixOf_iff_prefix.mpr (List.prefix_append (c :: word) after))]
      rw [List.length_cons, Nat.add_sub_cancel, replaceFrom_skip]

theorem count_word (inhabited : word ≠ []) (after : List α) :
    count word (word ++ after) = count word after + 1 := by
  cases word with
  | nil => exact absurd rfl inhabited
  | cons c word =>
      rw [List.cons_append, count, countFrom, ← List.cons_append,
        if_pos (List.isPrefixOf_iff_prefix.mpr (List.prefix_append (c :: word) after))]
      rw [List.length_cons, Nat.add_sub_cancel, countFrom_skip]

/-- Up to the first place of the word everything stays. -/
theorem Unbordered.replace_first (unbordered : Unbordered word) (inhabited : word ≠ [])
    {before after : List α} (absent : ¬ word <:+: before) :
    replace word other (before ++ (word ++ after)) =
      before ++ (other ++ replace word other after) := by
  induction before with
  | nil => exact replace_word inhabited after
  | cons x before ih =>
      rw [List.cons_append, replace, replaceFrom, ← List.cons_append,
        if_neg (mt List.isPrefixOf_iff_prefix.mp (unbordered.not_prefix absent))]
      exact congrArg (x :: ·) (ih fun inside => absent (List.infix_cons inside))

theorem Unbordered.count_first (unbordered : Unbordered word) (inhabited : word ≠ [])
    {before after : List α} (absent : ¬ word <:+: before) :
    count word (before ++ (word ++ after)) = count word after + 1 := by
  induction before with
  | nil => exact count_word inhabited after
  | cons x before ih =>
      rw [List.cons_append, count, countFrom, ← List.cons_append,
        if_neg (mt List.isPrefixOf_iff_prefix.mp (unbordered.not_prefix absent))]
      exact ih fun inside => absent (List.infix_cons inside)

/-- Replacing goes through a text with the word in it part by part. -/
theorem Unbordered.replace_append (unbordered : Unbordered word) (inhabited : word ≠ [])
    (before after : List α) : replace word other (before ++ (word ++ after)) =
      replace word other before ++ (other ++ replace word other after) := by
  induction before using induction_on_places inhabited with
  | clear before absent =>
      rw [unbordered.replace_first inhabited absent, replace_absent absent]
  | place front back absent ih =>
      rw [List.append_assoc, List.append_assoc, unbordered.replace_first inhabited absent, ih,
        unbordered.replace_first inhabited absent]
      simp only [List.append_assoc]

theorem Unbordered.count_append (unbordered : Unbordered word) (inhabited : word ≠ [])
    (before after : List α) : count word (before ++ (word ++ after)) =
      count word before + (count word after + 1) := by
  induction before using induction_on_places inhabited with
  | clear before absent =>
      rw [unbordered.count_first inhabited absent, count_absent absent, Nat.zero_add]
  | place front back absent ih =>
      rw [List.append_assoc, List.append_assoc, unbordered.count_first inhabited absent, ih,
        unbordered.count_first inhabited absent]
      omega

theorem Unbordered.count_eq_zero (unbordered : Unbordered word) (inhabited : word ≠ [])
    {text : List α} : count word text = 0 ↔ ¬ word <:+: text := by
  refine ⟨?_, count_absent⟩
  rintro zero ⟨before, after, rfl⟩
  rw [List.append_assoc, unbordered.count_append inhabited] at zero
  omega

/-- A replacement changes the length as often as it is made. -/
theorem Unbordered.length_replace (unbordered : Unbordered word) (inhabited : word ≠ [])
    (text : List α) : (replace word other text).length + count word text * word.length =
      text.length + count word text * other.length := by
  induction text using induction_on_places inhabited with
  | clear text absent =>
      rw [replace_absent absent, count_absent absent, Nat.zero_mul, Nat.zero_mul]
  | place before after absent ih =>
      rw [unbordered.replace_first inhabited absent, unbordered.count_first inhabited absent]
      simp only [List.length_append, Nat.add_mul, Nat.one_mul]
      omega

end Replacing

section Filling

variable {κ : Type*} [DecidableEq κ]

/-- A piece of a template. -/
inductive Piece (κ α : Type*) where
  | text (written : List α)
  | slot (key : κ)
  deriving DecidableEq

variable (mark : κ → List α)

def Piece.filled (values : κ → Option (List α)) : Piece κ α → List α
  | text written => written
  | slot key => (values key).getD (mark key)

/-- The template with the values that are set, and the marks of the other slots. -/
def filled (values : κ → Option (List α)) (pieces : List (Piece κ α)) : List α :=
  pieces.flatMap (Piece.filled mark values)

/-- Where the mark of the key is found, there is a slot of it. -/
def OnlyAtSlots (values : κ → Option (List α)) (pieces : List (Piece κ α)) (key : κ) : Prop :=
  ∀ before after, filled mark values pieces = before ++ (mark key ++ after) →
    ∃ front back, pieces = front ++ .slot key :: back ∧ filled mark values front = before

variable {mark} {values : κ → Option (List α)} {key : κ} {value : List α}

omit [DecidableEq α] [DecidableEq κ] in
theorem filled_slot (unset : values key = none) (front back : List (Piece κ α)) :
    filled mark values (front ++ .slot key :: back) =
      filled mark values front ++ (mark key ++ filled mark values back) := by
  rw [filled, List.flatMap_append, List.flatMap_cons, Piece.filled, unset]
  rfl

omit [DecidableEq α] in
theorem filled_slot_update (front back : List (Piece κ α)) :
    filled mark (Function.update values key (some value)) (front ++ .slot key :: back) =
      filled mark (Function.update values key (some value)) front ++
        (value ++ filled mark (Function.update values key (some value)) back) := by
  rw [filled, List.flatMap_append, List.flatMap_cons, Piece.filled, Function.update_self]
  rfl

omit [DecidableEq α] in
theorem filled_update_of_not_mem {pieces : List (Piece κ α)} (absent : .slot key ∉ pieces) :
    filled mark (Function.update values key (some value)) pieces = filled mark values pieces := by
  refine List.flatMap_congr fun piece member => ?_
  cases piece with
  | text written => rfl
  | slot other =>
      have apart : other ≠ key := by
        rintro rfl
        exact absent member
      rw [Piece.filled, Piece.filled, Function.update_of_ne apart]

omit [DecidableEq α] [DecidableEq κ] in
theorem onlyAtSlots_of_not_mem {pieces : List (Piece κ α)} (absent : .slot key ∉ pieces) :
    OnlyAtSlots mark values pieces key ↔ ¬ mark key <:+: filled mark values pieces := by
  constructor
  · rintro only ⟨before, after, there⟩
    obtain ⟨front, back, rfl, -⟩ := only before after (by rw [← there, List.append_assoc])
    exact absent (List.mem_append_right front List.mem_cons_self)
  · intro clear before after there
    exact absurd ⟨before, after, by rw [there, List.append_assoc]⟩ clear

omit [DecidableEq α] [DecidableEq κ] in
/-- The first of the places of an element is the first, or there is one before it. -/
theorem first_split {β : Type*} {x : β} {front back early late : List β} (first : x ∉ front)
    (whole : front ++ x :: back = early ++ x :: late) :
    (early = front ∧ late = back) ∨
      ∃ more, early = front ++ x :: more ∧ back = more ++ x :: late := by
  rcases List.append_eq_append_iff.mp whole with ⟨more, rfl, tail⟩ | ⟨more, long, tail⟩
  · cases more with
    | nil => exact .inl ⟨List.append_nil front, (List.cons.inj tail).2.symm⟩
    | cons y more =>
        obtain ⟨rfl, rest⟩ := List.cons.inj tail
        exact .inr ⟨more, rfl, rest⟩
  · cases more with
    | nil =>
        rw [List.append_nil] at long
        exact .inl ⟨long.symm, (List.cons.inj tail).2⟩
    | cons y more =>
        obtain ⟨rfl, -⟩ := List.cons.inj tail
        exact absurd (long ▸ List.mem_append_right early List.mem_cons_self) first

omit [DecidableEq α] [DecidableEq κ] in
/-- The first slot parts the text at a place of its mark. -/
theorem onlyAtSlots_slot (unbordered : Unbordered (mark key)) (inhabited : mark key ≠ [])
    (unset : values key = none) {front back : List (Piece κ α)} (first : .slot key ∉ front) :
    OnlyAtSlots mark values (front ++ .slot key :: back) key ↔
      ¬ mark key <:+: filled mark values front ∧ OnlyAtSlots mark values back key := by
  have positive := List.length_pos_iff.mpr inhabited
  constructor
  · intro only
    constructor
    · rintro ⟨before, gap, inside⟩
      obtain ⟨early, late, split, rfl⟩ := only before
        (gap ++ (mark key ++ filled mark values back)) (by
          rw [filled_slot unset, ← inside]
          simp only [List.append_assoc])
      have longer := congrArg List.length inside
      rcases first_split first split with ⟨rfl, -⟩ | ⟨more, rfl, -⟩
      · simp only [List.length_append] at longer
        omega
      · rw [filled_slot unset] at longer
        simp only [List.length_append] at longer
        omega
    · intro before after there
      obtain ⟨early, late, split, long⟩ := only (filled mark values front ++ (mark key ++ before))
        after (by
          rw [filled_slot unset, there]
          simp only [List.append_assoc])
      rcases first_split first split with ⟨rfl, -⟩ | ⟨more, rfl, rest⟩
      · have longer := congrArg List.length long
        simp only [List.length_append] at longer
        omega
      · rw [filled_slot unset] at long
        exact ⟨more, late, rest, List.append_cancel_left (List.append_cancel_left long)⟩
  · rintro ⟨clear, only⟩ before after there
    rw [filled_slot unset] at there
    rcases unbordered.cases there.symm with ⟨gap, inside, -⟩ | ⟨rfl, -⟩ | ⟨gap, rfl, rest⟩
    · exact absurd ⟨before, gap, by rw [inside, List.append_assoc]⟩ clear
    · exact ⟨front, back, rfl, rfl⟩
    · obtain ⟨early, late, rfl, rfl⟩ := only gap after rest
      exact ⟨front ++ .slot key :: early, late, by simp, filled_slot unset front early⟩

omit [DecidableEq α] [DecidableEq κ] in
/-- A template is without slots of the key, or goes on behind the first. -/
theorem induction_on_slots {motive : List (Piece κ α) → Prop} (key : κ)
    (clear : ∀ pieces, .slot key ∉ pieces → motive pieces)
    (slot : ∀ front back, .slot key ∉ front → motive back → motive (front ++ .slot key :: back))
    (pieces : List (Piece κ α)) : motive pieces := by
  induction long : pieces.length using Nat.strongRecOn generalizing pieces with
  | ind n ih =>
      by_cases member : .slot key ∈ pieces
      · obtain ⟨front, back, rfl, first⟩ := List.eq_append_cons_of_mem member
        refine slot front back first (ih back.length ?_ back rfl)
        rw [← long, List.length_append, List.length_cons]
        omega
      · exact clear pieces member

/-- Replacing the mark fills its slots, where it is found nowhere else. -/
theorem replace_filled (unbordered : Unbordered (mark key)) (inhabited : mark key ≠ [])
    (unset : values key = none) {pieces : List (Piece κ α)}
    (only : OnlyAtSlots mark values pieces key) :
    replace (mark key) value (filled mark values pieces) =
      filled mark (Function.update values key (some value)) pieces := by
  induction pieces using induction_on_slots key with
  | clear pieces absent =>
      rw [filled_update_of_not_mem absent,
        replace_absent ((onlyAtSlots_of_not_mem absent).mp only)]
  | slot front back first ih =>
      obtain ⟨clear, rest⟩ := (onlyAtSlots_slot unbordered inhabited unset first).mp only
      rw [filled_slot unset, filled_slot_update, unbordered.replace_append inhabited,
        replace_absent clear, ih rest, filled_update_of_not_mem first]

/-- The mark is found at least at its slots, and not more often only if nowhere else. -/
theorem slots_le_count (unbordered : Unbordered (mark key)) (inhabited : mark key ≠ [])
    (unset : values key = none) (pieces : List (Piece κ α)) :
    pieces.count (.slot key) ≤ count (mark key) (filled mark values pieces) ∧
      (pieces.count (.slot key) = count (mark key) (filled mark values pieces) →
        OnlyAtSlots mark values pieces key) := by
  induction pieces using induction_on_slots key with
  | clear pieces absent =>
      rw [List.count_eq_zero_of_not_mem absent, onlyAtSlots_of_not_mem absent]
      exact ⟨Nat.zero_le _, fun none_ => (unbordered.count_eq_zero inhabited).mp none_.symm⟩
  | slot front back first ih =>
      rw [filled_slot unset, unbordered.count_append inhabited, List.count_append,
        List.count_eq_zero_of_not_mem first, List.count_cons_self,
        onlyAtSlots_slot unbordered inhabited unset first]
      refine ⟨by omega, fun same => ⟨?_, ih.2 (by omega)⟩⟩
      rw [← unbordered.count_eq_zero inhabited]
      omega

theorem length_filled_update (unset : values key = none) (pieces : List (Piece κ α)) :
    (filled mark (Function.update values key (some value)) pieces).length +
        pieces.count (.slot key) * (mark key).length =
      (filled mark values pieces).length + pieces.count (.slot key) * value.length := by
  induction pieces using induction_on_slots key with
  | clear pieces absent =>
      rw [filled_update_of_not_mem absent, List.count_eq_zero_of_not_mem absent, Nat.zero_mul,
        Nat.zero_mul]
  | slot front back first ih =>
      rw [filled_slot unset, filled_slot_update, filled_update_of_not_mem first, List.count_append,
        List.count_eq_zero_of_not_mem first, List.count_cons_self]
      simp only [List.length_append, Nat.zero_add, Nat.add_mul, Nat.one_mul]
      omega

/-- A word that can be replaced by another of its length without a change is that other. -/
theorem Unbordered.replace_self {word : List α} (unbordered : Unbordered word)
    (inhabited : word ≠ []) {text : List α} (same : replace word value text = text) :
    value = word ∨ ¬ word <:+: text := by
  have lengths : (replace word value text).length + count word text * word.length =
      text.length + count word text * value.length := unbordered.length_replace inhabited text
  rw [same] at lengths
  by_cases found : word <:+: text
  · refine .inl ?_
    have some_ : count word text ≠ 0 := mt (unbordered.count_eq_zero inhabited).mp
      (not_not_intro found)
    have long : word.length = value.length :=
      Nat.eq_of_mul_eq_mul_left (Nat.pos_of_ne_zero some_) (Nat.add_left_cancel lengths)
    obtain ⟨before, after, rfl⟩ := found
    rw [List.append_assoc, unbordered.replace_append inhabited] at same
    have front : (replace word value before).length + count word before * word.length =
        before.length + count word before * value.length :=
      unbordered.length_replace inhabited before
    rw [long] at front
    obtain ⟨-, rest⟩ := List.append_inj same (Nat.add_right_cancel front)
    exact (List.append_inj rest long.symm).1
  · exact .inr found

/-- With a value as long as the mark the places can be compared one by one. -/
theorem only_of_same_length (unbordered : Unbordered (mark key)) (inhabited : mark key ≠ [])
    (unset : values key = none) (long : value.length = (mark key).length)
    {pieces : List (Piece κ α)}
    (same : replace (mark key) value (filled mark values pieces) =
      filled mark (Function.update values key (some value)) pieces) :
    value = mark key ∨ OnlyAtSlots mark values pieces key := by
  induction pieces using induction_on_slots key with
  | clear pieces absent =>
      rw [filled_update_of_not_mem absent] at same
      rw [onlyAtSlots_of_not_mem absent]
      exact unbordered.replace_self inhabited same
  | slot front back first ih =>
      rw [filled_slot unset, filled_slot_update, unbordered.replace_append inhabited,
        filled_update_of_not_mem first] at same
      have before : (replace (mark key) value (filled mark values front)).length +
          count (mark key) (filled mark values front) * (mark key).length =
            (filled mark values front).length +
              count (mark key) (filled mark values front) * value.length :=
        unbordered.length_replace inhabited (filled mark values front)
      rw [long] at before
      obtain ⟨here, rest⟩ := List.append_inj same (Nat.add_right_cancel before)
      rw [onlyAtSlots_slot unbordered inhabited unset first]
      rcases unbordered.replace_self inhabited here with mark_ | clear
      · exact .inl mark_
      · exact (ih (List.append_cancel_left rest)).imp_right fun later => ⟨clear, later⟩

theorem Unbordered.replace_word_by_itself {word : List α} (unbordered : Unbordered word)
    (inhabited : word ≠ []) (text : List α) : replace word word text = text := by
  induction text using induction_on_places inhabited with
  | clear text absent => exact replace_absent absent
  | place before after absent ih => rw [unbordered.replace_first inhabited absent, ih]

omit [DecidableEq α] in
theorem filled_update_mark (unset : values key = none) (pieces : List (Piece κ α)) :
    filled mark (Function.update values key (some (mark key))) pieces =
      filled mark values pieces := by
  refine List.flatMap_congr fun piece member => ?_
  cases piece with
  | text written => rfl
  | slot other =>
      rw [Piece.filled, Piece.filled]
      by_cases same : other = key
      · rw [same, Function.update_self, unset]
        rfl
      · rw [Function.update_of_ne same]

/-- Replacing the mark fills its slots only where it is found nowhere else, or stays as it is. -/
theorem replace_filled_iff (unbordered : Unbordered (mark key)) (inhabited : mark key ≠ [])
    (unset : values key = none) (pieces : List (Piece κ α)) :
    replace (mark key) value (filled mark values pieces) =
        filled mark (Function.update values key (some value)) pieces ↔
      value = mark key ∨ OnlyAtSlots mark values pieces key := by
  constructor
  · intro same
    by_cases long : value.length = (mark key).length
    · exact only_of_same_length unbordered inhabited unset long same
    · obtain ⟨least, only⟩ := slots_le_count unbordered inhabited unset pieces
      have replaced : (replace (mark key) value (filled mark values pieces)).length +
          count (mark key) (filled mark values pieces) * (mark key).length =
            (filled mark values pieces).length +
              count (mark key) (filled mark values pieces) * value.length :=
        unbordered.length_replace inhabited (filled mark values pieces)
      have slots : (filled mark (Function.update values key (some value)) pieces).length +
          pieces.count (.slot key) * (mark key).length =
            (filled mark values pieces).length + pieces.count (.slot key) * value.length :=
        length_filled_update unset pieces
      obtain ⟨more, total⟩ := Nat.exists_eq_add_of_le least
      rw [same, total, Nat.add_mul, Nat.add_mul] at replaced
      have none_ : more = 0 := by
        by_contra some_
        exact long (Nat.eq_of_mul_eq_mul_left (Nat.pos_of_ne_zero some_) (by omega))
      exact .inr (only (by rw [total, none_, Nat.add_zero]))
  · rintro (rfl | only)
    · rw [unbordered.replace_word_by_itself inhabited, filled_update_mark unset]
    · exact replace_filled unbordered inhabited unset only

section Sequence

/-- The marks replaced one after the other. -/
def replaceEach (mark : κ → List α) (params : List (κ × List α)) (text : List α) : List α :=
  params.foldl (fun out param => replace (mark param.1) param.2 out) text

/-- The values of the parameters. -/
def valuesOf (params : List (κ × List α)) (key : κ) : Option (List α) := params.lookup key

omit [DecidableEq α] in
theorem valuesOf_unset {done rest : List (κ × List α)}
    (distinct : ((done ++ (key, value) :: rest).map Prod.fst).Nodup) :
    valuesOf done key = none := by
  rw [List.map_append, List.map_cons] at distinct
  have fresh : key ∉ done.map Prod.fst := fun member =>
    (List.nodup_append.mp distinct).2.2 key member key List.mem_cons_self rfl
  exact List.lookup_eq_none_iff.mpr fun param member =>
    bne_iff_ne.mpr fun same => fresh (same ▸ List.mem_map_of_mem member)

omit [DecidableEq α] in
theorem valuesOf_concat {done : List (κ × List α)} (unset : valuesOf done key = none) :
    valuesOf (done ++ [(key, value)]) = Function.update (valuesOf done) key (some value) := by
  funext other
  rw [valuesOf, List.lookup_append]
  by_cases same : other = key
  · rw [same, Function.update_self]
    rw [valuesOf] at unset
    rw [unset, List.lookup_cons_self]
    rfl
  · rw [Function.update_of_ne same, List.lookup_cons, beq_false_of_ne same]
    exact Option.or_none

omit [DecidableEq κ] in
theorem replaceEach_concat (done : List (κ × List α)) (text : List α) :
    replaceEach mark (done ++ [(key, value)]) text =
      replace (mark key) value (replaceEach mark done text) := by
  rw [replaceEach, List.foldl_append]
  rfl

/-- After each parameter the template is filled in so far, and nothing else is changed. -/
def Staged (mark : κ → List α) (params : List (κ × List α)) (pieces : List (Piece κ α)) : Prop :=
  ∀ done rest, params = done ++ rest →
    replaceEach mark done (filled mark (fun _ => none) pieces) = filled mark (valuesOf done) pieces

/-- No value brings about a mark that is replaced later, unless by itself. -/
def Apart (mark : κ → List α) (params : List (κ × List α)) (pieces : List (Piece κ α)) : Prop :=
  ∀ done key value rest, params = done ++ (key, value) :: rest →
    value = mark key ∨ OnlyAtSlots mark (valuesOf done) pieces key

/-- The slots are filled one by one as they are at once, if no value brings about a later mark. -/
theorem staged_iff_apart {params : List (κ × List α)} (distinct : (params.map Prod.fst).Nodup)
    (marks : ∀ param ∈ params, mark param.1 ≠ [] ∧ Unbordered (mark param.1))
    (pieces : List (Piece κ α)) : Staged mark params pieces ↔ Apart mark params pieces := by
  constructor
  · intro staged done key value rest whole
    subst whole
    obtain ⟨inhabited, unbordered⟩ := marks _ (List.mem_append_right done List.mem_cons_self)
    have unset := valuesOf_unset distinct
    rw [← replace_filled_iff unbordered inhabited unset pieces, ← valuesOf_concat unset,
      ← staged (done ++ [(key, value)]) rest (by simp), replaceEach_concat,
      staged done _ rfl]
  · intro apart done
    induction done using List.reverseRecOn with
    | nil =>
        intro rest whole
        rfl
    | append_singleton done param ih =>
        obtain ⟨key, value⟩ := param
        intro rest whole
        rw [List.append_assoc, List.singleton_append] at whole
        subst whole
        obtain ⟨inhabited, unbordered⟩ := marks _ (List.mem_append_right done List.mem_cons_self)
        have unset := valuesOf_unset distinct
        rw [replaceEach_concat, ih _ rfl, valuesOf_concat unset]
        exact (replace_filled_iff unbordered inhabited unset pieces).mpr (apart _ _ _ _ rfl)

end Sequence

end Filling

end Substitution

import Mathlib.Data.List.DropRight
import Mathlib.Data.List.TakeWhile
import Mathlib.Tactic.Common

/-!
Words of a sequence: what lies between the blanks, and what a rewriting of the words
comes to that writes one space for each run of blanks.
-/
namespace SP42.Words

section Words

variable {α : Type} (blank : α → Bool)

def words (text : List α) : List (List α) := text.splitOnP blank

variable {blank}

theorem words_solid {text : List α} (solid : ∀ c ∈ text, blank c = false) :
    words blank text = [text] := List.splitOnP_eq_singleton solid

theorem words_spaced {word : List α} (solid : ∀ c ∈ word, blank c = false) {space : α}
    (gap : blank space = true) (rest : List α) :
    words blank (word ++ space :: rest) = word :: words blank rest :=
  List.splitOnP_append_cons_of_forall_mem solid space gap rest

theorem words_ne_nil (text : List α) : words blank text ≠ [] := List.splitOnP_ne_nil blank text

theorem words_append (text : List α) {space : α} (gap : blank space = true) (rest : List α) :
    words blank (text ++ space :: rest) = words blank text ++ words blank rest :=
  List.splitOnP_append_cons text rest gap

/-- A text is one word, or a word, a blank and a text. -/
theorem words_induction {motive : List α → Prop}
    (solid : ∀ word, (∀ c ∈ word, blank c = false) → motive word)
    (spaced : ∀ word space rest, (∀ c ∈ word, blank c = false) → blank space = true →
      motive rest → motive (word ++ space :: rest)) : ∀ text, motive text := by
  intro text
  induction size : text.length using Nat.strong_induction_on generalizing text with
  | _ n ih =>
      subst size
      have parts := List.takeWhile_append_dropWhile (p := fun c => !blank c) (l := text)
      have before : ∀ c ∈ text.takeWhile (fun c => !blank c), blank c = false := by
        intro c member
        simpa using List.mem_takeWhile_imp member
      cases rest : text.dropWhile (fun c => !blank c) with
      | nil =>
          rw [rest, List.append_nil] at parts
          rw [← parts]
          exact solid _ before
      | cons space after =>
          have gap := List.head?_dropWhile_not (fun c => !blank c) text
          rw [rest] at gap
          have gap : blank space = true := by simpa using gap
          rw [rest] at parts
          rw [← parts]
          refine spaced _ space after before gap (ih after.length ?_ after rfl)
          have := congrArg List.length parts
          rw [List.length_append, List.length_cons] at this
          omega

/-- Every word is free of blanks. -/
theorem solid_of_mem_words {text word : List α} (member : word ∈ words blank text) :
    ∀ c ∈ word, blank c = false := by
  revert member
  refine @words_induction α blank (fun text => word ∈ words blank text →
    ∀ c ∈ word, blank c = false) ?_ ?_ text
  · intro whole solid member
    rw [words_solid solid, List.mem_singleton] at member
    exact member ▸ solid
  · intro first space rest solid gap ih member
    rw [words_spaced solid gap] at member
    rcases List.mem_cons.mp member with rfl | later
    · exact solid
    · exact ih later

/-- What stands in a word stands in the text. -/
theorem mem_of_mem_words {text word : List α} (member : word ∈ words blank text) : word ⊆ text := by
  revert member
  refine @words_induction α blank (fun text => word ∈ words blank text → word ⊆ text) ?_ ?_ text
  · intro whole solid member
    rw [words_solid solid, List.mem_singleton] at member
    exact member ▸ List.Subset.refl whole
  · intro first space rest solid gap ih member
    rw [words_spaced solid gap] at member
    rcases List.mem_cons.mp member with rfl | later
    · exact List.subset_append_left _ _
    · intro c inside
      exact List.mem_append_right _ (List.mem_cons_of_mem _ (ih later inside))

/-- A character that is not blank is in some word. -/
theorem exists_word {text : List α} {c : α} (member : c ∈ text) (solid : blank c = false) :
    ∃ word ∈ words blank text, c ∈ word := by
  revert member
  refine @words_induction α blank (fun text => c ∈ text → ∃ word ∈ words blank text, c ∈ word) ?_ ?_
    text
  · intro whole free member
    rw [words_solid free]
    exact ⟨whole, List.mem_singleton_self _, member⟩
  · intro first space rest free gap ih member
    rw [words_spaced free gap]
    rcases List.mem_append.mp member with here | later
    · exact ⟨first, List.mem_cons_self, here⟩
    · rcases List.mem_cons.mp later with rfl | later
      · rw [gap] at solid
        cases solid
      · obtain ⟨word, inside, holds⟩ := ih later
        exact ⟨word, List.mem_cons_of_mem _ inside, holds⟩

end Words

section Layout

variable {α β : Type} (space : β) (inked : List α → Bool) (image : List α → List β)

/-- The images of words with a space between two of them, unless a space was written last
and the word wrote nothing. -/
def laid : Bool → List (List α) → List β
  | _, [] => []
  | prevSpace, word :: rest =>
      image word ++
        if rest = [] then []
        else (if prevSpace && !inked word then [] else [space]) ++ laid true rest

/-- The images of the words that write something, one space apart. -/
def core (words : List (List α)) : List β :=
  List.intercalate [space] ((words.filter inked).map image)

variable {space inked image}

theorem core_cons_inked {word : List α} (writes : inked word = true) (rest : List (List α)) :
    core space inked image (word :: rest) =
      if rest.filter inked = [] then image word
      else image word ++ space :: core space inked image rest := by
  unfold core
  rw [List.filter_cons_of_pos writes, List.map_cons]
  cases rest.filter inked with
  | nil => simp
  | cons next others => simp [List.intercalate_cons_cons]

theorem core_cons_blank {word : List α} (nothing : inked word = false) (rest : List (List α)) :
    core space inked image (word :: rest) = core space inked image rest := by
  unfold core
  rw [List.filter_cons_of_neg (by simp [nothing])]

/-- After a space, the words are laid out without a leading one. -/
theorem laid_true {words : List (List α)}
    (nothing : ∀ word ∈ words, inked word = false → image word = []) :
    ∃ trailing, laid space inked image true words =
      core space inked image words ++ List.replicate trailing space := by
  induction words with
  | nil => exact ⟨0, rfl⟩
  | cons word rest ih =>
      obtain ⟨trailing, later⟩ := ih fun other member =>
        nothing other (List.mem_cons_of_mem _ member)
      rw [laid]
      cases writes : inked word with
      | false =>
          rw [nothing word List.mem_cons_self writes, core_cons_blank writes]
          by_cases last : rest = []
          · subst last
            exact ⟨0, by simp [core]⟩
          · exact ⟨trailing, by simp [last, later]⟩
      | true =>
          rw [core_cons_inked writes]
          by_cases last : rest = []
          · subst last
            exact ⟨0, by simp⟩
          · rw [if_neg last]
            by_cases rested : rest.filter inked = []
            · have bare : core space inked image rest = [] := by simp [core, rested]
              refine ⟨trailing + 1, ?_⟩
              rw [later, bare, if_pos rested]
              simp [List.replicate_succ]
            · exact ⟨trailing, by simp [later, rested]⟩

/-- The layout is the core between spaces. -/
theorem laid_eq (prevSpace : Bool) {words : List (List α)}
    (nothing : ∀ word ∈ words, inked word = false → image word = []) :
    ∃ leading trailing, laid space inked image prevSpace words =
      List.replicate leading space ++ core space inked image words ++
        List.replicate trailing space := by
  cases prevSpace with
  | true =>
      obtain ⟨trailing, laid⟩ := laid_true nothing
      exact ⟨0, trailing, laid⟩
  | false =>
      cases words with
      | nil => exact ⟨0, 0, rfl⟩
      | cons word rest =>
          obtain ⟨trailing, later⟩ := @laid_true α β space inked image rest fun other member =>
            nothing other (List.mem_cons_of_mem word member)
          cases writes : inked word with
          | true =>
              obtain ⟨trailing, same⟩ := laid_true nothing
              refine ⟨0, trailing, ?_⟩
              rw [laid, writes] at same ⊢
              exact same
          | false =>
              rw [laid, nothing word List.mem_cons_self writes, core_cons_blank writes]
              by_cases last : rest = []
              · subst last
                exact ⟨0, 0, by simp [core]⟩
              · exact ⟨1, trailing, by simp [last, later]⟩

/-- Words that write something and hold no space can be read off again. -/
theorem intercalate_inj {space : β} [DecidableEq β] {pieces others : List (List β)}
    (inside : ∀ piece ∈ pieces, piece ≠ [] ∧ space ∉ piece)
    (inside' : ∀ piece ∈ others, piece ≠ [] ∧ space ∉ piece)
    (same : List.intercalate [space] pieces = List.intercalate [space] others) :
    pieces = others := by
  have nonempty {first : List β} {rest : List (List β)} (solid : first ≠ []) :
      List.intercalate [space] (first :: rest) ≠ [] := by
    intro empty
    cases rest with
    | nil => exact solid (by simpa using empty)
    | cons next rest =>
        rw [List.intercalate_cons_cons] at empty
        simp at empty
  cases pieces with
  | nil =>
      cases others with
      | nil => rfl
      | cons other others =>
          exact absurd same.symm (nonempty (inside' other List.mem_cons_self).1)
  | cons piece pieces =>
      cases others with
      | nil => exact absurd same (nonempty (inside piece List.mem_cons_self).1)
      | cons other others =>
          have one := List.splitOn_intercalate space (fun l m => (inside l m).2)
            (List.cons_ne_nil piece pieces)
          have two := List.splitOn_intercalate space (fun l m => (inside' l m).2)
            (List.cons_ne_nil other others)
          rw [← one, ← two, same]

end Layout

section Split

variable {α : Type} [DecidableEq α]

/-- What stands before and behind the first separator. -/
def splitOnce (separator : α) (text : List α) : Option (List α × List α) :=
  match text.dropWhile (· ≠ separator) with
  | [] => none
  | _ :: rest => some (text.takeWhile (· ≠ separator), rest)

theorem splitOnce_append {separator : α} {before : List α} (fresh : separator ∉ before)
    (after : List α) :
    splitOnce separator (before ++ separator :: after) = some (before, after) := by
  have clear : ∀ c ∈ before, decide (c ≠ separator) = true := by
    intro c member
    refine decide_eq_true ?_
    rintro rfl
    exact fresh member
  rw [splitOnce, List.dropWhile_append_of_pos clear, List.dropWhile_cons_of_neg (by simp),
    List.takeWhile_append_of_pos clear, List.takeWhile_cons_of_neg (by simp), List.append_nil]

theorem splitOnce_eq_none {separator : α} {text : List α} :
    splitOnce separator text = none ↔ separator ∉ text := by
  constructor
  · intro none_ member
    obtain ⟨before, after, rfl, fresh⟩ := List.eq_append_cons_of_mem member
    rw [splitOnce_append fresh] at none_
    cases none_
  · intro fresh
    have dropped : text.dropWhile (fun c => decide (c ≠ separator)) = [] := by
      refine List.dropWhile_eq_nil_iff.mpr fun c member => decide_eq_true ?_
      rintro rfl
      exact fresh member
    rw [splitOnce, dropped]

theorem splitOnce_eq_some {separator : α} {text before after : List α} :
    splitOnce separator text = some (before, after) ↔
      text = before ++ separator :: after ∧ separator ∉ before := by
  constructor
  · intro cut
    by_cases member : separator ∈ text
    · obtain ⟨front, back, rfl, fresh⟩ := List.eq_append_cons_of_mem member
      rw [splitOnce_append fresh] at cut
      cases cut
      exact ⟨rfl, fresh⟩
    · rw [splitOnce_eq_none.mpr member] at cut
      cases cut
  · rintro ⟨rfl, fresh⟩
    exact splitOnce_append fresh after

end Split

end SP42.Words

import Mathlib
import SP42.Base.Text
import SP42.Lib.Regex

/-!
What the patterns of the source are made of: the classes of characters, the edge of a word, and
words whose case is ignored.
-/
namespace SP42.Patterns

open Regex

/-- `\w`: the letters, digits and the underscore, and what the tables of Unicode add beyond
ASCII, the long s and the Kelvin sign among them. -/
def isWord (beyond : Char → Bool) (c : Char) : Bool :=
  if c.toNat < 128 then c.isAlphanum || c == '_' else c == '\u017F' || c == '\u212A' || beyond c

/-- `\b`. -/
def edge (beyond : Char → Bool) : Pattern Char :=
  .look fun before behind => before.any (isWord beyond) != behind.any (isWord beyond)

/-- The pattern of a string, character by character. -/
def literal (text : String) : Pattern Char := .word text.toList

/-- One pattern behind the other. -/
def inOrder : List (Pattern Char) → Pattern Char
  | [] => .nothing
  | [pattern] => pattern
  | pattern :: next :: rest => .seq pattern (inOrder (next :: rest))

theorem inOrder_one (pattern : Pattern Char) : inOrder [pattern] = pattern := rfl

theorem inOrder_cons (pattern next : Pattern Char) (rest : List (Pattern Char)) :
    inOrder (pattern :: next :: rest) = .seq pattern (inOrder (next :: rest)) := rfl

/-- A letter under `(?i)`: the long s and the Kelvin sign are cases of ASCII letters as well. -/
def anyCase (c d : Char) : Bool :=
  d == c.toLower || d == c.toUpper || (c.toLower == 's' && d == '\u017F') ||
    (c.toLower == 'k' && d == '\u212A')

/-- The letters one after the other, in any case. -/
def anyCaseWord : Text → Pattern Char
  | [] => .nothing
  | c :: rest => .seq (.one (anyCase c)) (anyCaseWord rest)

theorem anyCaseWord_nil : anyCaseWord [] = .nothing := rfl

theorem anyCaseWord_cons (c : Char) (rest : Text) :
    anyCaseWord (c :: rest) = .seq (.one (anyCase c)) (anyCaseWord rest) := rfl

def literalAnyCase (text : String) : Pattern Char := anyCaseWord text.toList

/-- The same word in another case. -/
def caseless : Text → Text → Bool
  | [], [] => true
  | c :: letters, d :: word => anyCase c d && caseless letters word
  | _, _ => false

theorem caseless_nil_nil : caseless [] [] = true := rfl

theorem caseless_nil_cons (d : Char) (word : Text) : caseless [] (d :: word) = false := rfl

theorem caseless_cons_cons (c d : Char) (letters word : Text) :
    caseless (c :: letters) (d :: word) = (anyCase c d && caseless letters word) := rfl

section Words

variable (beyond : Char → Bool)

/-- The string as a word of its own. -/
def wholeWord (text : String) : Pattern Char := inOrder [edge beyond, literal text, edge beyond]

/-- The string at the begin of a word. -/
def wordStem (text : String) : Pattern Char := inOrder [edge beyond, literal text]

variable {beyond}

theorem isWord_of_lower {c : Char} (low : c.isLower = true) : isWord beyond c = true := by
  have small : c.toNat < 128 := by
    simp only [Char.isLower, Bool.and_eq_true, decide_eq_true_eq] at low
    have below := UInt32.le_iff_toNat_le.mp low.2
    exact Nat.lt_of_le_of_lt below (by decide)
  rw [isWord, if_pos small, Char.isAlphanum, Char.isAlpha, low]
  simp

variable {before : Option Char} {text : Text} {word : String}

theorem head_letter (letters : word.toList.all Char.isLower = true) (inhabited : word.toList ≠ [])
    (rest : Text) : (word.toList ++ rest).head?.any (isWord beyond) = true := by
  obtain ⟨c, others, whole⟩ := List.exists_cons_of_ne_nil inhabited
  rw [whole] at letters ⊢
  exact isWord_of_lower (List.all_eq_true.mp letters c List.mem_cons_self)

theorem last_letter (letters : word.toList.all Char.isLower = true) (inhabited : word.toList ≠ []) :
    (word.toList.getLast?.or before).any (isWord beyond) = true := by
  rw [List.getLast?_eq_some_getLast inhabited, Option.some_or, Option.any_some]
  exact isWord_of_lower (List.all_eq_true.mp letters _ (List.getLast_mem inhabited))

/-- A word matches where no letter stands before it and none follows it. -/
theorem runs_wholeWord (letters : word.toList.all Char.isLower = true)
    (inhabited : word.toList ≠ []) :
    (wholeWord beyond word).runs before text ≠ [] ↔
      before.any (isWord beyond) = false ∧
        ∃ rest, text = word.toList ++ rest ∧ rest.head?.any (isWord beyond) = false := by
  have behind (rest : Text) :
      (inOrder [edge beyond]).runs (word.toList.getLast?.or before) rest ≠ [] ↔
        rest.head?.any (isWord beyond) = false := by
    rw [inOrder_one, edge, Pattern.runs_look,
      last_letter letters inhabited]
    cases rest.head?.any (isWord beyond) <;> simp
  have inner : (inOrder [literal word, edge beyond]).runs before text ≠ [] ↔
      ∃ rest, text = word.toList ++ rest ∧ rest.head?.any (isWord beyond) = false := by
    rw [inOrder_cons, literal, Pattern.runs_word_seq_ne_nil]
    simp only [behind]
  rw [wholeWord, inOrder_cons, edge, Pattern.runs_look_seq]
  constructor
  · intro some_
    split at some_
    · next holds =>
        obtain ⟨rest, rfl, ends⟩ := inner.mp some_
        rw [head_letter letters inhabited] at holds
        exact ⟨by simpa using holds, rest, rfl, ends⟩
    · exact absurd rfl some_
  · rintro ⟨starts, rest, rfl, ends⟩
    rw [head_letter letters inhabited, starts, if_pos (by rfl)]
    exact inner.mpr ⟨rest, rfl, ends⟩

/-- A stem matches where no letter stands before it. -/
theorem runs_wordStem (letters : word.toList.all Char.isLower = true)
    (inhabited : word.toList ≠ []) :
    (wordStem beyond word).runs before text ≠ [] ↔
      before.any (isWord beyond) = false ∧ ∃ rest, text = word.toList ++ rest := by
  rw [wordStem, inOrder_cons, edge, Pattern.runs_look_seq, inOrder_one, literal, Pattern.runs_word]
  constructor
  · intro some_
    split at some_
    · next holds =>
        split at some_
        · next begins =>
            obtain ⟨rest, rfl⟩ := begins
            rw [head_letter letters inhabited] at holds
            exact ⟨by simpa using holds, rest, rfl⟩
        · exact absurd rfl some_
    · exact absurd rfl some_
  · rintro ⟨starts, rest, rfl⟩
    rw [head_letter letters inhabited, starts, if_pos (by rfl), if_pos (List.prefix_append _ _)]
    exact List.cons_ne_nil _ _

end Words

section Names

variable {beyond : Char → Bool} {before : Option Char} {text : Text} {name : Text}
  {second : Pattern Char}

theorem plain_cases : ∀ n < 128, (Char.ofNat n).isAlphanum = true →
    (Char.ofNat n).toLower.toNat < 128 ∧ (Char.ofNat n).toLower.isAlphanum = true ∧
      (Char.ofNat n).toUpper.toNat < 128 ∧ (Char.ofNat n).toUpper.isAlphanum = true := by
  decide +kernel

theorem plain_small {c : Char} (plain : c.isAlphanum = true) : c.toNat < 128 := by
  simp only [Char.isAlphanum, Char.isAlpha, Char.isUpper, Char.isLower, Char.isDigit,
    Bool.or_eq_true, Bool.and_eq_true, decide_eq_true_eq, UInt32.le_iff_toNat_le,
    ge_iff_le] at plain
  change ((65 ≤ c.toNat ∧ c.toNat ≤ 90) ∨ (97 ≤ c.toNat ∧ c.toNat ≤ 122)) ∨
    (48 ≤ c.toNat ∧ c.toNat ≤ 57) at plain
  omega

/-- Every case of a letter or digit is a letter of a word. -/
theorem isWord_of_anyCase {c d : Char} (plain : c.isAlphanum = true) (same : anyCase c d = true) :
    isWord beyond d = true := by
  have known := plain_cases c.toNat (plain_small plain)
  rw [Char.ofNat_toNat] at known
  obtain ⟨smallLower, lower, smallUpper, upper⟩ := known plain
  simp only [anyCase, Bool.or_eq_true, Bool.and_eq_true, beq_iff_eq] at same
  rcases same with ((rfl | rfl) | ⟨-, rfl⟩) | ⟨-, rfl⟩
  · rw [isWord, if_pos smallLower, lower, Bool.true_or]
  · rw [isWord, if_pos smallUpper, upper, Bool.true_or]
  · rfl
  · rfl

/-- A letter of a name, where the rest of the name matches the rest of the word. -/
theorem runs_name_letter {c : Char} (plain : c.isAlphanum = true)
    (later : ∀ {d : Char} {text : Text}, isWord beyond d = true →
      (Pattern.seq (anyCaseWord name) (.seq (edge beyond) second)).runs (some d) text =
        if caseless name (text.takeWhile (isWord beyond)) then
          (second.runs ((text.takeWhile (isWord beyond)).getLast?.or (some d))
            (text.dropWhile (isWord beyond))).map (Match.behind (text.takeWhile (isWord beyond)))
        else []) :
    (Pattern.seq (.one (anyCase c))
      (.seq (anyCaseWord name) (.seq (edge beyond) second))).runs before text =
      if caseless (c :: name) (text.takeWhile (isWord beyond)) then
        (second.runs ((text.takeWhile (isWord beyond)).getLast?.or before)
          (text.dropWhile (isWord beyond))).map (Match.behind (text.takeWhile (isWord beyond)))
      else [] := by
  cases text with
  | nil => rfl
  | cons d rest =>
      rw [Pattern.runs_one_seq]
      cases same : anyCase c d with
      | true =>
          have letter : isWord beyond d = true := isWord_of_anyCase plain same
          rw [if_pos rfl, later letter, List.takeWhile_cons_of_pos letter,
            List.dropWhile_cons_of_pos letter, caseless_cons_cons, same, Bool.true_and]
          split
          · rw [List.map_map, List.getLast?_cons, Option.some_or, ← Option.or_some]
            refine List.map_congr_left fun found _ => ?_
            exact Match.behind_behind [d] _ found
          · rfl
      | false =>
          rw [if_neg Bool.false_ne_true]
          cases letter : isWord beyond d with
          | true =>
              rw [List.takeWhile_cons_of_pos letter, caseless_cons_cons, same, Bool.false_and,
                if_neg Bool.false_ne_true]
          | false =>
              have other : caseless (c :: name) [] = false := rfl
              rw [List.takeWhile_cons_of_neg (by simp [letter]), other, if_neg Bool.false_ne_true]

/-- Inside a word a name matches where the rest of the word is the name. -/
theorem runs_name_inside (plain : name.all Char.isAlphanum = true)
    (inside : before.any (isWord beyond) = true) :
    (Pattern.seq (anyCaseWord name) (.seq (edge beyond) second)).runs before text =
      if caseless name (text.takeWhile (isWord beyond)) then
        (second.runs ((text.takeWhile (isWord beyond)).getLast?.or before)
          (text.dropWhile (isWord beyond))).map (Match.behind (text.takeWhile (isWord beyond)))
      else [] := by
  induction name generalizing before text with
  | nil =>
      rw [anyCaseWord_nil, Pattern.runs_nothing_seq, edge, Pattern.runs_look_seq, inside]
      cases text with
      | nil => simp [caseless_nil_nil]
      | cons d rest =>
          cases letter : isWord beyond d with
          | true => simp [letter, caseless_nil_cons]
          | false => simp [letter, caseless_nil_nil]
  | cons c name ih =>
      rw [List.all_cons, Bool.and_eq_true] at plain
      rw [anyCaseWord_cons, Pattern.runs_seq_assoc]
      exact runs_name_letter plain.1 fun letter => ih plain.2 letter

/-- A name up to the edge of a word matches where the word is the name. -/
theorem runs_name (plain : name.all Char.isAlphanum = true) (inhabited : name ≠ []) :
    (Pattern.seq (anyCaseWord name) (.seq (edge beyond) second)).runs before text =
      if caseless name (text.takeWhile (isWord beyond)) then
        (second.runs ((text.takeWhile (isWord beyond)).getLast?.or before)
          (text.dropWhile (isWord beyond))).map (Match.behind (text.takeWhile (isWord beyond)))
      else [] := by
  obtain ⟨c, letters, rfl⟩ := List.exists_cons_of_ne_nil inhabited
  rw [List.all_cons, Bool.and_eq_true] at plain
  rw [anyCaseWord_cons, Pattern.runs_seq_assoc]
  exact runs_name_letter plain.1 fun letter => runs_name_inside plain.2 letter

/-- A name without its edge matches where the text begins with it. -/
theorem runs_caseless (word : Text) (same : caseless name word = true) (rest : Text) :
    (Pattern.seq (anyCaseWord name) second).runs before (word ++ rest) =
      (second.runs (word.getLast?.or before) rest).map (Match.behind word) := by
  induction name generalizing word before with
  | nil =>
      cases word with
      | nil => rw [anyCaseWord_nil, Pattern.runs_nothing_seq]; simp
      | cons d word => cases same
  | cons c name ih =>
      cases word with
      | nil => cases same
      | cons d word =>
          rw [caseless_cons_cons, Bool.and_eq_true] at same
          rw [anyCaseWord_cons, Pattern.runs_seq_assoc, List.cons_append, Pattern.runs_one_seq,
            if_pos same.1, ih word same.2, List.map_map, List.getLast?_cons, Option.some_or,
            ← Option.or_some]
          refine List.map_congr_left fun found _ => ?_
          exact Match.behind_behind [d] _ found

theorem caseless_of_runs (some_ : (Pattern.seq (anyCaseWord name) second).runs before text ≠ []) :
    ∃ word rest, text = word ++ rest ∧ caseless name word = true ∧
      second.runs (word.getLast?.or before) rest ≠ [] := by
  induction name generalizing before text with
  | nil =>
      rw [anyCaseWord_nil, Pattern.runs_nothing_seq] at some_
      exact ⟨[], text, rfl, rfl, by simpa using some_⟩
  | cons c name ih =>
      rw [anyCaseWord_cons, Pattern.runs_seq_assoc] at some_
      cases text with
      | nil => exact absurd rfl some_
      | cons d rest =>
          rw [Pattern.runs_one_seq] at some_
          split at some_
          · next same =>
              obtain ⟨word, rest, rfl, caseless_, later⟩ :=
                ih fun none_ => some_ (by rw [none_]; rfl)
              refine ⟨d :: word, rest, rfl, by rw [caseless_cons_cons, same, caseless_]; rfl, ?_⟩
              rwa [List.getLast?_cons, Option.some_or, ← Option.or_some]
          · exact absurd rfl some_

end Names

end SP42.Patterns

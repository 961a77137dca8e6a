import SP42.Base.Text
import SP42.Lib.Bytes

/-!
Sentences of wiki prose: a text is cut behind its terminators, unless the terminator
belongs to a number or an abbreviation.
-/
namespace SP42.Citation

/-- A sentence, with the bytes of the text that it takes. -/
structure Sentence where
  text : Text
  start : Nat
  stop : Nat
  deriving DecidableEq, Repr

def abbreviations : List String :=
  ["U.S.", "U.K.", "U.N.", "E.U.", "a.m.", "p.m.", "Dr.", "Mr.", "Mrs.", "Ms.", "Prof.", "Sr.",
    "Jr.", "St.", "Mt.", "vs.", "etc.", "al.", "ca.", "c.", "No.", "Vol.", "pp.", "p.", "e.g.",
    "i.e.", "cf.", "Inc.", "Ltd.", "Co."]

def isTerminator (c : Char) : Bool := c == '.' || c == '!' || c == '?'

def isCloser (c : Char) : Bool :=
  c == '"' || c == '\x27' || c == ')' || c == ']' || c == '“' || c == '”' || c == '‘' || c == '’'

/-- A byte that is a white space character when it is read as one. -/
def isSpaceByte (c : Char) : Bool := decide (c.toNat < 128) && Text.isWhitespace c

/-- The letters and the case of characters, as the Unicode tables have them. -/
structure Letters where
  isAlphanumeric : Char → Bool
  isUppercase : Char → Bool

section Segmenting

variable (letters : Letters)

/-- An abbreviation ends the text, and does not merely end a longer word. -/
def endsWithAbbreviation (head : Text) : Bool :=
  abbreviations.any fun abbreviation =>
    abbreviation.toList.isSuffixOf head &&
      ((head.take (head.length - abbreviation.length)).getLast?).all fun previous =>
        !letters.isAlphanumeric previous

/-- Whether a terminator ends a sentence, between the text before it and the text after its
closers. -/
def isBoundary (head : Text) (dot : Char) (after : Text) : Bool :=
  if dot == '.' && head.getLast?.any Char.isDigit && after.head?.any Char.isDigit then false
  else if dot == '.' && endsWithAbbreviation letters (head ++ [dot]) then false
  else if dot == '.' && head.getLast?.any letters.isUppercase &&
      after.head?.any letters.isUppercase then false
  else
    match after.dropWhile isSpaceByte with
    | [] => true
    | next :: _ =>
        letters.isUppercase next || next.isDigit || next == '"' || next == '\x27' || next == '('

/-- The sentence of a piece that ends the text read so far, if it is not blank. -/
def sentenceOf (head piece : Text) : List Sentence :=
  let trimmed := Text.trim piece
  if trimmed = [] then []
  else
    let start := Bytes.size head - Bytes.size (Text.trimStart piece)
    [⟨trimmed, start, start + Bytes.size trimmed⟩]

/-- The loop: the closers still to skip, the text read so far, the piece under way at its
end, and the rest. -/
def segmentFrom : Nat → Text → Text → Text → List Sentence
  | _, head, piece, [] => sentenceOf head piece
  | skip + 1, head, piece, _ :: rest => segmentFrom skip head piece rest
  | 0, head, piece, c :: rest =>
      if isTerminator c then
        let closers := rest.takeWhile isCloser
        let head' := head ++ c :: closers
        let slice := piece ++ c :: closers
        if isBoundary letters head c (rest.dropWhile isCloser) then
          sentenceOf head' slice ++ segmentFrom closers.length head' [] rest
        else segmentFrom closers.length head' slice rest
      else segmentFrom 0 (head ++ [c]) (piece ++ [c]) rest

def segmentSentences (text : Text) : List Sentence := segmentFrom letters 0 [] [] text

variable {letters}

theorem sentenceOf_eq_nil {head piece : Text} :
    sentenceOf head piece = [] ↔ Text.trim piece = [] := by
  unfold sentenceOf
  dsimp only
  split
  · rename_i blank
    exact iff_of_true rfl blank
  · rename_i solid
    exact iff_of_false (List.cons_ne_nil _ _) solid

theorem text_of_mem_sentenceOf {head piece : Text} {sentence : Sentence}
    (member : sentence ∈ sentenceOf head piece) : sentence.text ≠ [] := by
  unfold sentenceOf at member
  dsimp only at member
  split at member
  · cases member
  · rename_i solid
    rw [List.mem_singleton.mp member]
    exact solid

theorem not_blank_of_terminator {c : Char} (ends : isTerminator c = true) :
    Text.isWhitespace c = false := by
  unfold isTerminator at ends
  simp only [Bool.or_eq_true, beq_iff_eq] at ends
  rcases ends with (rfl | rfl) | rfl <;> rfl

/-- A text has no sentence exactly when it is blank. -/
theorem segmentFrom_eq_nil {rest : Text} : ∀ {skip : Nat} {head piece : Text},
    segmentFrom letters skip head piece rest = [] ↔
      ∀ c ∈ piece ++ rest.drop skip, Text.isWhitespace c = true := by
  induction rest with
  | nil =>
      intro skip head piece
      rw [segmentFrom, sentenceOf_eq_nil, Text.trim_eq_nil_iff, List.drop_nil, List.append_nil]
  | cons d rest ih =>
      intro skip head piece
      cases skip with
      | succ skip =>
          rw [segmentFrom, ih, List.drop_succ_cons]
      | zero =>
          rw [segmentFrom, List.drop_zero]
          split
          · rename_i ends
            have solid := not_blank_of_terminator ends
            dsimp only
            split
            · rw [List.append_eq_nil_iff, sentenceOf_eq_nil, Text.trim_eq_nil_iff]
              refine iff_of_false ?_ ?_
              · intro blank
                exact absurd (blank.1 d (by simp)) (by simp [solid])
              · intro blank
                exact absurd (blank d (by simp)) (by simp [solid])
            · rw [ih]
              refine iff_of_false ?_ ?_
              · intro blank
                exact absurd (blank d (by simp)) (by simp [solid])
              · intro blank
                exact absurd (blank d (by simp)) (by simp [solid])
          · rw [ih, List.drop_zero, List.append_assoc]
            rfl

theorem text_of_mem_segmentFrom {rest : Text} : ∀ {skip : Nat} {head piece : Text}
    {sentence : Sentence}, sentence ∈ segmentFrom letters skip head piece rest →
      sentence.text ≠ [] := by
  induction rest with
  | nil =>
      intro skip head piece sentence member
      exact text_of_mem_sentenceOf member
  | cons d rest ih =>
      intro skip head piece sentence member
      cases skip with
      | succ skip => exact ih member
      | zero =>
          rw [segmentFrom] at member
          split at member
          · dsimp only at member
            split at member
            · rcases List.mem_append.mp member with here | later
              · exact text_of_mem_sentenceOf here
              · exact ih later
            · exact ih member
          · exact ih member

theorem segmentSentences_eq_nil {text : Text} :
    segmentSentences letters text = [] ↔ Text.trim text = [] := by
  rw [segmentSentences, segmentFrom_eq_nil, Text.trim_eq_nil_iff, List.drop_zero, List.nil_append]

end Segmenting

end SP42.Citation

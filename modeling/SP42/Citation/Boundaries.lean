import Mathlib
import SP42.Citation.Sentences

/-!
Where the segmentation cuts a text. A terminator that belongs to a number or an abbreviation never
ends a sentence; any other one does if a sentence can begin behind it, whether or not white space
stands between them.
-/
namespace SP42.Citation

open Bytes (size)

section Terminators

/-- A terminator of the text with all its closers, and what is before and behind them. -/
structure TerminatorAt (text head : Text) (dot : Char) (closers after : Text) : Prop where
  whole : text = head ++ dot :: (closers ++ after)
  ends : isTerminator dot = true
  closers : ∀ c ∈ closers, isCloser c = true
  last : ∀ c ∈ after.head?, isCloser c = false

/-- The dot of a decimal, an abbreviation or an initialism. -/
def excused (letters : Letters) (head : Text) (dot : Char) (after : Text) : Bool :=
  dot == '.' && (head.getLast?.any Char.isDigit && after.head?.any Char.isDigit ||
    endsWithAbbreviation letters (head ++ [dot]) ||
    head.getLast?.any letters.isUppercase && after.head?.any letters.isUppercase)

/-- What the first solid character behind a terminator is asked for. -/
def mayFollow (letters : Letters) (c : Char) : Bool :=
  letters.isUppercase c || c.isDigit || c == '"' || c == '\x27' || c == '('

variable {letters : Letters} {text head closers after : Text} {dot : Char}

theorem guarded (isDot before behind abbreviated capital next follows : Bool) :
    (if isDot && before && behind then false
      else if isDot && abbreviated then false
      else if isDot && capital && next then false
      else follows) =
      (!(isDot && (before && behind || abbreviated || capital && next)) && follows) := by
  cases isDot <;> cases before <;> cases behind <;> cases abbreviated <;> cases capital <;>
    cases next <;> rfl

theorem isBoundary_eq (letters : Letters) (head : Text) (dot : Char) (after : Text) :
    isBoundary letters head dot after =
      (!excused letters head dot after &&
        (after.dropWhile isSpaceByte).head?.all (mayFollow letters)) := by
  unfold isBoundary excused
  rw [← guarded]
  cases after.dropWhile isSpaceByte <;> rfl

theorem solid_closer {c : Char} (closes : isCloser c = true) : Text.isWhitespace c = false := by
  unfold isCloser at closes
  simp only [Bool.or_eq_true, beq_iff_eq] at closes
  rcases closes with ((((((rfl | rfl) | rfl) | rfl) | rfl) | rfl) | rfl) | rfl <;> rfl

theorem not_closer_of_terminator {c : Char} (ends : isTerminator c = true) :
    isCloser c = false := by
  unfold isTerminator at ends
  simp only [Bool.or_eq_true, beq_iff_eq] at ends
  rcases ends with (rfl | rfl) | rfl <;> rfl

end Terminators

section Stops

variable {letters : Letters}

theorem trim_of_last {piece : Text} {last : Char} (solid : Text.isWhitespace last = false) :
    Text.trim (piece ++ [last]) = Text.trimStart (piece ++ [last]) ∧
      Text.trim (piece ++ [last]) ≠ [] := by
  have inhabited : Text.trim (piece ++ [last]) ≠ [] := by
    intro blank
    have white := Text.trim_eq_nil_iff.mp blank last (by simp)
    rw [solid] at white
    cases white
  refine ⟨?_, inhabited⟩
  have split : (piece ++ [last]).takeWhile Text.isWhitespace ++ Text.trimStart (piece ++ [last]) =
    piece ++ [last] := List.takeWhile_append_dropWhile
  obtain empty | ⟨init, final, ends⟩ := List.eq_nil_or_concat' (Text.trimStart (piece ++ [last]))
  · rw [Text.trim, empty]
    rfl
  · rw [ends, ← List.append_assoc] at split
    have same := (List.append_inj' split rfl).2
    obtain rfl := List.singleton_inj.mp same
    rw [Text.trim, Text.trimEnd, ends]
    exact List.rdropWhile_concat_neg _ _ _ (by rw [solid]; exact Bool.false_ne_true)

/-- A piece with a solid end gives one sentence, which ends with it. -/
theorem sentenceOf_stop {before piece : Text} {last : Char}
    (solid : Text.isWhitespace last = false) : ∃ sentence,
      sentenceOf (before ++ (piece ++ [last])) (piece ++ [last]) = [sentence] ∧
        sentence.stop = size (before ++ (piece ++ [last])) := by
  obtain ⟨whole, inhabited⟩ := @trim_of_last piece last solid
  have split : (piece ++ [last]).takeWhile Text.isWhitespace ++ Text.trimStart (piece ++ [last]) =
    piece ++ [last] := List.takeWhile_append_dropWhile
  have sum := congrArg size split
  rw [Bytes.size_append] at sum
  rw [← sentenceAt_eq]
  unfold sentenceAt
  dsimp only
  rw [if_neg inhabited]
  refine ⟨_, rfl, ?_⟩
  dsimp only
  rw [whole, leadingWs, Bytes.size_append before]
  omega

/-- A terminator in the text, with the closers that the loop reads. -/
theorem terminatorAt {head rest : Text} {c : Char} (ends : isTerminator c = true) :
    TerminatorAt (head ++ c :: rest) head c (rest.takeWhile isCloser)
      (rest.dropWhile isCloser) := by
  refine ⟨by rw [List.takeWhile_append_dropWhile], ends, fun d mem => List.mem_takeWhile_imp mem,
    fun d mem => ?_⟩
  have first := List.head?_dropWhile_not isCloser rest
  rw [Option.mem_def.mp mem] at first
  simpa using first

theorem last_of_slice {c : Char} {closers : Text} (ends : isTerminator c = true)
    (closing : ∀ d ∈ closers, isCloser d = true) :
    ∃ front last, c :: closers = front ++ [last] ∧ Text.isWhitespace last = false := by
  obtain ⟨front, last, split⟩ := (List.eq_nil_or_concat' (c :: closers)).resolve_left
    (List.cons_ne_nil _ _)
  refine ⟨front, last, split, ?_⟩
  have mem : last ∈ c :: closers := split ▸ List.mem_append_right _ List.mem_cons_self
  rcases List.mem_cons.mp mem with rfl | closer
  · exact not_blank_of_terminator ends
  · exact solid_closer (closing last closer)

/-- The sentence before a boundary ends there. -/
theorem stop_at_boundary {before piece closers : Text} {c : Char} (ends : isTerminator c = true)
    (closing : ∀ d ∈ closers, isCloser d = true) : ∃ sentence,
      sentenceOf (before ++ piece ++ c :: closers) (piece ++ c :: closers) = [sentence] ∧
        sentence.stop = size (before ++ piece ++ c :: closers) := by
  obtain ⟨front, last, split, solid⟩ := last_of_slice ends closing
  rw [split, List.append_assoc before, ← List.append_assoc piece]
  exact sentenceOf_stop solid

/-- What is left of a text behind its sentence is white space. -/
theorem stop_of_last {before piece : Text} {sentence : Sentence}
    (mem : sentence ∈ sentenceOf (before ++ piece) piece) :
    ∃ front behind, before ++ piece = front ++ behind ∧ sentence.stop = size front ∧
      Blank behind := by
  rw [← sentenceAt_eq] at mem
  unfold sentenceAt at mem
  dsimp only at mem
  split at mem
  · cases mem
  · obtain rfl := List.mem_singleton.mp mem
    have front : piece.takeWhile Text.isWhitespace ++ Text.trimStart piece = piece :=
      List.takeWhile_append_dropWhile
    have back : Text.trim piece ++ (Text.trimStart piece).rtakeWhile Text.isWhitespace =
      Text.trimStart piece := List.rdropWhile_append_rtakeWhile
    have sum := congrArg size front
    rw [Bytes.size_append] at sum
    refine ⟨before ++ (piece.takeWhile Text.isWhitespace ++ Text.trim piece),
      (Text.trimStart piece).rtakeWhile Text.isWhitespace, ?_, ?_,
      fun c mem => List.mem_rtakeWhile_imp mem⟩
    · rw [List.append_assoc, List.append_assoc, back, front]
    · dsimp only
      rw [leadingWs, Bytes.size_append, Bytes.size_append]
      omega

/-- The sentences end at boundaries, and the last one may end the text. -/
theorem stop_of_mem (n : Nat) : ∀ {before piece rest : Text} {sentence : Sentence},
    rest.length ≤ n → sentence ∈ segmentFrom letters 0 (before ++ piece) piece rest →
    (∃ head dot closers after,
      TerminatorAt (before ++ piece ++ rest) head dot closers after ∧
        isBoundary letters head dot after = true ∧
        sentence.stop = size (head ++ dot :: closers)) ∨
      ∃ front behind, before ++ piece ++ rest = front ++ behind ∧ sentence.stop = size front ∧
        Blank behind := by
  have last {before piece : Text} {sentence : Sentence}
      (mem : sentence ∈ segmentFrom letters 0 (before ++ piece) piece []) :
      ∃ front behind, before ++ piece ++ [] = front ++ behind ∧ sentence.stop = size front ∧
        Blank behind := by
    rw [List.append_nil]
    exact stop_of_last mem
  induction n with
  | zero =>
      intro before piece rest sentence short mem
      obtain rfl := List.length_eq_zero_iff.mp (Nat.le_zero.mp short)
      exact Or.inr (last mem)
  | succ n ih =>
      intro before piece rest sentence short mem
      cases rest with
      | nil => exact Or.inr (last mem)
      | cons c rest =>
          rw [List.length_cons] at short
          rw [segmentFrom] at mem
          cases ends : isTerminator c with
          | false =>
              rw [ends, if_neg Bool.false_ne_true, List.append_assoc before] at mem
              have next := ih (by omega) mem
              rwa [← List.append_assoc before, List.append_assoc (before ++ piece)] at next
          | true =>
              have here := @terminatorAt (before ++ piece) rest c ends
              have split : rest.takeWhile isCloser ++ rest.dropWhile isCloser = rest :=
                List.takeWhile_append_dropWhile
              have fewer := congrArg List.length split
              rw [List.length_append] at fewer
              rw [ends, if_pos rfl] at mem
              dsimp only at mem
              rw [skip_closers, skip_closers] at mem
              generalize rest.takeWhile isCloser = closers at *
              generalize rest.dropWhile isCloser = after at *
              subst split
              have whole : before ++ piece ++ c :: (closers ++ after) =
                before ++ piece ++ c :: closers ++ after := by simp
              rw [whole] at here ⊢
              cases boundary : isBoundary letters (before ++ piece) c after with
              | true =>
                  rw [boundary, if_pos rfl] at mem
                  rcases List.mem_append.mp mem with ended | later
                  · obtain ⟨other, only, stop⟩ := @stop_at_boundary before piece closers c ends
                      here.closers
                    rw [only] at ended
                    obtain rfl := List.mem_singleton.mp ended
                    exact Or.inl ⟨_, c, closers, after, here, boundary, stop⟩
                  · rw [← List.append_nil (before ++ piece ++ c :: closers)] at later
                    have next := ih (by omega) later
                    rwa [List.append_nil] at next
              | false =>
                  rw [boundary, if_neg Bool.false_ne_true, List.append_assoc before] at mem
                  have next := ih (by omega) mem
                  rwa [← List.append_assoc before] at next

theorem closers_split {closers after : Text} (closing : ∀ d ∈ closers, isCloser d = true)
    (last : ∀ c ∈ after.head?, isCloser c = false) :
    (closers ++ after).takeWhile isCloser = closers ∧
      (closers ++ after).dropWhile isCloser = after := by
  have none : after.takeWhile isCloser = [] ∧ after.dropWhile isCloser = after := by
    cases after with
    | nil => exact ⟨rfl, rfl⟩
    | cons c rest =>
        have open' := last c rfl
        rw [List.takeWhile_cons, List.dropWhile_cons, open']
        exact ⟨rfl, rfl⟩
  rw [List.takeWhile_append_of_pos closing, List.dropWhile_append_of_pos closing, none.1, none.2]
  exact ⟨List.append_nil _, rfl⟩

/-- The closers behind a terminator end before the next one. -/
theorem closers_before {dot : Char} (solid : isCloser dot = false) (head tail : Text) :
    ∃ more, head = (head ++ dot :: tail).takeWhile isCloser ++ more ∧
      (head ++ dot :: tail).dropWhile isCloser = more ++ dot :: tail := by
  induction head with
  | nil =>
      refine ⟨[], ?_⟩
      rw [List.nil_append, List.takeWhile_cons, List.dropWhile_cons, solid]
      exact ⟨rfl, rfl⟩
  | cons c head ih =>
      obtain ⟨more, split, rest⟩ := ih
      rw [List.cons_append, List.takeWhile_cons, List.dropWhile_cons]
      cases isCloser c with
      | true =>
          refine ⟨more, ?_, rest⟩
          rw [if_pos rfl, List.cons_append, ← split]
      | false => exact ⟨c :: head, rfl, rfl⟩

/-- Every boundary ends a sentence. -/
theorem mem_of_boundary (n : Nat) : ∀ {before piece rest head closers after : Text} {dot : Char},
    rest.length ≤ n → TerminatorAt rest head dot closers after →
    isBoundary letters (before ++ piece ++ head) dot after = true →
    ∃ sentence ∈ segmentFrom letters 0 (before ++ piece) piece rest,
      sentence.stop = size (before ++ piece ++ head ++ dot :: closers) := by
  induction n with
  | zero =>
      intro before piece rest head closers after dot short found
      have empty := List.length_eq_zero_iff.mp (Nat.le_zero.mp short)
      rw [found.whole] at empty
      simp at empty
  | succ n ih =>
      intro before piece rest head closers after dot short found boundary
      obtain ⟨rfl, ends, closing, last⟩ := found
      cases head with
      | nil =>
          obtain ⟨taken, dropped⟩ := closers_split closing last
          rw [List.append_nil] at boundary
          rw [List.nil_append, segmentFrom, if_pos ends]
          dsimp only
          rw [taken, dropped, boundary, if_pos rfl, List.append_nil]
          obtain ⟨sentence, only, stop⟩ := @stop_at_boundary before piece closers dot ends closing
          exact ⟨sentence, List.mem_append_left _ (only ▸ List.mem_cons_self), stop⟩
      | cons c head =>
          rw [List.cons_append, List.length_cons] at short
          rw [List.cons_append, segmentFrom]
          cases early : isTerminator c with
          | false =>
              rw [if_neg Bool.false_ne_true]
              have next := @ih before (piece ++ [c]) _ head closers after dot (by omega)
                ⟨rfl, ends, closing, last⟩
              simp only [List.append_assoc, List.cons_append, List.nil_append] at next boundary ⊢
              exact next boundary
          | true =>
              obtain ⟨more, split, rest⟩ := closers_before (not_closer_of_terminator ends) head
                (closers ++ after)
              rw [if_pos rfl]
              dsimp only
              rw [skip_closers, skip_closers, rest]
              generalize (head ++ dot :: (closers ++ after)).takeWhile isCloser = skipped at *
              subst split
              have fewer : (more ++ dot :: (closers ++ after)).length ≤ n := by
                simp only [List.length_append] at short ⊢
                omega
              split
              · obtain ⟨sentence, mem, stop⟩ := @ih (before ++ piece ++ c :: skipped) [] _ more
                  closers after dot fewer ⟨rfl, ends, closing, last⟩ (by simpa using boundary)
                refine ⟨sentence, List.mem_append_right _ ?_, ?_⟩
                · rwa [List.append_nil] at mem
                · rw [stop]
                  simp
              · have next := @ih before (piece ++ c :: skipped) _ more closers after dot fewer
                  ⟨rfl, ends, closing, last⟩
                simp only [List.append_assoc, List.cons_append] at next boundary ⊢
                exact next boundary

end Stops

section Cuts

/-- What the tables of Unicode say: no capital is white space, a quotation mark or a bracket. -/
structure Letters.Lawful (letters : Letters) : Prop where
  solid : ∀ c, letters.isUppercase c = true → Text.isWhitespace c = false
  closers : ∀ c, isCloser c = true → letters.isUppercase c = false

def openingQuote (c : Char) : Bool := c == '"' || c == '\x27' || c == '“' || c == '‘'

/-- A sentence can begin with the character. -/
def begins (letters : Letters) (c : Char) : Bool :=
  letters.isUppercase c || c.isDigit || openingQuote c

/-- Every boundary is followed by white space, and every terminator is one behind which white space
and the begin of a sentence stand. -/
structure CutsBetweenTokens (letters : Letters) (text : Text) : Prop where
  apart : ∀ sentence ∈ segmentSentences letters text, ∀ before c after,
    text = before ++ c :: after → size before = sentence.stop → Text.isWhitespace c = true
  complete : ∀ head dot closers after, TerminatorAt text head dot closers after →
    excused letters head dot after = false → ∀ spaces next rest, after = spaces ++ next :: rest →
    spaces ≠ [] → Blank spaces → begins letters next = true →
    ∃ sentence ∈ segmentSentences letters text, sentence.stop = size (head ++ dot :: closers)

/-- No terminator is directly followed by what may follow white space; and the white space before
the begin of a sentence is ASCII, as its quotation mark is. -/
structure WellSpaced (letters : Letters) (text : Text) : Prop where
  spaced : ∀ head dot closers after, TerminatorAt text head dot closers after →
    excused letters head dot after = false → ∀ c ∈ after.head?,
    letters.isUppercase c = false ∧ c.isDigit = false ∧ c ≠ '('
  ascii : ∀ head dot closers after, TerminatorAt text head dot closers after →
    excused letters head dot after = false → ∀ spaces next rest, after = spaces ++ next :: rest →
    spaces ≠ [] → Blank spaces → begins letters next = true →
    (∀ c ∈ spaces, c.toNat < 128) ∧ next ≠ '“' ∧ next ≠ '‘'

variable {letters : Letters} {text head closers after : Text} {dot : Char}

/-- The text is cut at most once before the closers that end at a position. -/
theorem terminator_unique {head' closers' after' : Text} {dot' : Char}
    (one : TerminatorAt text head dot closers after)
    (other : TerminatorAt text head' dot' closers' after')
    (place : size (head ++ dot :: closers) = size (head' ++ dot' :: closers')) :
    head = head' ∧ dot = dot' ∧ closers = closers' ∧ after = after' := by
  have whole : (head ++ dot :: closers) ++ after = (head' ++ dot' :: closers') ++ after' := by
    have first := one.whole.symm.trans other.whole
    simpa using first
  obtain ⟨front, back⟩ := Bytes.cut_unique whole place
  have clash {d : Char} {more less : Text} (ends : isTerminator d = true)
      (closing : ∀ c ∈ more ++ d :: less, isCloser c = true) : False := by
    have closes := closing d (List.mem_append_right _ List.mem_cons_self)
    rw [not_closer_of_terminator ends] at closes
    cases closes
  rcases before_or_behind front with ⟨more, rfl⟩ | ⟨more, rfl, rest⟩
  · have rest : more ++ dot :: closers = closers' := by simpa using front
    exact (clash one.ends (rest ▸ other.closers)).elim
  · cases more with
    | nil =>
        obtain ⟨rfl, rfl⟩ := List.cons.inj rest
        exact ⟨(List.append_nil head).symm, rfl, rfl, back⟩
    | cons d more =>
        obtain ⟨-, same⟩ := List.cons.inj rest
        exact (clash other.ends (same ▸ one.closers)).elim

theorem solid_of_begins (lawful : letters.Lawful) {c : Char} (first : begins letters c = true) :
    Text.isWhitespace c = false := by
  unfold begins openingQuote at first
  simp only [Bool.or_eq_true, beq_iff_eq] at first
  rcases first with (capital | digit) | ((rfl | rfl) | rfl) | rfl
  · exact lawful.solid c capital
  · exact Text.isWhitespace_of_isDigit digit
  all_goals rfl

theorem solid_of_mayFollow (lawful : letters.Lawful) {c : Char}
    (follows : mayFollow letters c = true) : Text.isWhitespace c = false := by
  unfold mayFollow at follows
  simp only [Bool.or_eq_true, beq_iff_eq] at follows
  rcases follows with (((capital | digit) | rfl) | rfl) | rfl
  · exact lawful.solid c capital
  · exact Text.isWhitespace_of_isDigit digit
  all_goals rfl

theorem not_space_of_solid {c : Char} (solid : Text.isWhitespace c = false) :
    isSpaceByte c = false := by
  rw [isSpaceByte, solid, Bool.and_false]

/-- The scan over the bytes passes white space of ASCII. -/
theorem dropWhile_ascii {spaces rest : Text} {next : Char} (blank : Blank spaces)
    (ascii : ∀ c ∈ spaces, c.toNat < 128) (solid : Text.isWhitespace next = false) :
    (spaces ++ next :: rest).dropWhile isSpaceByte = next :: rest := by
  have passed : ∀ c ∈ spaces, isSpaceByte c = true := fun c mem => by
    rw [isSpaceByte, decide_eq_true (ascii c mem), blank c mem]
    rfl
  rw [List.dropWhile_append_of_pos passed, List.dropWhile_cons, not_space_of_solid solid]
  rfl

/-- The scan stops at other white space. -/
theorem dropWhile_wide {spaces rest : Text} (blank : Blank spaces)
    (wide : ¬ ∀ c ∈ spaces, c.toNat < 128) :
    ∃ c, ((spaces ++ rest).dropWhile isSpaceByte).head? = some c ∧
      Text.isWhitespace c = true := by
  induction spaces with
  | nil => exact absurd (fun c mem => absurd mem List.not_mem_nil) wide
  | cons c spaces ih =>
      rw [List.cons_append, List.dropWhile_cons]
      by_cases ascii : c.toNat < 128
      · have passed : isSpaceByte c = true := by
          rw [isSpaceByte, decide_eq_true ascii, blank c List.mem_cons_self]
          rfl
        rw [passed, if_pos rfl]
        refine ih (fun d mem => blank d (List.mem_cons_of_mem _ mem)) fun all => wide ?_
        exact List.forall_mem_cons.mpr ⟨ascii, all⟩
      · have stops : isSpaceByte c = false := by
          rw [isSpaceByte, decide_eq_false ascii, Bool.false_and]
        rw [stops]
        exact ⟨c, rfl, blank c List.mem_cons_self⟩

theorem boundary_of_follow (free : excused letters head dot after = false)
    {next : Char} {rest : Text} (behind : after.dropWhile isSpaceByte = next :: rest)
    (follows : mayFollow letters next = true) : isBoundary letters head dot after = true := by
  rw [isBoundary_eq, free, behind]
  exact follows

/-- The boundaries of a text and the ends of its sentences. -/
theorem stop_of_boundary (found : TerminatorAt text head dot closers after)
    (boundary : isBoundary letters head dot after = true) :
    ∃ sentence ∈ segmentSentences letters text, sentence.stop = size (head ++ dot :: closers) :=
  @mem_of_boundary letters text.length [] [] text head closers after dot (Nat.le_refl _) found
    boundary

theorem CutsBetweenTokens.wellSpaced (lawful : letters.Lawful)
    (cuts : CutsBetweenTokens letters text) : WellSpaced letters text where
  spaced := by
    intro head dot closers after found free c first
    obtain ⟨rest, rfl⟩ : ∃ rest, after = c :: rest := List.head?_eq_some_iff.mp first
    by_contra other
    have follows : mayFollow letters c = true := by
      simp only [mayFollow, Bool.or_eq_true, beq_iff_eq]
      by_contra none
      simp only [not_or, Bool.not_eq_true] at none
      exact other ⟨none.1.1.1.1, none.1.1.1.2, none.2⟩
    have solid := solid_of_mayFollow lawful follows
    have behind : (c :: rest).dropWhile isSpaceByte = c :: rest := by
      rw [List.dropWhile_cons, not_space_of_solid solid]
      rfl
    obtain ⟨sentence, mem, stop⟩ :=
      stop_of_boundary found (boundary_of_follow free behind follows)
    have white := cuts.apart sentence mem (head ++ dot :: closers) c rest
      (by rw [found.whole]; simp) stop.symm
    rw [solid] at white
    cases white
  ascii := by
    intro head dot closers after found free spaces next rest whole inhabited blank first
    subst whole
    obtain ⟨sentence, mem, stop⟩ :=
      cuts.complete head dot closers _ found free spaces next rest rfl inhabited blank first
    have solid := solid_of_begins lawful first
    have split : text = (head ++ dot :: closers) ++ (spaces ++ next :: rest) := by
      rw [found.whole]
      simp
    rcases @stop_of_mem letters text.length [] [] text sentence (Nat.le_refl _) mem with
      ⟨head', dot', closers', after', other, boundary, stop'⟩ | ⟨front, behind, whole, stop', white⟩
    · obtain ⟨rfl, rfl, rfl, rfl⟩ := terminator_unique found other (stop.symm.trans stop')
      rw [isBoundary_eq, free] at boundary
      have ascii : ∀ c ∈ spaces, c.toNat < 128 := by
        by_contra wide
        obtain ⟨c, head, white⟩ := @dropWhile_wide spaces (next :: rest) blank wide
        rw [head] at boundary
        have solid' := solid_of_mayFollow lawful boundary
        rw [white] at solid'
        cases solid'
      rw [dropWhile_ascii blank ascii solid] at boundary
      have follows : mayFollow letters next = true := boundary
      refine ⟨ascii, ?_, ?_⟩
      · rintro rfl
        rw [mayFollow, lawful.closers '“' rfl] at follows
        exact absurd follows (by decide)
      · rintro rfl
        rw [mayFollow, lawful.closers '‘' rfl] at follows
        exact absurd follows (by decide)
    · obtain ⟨-, rfl⟩ := Bytes.cut_unique (split.symm.trans whole) (stop.symm.trans stop')
      have blank' := white next (List.mem_append_right _ List.mem_cons_self)
      rw [solid] at blank'
      cases blank'

theorem WellSpaced.cutsBetweenTokens (lawful : letters.Lawful)
    (spaced : WellSpaced letters text) : CutsBetweenTokens letters text where
  apart := by
    intro sentence mem before c after whole place
    rcases @stop_of_mem letters text.length [] [] text sentence (Nat.le_refl _) mem with
      ⟨head, dot, closers, rest, found, boundary, stop⟩ | ⟨front, behind, split, stop, white⟩
    · by_contra solid
      have solid := eq_false_of_ne_true solid
      have split : text = (head ++ dot :: closers) ++ rest := found.whole.trans (by simp)
      obtain ⟨-, rfl⟩ := Bytes.cut_unique (whole.symm.trans split) (place.trans stop)
      rw [isBoundary_eq, Bool.and_eq_true, Bool.not_eq_true', List.dropWhile_cons,
        not_space_of_solid solid] at boundary
      obtain ⟨free, follows⟩ := boundary
      obtain ⟨capital, digit, bracket⟩ := spaced.spaced head dot closers _ found free c rfl
      have follows : mayFollow letters c = true := follows
      unfold mayFollow at follows
      rw [capital, digit] at follows
      simp only [Bool.or_eq_true, Bool.false_eq_true, beq_iff_eq, false_or] at follows
      have closing := found.last c rfl
      rcases follows with (rfl | rfl) | rfl
      · cases closing
      · cases closing
      · exact bracket rfl
    · obtain ⟨-, rfl⟩ := Bytes.cut_unique (whole.symm.trans split) (place.trans stop)
      exact white c List.mem_cons_self
  complete := by
    intro head dot closers after found free spaces next rest whole inhabited blank first
    subst whole
    obtain ⟨ascii, double, single⟩ :=
      spaced.ascii head dot closers _ found free spaces next rest rfl inhabited blank first
    have behind := @dropWhile_ascii spaces rest next blank ascii (solid_of_begins lawful first)
    refine stop_of_boundary found (boundary_of_follow free behind ?_)
    unfold begins openingQuote at first
    simp only [Bool.or_eq_true, beq_iff_eq] at first
    simp only [mayFollow, Bool.or_eq_true, beq_iff_eq]
    rcases first with (capital | digit) | ((straight | straight) | curly) | curly
    · exact Or.inl (Or.inl (Or.inl (Or.inl capital)))
    · exact Or.inl (Or.inl (Or.inl (Or.inr digit)))
    · exact Or.inl (Or.inl (Or.inr straight))
    · exact Or.inl (Or.inr straight)
    · exact absurd curly double
    · exact absurd curly single

/-- The text is cut between its tokens exactly where it is well spaced. -/
theorem cutsBetweenTokens_iff (lawful : letters.Lawful) (text : Text) :
    CutsBetweenTokens letters text ↔ WellSpaced letters text :=
  ⟨fun cuts => cuts.wellSpaced lawful, fun spaced => spaced.cutsBetweenTokens lawful⟩

end Cuts

/-- The letters of ASCII. -/
def plainLetters : Letters := ⟨Char.isAlphanum, Char.isUpper⟩

theorem plainLetters_lawful : plainLetters.Lawful := by
  refine ⟨fun c capital => ?_, fun c closes => ?_⟩
  · have range : 65 ≤ c.toNat ∧ c.toNat ≤ 90 := by
      simp only [plainLetters, Char.isUpper, Bool.and_eq_true, decide_eq_true_eq,
        UInt32.le_iff_toNat_le] at capital
      exact capital
    simp only [Text.isWhitespace, Bool.or_eq_false_iff, Bool.and_eq_false_iff,
      decide_eq_false_iff_not, beq_eq_false_iff_ne]
    omega
  · unfold isCloser at closes
    simp only [Bool.or_eq_true, beq_iff_eq] at closes
    rcases closes with ((((((rfl | rfl) | rfl) | rfl) | rfl) | rfl) | rfl) | rfl <;> rfl

theorem cutsBetweenTokens_iff_plain :
    CutsBetweenTokens plainLetters "The war ended. It was 1945.".toList ↔
      WellSpaced plainLetters "The war ended. It was 1945.".toList :=
  cutsBetweenTokens_iff plainLetters_lawful _

def scriptName : Text := "Built with Node.Js today.".toList

def spacedName : Text := "The war ended.".toList ++ '\u00a0' :: "It was 1945.".toList

/-- A name is cut at its dot, and a no-break space keeps two sentences together. -/
theorem cut_inside_name :
    ¬ CutsBetweenTokens plainLetters scriptName ∧ ¬ CutsBetweenTokens plainLetters spacedName := by
  constructor
  · intro cuts
    have first : ⟨"Built with Node.".toList, 0, 16⟩ ∈ segmentSentences plainLetters scriptName := by
      decide +kernel
    have white := cuts.apart _ first "Built with Node.".toList 'J' "s today.".toList
      (by decide +kernel) (by decide +kernel)
    exact absurd white (by decide)
  · intro cuts
    have one : segmentSentences plainLetters spacedName =
      [⟨spacedName, 0, Bytes.size spacedName⟩] := by decide +kernel
    obtain ⟨sentence, mem, stop⟩ := cuts.complete "The war ended".toList '.' []
      ('\u00a0' :: "It was 1945.".toList)
      ⟨by decide +kernel, rfl, fun _ mem => absurd mem List.not_mem_nil, fun c first => by
        obtain rfl := Option.some.inj first
        rfl⟩ (by decide +kernel) ['\u00a0'] 'I' "t was 1945.".toList rfl (List.cons_ne_nil _ _)
      (fun c mem => by rw [List.mem_singleton.mp mem]; rfl) rfl
    rw [one] at mem
    obtain rfl := List.mem_singleton.mp mem
    exact absurd stop (by decide +kernel)

end SP42.Citation

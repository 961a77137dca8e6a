import SP42.Base.Text
import SP42.Lib.Bytes
import SP42.Lib.Nesting

/-!
The preview of rendered markup: cleaned by the sanitizer and cut to a number of bytes. The cut is
rolled back out of a tag by looking for the last angle bracket, and knows nothing of open elements
and character references.
-/
namespace SP42.Fetch

open Nesting

section Cutting

/-- `str::is_char_boundary`. -/
def isCharBoundary (text : Text) (index : Nat) : Bool := (Bytes.splitAt index text).isSome

def floorToCharBoundary (text : Text) : Nat → Nat
  | 0 => 0
  | index + 1 =>
      if isCharBoundary text (index + 1) then index + 1 else floorToCharBoundary text index

/-- `&text[..stop]`. -/
def sliceTo (text : Text) (stop : Nat) : Option Text := (Bytes.splitAt stop text).map Prod.fst

/-- `str::rfind` of an opening angle bracket. -/
def rfindOpen (text : Text) : Option Nat :=
  match text.rdropWhile (· != '<') with
  | [] => none
  | front => some (Bytes.size front.dropLast)

def truncateToTagBoundary (cleaned : Text) (maxBytes : Nat) : Option Text :=
  let cut := floorToCharBoundary cleaned (min maxBytes (Bytes.size cleaned))
  (sliceTo cleaned cut).bind fun head =>
    match rfindOpen head with
    | none => sliceTo cleaned cut
    | some bracket =>
        (Bytes.sliceFrom head bracket).bind fun tail =>
          if tail.contains '>' then sliceTo cleaned cut
          else sliceTo cleaned (floorToCharBoundary cleaned bracket)

/-- `none` is a panic. -/
def sanitizeWithLimits (clean : Text → Text) (input : Text) (maxBytes : Nat) : Option Text :=
  let cleaned := clean input
  if Bytes.size cleaned ≤ maxBytes then some cleaned else truncateToTagBoundary cleaned maxBytes

end Cutting

section Head

/-- The longest beginning of a text that fits. -/
def fitting : Nat → Text → Text
  | _, [] => []
  | room, c :: rest => if c.utf8Size ≤ room then c :: fitting (room - c.utf8Size) rest else []

theorem fitting_begins (room : Nat) (text : Text) : fitting room text <+: text := by
  fun_induction fitting room text with
  | case1 => exact List.prefix_refl _
  | case2 room c rest fits ih => exact List.cons_prefix_cons.mpr ⟨rfl, ih⟩
  | case3 => exact List.nil_prefix

theorem fitting_size (room : Nat) (text : Text) : Bytes.size (fitting room text) ≤ room := by
  fun_induction fitting room text with
  | case1 => exact Nat.zero_le _
  | case2 room c rest fits ih =>
      rw [Bytes.size_cons]
      omega
  | case3 => exact Nat.zero_le _

/-- No beginning that fits is longer. -/
theorem size_le_fitting {room : Nat} {front rest : Text} (fits : Bytes.size front ≤ room) :
    Bytes.size front ≤ Bytes.size (fitting room (front ++ rest)) := by
  induction front generalizing room with
  | nil => exact Nat.zero_le _
  | cons c front ih =>
      rw [Bytes.size_cons] at fits
      have first : c.utf8Size ≤ room := by omega
      have later := @ih (room - c.utf8Size) (by omega)
      rw [List.cons_append, fitting, if_pos first, Bytes.size_cons, Bytes.size_cons]
      omega

theorem isCharBoundary_iff {text : Text} {index : Nat} :
    isCharBoundary text index = true ↔ Bytes.Boundary text index := Bytes.splitAt_isSome

/-- The loop ends at the last boundary. -/
theorem floor_eq {text : Text} {index least : Nat} (low : least ≤ index)
    (boundary : Bytes.Boundary text least)
    (clear : ∀ k, least < k → k ≤ index → ¬ Bytes.Boundary text k) :
    floorToCharBoundary text index = least := by
  induction index with
  | zero => exact (Nat.le_zero.mp low).symm
  | succ index ih =>
      rw [floorToCharBoundary]
      rcases Nat.eq_or_lt_of_le low with same | less
      · rw [if_pos (isCharBoundary_iff.mpr (same ▸ boundary)), same]
      · rw [if_neg (mt isCharBoundary_iff.mp (clear _ less (Nat.le_refl _)))]
        exact ih (Nat.le_of_lt_succ less) fun k above below =>
          clear k above (Nat.le_succ_of_le below)

theorem floor_fitting {text : Text} {room : Nat} :
    floorToCharBoundary text room = Bytes.size (fitting room text) := by
  obtain ⟨rest, whole⟩ := fitting_begins room text
  refine floor_eq (fitting_size room text) ⟨_, rest, whole.symm, rfl⟩ ?_
  rintro k above below ⟨front, back, rfl, rfl⟩
  exact absurd (@size_le_fitting room front back below) (Nat.not_le_of_lt above)

theorem sliceTo_append (front rest : Text) :
    sliceTo (front ++ rest) (Bytes.size front) = some front := by
  rw [sliceTo, Bytes.splitAt_size]
  rfl

theorem rfindOpen_append {front tail : Text} (last : '<' ∉ tail) :
    rfindOpen (front ++ '<' :: tail) = some (Bytes.size front) := by
  have kept : (front ++ '<' :: tail).rdropWhile (· != '<') = front ++ ['<'] := by
    have plain : ∀ c ∈ tail.reverse, (c != '<') = true := fun c member =>
      bne_iff_ne.mpr fun same => last (same ▸ List.mem_reverse.mp member)
    rw [List.rdropWhile, List.reverse_append, List.reverse_cons, List.append_assoc,
      List.dropWhile_append_of_pos plain, List.singleton_append,
      List.dropWhile_cons_of_neg (by decide), List.reverse_cons, List.reverse_reverse]
  rw [rfindOpen, kept]
  split
  · next none_ =>
      exact absurd none_ (List.append_ne_nil_of_right_ne_nil front (List.cons_ne_nil _ _))
  · rw [List.dropLast_concat]

theorem rfindOpen_none {text : Text} (plain : '<' ∉ text) : rfindOpen text = none := by
  have dropped : text.rdropWhile (· != '<') = [] := List.rdropWhile_eq_nil_iff.mpr
    fun c member => bne_iff_ne.mpr fun same => plain (same ▸ member)
  rw [rfindOpen, dropped]

/-- The last opening bracket of a text. -/
theorem exists_last {text : Text} {c : Char} (member : c ∈ text) :
    ∃ front tail, text = front ++ c :: tail ∧ c ∉ tail := by
  obtain ⟨tail, front, whole, first⟩ := List.eq_append_cons_of_mem (List.mem_reverse.mpr member)
  refine ⟨front.reverse, tail.reverse, ?_, fun there => first (List.mem_reverse.mp there)⟩
  have same := congrArg List.reverse whole
  rwa [List.reverse_reverse, List.reverse_append, List.reverse_cons, List.append_assoc] at same

variable {cleaned : Text} {maxBytes : Nat}

/-- What is left ends before a tag that is not closed, or where nothing more fits. -/
theorem truncate_unclosed (long : maxBytes < Bytes.size cleaned) {front tail : Text}
    (head : fitting maxBytes cleaned = front ++ '<' :: tail) (last : '<' ∉ tail)
    (unclosed : '>' ∉ tail) : truncateToTagBoundary cleaned maxBytes = some front := by
  obtain ⟨rest, whole⟩ := fitting_begins maxBytes cleaned
  have slice := sliceTo_append (fitting maxBytes cleaned) rest
  rw [whole] at slice
  have inner : Bytes.sliceFrom (front ++ '<' :: tail) (Bytes.size front) = some ('<' :: tail) := by
    rw [Bytes.sliceFrom, Bytes.splitAt_size]
    rfl
  have stays : floorToCharBoundary cleaned (Bytes.size front) = Bytes.size front := by
    refine floor_eq (Nat.le_refl _) ⟨front, '<' :: tail ++ rest, ?_, rfl⟩ fun k above below =>
      absurd below (Nat.not_le_of_lt above)
    rw [← List.append_assoc, ← head, whole]
  have first : sliceTo cleaned (Bytes.size front) = some front := by
    rw [← whole, head, List.append_assoc]
    exact sliceTo_append front _
  rw [truncateToTagBoundary, Nat.min_eq_left (Nat.le_of_lt long), floor_fitting, slice]
  dsimp only [Option.bind_some]
  rw [head, rfindOpen_append last]
  dsimp only
  rw [inner, Option.bind_some, if_neg (by simpa using unclosed), stays, first]

theorem truncate_closed (long : maxBytes < Bytes.size cleaned)
    (closed : ∀ front tail, fitting maxBytes cleaned = front ++ '<' :: tail → '<' ∉ tail →
      '>' ∈ tail) :
    truncateToTagBoundary cleaned maxBytes = some (fitting maxBytes cleaned) := by
  obtain ⟨rest, whole⟩ := fitting_begins maxBytes cleaned
  have slice := sliceTo_append (fitting maxBytes cleaned) rest
  rw [whole] at slice
  rw [truncateToTagBoundary, Nat.min_eq_left (Nat.le_of_lt long), floor_fitting, slice]
  dsimp only [Option.bind_some]
  by_cases bracket : '<' ∈ fitting maxBytes cleaned
  · obtain ⟨front, tail, head, last⟩ := exists_last bracket
    have inner : Bytes.sliceFrom (fitting maxBytes cleaned) (Bytes.size front) =
        some ('<' :: tail) := by
      rw [head, Bytes.sliceFrom, Bytes.splitAt_size]
      rfl
    have found : rfindOpen (fitting maxBytes cleaned) = some (Bytes.size front) := by
      rw [head, rfindOpen_append last]
    rw [found]
    dsimp only
    rw [inner, Option.bind_some, if_pos (by simp [closed front tail head last])]
  · rw [rfindOpen_none bracket]

end Head

end SP42.Fetch

/-!
When a preview is well formed. A sanitizer writes documents as a serializer does, so a cut leaves
one exactly when it falls between two pieces of the top level, or behind the beginning of a tag
there.
-/
namespace SP42.Fetch

open Nesting

section Serialization

/-- A character as a serializer writes it between tags. -/
def charPiece (c : Char) : Text :=
  if c = '&' then "&amp;".toList
  else if c = '\u00a0' then "&nbsp;".toList
  else if c = '<' then "&lt;".toList
  else if c = '>' then "&gt;".toList
  else [c]

/-- A character as a serializer writes it in an attribute's value. -/
def valuePiece (c : Char) : Text :=
  if c = '&' then "&amp;".toList
  else if c = '\u00a0' then "&nbsp;".toList
  else if c = '"' then "&quot;".toList
  else [c]

def attributePiece (attr : Text × Text) : Text :=
  ' ' :: (attr.1 ++ '=' :: '"' :: (attr.2.flatMap valuePiece ++ ['"']))

def openTag (name : Text) (attributes : List (Text × Text)) : Text :=
  '<' :: (name ++ (attributes.flatMap attributePiece ++ ['>']))

def closeTag (name : Text) : Text := '<' :: '/' :: (name ++ ['>'])

/-- The elements that have no end tag. -/
def voidNames : List Text :=
  ["area", "base", "br", "col", "embed", "hr", "img", "input", "link", "meta", "source", "track",
    "wbr"].map String.toList

structure ElementName (name : Text) : Prop where
  inhabited : name ≠ []
  plain : ∀ c ∈ name, c.isAlphanum = true

/-- The names of attributes hold no quote and no bracket. -/
def AttributeNames (attributes : List (Text × Text)) : Prop :=
  ∀ attr ∈ attributes, ∀ c ∈ attr.1, c.isAlphanum = true ∨ c = '-'

/-- A document as a serializer writes it: characters, void elements, and elements with an end. -/
inductive Written : Forest Text → Prop
  | done : Written .done
  | char (c : Char) {next : Forest Text} (later : Written next) : Written (.leaf (charPiece c) next)
  | void {name : Text} {attributes : List (Text × Text)} {next : Forest Text}
      (named : ElementName name) (ends : name ∈ voidNames) (plain : AttributeNames attributes)
      (later : Written next) : Written (.leaf (openTag name attributes) next)
  | element {name : Text} {attributes : List (Text × Text)} {children next : Forest Text}
      (named : ElementName name) (open_ : name ∉ voidNames) (plain : AttributeNames attributes)
      (inside : Written children) (later : Written next) :
      Written (.tree (openTag name attributes) (closeTag name) children next)

/-- The markup of a document. -/
def markup (document : Forest Text) : Text := document.word.flatten

/-- Markup that ends inside no tag, no character reference and no element. -/
def WellFormed (text : Text) : Prop := ∃ document, Written document ∧ markup document = text

/-- Of a document the first pieces fit, and perhaps the beginning of a tag. -/
def TopCut (document : Forest Text) (head : Text) : Prop :=
  ∃ before after, document = Forest.append before after ∧
    (head = markup before ∨ ∃ rest, head = markup before ++ '<' :: rest ∧ '<' ∉ rest ∧ '>' ∉ rest)

end Serialization

section Pieces

/-- What follows the next closing bracket that is not quoted. -/
def tagRest : Bool → Text → Option Text
  | _, [] => none
  | quoted, c :: rest =>
      if c = '"' then tagRest (!quoted) rest
      else if c = '>' ∧ quoted = false then some rest
      else tagRest quoted rest

/-- What follows the first piece of markup. -/
def pieceRest : Text → Option Text
  | [] => none
  | c :: rest =>
      if c = '<' then tagRest false rest
      else if c = '&' then
        match rest.dropWhile (· != ';') with
        | [] => none
        | _ :: after => some after
      else some rest

def IsPiece (piece : Text) : Prop := pieceRest piece = some []

theorem tagRest_append {quoted : Bool} {text rest more : Text}
    (found : tagRest quoted text = some rest) :
    tagRest quoted (text ++ more) = some (rest ++ more) := by
  fun_induction tagRest quoted text with
  | case1 => cases found
  | case2 quoted text ih => rw [List.cons_append, tagRest, if_pos rfl, ih found]
  | case3 quoted c text quote ends =>
      cases found
      rw [List.cons_append, tagRest, if_neg quote, if_pos ends]
  | case4 quoted c text quote goes ih =>
      rw [List.cons_append, tagRest, if_neg quote, if_neg goes, ih found]

theorem pieceRest_append {text rest more : Text} (found : pieceRest text = some rest) :
    pieceRest (text ++ more) = some (rest ++ more) := by
  cases text with
  | nil => cases found
  | cons c text =>
      rw [pieceRest] at found
      rw [List.cons_append, pieceRest]
      split_ifs at found ⊢ with tag reference
      · exact tagRest_append found
      · rw [List.dropWhile_append]
        cases ends : text.dropWhile (· != ';') with
        | nil =>
            rw [ends] at found
            cases found
        | cons d after =>
            rw [ends] at found
            cases found
            rfl
      · cases found
        rfl

theorem pieces_delimit : SelfDelimiting IsPiece := by
  refine ⟨?_, ?_⟩
  · rintro word piece rfl
    cases piece
  · intro word other rest more here there whole
    have first := @pieceRest_append word [] rest here
    have second := @pieceRest_append other [] more there
    rw [whole, second] at first
    obtain rfl : more = rest := by simpa using first
    exact List.append_cancel_right whole

theorem tagRest_plain {text : Text} (plain : ∀ c ∈ text, c ≠ '"' ∧ c ≠ '>') (quoted : Bool)
    (rest : Text) : tagRest quoted (text ++ rest) = tagRest quoted rest := by
  induction text with
  | nil => rfl
  | cons c text ih =>
      obtain ⟨quote, ends⟩ := plain c List.mem_cons_self
      rw [List.cons_append, tagRest, if_neg quote, if_neg fun found => ends found.1,
        ih fun d member => plain d (List.mem_cons_of_mem c member)]

theorem tagRest_quoted {text : Text} (plain : '"' ∉ text) (rest : Text) :
    tagRest true (text ++ rest) = tagRest true rest := by
  induction text with
  | nil => rfl
  | cons c text ih =>
      have quote : c ≠ '"' := fun same => plain (same ▸ List.mem_cons_self)
      rw [List.cons_append, tagRest, if_neg quote, if_neg fun found => Bool.noConfusion found.2,
        ih fun member => plain (List.mem_cons_of_mem c member)]

theorem alphanum_plain {c : Char} (plain : c.isAlphanum = true ∨ c = '-') :
    c ≠ '"' ∧ c ≠ '>' ∧ c ≠ '<' ∧ c ≠ '/' := by
  rcases plain with plain | rfl
  · refine ⟨?_, ?_, ?_, ?_⟩ <;> rintro rfl <;> exact absurd plain (by decide)
  · decide

theorem value_unquoted (value : Text) : '"' ∉ value.flatMap valuePiece := by
  intro member
  obtain ⟨c, -, inside⟩ := List.mem_flatMap.mp member
  rw [valuePiece] at inside
  split_ifs at inside with amp nbsp quote
  · exact absurd inside (by decide)
  · exact absurd inside (by decide)
  · exact absurd inside (by decide)
  · exact quote (List.mem_singleton.mp inside).symm

theorem tagRest_attributes {attributes : List (Text × Text)} (plain : AttributeNames attributes)
    (rest : Text) :
    tagRest false (attributes.flatMap attributePiece ++ rest) = tagRest false rest := by
  induction attributes with
  | nil => rfl
  | cons attr attributes ih =>
      have name : ∀ c ∈ ' ' :: attr.1 ++ ['='], c ≠ '"' ∧ c ≠ '>' := by
        intro c member
        rcases List.mem_append.mp member with front | equals
        · rcases List.mem_cons.mp front with rfl | inside
          · decide
          · have other := alphanum_plain (plain attr List.mem_cons_self c inside)
            exact ⟨other.1, other.2.1⟩
        · rw [List.mem_singleton.mp equals]
          decide
      have split : (attr :: attributes).flatMap attributePiece ++ rest =
          (' ' :: attr.1 ++ ['=']) ++ ('"' :: (attr.2.flatMap valuePiece ++
            '"' :: (attributes.flatMap attributePiece ++ rest))) := by
        simp [attributePiece]
      rw [split, tagRest_plain name, tagRest, if_pos rfl, Bool.not_false,
        tagRest_quoted (value_unquoted attr.2), tagRest, if_pos rfl, Bool.not_true]
      exact ih fun other member => plain other (List.mem_cons_of_mem attr member)

variable {name : Text} {attributes : List (Text × Text)}

theorem charPiece_isPiece (c : Char) : IsPiece (charPiece c) := by
  rw [charPiece]
  split_ifs with amp nbsp less greater
  · rfl
  · rfl
  · rfl
  · rfl
  · rw [IsPiece, pieceRest, if_neg less, if_neg amp]

theorem openTag_isPiece (named : ElementName name) (plain : AttributeNames attributes) :
    IsPiece (openTag name attributes) := by
  have letters : ∀ c ∈ name, c ≠ '"' ∧ c ≠ '>' := by
    intro c member
    have other := alphanum_plain (.inl (named.plain c member))
    exact ⟨other.1, other.2.1⟩
  rw [IsPiece, openTag, pieceRest, if_pos rfl, tagRest_plain letters, tagRest_attributes plain]
  rfl

theorem closeTag_isPiece (named : ElementName name) : IsPiece (closeTag name) := by
  have letters : ∀ c ∈ '/' :: name, c ≠ '"' ∧ c ≠ '>' := by
    intro c member
    rcases List.mem_cons.mp member with rfl | inside
    · decide
    · have other := alphanum_plain (.inl (named.plain c inside))
      exact ⟨other.1, other.2.1⟩
  rw [IsPiece, closeTag, pieceRest, if_pos rfl, ← List.cons_append, tagRest_plain letters]
  rfl

theorem Written.pieces {document : Forest Text} (written : Written document) :
    ∀ piece ∈ document.word, IsPiece piece := by
  induction written with
  | done => exact fun piece member => nomatch member
  | char c later ih => exact List.forall_mem_cons.mpr ⟨charPiece_isPiece c, ih⟩
  | void named ends plain later ih =>
      exact List.forall_mem_cons.mpr ⟨openTag_isPiece named plain, ih⟩
  | element named open_ plain inside later below behind =>
      refine List.forall_mem_cons.mpr ⟨openTag_isPiece named plain, fun piece member => ?_⟩
      rcases List.mem_append.mp member with front | back
      · exact below piece front
      · exact List.forall_mem_cons.mpr ⟨closeTag_isPiece named, behind⟩ piece back

/-- How much deeper a piece leads. -/
def weight : Text → Int
  | '<' :: '/' :: _ => -1
  | '<' :: rest => if rest.takeWhile Char.isAlphanum ∈ voidNames then 0 else 1
  | _ => 0

theorem charPiece_weight (c : Char) : weight (charPiece c) = 0 := by
  rw [charPiece]
  split_ifs with amp nbsp less greater
  · rfl
  · rfl
  · rfl
  · rfl
  · rw [weight]
    · exact fun rest same => less (List.cons.inj same).1
    · exact fun rest same => less (List.cons.inj same).1

theorem openTag_weight (named : ElementName name) :
    weight (openTag name attributes) = if name ∈ voidNames then 0 else 1 := by
  have word : (name ++ (attributes.flatMap attributePiece ++ ['>'])).takeWhile Char.isAlphanum =
      name := by
    rw [List.takeWhile_append_of_pos named.plain]
    cases attributes with
    | nil => exact List.append_nil name
    | cons attr attributes => exact List.append_nil name
  rw [openTag, weight, word]
  intro rest same
  cases start : name with
  | nil => exact named.inhabited start
  | cons c others =>
      rw [start, List.cons_append] at same
      have letter := alphanum_plain (.inl (named.plain c (start ▸ List.mem_cons_self)))
      exact letter.2.2.2 (List.cons.inj same).1

theorem Written.fits {document : Forest Text} (written : Written document) :
    document.Fits weight := by
  induction written with
  | done => trivial
  | char c later ih => exact ⟨charPiece_weight c, ih⟩
  | void named ends plain later ih => exact ⟨(openTag_weight named).trans (if_pos ends), ih⟩
  | element named open_ plain inside later below behind =>
      exact ⟨(openTag_weight named).trans (if_neg open_), rfl, below, behind⟩

theorem Written.parts {before after : Forest Text} (written : Written (before.append after)) :
    Written before ∧ Written after := by
  induction before with
  | done => exact ⟨.done, written⟩
  | leaf piece next ih =>
      cases written with
      | char c later => exact ⟨.char c (ih later).1, (ih later).2⟩
      | void named ends plain later => exact ⟨.void named ends plain (ih later).1, (ih later).2⟩
  | tree first last children next _ ih =>
      cases written with
      | element named open_ plain inside later =>
          exact ⟨.element named open_ plain inside (ih later).1, (ih later).2⟩

/-- A well-formed beginning of a document is its first pieces. -/
theorem WellFormed.top {document : Forest Text} (written : Written document) {front : Text}
    (whole : WellFormed front) (begins : front <+: markup document) :
    ∃ before after, document = Forest.append before after ∧ markup before = front := by
  obtain ⟨other, formed, rfl⟩ := whole
  have words := pieces_delimit.flatten_prefix formed.pieces written.pieces begins
  obtain ⟨before, after, rfl, same⟩ := written.fits.balanced_prefix words formed.fits.balanced
  exact ⟨before, after, rfl, by rw [markup, same, markup]⟩

end Pieces

section Brackets

/-- Behind every opening bracket there is a closing one. -/
def Answered (text : Text) : Prop := ∀ front tail, text = front ++ '<' :: tail → '>' ∈ tail

theorem Answered.append {text other : Text} (first : Answered text) (second : Answered other) :
    Answered (text ++ other) := by
  intro front tail whole
  rcases List.append_eq_append_iff.mp whole with ⟨gap, rfl, split⟩ | ⟨gap, split, rest⟩
  · exact second gap tail split
  · cases gap with
    | nil => exact second [] tail rest.symm
    | cons c gap =>
        obtain ⟨rfl, rfl⟩ := List.cons.inj rest
        exact List.mem_append_left other (first front gap split)

theorem answered_tag (word : Text) : Answered (word ++ ['>']) := by
  intro front tail whole
  have last := congrArg List.getLast? whole
  rw [List.getLast?_concat, List.getLast?_append_cons] at last
  cases tail with
  | nil => exact absurd (Option.some.inj last) (by decide)
  | cons c tail =>
      rw [List.getLast?_cons_cons] at last
      exact List.mem_of_getLast? last.symm

theorem answered_plain {text : Text} (plain : '<' ∉ text) : Answered text := by
  rintro front tail rfl
  exact absurd (List.mem_append_right front List.mem_cons_self) plain

theorem charPiece_answered (c : Char) : Answered (charPiece c) := by
  rw [charPiece]
  split_ifs with amp nbsp less greater
  · exact answered_plain (by decide)
  · exact answered_plain (by decide)
  · exact answered_plain (by decide)
  · exact answered_plain (by decide)
  · exact answered_plain fun member => less (List.mem_singleton.mp member).symm

theorem openTag_answered (name : Text) (attributes : List (Text × Text)) :
    Answered (openTag name attributes) := by
  rw [openTag, ← List.append_assoc, ← List.cons_append]
  exact answered_tag _

theorem closeTag_answered (name : Text) : Answered (closeTag name) := by
  rw [closeTag, ← List.cons_append, ← List.cons_append]
  exact answered_tag _

theorem Written.answered {document : Forest Text} (written : Written document) :
    Answered (markup document) := by
  induction written with
  | done => exact answered_plain List.not_mem_nil
  | char c later ih => exact (charPiece_answered c).append ih
  | void named ends plain later ih => exact (openTag_answered _ _).append ih
  | element named open_ plain inside later below behind =>
      rw [markup, Forest.word, List.flatten_cons, List.flatten_append, List.flatten_cons]
      exact (openTag_answered _ _).append (below.append ((closeTag_answered _).append behind))

end Brackets

section Preview

/-- What the sanitizer's `clean` does: it writes well-formed markup, and a well-formed beginning of
what it wrote it leaves as it is. -/
structure Cleaner (clean : Text → Text) : Prop where
  whole : ∀ input, WellFormed (clean input)
  keeps : ∀ input text, WellFormed text → text <+: clean input → clean text = text

variable {clean : Text → Text}

/-- A cut preview begins the markup. -/
theorem truncate_prefix {cleaned : Text} {maxBytes : Nat} (long : maxBytes < Bytes.size cleaned) :
    ∃ out, truncateToTagBoundary cleaned maxBytes = some out ∧
      out <+: fitting maxBytes cleaned := by
  by_cases unclosed : ∃ front tail, fitting maxBytes cleaned = front ++ '<' :: tail ∧
      '<' ∉ tail ∧ '>' ∉ tail
  · obtain ⟨front, tail, head, last, never⟩ := unclosed
    exact ⟨front, truncate_unclosed long head last never, head ▸ List.prefix_append front _⟩
  · refine ⟨fitting maxBytes cleaned, truncate_closed long ?_, List.prefix_refl _⟩
    intro front tail head last
    by_contra never
    exact unclosed ⟨front, tail, head, last, never⟩

/-- A cut leaves well-formed markup just at the top level. -/
theorem truncate_wellFormed_iff {document : Forest Text} (written : Written document)
    {maxBytes : Nat} {out : Text} (long : maxBytes < Bytes.size (markup document))
    (cut : truncateToTagBoundary (markup document) maxBytes = some out) :
    WellFormed out ↔ TopCut document (fitting maxBytes (markup document)) := by
  have begins := fitting_begins maxBytes (markup document)
  constructor
  · intro formed
    by_cases unclosed : ∃ front tail, fitting maxBytes (markup document) = front ++ '<' :: tail ∧
        '<' ∉ tail ∧ '>' ∉ tail
    · obtain ⟨front, tail, head, last, never⟩ := unclosed
      rw [truncate_unclosed long head last never] at cut
      cases cut
      have shorter : out <+: fitting maxBytes (markup document) := head ▸ List.prefix_append out _
      obtain ⟨before, after, whole, same⟩ := formed.top written (shorter.trans begins)
      exact ⟨before, after, whole, .inr ⟨tail, same ▸ head, last, never⟩⟩
    · have closed : ∀ front tail, fitting maxBytes (markup document) = front ++ '<' :: tail →
          '<' ∉ tail → '>' ∈ tail := by
        intro front tail head last
        by_contra never
        exact unclosed ⟨front, tail, head, last, never⟩
      rw [truncate_closed long closed] at cut
      cases cut
      obtain ⟨before, after, whole, same⟩ := formed.top written begins
      exact ⟨before, after, whole, .inl same.symm⟩
  · rintro ⟨before, after, rfl, head | ⟨rest, head, last, never⟩⟩
    · have closed := written.parts.1.answered
      rw [truncate_closed long fun front tail split _ => closed front tail (head ▸ split)] at cut
      cases cut
      exact ⟨before, written.parts.1, head.symm⟩
    · rw [truncate_unclosed long head last never] at cut
      cases cut
      exact ⟨before, written.parts.1, rfl⟩

/-- A preview holds at most as many bytes as asked for. It is well formed, and stays as it is when
it is cleaned again, just where the markup fits or the limit falls at the top level. -/
theorem sanitizeWithLimits_iff (cleaner : Cleaner clean) (input : Text) (maxBytes : Nat)
    {document : Forest Text} (written : Written document) (same : markup document = clean input) :
    ∃ out, sanitizeWithLimits clean input maxBytes = some out ∧ Bytes.size out ≤ maxBytes ∧
      (WellFormed out ∧ clean out = out ↔ Bytes.size (clean input) ≤ maxBytes ∨
        TopCut document (fitting maxBytes (clean input))) := by
  rw [sanitizeWithLimits]
  by_cases fits : Bytes.size (clean input) ≤ maxBytes
  · rw [if_pos fits]
    have formed := cleaner.whole input
    exact ⟨clean input, rfl, fits, fun _ => .inl fits,
      fun _ => ⟨formed, cleaner.keeps input _ formed (List.prefix_refl _)⟩⟩
  · have long : maxBytes < Bytes.size (clean input) := Nat.lt_of_not_le fits
    obtain ⟨out, cut, begins⟩ := truncate_prefix long
    have small : Bytes.size out ≤ maxBytes := by
      obtain ⟨rest, whole⟩ := begins
      have bound := fitting_size maxBytes (clean input)
      rw [← whole, Bytes.size_append] at bound
      exact Nat.le_trans (Nat.le_add_right _ _) bound
    have exact_ := truncate_wellFormed_iff written (same ▸ long) (same ▸ cut)
    rw [same] at exact_
    rw [if_neg fits]
    refine ⟨out, cut, small, fun formed => .inr (exact_.mp formed.1), ?_⟩
    rintro (less | top)
    · exact absurd less fits
    · have formed := exact_.mpr top
      exact ⟨formed, cleaner.keeps input out formed (begins.trans (fitting_begins _ _))⟩

/-- A paragraph of one letter. -/
def paragraph : Forest Text :=
  .tree (openTag "p".toList []) (closeTag "p".toList) (.leaf (charPiece 'x') .done) .done

/-- A sanitizer that closes that paragraph and drops everything else. -/
def paragraphClean (input : Text) : Text :=
  if input = "<p>x</p>".toList ∨ input = "<p>x".toList then "<p>x</p>".toList else []

theorem paragraph_written : Written paragraph := by
  have plain : "p".toList.all Char.isAlphanum = true := rfl
  have named : ElementName "p".toList := ⟨by decide, List.all_eq_true.mp plain⟩
  exact .element named (by decide) (fun _ member => nomatch member) (.char 'x' .done) .done

theorem paragraph_markup : markup paragraph = "<p>x</p>".toList := by decide

theorem paragraphClean_cleaner : Cleaner paragraphClean := by
  refine ⟨fun input => ?_, fun input text formed begins => ?_⟩
  · rw [paragraphClean]
    split_ifs
    · exact ⟨paragraph, paragraph_written, paragraph_markup⟩
    · exact ⟨.done, .done, rfl⟩
  · rw [paragraphClean] at begins
    split_ifs at begins
    · rw [← paragraph_markup] at begins
      obtain ⟨before, after, whole, rfl⟩ := formed.top paragraph_written begins
      cases before with
      | done => decide
      | leaf letter next => cases whole
      | tree first last children next =>
          -- nothing follows the paragraph
          have same : (Forest.tree first last children next).append after = paragraph := whole.symm
          cases next with
          | done =>
              cases same
              decide
          | leaf letter next => cases same
          | tree first last children next => cases same
    · rw [List.prefix_nil.mp begins]
      decide

theorem paragraph_preview : ∃ out,
    sanitizeWithLimits paragraphClean "<p>x</p>".toList 4 = some out ∧ Bytes.size out ≤ 4 ∧
      (WellFormed out ∧ paragraphClean out = out ↔
        Bytes.size (paragraphClean "<p>x</p>".toList) ≤ 4 ∨
          TopCut paragraph (fitting 4 (paragraphClean "<p>x</p>".toList))) :=
  sanitizeWithLimits_iff paragraphClean_cleaner "<p>x</p>".toList 4 paragraph_written
    (paragraph_markup.trans (by decide))

/-- The element stays open, and cleaning the preview closes it. -/
theorem paragraph_left_open : Cleaner paragraphClean ∧
    sanitizeWithLimits paragraphClean "<p>x</p>".toList 4 = some "<p>x".toList ∧
      paragraphClean "<p>x".toList ≠ "<p>x".toList :=
  ⟨paragraphClean_cleaner, by decide, by decide⟩

end Preview

end SP42.Fetch

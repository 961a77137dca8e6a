import SP42.Citation.Locate
import SP42.Lib.Words
import Mathlib.Logic.Relation

/-!
When the two normalizers agree, and which transcriptions of a passage the locator then
finds again.
-/
namespace SP42.Citation

section Units

variable (unicode : Unicode)

/-- The text of a completed unit. -/
def unitText (unit : Text) : Text :=
  if unit = [] then [] else (unicode.nfc unit).flatMap unicode.toLowercase

/-- `normalize_with_map` without its offsets. -/
def mapText (prevSpace : Bool) (unit : Text) : Text → Text
  | [] => unitText unicode unit
  | c :: rest =>
      if isZeroWidth c then mapText prevSpace unit rest
      else if Text.isWhitespace c then
        unitText unicode unit ++ ((if prevSpace then [] else [' ']) ++ mapText true [] rest)
      else if unit ≠ [] ∧ unicode.isCombiningMark c then
        mapText false (unit ++ [substitute c]) rest
      else unitText unicode unit ++ mapText false [substitute c] rest

/-- The units of a word, after one that is under way. -/
def unitsFrom (unit : Text) : Text → List Text
  | [] => [unit]
  | c :: rest =>
      if unit ≠ [] ∧ unicode.isCombiningMark c then unitsFrom (unit ++ [substitute c]) rest
      else unit :: unitsFrom [substitute c] rest

def visible (word : Text) : Text := word.filter fun c => !isZeroWidth c

def inked (word : Text) : Bool := word.any fun c => !isZeroWidth c

/-- A word composed as a whole, its zero-width characters dropped afterwards. -/
def wholeWord (word : Text) : Text :=
  (visible (unicode.nfc word)).flatMap fun c => unicode.toLowercase (substitute c)

/-- A word composed unit by unit, its zero-width characters dropped before. -/
def unitWord (word : Text) : Text :=
  (unitsFrom unicode [] (visible word)).flatMap (unitText unicode)

def wordsOf (text : Text) : List Text := Words.words Text.isWhitespace text

theorem wordsOf_solid {word : Text} (solid : ∀ c ∈ word, Text.isWhitespace c = false) :
    wordsOf word = [word] := Words.words_solid solid

theorem wordsOf_spaced {word : Text} (solid : ∀ c ∈ word, Text.isWhitespace c = false)
    {space : Char} (blank : Text.isWhitespace space = true) (rest : Text) :
    wordsOf (word ++ space :: rest) = word :: wordsOf rest := Words.words_spaced solid blank rest

theorem wordsOf_ne_nil (text : Text) : wordsOf text ≠ [] := Words.words_ne_nil text

/-- In every word, composition stays within the units, and no zero-width character holds
it up. -/
def Composed (text : Text) : Prop :=
  ∀ word ∈ wordsOf text, wholeWord unicode word = unitWord unicode word

instance (text : Text) : Decidable (Composed unicode text) :=
  inferInstanceAs (Decidable (∀ word ∈ wordsOf text, wholeWord unicode word = unitWord unicode word))

/-- What is relied on of Unicode: normal forms keep blanks and zero-width characters where
they are, and lower case does not make a character disappear. -/
structure UnicodeLaws (nfd : Text → Text) : Prop where
  nfc_space {space : Char} (before after : Text) : Text.isWhitespace space = true →
    ∃ other, Text.isWhitespace other = true ∧
      unicode.nfc (before ++ space :: after) = unicode.nfc before ++ other :: unicode.nfc after
  nfc_solid {text : Text} : (∀ c ∈ text, Text.isWhitespace c = false) →
    ∀ c ∈ unicode.nfc text, Text.isWhitespace c = false
  nfc_inked (text : Text) : inked (unicode.nfc text) = inked text
  nfc_nfc (text : Text) : unicode.nfc (unicode.nfc text) = unicode.nfc text
  nfc_nfd (text : Text) : unicode.nfc (nfd text) = unicode.nfc text
  lower_solid {c : Char} : Text.isWhitespace c = false →
    unicode.toLowercase c ≠ [] ∧ ∀ low ∈ unicode.toLowercase c, Text.isWhitespace low = false
  mark_substitute (c : Char) : unicode.isCombiningMark (substitute c) = unicode.isCombiningMark c

variable {unicode}

theorem flushUnit_text (unit : Text) (unitStart : Nat) :
    Mapped.text (flushUnit unicode unit unitStart) = unitText unicode unit := by
  unfold flushUnit unitText Mapped.text
  split
  · rfl
  · rw [List.map_flatMap]
    apply congrArg (List.flatMap · (unicode.nfc unit))
    funext c
    rw [List.map_map]
    exact List.map_id _

theorem mapped_text_append (one other : Mapped) :
    Mapped.text (one ++ other) = Mapped.text one ++ Mapped.text other := List.map_append

theorem mapChars_text {rest : Text} : ∀ {prevSpace : Bool} {unit : Text} {unitStart byteOffset : Nat},
    Mapped.text (mapChars unicode prevSpace unit unitStart byteOffset rest) =
      mapText unicode prevSpace unit rest := by
  induction rest with
  | nil => exact flushUnit_text _ _
  | cons c rest ih =>
      intro prevSpace unit unitStart byteOffset
      unfold mapChars mapText
      dsimp only
      split
      · exact ih
      · split
        · rw [mapped_text_append, mapped_text_append, flushUnit_text, ih]
          cases prevSpace <;> rfl
        · split
          · exact ih
          · rw [mapped_text_append, flushUnit_text, ih]

theorem normalizeWithMap_text (source : Text) :
    (normalizeWithMap unicode source).text = mapText unicode false [] source := mapChars_text

theorem zeroWidth_solid {c : Char} (hidden : isZeroWidth c = true) : Text.isWhitespace c = false := by
  unfold isZeroWidth at hidden
  simp only [List.contains_cons, List.contains_nil, Bool.or_false, Bool.or_eq_true,
    beq_iff_eq] at hidden
  rcases hidden with rfl | rfl | rfl | rfl <;> rfl

theorem space_visible {c : Char} (blank : Text.isWhitespace c = true) : isZeroWidth c = false := by
  cases hidden : isZeroWidth c with
  | false => rfl
  | true =>
      rw [zeroWidth_solid hidden] at blank
      cases blank

/-- A typographic character, like its ASCII form, is neither blank nor of zero width. -/
theorem substitute_kind (c : Char) : isZeroWidth (substitute c) = isZeroWidth c ∧
    Text.isWhitespace (substitute c) = Text.isWhitespace c := by
  unfold substitute
  split
  · rename_i single
    simp only [List.mem_cons, List.not_mem_nil, or_false] at single
    rcases single with rfl | rfl | rfl | rfl | rfl <;> exact ⟨rfl, rfl⟩
  · split
    · rename_i double
      simp only [List.mem_cons, List.not_mem_nil, or_false] at double
      rcases double with rfl | rfl | rfl | rfl | rfl <;> exact ⟨rfl, rfl⟩
    · split
      · rename_i dash
        simp only [List.mem_cons, List.not_mem_nil, or_false] at dash
        rcases dash with rfl | rfl | rfl | rfl | rfl | rfl | rfl <;> exact ⟨rfl, rfl⟩
      · exact ⟨rfl, rfl⟩

theorem substitute_solid {c : Char} (solid : Text.isWhitespace c = false) :
    Text.isWhitespace (substitute c) = false := (substitute_kind c).2.trans solid

theorem substitute_visible {c : Char} (shown : isZeroWidth c = false) :
    isZeroWidth (substitute c) = false := (substitute_kind c).1.trans shown

theorem inked_cons (c : Char) (word : Text) : inked (c :: word) = (!isZeroWidth c || inked word) := rfl

theorem visible_ne_nil {word : Text} (writes : inked word = true) : visible word ≠ [] := by
  obtain ⟨c, member, shown⟩ := List.any_eq_true.mp writes
  exact List.ne_nil_of_mem (List.mem_filter.mpr ⟨member, shown⟩)

theorem visible_of_not_inked {word : Text} (nothing : inked word = false) : visible word = [] := by
  apply List.filter_eq_nil_iff.mpr
  intro c member shown
  rw [inked, List.any_eq_true.mpr ⟨c, member, shown⟩] at nothing
  cases nothing

end Units

section Layout

variable {unicode : Unicode} {nfd : Text → Text}

/-- The fold runs through a word without looking at the blanks around it. -/
theorem foldChars_word {word : Text} (solid : ∀ c ∈ word, Text.isWhitespace c = false)
    (rest : Text) : ∀ prevSpace, foldChars unicode prevSpace (word ++ rest) =
      ((visible word).flatMap fun c => unicode.toLowercase (substitute c)) ++
        foldChars unicode (prevSpace && !inked word) rest := by
  induction word with
  | nil =>
      intro prevSpace
      simp [visible, inked]
  | cons c word ih =>
      intro prevSpace
      have here := solid c List.mem_cons_self
      have later := ih fun d member => solid d (List.mem_cons_of_mem c member)
      rw [List.cons_append, foldChars, inked_cons, visible, List.filter_cons]
      cases hidden : isZeroWidth c with
      | true =>
          rw [if_pos rfl, later, visible]
          rfl
      | false =>
          rw [if_neg Bool.false_ne_true, here, if_neg Bool.false_ne_true, later, visible]
          simp

theorem foldChars_space {space : Char} (blank : Text.isWhitespace space = true) (prevSpace : Bool)
    (rest : Text) : foldChars unicode prevSpace (space :: rest) =
      (if prevSpace then [] else [' ']) ++ foldChars unicode true rest := by
  rw [foldChars, space_visible blank, if_neg Bool.false_ne_true, blank, if_pos rfl]
  cases prevSpace <;> rfl

/-- The quote side writes its words composed as wholes. -/
theorem foldChars_laid (laws : UnicodeLaws unicode nfd) (text : Text) : ∀ prevSpace,
    foldChars unicode prevSpace (unicode.nfc text) =
      Words.laid ' ' inked (wholeWord unicode) prevSpace (wordsOf text) := by
  refine @Words.words_induction Char Text.isWhitespace (fun text => ∀ prevSpace,
    foldChars unicode prevSpace (unicode.nfc text) =
      Words.laid ' ' inked (wholeWord unicode) prevSpace (wordsOf text)) ?_ ?_ text
  · intro word solid prevSpace
    have whole := @foldChars_word unicode (unicode.nfc word) (laws.nfc_solid solid) [] prevSpace
    rw [List.append_nil] at whole
    rw [whole, wordsOf_solid solid]
    rfl
  · intro word space rest solid blank ih prevSpace
    obtain ⟨other, blank', cut⟩ := laws.nfc_space word rest blank
    rw [cut, foldChars_word (laws.nfc_solid solid), foldChars_space blank', ih, laws.nfc_inked,
      wordsOf_spaced solid blank, Words.laid, if_neg (wordsOf_ne_nil rest)]
    rfl

theorem mapText_word {word : Text} (solid : ∀ c ∈ word, Text.isWhitespace c = false) :
    ∀ prevSpace unit, mapText unicode prevSpace unit word =
      (unitsFrom unicode unit (visible word)).flatMap (unitText unicode) := by
  induction word with
  | nil =>
      intro prevSpace unit
      simp [visible, mapText, unitsFrom]
  | cons c word ih =>
      intro prevSpace unit
      have here := solid c List.mem_cons_self
      have later := ih fun d member => solid d (List.mem_cons_of_mem c member)
      rw [mapText, visible, List.filter_cons]
      cases hidden : isZeroWidth c with
      | true =>
          rw [if_pos rfl, later]
          rfl
      | false =>
          rw [if_neg Bool.false_ne_true, here, if_neg Bool.false_ne_true, Bool.not_false,
            if_pos rfl, unitsFrom]
          split
          · exact later false _
          · rw [later, List.flatMap_cons]
            rfl

theorem mapText_space {word : Text} (solid : ∀ c ∈ word, Text.isWhitespace c = false)
    {space : Char} (blank : Text.isWhitespace space = true) (rest : Text) :
    ∀ prevSpace unit, mapText unicode prevSpace unit (word ++ space :: rest) =
      (unitsFrom unicode unit (visible word)).flatMap (unitText unicode) ++
        ((if prevSpace && !inked word then [] else [' ']) ++ mapText unicode true [] rest) := by
  induction word with
  | nil =>
      intro prevSpace unit
      rw [List.nil_append, mapText, space_visible blank, if_neg Bool.false_ne_true, blank, if_pos rfl]
      simp [visible, unitsFrom, inked]
  | cons c word ih =>
      intro prevSpace unit
      have here := solid c List.mem_cons_self
      have later := ih fun d member => solid d (List.mem_cons_of_mem c member)
      rw [List.cons_append, mapText, inked_cons, visible, List.filter_cons]
      cases hidden : isZeroWidth c with
      | true =>
          rw [if_pos rfl, later]
          rfl
      | false =>
          rw [if_neg Bool.false_ne_true, here, if_neg Bool.false_ne_true, Bool.not_false,
            if_pos rfl, unitsFrom]
          split
          · rw [later]
            simp [visible]
          · rw [later, List.flatMap_cons]
            simp [visible]

/-- The source side writes its words composed unit by unit. -/
theorem mapText_laid (text : Text) : ∀ prevSpace,
    mapText unicode prevSpace [] text =
      Words.laid ' ' inked (unitWord unicode) prevSpace (wordsOf text) := by
  refine @Words.words_induction Char Text.isWhitespace (fun text => ∀ prevSpace,
    mapText unicode prevSpace [] text =
      Words.laid ' ' inked (unitWord unicode) prevSpace (wordsOf text)) ?_ ?_ text
  · intro word solid prevSpace
    rw [mapText_word solid, wordsOf_solid solid]
    exact (List.append_nil _).symm
  · intro word space rest solid blank ih prevSpace
    rw [mapText_space solid blank, ih, wordsOf_spaced solid blank, Words.laid,
      if_neg (wordsOf_ne_nil rest)]
    rfl

/-- What a text comes to whose words are rewritten: the images of the inked ones, one space
apart. -/
def tidy (image : Text → Text) (text : Text) : Text :=
  Text.join [' '] (((wordsOf text).filter inked).map image)

/-- The image of a word: nothing for one that is not inked, else a text without blanks. -/
structure Inks (image : Text → Text) (word : Text) : Prop where
  nothing : inked word = false → image word = []
  something : inked word = true → image word ≠ [] ∧ ∀ c ∈ image word, Text.isWhitespace c = false

theorem wholeWord_inks (laws : UnicodeLaws unicode nfd) {word : Text}
    (solid : ∀ c ∈ word, Text.isWhitespace c = false) : Inks (wholeWord unicode) word where
  nothing none := by
    rw [wholeWord, visible_of_not_inked (by rw [laws.nfc_inked, none])]
    rfl
  something writes := by
    have composed := laws.nfc_solid solid
    constructor
    · obtain ⟨c, rest, shown⟩ := List.exists_cons_of_ne_nil
        (@visible_ne_nil (unicode.nfc word) (by rw [laws.nfc_inked, writes]))
      have member : c ∈ unicode.nfc word := (List.mem_filter.mp (shown ▸ List.mem_cons_self)).1
      rw [wholeWord, shown, List.flatMap_cons]
      intro empty
      exact (laws.lower_solid (substitute_solid (composed c member))).1 (List.append_eq_nil_iff.mp empty).1
    · intro low member
      obtain ⟨c, shown, member⟩ := List.mem_flatMap.mp member
      exact (laws.lower_solid (substitute_solid
        (composed c (List.mem_filter.mp shown).1))).2 low member

theorem mem_unitsFrom {word : Text} : ∀ {unit other : Text}, other ∈ unitsFrom unicode unit word →
    ∀ c ∈ other, c ∈ unit ∨ ∃ d ∈ word, c = substitute d := by
  induction word with
  | nil =>
      intro unit other member c inside
      rw [unitsFrom, List.mem_singleton] at member
      exact .inl (member ▸ inside)
  | cons d word ih =>
      intro unit other member c inside
      rw [unitsFrom] at member
      split at member
      · rcases ih member c inside with here | ⟨e, later, rfl⟩
        · rcases List.mem_append.mp here with here | here
          · exact .inl here
          · exact .inr ⟨d, List.mem_cons_self, List.mem_singleton.mp here⟩
        · exact .inr ⟨e, List.mem_cons_of_mem d later, rfl⟩
      · rcases List.mem_cons.mp member with rfl | member
        · exact .inl inside
        · rcases ih member c inside with here | ⟨e, later, rfl⟩
          · exact .inr ⟨d, List.mem_cons_self, List.mem_singleton.mp here⟩
          · exact .inr ⟨e, List.mem_cons_of_mem d later, rfl⟩

/-- Some unit of a word that is not empty holds a character. -/
theorem exists_unit {word : Text} : ∀ {unit : Text}, unit ≠ [] ∨ word ≠ [] →
    ∃ other ∈ unitsFrom unicode unit word, other ≠ [] := by
  induction word with
  | nil =>
      intro unit some
      exact ⟨unit, List.mem_singleton_self _, some.resolve_right (absurd rfl)⟩
  | cons d word ih =>
      intro unit _
      rw [unitsFrom]
      split
      · exact ih (.inl (by simp))
      · obtain ⟨other, member, inhabited⟩ := @ih [substitute d] (.inl (List.cons_ne_nil _ _))
        exact ⟨other, List.mem_cons_of_mem _ member, inhabited⟩

theorem unitWord_inks (laws : UnicodeLaws unicode nfd) {word : Text}
    (solid : ∀ c ∈ word, Text.isWhitespace c = false) : Inks (unitWord unicode) word where
  nothing none := by
    rw [unitWord, visible_of_not_inked none]
    rfl
  something writes := by
    have units : ∀ unit ∈ unitsFrom unicode [] (visible word), ∀ c ∈ unit,
        Text.isWhitespace c = false := by
      intro unit member c inside
      rcases mem_unitsFrom member c inside with none | ⟨d, shown, rfl⟩
      · cases none
      · exact substitute_solid (solid d (List.mem_filter.mp shown).1)
    constructor
    · obtain ⟨unit, member, inhabited⟩ :=
        @exists_unit unicode (visible word) [] (.inr (visible_ne_nil writes))
      obtain ⟨first, others, rfl⟩ := List.exists_cons_of_ne_nil inhabited
      have shown : inked (first :: others) = true := by
        rcases mem_unitsFrom member first List.mem_cons_self with none | ⟨d, kept, rfl⟩
        · cases none
        · have hidden : isZeroWidth d = false := by simpa using (List.mem_filter.mp kept).2
          rw [inked_cons, substitute_visible hidden]
          rfl
      obtain ⟨c, composed, -⟩ := List.any_eq_true.mp ((laws.nfc_inked (first :: others)).trans shown)
      have low := (laws.lower_solid (laws.nfc_solid (units _ member) c composed)).1
      obtain ⟨d, written⟩ := List.exists_mem_of_ne_nil _ low
      refine List.ne_nil_of_mem (a := d) (List.mem_flatMap.mpr ⟨first :: others, member, ?_⟩)
      rw [unitText, if_neg inhabited]
      exact List.mem_flatMap.mpr ⟨c, composed, written⟩
    · intro low member
      obtain ⟨unit, member, written⟩ := List.mem_flatMap.mp member
      unfold unitText at written
      split at written
      · cases written
      · obtain ⟨c, composed, written⟩ := List.mem_flatMap.mp written
        exact (laws.lower_solid (laws.nfc_solid (units unit member) c composed)).2 low written

theorem solid_of_mem_wordsOf {text word : Text} (member : word ∈ wordsOf text) :
    ∀ c ∈ word, Text.isWhitespace c = false := Words.solid_of_mem_words member

theorem trim_laid {image : Text → Text} {text : Text} (prevSpace : Bool)
    (inks : ∀ word ∈ wordsOf text, Inks image word) :
    Text.trim (Words.laid ' ' inked image prevSpace (wordsOf text)) = tidy image text := by
  obtain ⟨leading, trailing, split⟩ := @Words.laid_eq Char Char ' ' inked image prevSpace
    (wordsOf text) fun word member => (inks word member).nothing
  have blank : ∀ n, ∀ c ∈ List.replicate n ' ', Text.isWhitespace c = true := by
    intro n c member
    rw [List.eq_of_mem_replicate member]
    rfl
  rw [split, Text.trim_append_right (blank _), Text.trim_append_left (blank _)]
  apply Text.trim_join
  intro piece member
  obtain ⟨word, kept, rfl⟩ := List.mem_map.mp member
  obtain ⟨member, writes⟩ := List.mem_filter.mp kept
  exact (inks word member).something writes

/-- An inked word leaves something. -/
theorem tidy_ne_nil {image : Text → Text} {text word : Text}
    (inks : ∀ word ∈ wordsOf text, Inks image word) (member : word ∈ wordsOf text)
    (writes : inked word = true) : tidy image text ≠ [] := by
  obtain ⟨first, rest, kept⟩ := List.exists_cons_of_ne_nil
    (List.ne_nil_of_mem (List.mem_filter.mpr ⟨member, writes⟩))
  have inside := List.mem_filter.mp (kept ▸ List.mem_cons_self : first ∈ _)
  rw [tidy, kept, List.map_cons, Text.join_cons]
  intro empty
  exact ((inks first inside.1).something inside.2).1 (List.append_eq_nil_iff.mp empty).1

theorem normalizeForMatch_tidy (laws : UnicodeLaws unicode nfd) (text : Text) :
    normalizeForMatch unicode text = tidy (wholeWord unicode) text := by
  rw [normalizeForMatch, foldChars_laid laws]
  exact trim_laid false fun word member => wholeWord_inks laws (solid_of_mem_wordsOf member)

theorem normalizeWithMap_tidy (laws : UnicodeLaws unicode nfd) (text : Text) :
    Text.trim (normalizeWithMap unicode text).text = tidy (unitWord unicode) text := by
  rw [normalizeWithMap_text, mapText_laid]
  exact trim_laid false fun word member => unitWord_inks laws (solid_of_mem_wordsOf member)

/-- Tidied texts are equal exactly when they are word for word. -/
theorem tidy_eq_iff {image image' : Text → Text} {text : Text}
    (inks : ∀ word ∈ wordsOf text, Inks image word)
    (inks' : ∀ word ∈ wordsOf text, Inks image' word) :
    tidy image text = tidy image' text ↔ ∀ word ∈ wordsOf text, image word = image' word := by
  have readable {image : Text → Text} (inks : ∀ word ∈ wordsOf text, Inks image word) :
      ∀ piece ∈ ((wordsOf text).filter inked).map image, piece ≠ [] ∧ ' ' ∉ piece := by
    intro piece member
    obtain ⟨word, kept, rfl⟩ := List.mem_map.mp member
    obtain ⟨member, writes⟩ := List.mem_filter.mp kept
    obtain ⟨inhabited, solid⟩ := (inks word member).something writes
    exact ⟨inhabited, fun space => absurd (solid ' ' space) (by decide)⟩
  constructor
  · intro same word member
    cases writes : inked word with
    | false => rw [(inks word member).nothing writes, (inks' word member).nothing writes]
    | true =>
        have pieces := Words.intercalate_inj (readable inks) (readable inks') same
        exact List.map_inj_left.mp pieces word (List.mem_filter.mpr ⟨member, writes⟩)
  · intro same
    refine congrArg (Text.join [' ']) (List.map_inj_left.mpr ?_)
    intro word kept
    exact same word (List.mem_filter.mp kept).1

/-- The normalizers agree on a text exactly when its composition stays within its units. -/
theorem normalizers_agree_iff (laws : UnicodeLaws unicode nfd) (text : Text) :
    normalizeForMatch unicode text = Text.trim (normalizeWithMap unicode text).text ↔
      Composed unicode text := by
  rw [normalizeForMatch_tidy laws, normalizeWithMap_tidy laws]
  exact tidy_eq_iff (fun word member => wholeWord_inks laws (solid_of_mem_wordsOf member))
    fun word member => unitWord_inks laws (solid_of_mem_wordsOf member)

end Layout

section Locator

variable {unicode : Unicode} {nfd : Text → Text}

/-- A place before which no unit goes on: the first visible character is not a mark. -/
def AtBase (unicode : Unicode) (text : Text) : Prop :=
  ∀ c ∈ (visible text).head?, unicode.isCombiningMark c = false

instance (text : Text) : Decidable (AtBase unicode text) :=
  decidable_of_iff ((visible text).head?.all fun c => !unicode.isCombiningMark c) (by
    unfold AtBase
    cases (visible text).head? <;> simp)

/-- Whether a space was written last after a text. -/
def spaceAfter (prevSpace : Bool) : Text → Bool
  | [] => prevSpace
  | c :: rest =>
      if isZeroWidth c then spaceAfter prevSpace rest
      else spaceAfter (Text.isWhitespace c) rest

theorem mapText_flush {text : Text} (atBase : AtBase unicode text) (prevSpace : Bool)
    (unit : Text) : mapText unicode prevSpace unit text =
      unitText unicode unit ++ mapText unicode prevSpace [] text := by
  induction text with
  | nil => exact (List.append_nil _).symm
  | cons c rest ih =>
      rw [mapText, mapText]
      cases hidden : isZeroWidth c with
      | true =>
          have later : AtBase unicode rest := by
            unfold AtBase visible at atBase
            rwa [List.filter_cons_of_neg (by simp [hidden])] at atBase
          exact ih later
      | false =>
          have base : unicode.isCombiningMark c = false := by
            refine atBase c ?_
            rw [visible, List.filter_cons_of_pos (by simp [hidden])]
            rfl
          have none : unitText unicode [] = [] := rfl
          simp only [Bool.false_eq_true, if_false, base, and_false, none, List.nil_append]
          split
          · rfl
          · rfl

/-- The source side is compositional at a base. -/
theorem mapText_append {after : Text} (atBase : AtBase unicode after) {before : Text} :
    ∀ {prevSpace unit}, mapText unicode prevSpace unit (before ++ after) =
      mapText unicode prevSpace unit before ++
        mapText unicode (spaceAfter prevSpace before) [] after := by
  induction before with
  | nil => exact mapText_flush atBase _ _
  | cons c before ih =>
      intro prevSpace unit
      rw [List.cons_append, mapText, mapText, spaceAfter]
      split
      · exact ih
      · split
        · rename_i blank
          rw [ih, blank]
          simp only [List.append_assoc]
        · rename_i solid
          rw [Bool.not_eq_true] at solid
          rw [solid]
          split
          · exact ih
          · rw [ih, List.append_assoc]

/-- A piece of a source between two bases stands in the normalized source. -/
theorem tidy_infix {before piece after : Text} (writes : inked piece = true)
    (starts : AtBase unicode piece) (ends : AtBase unicode after) (laws : UnicodeLaws unicode nfd) :
    tidy (unitWord unicode) piece <:+: (normalizeWithMap unicode (before ++ piece ++ after)).text := by
  have joined : AtBase unicode (piece ++ after) := by
    unfold AtBase visible
    obtain ⟨c, rest, shown⟩ := List.exists_cons_of_ne_nil (visible_ne_nil writes)
    rw [visible] at shown
    rw [List.filter_append, shown]
    intro d member
    refine starts d ?_
    rw [visible, shown]
    exact member
  rw [normalizeWithMap_text, List.append_assoc, mapText_append joined, mapText_append ends]
  have inside := Text.trim_infix (mapText unicode (spaceAfter false before) [] piece)
  rw [mapText_laid, trim_laid _ fun word member =>
    unitWord_inks laws (solid_of_mem_wordsOf member), ← mapText_laid] at inside
  obtain ⟨left, right, split⟩ := inside
  refine ⟨mapText unicode false [] before ++ left, right ++ mapText unicode
    (spaceAfter (spaceAfter false before) piece) [] after, ?_⟩
  rw [← split]
  simp only [List.append_assoc]

theorem locateQuote_of_infix {quote source : Text}
    (inhabited : normalizeForMatch unicode (Text.trim quote) ≠ [])
    (inside : normalizeForMatch unicode (Text.trim quote) <:+: (normalizeWithMap unicode source).text)
    (solid : Text.trim quote ≠ []) : (locateQuote unicode quote source).isSome = true := by
  unfold locateQuote
  dsimp only
  rw [if_neg solid]
  split
  · rfl
  · rw [if_neg inhabited]
    obtain ⟨index, found⟩ := Option.isSome_iff_exists.mp (Search.find_isSome.mpr inside)
    rw [found]
    dsimp only
    obtain ⟨rest, split⟩ := Search.prefix_drop_of_find found
    have size := congrArg List.length split
    have positive := List.length_pos_iff.mpr inhabited
    rw [List.length_append, List.length_drop] at size
    have bound : index < (normalizeWithMap unicode source).offsets.length := by
      rw [Mapped.offsets, List.length_map]
      rw [Mapped.text, List.length_map] at size
      omega
    rw [List.getElem?_eq_getElem bound]
    rfl

theorem inked_words_gap {gap : Text} (blank : ∀ c ∈ gap, Text.isWhitespace c = true) (rest : Text) :
    (wordsOf (gap ++ rest)).filter inked = (wordsOf rest).filter inked := by
  induction gap with
  | nil => rfl
  | cons space gap ih =>
      have cut := @wordsOf_spaced [] nofun space (blank space List.mem_cons_self) (gap ++ rest)
      rw [List.nil_append] at cut
      rw [List.cons_append, cut, List.filter_cons_of_neg (by simp [inked])]
      exact ih fun c member => blank c (List.mem_cons_of_mem _ member)

/-- A run of blanks only cuts the words before it from those after it. -/
theorem inked_words_append {gap : Text} (inhabited : gap ≠ [])
    (blank : ∀ c ∈ gap, Text.isWhitespace c = true) (before rest : Text) :
    (wordsOf (before ++ gap ++ rest)).filter inked =
      (wordsOf before).filter inked ++ (wordsOf rest).filter inked := by
  obtain ⟨space, gap, rfl⟩ := List.exists_cons_of_ne_nil inhabited
  rw [List.append_assoc, List.cons_append, wordsOf,
    Words.words_append before (blank space List.mem_cons_self), List.filter_append]
  exact congrArg (_ ++ ·) (inked_words_gap (fun c member => blank c (List.mem_cons_of_mem _ member)) rest)

theorem tidy_trim (image : Text → Text) (text : Text) :
    tidy image (Text.trim text) = tidy image text := by
  obtain ⟨before, after, split, blank, blank'⟩ := Text.trim_split text
  unfold tidy
  generalize Text.trim text = trimmed at split ⊢
  rw [split, List.append_assoc, inked_words_gap blank]
  by_cases bare : after = []
  · rw [bare, List.append_nil]
  · have ended := inked_words_append bare blank' trimmed []
    rw [List.append_nil] at ended
    rw [ended]
    exact congrArg (fun words => Text.join [' '] (words.map image)) (List.append_nil _).symm

/-- One change that a transcription makes to a text. -/
inductive Edit (unicode : Unicode) (nfd : Text → Text) : Text → Text → Prop
  | nfc (text : Text) : Edit unicode nfd text (unicode.nfc text)
  | nfd (text : Text) : Edit unicode nfd text (nfd text)
  | spaces (before gap gap' after : Text) : gap ≠ [] → gap' ≠ [] →
      (∀ c ∈ gap, Text.isWhitespace c = true) → (∀ c ∈ gap', Text.isWhitespace c = true) →
      Edit unicode nfd (before ++ gap ++ after) (before ++ gap' ++ after)
  | insert (before : Text) (hidden : Char) (after : Text) : isZeroWidth hidden = true →
      Edit unicode nfd (before ++ after) (before ++ hidden :: after)
  | erase (before : Text) (hidden : Char) (after : Text) : isZeroWidth hidden = true →
      Edit unicode nfd (before ++ hidden :: after) (before ++ after)
  | typography (before : Text) (c d : Char) (after : Text) : substitute c = substitute d →
      Edit unicode nfd (before ++ c :: after) (before ++ d :: after)

/-- A transcription all of whose stages keep composition within units. -/
inductive Transcribed (unicode : Unicode) (nfd : Text → Text) (text : Text) : Text → Prop
  | same : Composed unicode text → Transcribed unicode nfd text text
  | edit {stage next : Text} : Transcribed unicode nfd text stage → Edit unicode nfd stage next →
      Composed unicode next → Transcribed unicode nfd text next

theorem mapText_hidden {hidden : Char} (zero : isZeroWidth hidden = true) (after : Text)
    {before : Text} : ∀ {prevSpace unit}, mapText unicode prevSpace unit (before ++ hidden :: after) =
      mapText unicode prevSpace unit (before ++ after) := by
  induction before with
  | nil =>
      intro prevSpace unit
      rw [List.nil_append, mapText, zero, if_pos rfl]
      rfl
  | cons c before ih =>
      intro prevSpace unit
      rw [List.cons_append, List.cons_append, mapText, mapText, ih, ih, ih, ih]

theorem mapText_typography (laws : UnicodeLaws unicode nfd) {c d : Char}
    (same : substitute c = substitute d) (after : Text) {before : Text} : ∀ {prevSpace unit},
    mapText unicode prevSpace unit (before ++ c :: after) =
      mapText unicode prevSpace unit (before ++ d :: after) := by
  induction before with
  | nil =>
      intro prevSpace unit
      rw [List.nil_append, List.nil_append, mapText, mapText, ← (substitute_kind c).1,
        ← (substitute_kind c).2, ← laws.mark_substitute c, same, (substitute_kind d).1,
        (substitute_kind d).2, laws.mark_substitute]
  | cons e before ih =>
      intro prevSpace unit
      rw [List.cons_append, List.cons_append, mapText, mapText, ih, ih, ih, ih]

theorem Composed.agree (laws : UnicodeLaws unicode nfd) {text : Text}
    (composed : Composed unicode text) :
    tidy (wholeWord unicode) text = tidy (unitWord unicode) text := by
  rw [← normalizeForMatch_tidy laws, ← normalizeWithMap_tidy laws]
  exact (normalizers_agree_iff laws text).mpr composed

/-- A change keeps the normal form: the step. -/
theorem Edit.normal (laws : UnicodeLaws unicode nfd) {text next : Text}
    (edit : Edit unicode nfd text next) (composed : Composed unicode text)
    (composed' : Composed unicode next) :
    tidy (wholeWord unicode) next = tidy (wholeWord unicode) text := by
  cases edit with
  | nfc =>
      rw [← normalizeForMatch_tidy laws, ← normalizeForMatch_tidy laws]
      unfold normalizeForMatch
      rw [laws.nfc_nfc]
  | nfd =>
      rw [← normalizeForMatch_tidy laws, ← normalizeForMatch_tidy laws]
      unfold normalizeForMatch
      rw [laws.nfc_nfd]
  | spaces before gap gap' after inhabited inhabited' blank blank' =>
      rw [tidy, tidy, inked_words_append inhabited blank, inked_words_append inhabited' blank']
  | insert before hidden after zero =>
      rw [composed.agree laws, composed'.agree laws, ← normalizeWithMap_tidy laws,
        ← normalizeWithMap_tidy laws, normalizeWithMap_text, normalizeWithMap_text,
        mapText_hidden zero]
  | erase before hidden after zero =>
      rw [composed.agree laws, composed'.agree laws, ← normalizeWithMap_tidy laws,
        ← normalizeWithMap_tidy laws, normalizeWithMap_text, normalizeWithMap_text,
        mapText_hidden zero]
  | typography before c d after same =>
      rw [composed.agree laws, composed'.agree laws, ← normalizeWithMap_tidy laws,
        ← normalizeWithMap_tidy laws, normalizeWithMap_text, normalizeWithMap_text,
        mapText_typography laws same]

/-- A transcription keeps the normal form: the run. -/
theorem Transcribed.normal (laws : UnicodeLaws unicode nfd) {text last : Text}
    (transcribed : Transcribed unicode nfd text last) : Composed unicode last ∧
      tidy (wholeWord unicode) last = tidy (unitWord unicode) text := by
  induction transcribed with
  | same composed => exact ⟨composed, composed.agree laws⟩
  | edit _ change composed ih => exact ⟨composed, (change.normal laws ih.1 composed).trans ih.2⟩

end Locator

section Acute

/-- Composition of `e` and the acute accent, as far as one letter and one mark go. -/
def composeAcute : Text → Text
  | [] => []
  | [c] => [c]
  | c :: d :: rest =>
      if c = 'e' ∧ d = '\u0301' then 'é' :: composeAcute rest else c :: composeAcute (d :: rest)

def decomposeAcute (text : Text) : Text :=
  text.flatMap fun c => if c = 'é' then ['e', '\u0301'] else [c]

def acuteTables : Unicode where
  nfc := composeAcute
  toLowercase c := [c]
  isCombiningMark c := c == '\u0301'
  isAlphanumeric := Char.isAlphanum

theorem composeAcute_joined (rest : Text) :
    composeAcute ('e' :: '\u0301' :: rest) = 'é' :: composeAcute rest := if_pos ⟨rfl, rfl⟩

theorem composeAcute_apart {c d : Char} (neither : ¬(c = 'e' ∧ d = '\u0301')) (rest : Text) :
    composeAcute (c :: d :: rest) = c :: composeAcute (d :: rest) := if_neg neither

/-- A text is read a pair at a time, or a letter where no pair begins. -/
theorem acute_induction {motive : Text → Prop} (nil : motive []) (one : ∀ c, motive [c])
    (joined : ∀ rest, motive rest → motive ('e' :: '\u0301' :: rest))
    (apart : ∀ c d rest, ¬(c = 'e' ∧ d = '\u0301') → motive (d :: rest) → motive (c :: d :: rest))
    (text : Text) : motive text := by
  fun_induction composeAcute text with
  | case1 => exact nil
  | case2 c => exact one c
  | case3 c d rest both ih =>
      obtain ⟨rfl, rfl⟩ := both
      exact joined rest ih
  | case4 c d rest neither ih => exact apart c d rest neither ih

theorem composeAcute_cons {c : Char} (other : c ≠ 'e') (text : Text) :
    composeAcute (c :: text) = c :: composeAcute text := by
  cases text with
  | nil => rfl
  | cons d rest => exact composeAcute_apart (fun both => other both.1) rest

theorem composeAcute_cons_of {c : Char} {text : Text} (apart : text.head? ≠ some '\u0301') :
    composeAcute (c :: text) = c :: composeAcute text := by
  cases text with
  | nil => rfl
  | cons d rest => exact composeAcute_apart (fun both => apart (congrArg some both.2)) rest

theorem head?_composeAcute (text : Text) :
    (composeAcute text).head? = some '\u0301' → text.head? = some '\u0301' := by
  intro first
  cases text using acute_induction with
  | nil => exact first
  | one c => exact first
  | joined rest ih => exact absurd (Option.some.inj first) (by decide)
  | apart c d rest neither ih =>
      rw [composeAcute_apart neither] at first
      exact first

theorem composeAcute_space {space : Char} (blank : Text.isWhitespace space = true)
    (before after : Text) :
    composeAcute (before ++ space :: after) = composeAcute before ++ space :: composeAcute after := by
  have notE : space ≠ 'e' := fun same => by rw [same] at blank; cases blank
  have notMark : space ≠ '\u0301' := fun same => by rw [same] at blank; cases blank
  induction before using acute_induction with
  | nil => exact composeAcute_cons notE after
  | one c =>
      rw [List.singleton_append, composeAcute_cons_of (by simpa using notMark),
        composeAcute_cons notE]
      rfl
  | joined rest ih =>
      rw [List.cons_append, List.cons_append, composeAcute_joined, ih, composeAcute_joined]
      rfl
  | apart c d rest neither ih =>
      rw [List.cons_append, List.cons_append, composeAcute_apart neither, ← List.cons_append, ih,
        composeAcute_apart neither]
      rfl

theorem mem_composeAcute {text : Text} {c : Char} (member : c ∈ composeAcute text) :
    c = 'é' ∨ c ∈ text := by
  induction text using acute_induction with
  | nil => cases member
  | one d => exact .inr member
  | joined rest ih =>
      rw [composeAcute_joined] at member
      rcases List.mem_cons.mp member with rfl | later
      · exact .inl rfl
      · exact (ih later).imp_right fun inside =>
          List.mem_cons_of_mem 'e' (List.mem_cons_of_mem '\u0301' inside)
  | apart d e rest neither ih =>
      rw [composeAcute_apart neither] at member
      rcases List.mem_cons.mp member with rfl | later
      · exact .inr List.mem_cons_self
      · exact (ih later).imp_right fun inside => List.mem_cons_of_mem d inside

theorem inked_composeAcute (text : Text) : inked (composeAcute text) = inked text := by
  induction text using acute_induction with
  | nil => rfl
  | one c => rfl
  | joined rest ih => rfl
  | apart c d rest neither ih => rw [composeAcute_apart neither, inked_cons, ih, ← inked_cons]

theorem composeAcute_composeAcute (text : Text) :
    composeAcute (composeAcute text) = composeAcute text := by
  induction text using acute_induction with
  | nil => rfl
  | one c => rfl
  | joined rest ih => rw [composeAcute_joined, composeAcute_cons (by decide), ih]
  | apart c d rest neither ih =>
      rw [composeAcute_apart neither]
      by_cases letter : c = 'e'
      · rw [composeAcute_cons_of, ih]
        intro first
        have mark := head?_composeAcute _ first
        exact neither ⟨letter, Option.some.inj mark⟩
      · rw [composeAcute_cons letter, ih]

theorem composeAcute_decomposeAcute (text : Text) :
    composeAcute (decomposeAcute text) = composeAcute text := by
  induction text using acute_induction with
  | nil => rfl
  | one c =>
      by_cases whole : c = 'é'
      · subst whole
        rfl
      · rw [decomposeAcute, List.flatMap_singleton, if_neg whole]
  | joined rest ih =>
      rw [composeAcute_joined, ← ih]
      exact composeAcute_joined _
  | apart c d rest neither ih =>
      rw [composeAcute_apart neither, ← ih]
      by_cases whole : c = 'é'
      · subst whole
        rfl
      · have step : decomposeAcute (c :: d :: rest) = c :: decomposeAcute (d :: rest) := by
          simp [decomposeAcute, whole]
        rw [step]
        by_cases letter : c = 'e'
        · apply composeAcute_cons_of
          intro first
          unfold decomposeAcute at first
          rw [List.flatMap_cons] at first
          split at first
          · cases first
          · exact neither ⟨letter, Option.some.inj first⟩
        · exact composeAcute_cons letter _

theorem acute_laws : UnicodeLaws acuteTables decomposeAcute where
  nfc_space before after blank := ⟨_, blank, composeAcute_space blank before after⟩
  nfc_solid solid c member := by
    rcases mem_composeAcute member with rfl | inside
    · rfl
    · exact solid c inside
  nfc_inked := inked_composeAcute
  nfc_nfc := composeAcute_composeAcute
  nfc_nfd := composeAcute_decomposeAcute
  lower_solid solid := ⟨List.cons_ne_nil _ _, fun low member => List.mem_singleton.mp member ▸ solid⟩
  mark_substitute c := by
    unfold substitute
    split
    · rename_i single
      simp only [List.mem_cons, List.not_mem_nil, or_false] at single
      rcases single with rfl | rfl | rfl | rfl | rfl <;> rfl
    · split
      · rename_i double
        simp only [List.mem_cons, List.not_mem_nil, or_false] at double
        rcases double with rfl | rfl | rfl | rfl | rfl <;> rfl
      · split
        · rename_i dash
          simp only [List.mem_cons, List.not_mem_nil, or_false] at dash
          rcases dash with rfl | rfl | rfl | rfl | rfl | rfl | rfl <;> rfl
        · rfl

/-- A zero-width space between a letter and its accent. -/
def heldApart : Text := ['e', '\u200B', '\u0301']

end Acute

end SP42.Citation

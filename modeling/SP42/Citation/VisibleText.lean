import SP42.Base.Patterns
import SP42.Citation.EditForm
import SP42.Parsoid.Anchors

/-!
The text of a fetched page. Eight patterns take out comments, declarations, scripts and tags, one
after the other, each over all that is left; the entities are decoded and the white space collapsed.
-/
namespace SP42.Citation

open Regex SP42.Patterns

section Patterns

variable (beyond : Char → Bool)

def anything : Pattern Char := .many false 0 none fun _ => true

/-- `[^>]*>`. -/
def toTagEnd (least : Nat) : Pattern Char :=
  .seq (.many true least none (· != '>')) (.one (· == '>'))

def commentPattern : Pattern Char := .seq (literal "<!--") (.seq anything (literal "-->"))

def unterminatedCommentPattern : Pattern Char :=
  .seq (literal "<!--")
    (.seq (.many true 0 none fun _ => true) (.look fun _ behind => behind.isNone))

def declarationPattern : Pattern Char := .seq (literal "<!") (toTagEnd 0)

/-- From the opening tag of the name to the first closing one. -/
def elementPattern (name : Text) : Pattern Char :=
  .seq (literal "<") (.seq (anyCaseWord name) (.seq (edge beyond)
    (.seq anything (.seq (literal "</") (.seq (anyCaseWord name) (literal ">"))))))

def scriptPattern : Pattern Char := elementPattern beyond "script".toList

def stylePattern : Pattern Char := elementPattern beyond "style".toList

def noscriptPattern : Pattern Char := elementPattern beyond "noscript".toList

def blockNames : List Text :=
  ["p", "div", "br", "hr", "li", "ul", "ol", "tr", "td", "th", "h1", "h2", "h3", "h4", "h5", "h6",
    "section", "article", "header", "footer", "table", "blockquote", "pre", "figure",
    "figcaption", "aside", "nav", "main", "dd", "dt", "dl"].map String.toList

def blockTagPattern : Pattern Char :=
  .seq (literal "<") (.seq (.optional (.one (· == '/'))) (.seq (.oneOf (blockNames.map anyCaseWord))
    (.seq (edge beyond) (toTagEnd 0))))

def anyTagPattern : Pattern Char := .seq (literal "<") (toTagEnd 1)

def isHexDigit (c : Char) : Bool := (FormEncoding.hexValue c).isSome

def entityPattern : Pattern Char :=
  .seq (literal "&") (.seq
    (.group (.oneOf
      [.seq (literal "#")
          (.seq (.one fun c => c == 'x' || c == 'X') (.many true 1 none isHexDigit)),
        .seq (literal "#") (.many true 1 none Char.isDigit),
        .seq (.one Char.isAlpha) (.many true 1 none Char.isAlphanum)]))
    (literal ";"))

def whitespacePattern : Pattern Char := .many true 1 none Text.isWhitespace

end Patterns

section Entities

def namedEntities : List (String × Char) :=
  [("amp", '&'), ("lt", '<'), ("gt", '>'), ("quot", '"'), ("apos", '\x27'), ("nbsp", '\u00a0'),
    ("mdash", '—'), ("ndash", '–'), ("hellip", '…'), ("lsquo", '‘'), ("rsquo", '’'),
    ("ldquo", '“'), ("rdquo", '”'), ("laquo", '«'), ("raquo", '»'), ("middot", '·'), ("deg", '°'),
    ("copy", '©'), ("reg", '®'), ("trade", '™'), ("euro", '€'), ("pound", '£'), ("cent", '¢'),
    ("sect", '§'), ("para", '¶'), ("times", '×'), ("divide", '÷'), ("frac12", '½'),
    ("frac14", '¼'), ("frac34", '¾'), ("agrave", 'à'), ("aacute", 'á'), ("acirc", 'â'),
    ("atilde", 'ã'), ("auml", 'ä'), ("aring", 'å'), ("ccedil", 'ç'), ("egrave", 'è'),
    ("eacute", 'é'), ("ecirc", 'ê'), ("euml", 'ë'), ("igrave", 'ì'), ("iacute", 'í'),
    ("icirc", 'î'), ("iuml", 'ï'), ("ntilde", 'ñ'), ("ograve", 'ò'), ("oacute", 'ó'),
    ("ocirc", 'ô'), ("otilde", 'õ'), ("ouml", 'ö'), ("oslash", 'ø'), ("ugrave", 'ù'),
    ("uacute", 'ú'), ("ucirc", 'û'), ("uuml", 'ü'), ("yacute", 'ý'), ("szlig", 'ß'),
    ("Agrave", 'À'), ("Aacute", 'Á'), ("Eacute", 'É'), ("Egrave", 'È'), ("Ccedil", 'Ç'),
    ("Ntilde", 'Ñ'), ("Ouml", 'Ö'), ("Uuml", 'Ü')]

def namedEntity (name : Text) : Option Char := namedEntities.lookup (String.ofList name)

/-- What a reference stands for; one that is not known is written out again. -/
def decodeOne (inner : Text) : Text :=
  let asWritten := '&' :: inner ++ [';']
  match inner with
  | '#' :: code =>
      match referenceCode code with
      | some n => if n.isValidChar then [Char.ofNat n] else asWritten
      | none => asWritten
  | _ => ((namedEntity inner).map fun c => [c]).getD asWritten

def decodeReference (found : Match Char) : Text := decodeOne (found.groups.head?.getD [])

def decodeEntities (text : Text) : Text := entityPattern.replaceAll decodeReference text

end Entities

variable (beyond : Char → Bool)

/-- Every match of the pattern becomes the text. -/
def replaced (pattern : Pattern Char) (replacement text : Text) : Text :=
  pattern.replaceAll (fun _ => replacement) text

/-- The patterns that leave a space, in their order. -/
def spacedPatterns : List (Pattern Char) :=
  [commentPattern, unterminatedCommentPattern, declarationPattern, scriptPattern beyond,
    stylePattern beyond, noscriptPattern beyond, blockTagPattern beyond]

def htmlToText (html : Text) : Text :=
  let spaced := (spacedPatterns beyond).foldl (fun text pattern => replaced pattern [' '] text) html
  let decoded := decodeEntities (replaced anyTagPattern [] spaced)
  Text.trim (replaced whitespacePattern [' '] decoded)

end SP42.Citation

/-!
What the extraction shows of a document: the text outside scripts, styles and comments, with a
space where one of them was taken out. The patterns know nothing of each other, so this needs that
no attribute value and no script looks like markup to a pattern that runs before it is gone.
-/
namespace SP42.Citation

open Regex SP42.Patterns

/-- The elements whose contents are no text. -/
inductive RawKind where
  | script
  | style
  | noscript
  deriving DecidableEq

def RawKind.name : RawKind → Text
  | script => "script".toList
  | style => "style".toList
  | noscript => "noscript".toList

abbrev TagAttributes := List (Text × Text)

/-- A document: what stands first, and what follows it. -/
inductive Document where
  | done
  | text (shown : Text) (next : Document)
  | comment (hidden : Text) (next : Document)
  | element (name : Text) (attributes : TagAttributes) (children next : Document)
  | void (name : Text) (attributes : TagAttributes) (next : Document)
  | raw (kind : RawKind) (name : Text) (attributes : TagAttributes) (content : Text)
      (next : Document)

section Writing

def escapeChar (c : Char) : Text :=
  if c = '&' then "&amp;".toList
  else if c = '<' then "&lt;".toList
  else if c = '>' then "&gt;".toList
  else [c]

def escape (text : Text) : Text := text.flatMap escapeChar

def attributeText (attr : Text × Text) : Text :=
  ' ' :: attr.1 ++ '=' :: '"' :: (attr.2 ++ ['"'])

/-- An opening tag behind its angle bracket. -/
def tagBody (name : Text) (attributes : TagAttributes) : Text :=
  name ++ (attributes.flatMap attributeText ++ ['>'])

/-- What a page is written of. -/
inductive Token where
  | text (shown : Text)
  | comment (hidden : Text)
  | openTag (name : Text) (attributes : TagAttributes)
  | closeTag (name : Text)
  | raw (kind : RawKind) (name : Text) (attributes : TagAttributes) (content : Text)

def Token.source : Token → Text
  | text shown => escape shown
  | comment hidden => "<!--".toList ++ (hidden ++ "-->".toList)
  | openTag name attributes => '<' :: tagBody name attributes
  | closeTag name => '<' :: '/' :: (name ++ ['>'])
  | raw _ name attributes content =>
      '<' :: tagBody name attributes ++ (content ++ '<' :: '/' :: (name ++ ['>']))

theorem Token.source_comment (hidden : Text) :
    (comment hidden).source = "<!--".toList ++ (hidden ++ "-->".toList) := rfl

theorem Token.source_openTag (name : Text) (attributes : TagAttributes) :
    (openTag name attributes).source = '<' :: tagBody name attributes := rfl

theorem Token.source_closeTag (name : Text) :
    (closeTag name).source = '<' :: '/' :: (name ++ ['>']) := rfl

theorem Token.source_raw (kind : RawKind) (name : Text) (attributes : TagAttributes)
    (content : Text) : (raw kind name attributes content).source =
      '<' :: tagBody name attributes ++ (content ++ '<' :: '/' :: (name ++ ['>'])) := rfl

def Document.tokens : Document → List Token
  | done => []
  | text shown next => .text shown :: next.tokens
  | comment hidden next => .comment hidden :: next.tokens
  | element name attributes children next =>
      .openTag name attributes :: children.tokens ++ .closeTag name :: next.tokens
  | void name attributes next => .openTag name attributes :: next.tokens
  | raw kind name attributes content next => .raw kind name attributes content :: next.tokens

/-- The page of a document. -/
def Document.html (document : Document) : Text := document.tokens.flatMap Token.source

end Writing

section Showing

variable (beyond : Char → Bool)

/-- The name up to the first character that is no letter of a word. -/
def tagWord (name : Text) : Text := name.takeWhile (isWord beyond)

def isBlock (name : Text) : Bool := blockNames.any fun block => caseless block (tagWord beyond name)

/-- The space at the edge of a block. -/
def blockEdge (name : Text) : Text := if isBlock beyond name then [' '] else []

/-- The text outside comments, scripts and styles, with a gap where these stand. -/
def Document.shown (gap : Text) : Document → Text
  | done => []
  | text shown next => shown ++ next.shown gap
  | comment _ next => gap ++ next.shown gap
  | element name _ children next =>
      blockEdge beyond name ++ (children.shown gap ++ (blockEdge beyond name ++ next.shown gap))
  | void name _ next => blockEdge beyond name ++ next.shown gap
  | raw _ _ _ _ next => gap ++ next.shown gap

/-- The words of a text, a space between them. -/
def collapsed (text : Text) : Text := Parsoid.normalizeAnchorText text

end Showing

section Tame

variable (beyond : Char → Bool)

/-- A character that begins markup behind an angle bracket. -/
def opensMarkup (c : Char) : Bool :=
  c == '!' || c == '/' || c.isAlpha || c == '\u017F' || c == '\u212A'

/-- Nothing in the text looks like the begin of markup. -/
def Harmless (text : Text) : Prop := ∀ c, opensMarkup c = true → ¬ ['<', c] <:+: text

/-- The text opens no element of the name. -/
def OpensNo (name text : Text) : Prop :=
  ∀ before rest, text = before ++ '<' :: rest →
    caseless name (rest.takeWhile (isWord beyond)) = false

/-- The text has no end tag of the name. -/
def ClosesNo (name text : Text) : Prop :=
  ∀ before word rest, text = before ++ '<' :: '/' :: (word ++ '>' :: rest) →
    caseless name word = false

structure TagName (name : Text) : Prop where
  letter : name.head?.any Char.isAlpha = true
  plain : ∀ c ∈ name, c ≠ '<' ∧ c ≠ '>'

/-- The kinds that are taken out before this one. -/
def RawKind.earlier : RawKind → List RawKind
  | script => []
  | style => [.script]
  | noscript => [.style, .script]

/-- A token that no pattern mistakes for another one. -/
inductive Token.Tame : Token → Prop
  | text (shown : Text) : Tame (.text shown)
  | comment {hidden : Text} (open_ : ¬ "-->".toList <:+: hidden) : Tame (.comment hidden)
  | openTag {name : Text} {attributes : TagAttributes} (named : TagName name)
      (ordinary : ∀ kind : RawKind, caseless kind.name (tagWord beyond name) = false)
      (names : ∀ attr ∈ attributes, ∀ c ∈ attr.1, c ≠ '<' ∧ c ≠ '>')
      (values : ∀ attr ∈ attributes, Harmless attr.2 ∧ '>' ∉ attr.2) :
      Tame (.openTag name attributes)
  | closeTag {name : Text} (named : TagName name) : Tame (.closeTag name)
  | raw {kind : RawKind} {name content : Text} {attributes : TagAttributes}
      (named : caseless kind.name name = true)
      (names : ∀ attr ∈ attributes, ∀ c ∈ attr.1, c ≠ '<' ∧ c ≠ '>')
      (values : ∀ attr ∈ attributes, Harmless attr.2)
      (closes : ClosesNo kind.name content) (declares : ¬ ['<', '!'] <:+: content)
      (opens : ∀ other ∈ kind.earlier, OpensNo beyond other.name content) :
      Tame (.raw kind name attributes content)

/-- A document whose tokens are tame. -/
def Document.Tame (document : Document) : Prop := ∀ token ∈ document.tokens, token.Tame beyond

end Tame

section Guarded

variable {beyond : Char → Bool} {bad : Text → Bool} {pattern : Pattern Char}

/-- No angle bracket of the piece is followed by what is bad. -/
def Guarded (bad : Text → Bool) (piece : Text) : Prop :=
  ∀ a b rest, piece = a ++ '<' :: b → bad (b ++ rest) = false

/-- The pattern matches only at an angle bracket, before what is bad. -/
structure OpensAt (pattern : Pattern Char) (bad : Text → Bool) : Prop where
  first : ∀ before c rest, c ≠ '<' → pattern.runs before (c :: rest) = []
  second : ∀ before text, bad text = false → pattern.runs before ('<' :: text) = []

theorem guarded_of_plain {piece : Text} (plain : '<' ∉ piece) : Guarded bad piece := by
  intro a b rest whole
  exact absurd (whole ▸ List.mem_append_right a List.mem_cons_self) plain

theorem Guarded.append {piece other : Text} (here : Guarded bad piece) (there : Guarded bad other) :
    Guarded bad (piece ++ other) := by
  intro a b rest whole
  rcases List.append_eq_append_iff.mp whole with ⟨more, rfl, later⟩ | ⟨more, rfl, later⟩
  · exact there more b rest later
  · cases more with
    | nil => exact there [] b rest later.symm
    | cons c more =>
        obtain ⟨rfl, rfl⟩ := List.cons.inj later
        have joined := here a more (other ++ rest) rfl
        rwa [← List.append_assoc] at joined

theorem Guarded.bracket {piece : Text} (here : ∀ rest, bad (piece ++ rest) = false)
    (later : Guarded bad piece) : Guarded bad ('<' :: piece) := by
  intro a b rest whole
  cases a with
  | nil =>
      obtain ⟨-, rfl⟩ := List.cons.inj whole
      exact here rest
  | cons c a => exact later a b rest (List.cons.inj whole).2

theorem inert_of_guarded {piece : Text} (opens : OpensAt pattern bad)
    (guarded : Guarded bad piece) : Pattern.Inert pattern piece := by
  intro before rest a b whole some_
  obtain ⟨c, b, rfl⟩ := List.exists_cons_of_ne_nil some_
  by_cases same : c = '<'
  · subst same
    exact opens.second _ _ (guarded a b rest whole)
  · exact opens.first _ c _ same

/-- What is bad begins like markup. -/
def Markup (bad : Text → Bool) : Prop :=
  ∀ text, bad text = true → text.head?.any opensMarkup = true

theorem Harmless.guarded {text : Text} {margin : Char} {rest : Text} (harmless : Harmless text)
    (markup : Markup bad) (plain : opensMarkup margin = false) (other : margin ≠ '<')
    (later : Guarded bad rest) : Guarded bad (text ++ margin :: rest) := by
  intro a b behind whole
  refine eq_false_of_ne_true fun opened => ?_
  have begins := markup _ opened
  rcases List.append_eq_append_iff.mp whole with ⟨more, rfl, behind_⟩ | ⟨more, rfl, before⟩
  · cases more with
    | nil => exact other (List.cons.inj behind_).1
    | cons c more =>
        rw [later more b behind (List.cons.inj behind_).2] at opened
        cases opened
  · cases more with
    | nil => exact other (List.cons.inj before).1.symm
    | cons c more =>
        obtain ⟨rfl, rfl⟩ := List.cons.inj before
        cases more with
        | nil =>
            have same : opensMarkup margin = true := begins
            rw [plain] at same
            cases same
        | cons d more => exact harmless d begins ⟨a, more, by simp⟩

/-- The attributes of a tag, and what closes it. -/
theorem attributes_guarded {attributes : TagAttributes} (markup : Markup bad)
    (names : ∀ attr ∈ attributes, ∀ c ∈ attr.1, c ≠ '<' ∧ c ≠ '>')
    (values : ∀ attr ∈ attributes, Harmless attr.2) :
    Guarded bad (attributes.flatMap attributeText ++ ['>']) := by
  induction attributes with
  | nil => exact guarded_of_plain (by decide)
  | cons attr attributes ih =>
      have later := ih (fun other member => names other (List.mem_cons_of_mem _ member))
        fun other member => values other (List.mem_cons_of_mem _ member)
      have name : Guarded bad (' ' :: attr.1 ++ ['=', '"']) := by
        refine guarded_of_plain fun member => ?_
        rcases List.mem_append.mp member with inside | margin
        · rcases List.mem_cons.mp inside with space | inside
          · exact absurd space (by decide)
          · exact (names attr List.mem_cons_self '<' inside).1 rfl
        · exact absurd margin (by decide)
      have value : Guarded bad (attr.2 ++ '"' :: (attributes.flatMap attributeText ++ ['>'])) :=
        (values attr List.mem_cons_self).guarded markup rfl (by decide) later
      have whole := name.append value
      rw [List.flatMap_cons, attributeText]
      simpa using whole

end Guarded

section Opening

variable {beyond : Char → Bool}

/-- What a pattern of comments and declarations asks for behind an angle bracket. -/
def bang (text : Text) : Bool := text.head? == some '!'

/-- A word that is one of the names. -/
def named (beyond : Char → Bool) (names : List Text) (text : Text) : Bool :=
  names.any fun name => caseless name (tagWord beyond text)

/-- A block name, also behind a slash. -/
def blockOpens (beyond : Char → Bool) (text : Text) : Bool :=
  isBlock beyond text || (text.head? == some '/' && isBlock beyond text.tail)

theorem bang_markup : Markup bang := by
  intro text opened
  rw [bang, beq_iff_eq] at opened
  rw [opened]
  rfl

theorem letter_cases : ∀ n < 128, (Char.ofNat n).isAlpha = true →
    (Char.ofNat n).toLower.isAlpha = true ∧ (Char.ofNat n).toUpper.isAlpha = true := by
  decide +kernel

theorem opensMarkup_of_anyCase {c d : Char} (letter : c.isAlpha = true)
    (same : anyCase c d = true) : opensMarkup d = true := by
  have plain : c.isAlphanum = true := by rw [Char.isAlphanum, letter, Bool.true_or]
  have known := letter_cases c.toNat (plain_small plain)
  rw [Char.ofNat_toNat] at known
  obtain ⟨lower, upper⟩ := known letter
  simp only [anyCase, Bool.or_eq_true, Bool.and_eq_true, beq_iff_eq] at same
  rcases same with ((rfl | rfl) | ⟨-, rfl⟩) | ⟨-, rfl⟩
  · simp [opensMarkup, lower]
  · simp [opensMarkup, upper]
  · rfl
  · rfl

theorem named_markup {names : List Text}
    (letters : ∀ name ∈ names, name.head?.any Char.isAlpha = true) :
    Markup (named beyond names) := by
  intro text opened
  obtain ⟨name, member, same⟩ := List.any_eq_true.mp opened
  have letter := letters name member
  rw [tagWord] at same
  cases name with
  | nil => cases letter
  | cons c name =>
      cases text with
      | nil => cases same
      | cons d text =>
          cases inside : isWord beyond d with
          | false =>
              rw [List.takeWhile_cons_of_neg (by simp [inside])] at same
              cases same
          | true =>
              rw [List.takeWhile_cons_of_pos inside, caseless, Bool.and_eq_true] at same
              exact opensMarkup_of_anyCase letter same.1

theorem block_letters : ∀ name ∈ blockNames, name.head?.any Char.isAlpha = true := by decide

theorem blockOpens_markup : Markup (blockOpens beyond) := by
  intro text opened
  rcases (Bool.or_eq_true _ _).mp opened with word | slash
  · exact named_markup block_letters text word
  · rw [Bool.and_eq_true, beq_iff_eq] at slash
    rw [slash.1]
    rfl

/-- A pattern that begins with a word beginning with an angle bracket. -/
theorem opensAt_word {word : Text} {second : Pattern Char} :
    OpensAt (.seq (.word ('<' :: '!' :: word)) second) bang where
  first before c rest other := by
    refine Pattern.runs_word_seq_of_not fun begins => other ?_
    exact (List.cons_prefix_cons.mp begins).1.symm
  second before text other := by
    refine Pattern.runs_word_seq_of_not fun begins => ?_
    obtain ⟨-, rest⟩ := List.cons_prefix_cons.mp begins
    obtain ⟨more, rfl⟩ := rest
    cases other

theorem runs_bracket {second : Pattern Char} {before : Option Char} (text : Text) :
    (Pattern.seq (literal "<") second).runs before ('<' :: text) =
      (second.runs (some '<') text).map (Match.behind ['<']) :=
  Pattern.runs_word_seq ['<'] text

theorem runs_no_bracket {second : Pattern Char} {before : Option Char} {c : Char} {rest : Text}
    (other : c ≠ '<') : (Pattern.seq (literal "<") second).runs before (c :: rest) = [] := by
  refine Pattern.runs_word_seq_of_not fun begins => other ?_
  exact (List.cons_prefix_cons.mp begins).1.symm

theorem opensAt_element {name : Text} (plain : name.all Char.isAlphanum = true)
    (inhabited : name ≠ []) : OpensAt (elementPattern beyond name) (named beyond [name]) where
  first before c rest other := runs_no_bracket other
  second before text other := by
    have differ : caseless name (text.takeWhile (isWord beyond)) = false := by
      simpa [named, tagWord] using other
    rw [elementPattern, runs_bracket, runs_name plain inhabited, differ,
      if_neg Bool.false_ne_true, List.map_nil]

theorem block_plain : ∀ name ∈ blockNames, name.all Char.isAlphanum = true ∧ name ≠ [] := by decide

/-- The block names up to the edge of a word: each that is the word gives the same match. -/
theorem runs_blockNames {second : Pattern Char} {before : Option Char} (text : Text) :
    (Pattern.seq (.oneOf (blockNames.map anyCaseWord))
      (.seq (edge beyond) second)).runs before text =
      blockNames.flatMap fun name =>
        if caseless name (tagWord beyond text) then
          (second.runs ((tagWord beyond text).getLast?.or before)
            (text.dropWhile (isWord beyond))).map (Match.behind (tagWord beyond text))
        else [] := by
  rw [Pattern.runs_oneOf_seq, List.flatMap_map]
  refine List.flatMap_congr fun name member => ?_
  obtain ⟨plain, inhabited⟩ := block_plain name member
  exact runs_name plain inhabited

theorem runs_no_block {second : Pattern Char} {before : Option Char} {text : Text}
    (other : isBlock beyond text = false) :
    (Pattern.seq (.oneOf (blockNames.map anyCaseWord))
      (.seq (edge beyond) second)).runs before text =
      [] := by
  rw [runs_blockNames, List.flatMap_eq_nil_iff]
  intro name member
  refine if_neg fun same => ?_
  have one : isBlock beyond text = true := List.any_eq_true.mpr ⟨name, member, same⟩
  rw [other] at one
  cases one

theorem opensAt_block : OpensAt (blockTagPattern beyond) (blockOpens beyond) where
  first before c rest other := runs_no_bracket other
  second before text other := by
    rw [blockOpens, Bool.or_eq_false_iff] at other
    rw [blockTagPattern, runs_bracket, Pattern.optional, Pattern.runs_alt_seq,
      Pattern.runs_nothing_seq, runs_no_block other.1, List.append_nil, List.map_eq_nil_iff]
    cases text with
    | nil => rfl
    | cons c rest =>
        rw [Pattern.runs_one_seq]
        split
        · next slash =>
            rw [beq_iff_eq] at slash
            subst slash
            have behind : isBlock beyond rest = false := by simpa using other.2
            rw [runs_no_block behind, List.map_nil]
        · rfl

end Opening

section Words

variable {beyond : Char → Bool}

theorem takeWhile_margin {α : Type} {p : α → Bool} {x : α} (solid : p x = false)
    (text rest : List α) :
    (text ++ x :: rest).takeWhile p = text.takeWhile p := by
  induction text with
  | nil => simp [solid]
  | cons c text ih => simp only [List.cons_append, List.takeWhile_cons, ih]

theorem dropWhile_margin {α : Type} {p : α → Bool} {x : α} (solid : p x = false)
    (text rest : List α) :
    (text ++ x :: rest).dropWhile p = text.dropWhile p ++ x :: rest := by
  induction text with
  | nil => simp [solid]
  | cons c text ih =>
      simp only [List.cons_append, List.dropWhile_cons, ih]
      split <;> rfl

/-- What follows the name of a tag begins with no letter of a word. -/
theorem margin_of_tag (attributes : TagAttributes) (rest : Text) :
    ∃ x behind, (attributes.flatMap attributeText ++ ['>']) ++ rest = x :: behind ∧
      isWord beyond x = false := by
  cases attributes with
  | nil => exact ⟨'>', rest, rfl, rfl⟩
  | cons attr attributes => exact ⟨' ', _, rfl, rfl⟩

theorem tagWord_body (name : Text) (attributes : TagAttributes) (rest : Text) :
    tagWord beyond (tagBody name attributes ++ rest) = tagWord beyond name := by
  obtain ⟨x, behind, whole, solid⟩ := @margin_of_tag beyond attributes rest
  rw [tagWord, tagBody, List.append_assoc, whole, takeWhile_margin solid, tagWord]

theorem isBlock_body (name : Text) (attributes : TagAttributes) (rest : Text) :
    isBlock beyond (tagBody name attributes ++ rest) = isBlock beyond name := by
  unfold isBlock
  rw [tagWord_body]

theorem tagWord_close (name rest : Text) :
    tagWord beyond (name ++ '>' :: rest) = tagWord beyond name :=
  takeWhile_margin rfl name rest

/-- A name in another case is all letters of words. -/
theorem word_of_caseless {name word : Text} (plain : name.all Char.isAlphanum = true)
    (same : caseless name word = true) : ∀ c ∈ word, isWord beyond c = true := by
  induction name generalizing word with
  | nil =>
      cases word with
      | nil => exact nofun
      | cons c word => cases same
  | cons d name ih =>
      cases word with
      | nil => cases same
      | cons c word =>
          rw [List.all_cons, Bool.and_eq_true] at plain
          rw [caseless, Bool.and_eq_true] at same
          intro e member
          rcases List.mem_cons.mp member with rfl | later
          · exact isWord_of_anyCase plain.1 same.1
          · exact ih plain.2 same.2 e later

theorem length_of_caseless {name word : Text} (same : caseless name word = true) :
    word.length = name.length := by
  induction name generalizing word with
  | nil =>
      cases word with
      | nil => rfl
      | cons c word => cases same
  | cons d name ih =>
      cases word with
      | nil => cases same
      | cons c word =>
          rw [caseless, Bool.and_eq_true] at same
          exact congrArg (· + 1) (ih same.2)

theorem RawKind.plain (kind : RawKind) :
    kind.name.all Char.isAlphanum = true ∧ kind.name ≠ [] ∧
      kind.name.head?.any Char.isAlpha = true := by
  cases kind <;> decide

/-- Of two kinds one is taken out before the other. -/
theorem RawKind.ordered {kind other : RawKind} (different : kind ≠ other)
    (notBefore : other ∉ kind.earlier) : kind ∈ other.earlier := by
  revert different notBefore
  cases kind <;> cases other <;> decide

theorem RawKind.eq_of_caseless {kind other : RawKind} {name : Text}
    (here : caseless kind.name name = true) (there : caseless other.name name = true) :
    kind = other := by
  have same := (length_of_caseless here).symm.trans (length_of_caseless there)
  revert same
  cases kind <;> cases other <;> decide

variable {kind : RawKind} {name : Text}

theorem tagWord_raw (same : caseless kind.name name = true) : tagWord beyond name = name :=
  List.takeWhile_eq_self_iff.mpr (word_of_caseless kind.plain.1 same)

/-- The name of a script has no angle bracket. -/
theorem plain_of_raw (same : caseless kind.name name = true) : ∀ c ∈ name, c ≠ '<' ∧ c ≠ '>' := by
  intro c member
  have letter := @word_of_caseless (fun _ => false) _ _ kind.plain.1 same c member
  constructor <;> rintro rfl <;> cases letter

end Words

section Guards

variable {beyond : Char → Bool} {bad : Text → Bool} {name : Text} {attributes : TagAttributes}

theorem tag_guarded (markup : Markup bad) (plain : ∀ c ∈ name, c ≠ '<' ∧ c ≠ '>')
    (names : ∀ attr ∈ attributes, ∀ c ∈ attr.1, c ≠ '<' ∧ c ≠ '>')
    (values : ∀ attr ∈ attributes, Harmless attr.2)
    (here : ∀ rest, bad (tagBody name attributes ++ rest) = false) :
    Guarded bad ('<' :: tagBody name attributes) :=
  .bracket here ((guarded_of_plain fun member => (plain '<' member).1 rfl).append
    (attributes_guarded markup names values))

theorem close_guarded (plain : ∀ c ∈ name, c ≠ '<' ∧ c ≠ '>')
    (here : ∀ rest, bad ('/' :: (name ++ '>' :: rest)) = false) :
    Guarded bad ('<' :: '/' :: (name ++ ['>'])) := by
  refine .bracket (fun rest => ?_) (guarded_of_plain fun member => ?_)
  · simpa using here rest
  · rcases List.mem_cons.mp member with slash | inside
    · exact absurd slash (by decide)
    · rcases List.mem_append.mp inside with letter | last
      · exact (plain '<' letter).1 rfl
      · exact absurd last (by decide)

/-- The contents of a script, where no angle bracket opens what is bad before its end tag. -/
theorem content_guarded {content close : Text}
    (inside : ∀ a b rest, content = a ++ '<' :: b → bad (b ++ '<' :: rest) = false)
    (closes : Guarded bad ('<' :: close)) : Guarded bad (content ++ '<' :: close) := by
  intro a b rest whole
  rcases List.append_eq_append_iff.mp whole with ⟨more, rfl, later⟩ | ⟨more, rfl, later⟩
  · exact closes more b rest later
  · cases more with
    | nil => exact closes [] b rest later.symm
    | cons c more =>
        obtain ⟨rfl, rfl⟩ := List.cons.inj later
        have known := inside a more (close ++ rest) rfl
        simpa using known

theorem escape_plain (shown : Text) : '<' ∉ escape shown := by
  intro member
  obtain ⟨c, -, inside⟩ := List.mem_flatMap.mp member
  unfold escapeChar at inside
  split at inside
  · exact absurd inside (by decide)
  · split at inside
    · exact absurd inside (by decide)
    · split at inside
      · exact absurd inside (by decide)
      · next other _ => exact other (List.mem_singleton.mp inside).symm

end Guards

end SP42.Citation

import SP42.Citation.VisibleText

/-!
The extraction, pattern by pattern: each takes out the tokens of its class and no other one, so that
in the end the visible text is left, decoded once.
-/
namespace SP42.Citation

open Regex SP42.Patterns

section Classes

variable {beyond : Char → Bool}

def Token.isComment : Token → Bool
  | comment _ => true
  | _ => false

def Token.isRaw (kind : RawKind) : Token → Bool
  | raw other _ _ _ => kind == other
  | _ => false

def Token.isBlockTag (beyond : Char → Bool) : Token → Bool
  | openTag name _ => isBlock beyond name
  | closeTag name => isBlock beyond name
  | _ => false

theorem bang_body {name rest : Text} {attributes : TagAttributes}
    (letter : ∀ c ∈ name.head?, c ≠ '!') (inhabited : name ≠ []) :
    bang (tagBody name attributes ++ rest) = false := by
  obtain ⟨c, others, rfl⟩ := List.exists_cons_of_ne_nil inhabited
  simpa [bang, tagBody] using letter c rfl

theorem TagName.head {name : Text} (named : TagName name) :
    ∃ c rest, name = c :: rest ∧ c.isAlpha = true := by
  cases name with
  | nil => cases named.letter
  | cons c rest => exact ⟨c, rest, rfl, named.letter⟩

theorem TagName.head_ne {name : Text} (named : TagName name) {d : Char}
    (other : d.isAlpha = false) :
    ∀ c ∈ name.head?, c ≠ d := by
  obtain ⟨c, rest, rfl, letter⟩ := named.head
  rintro _ ⟨⟩ rfl
  rw [other] at letter
  cases letter

theorem ne_nil_of_raw {kind : RawKind} {name : Text} (same : caseless kind.name name = true) :
    name ≠ [] := by
  rintro rfl
  exact kind.plain.2.1 (List.eq_nil_of_length_eq_zero (length_of_caseless same).symm)

/-- Only a comment begins with what comments and declarations begin with. -/
theorem bang_guarded {token : Token} (tame : token.Tame beyond) (other : token.isComment = false) :
    Guarded bang token.source := by
  cases tame with
  | text shown => exact guarded_of_plain (escape_plain shown)
  | comment open_ => cases other
  | openTag tag ordinary names values =>
      refine tag_guarded bang_markup tag.plain names (fun attr member => (values attr member).1) ?_
      obtain ⟨c, rest, rfl, -⟩ := tag.head
      exact fun rest => bang_body (tag.head_ne (by decide)) (List.cons_ne_nil _ _)
  | closeTag tag => exact close_guarded tag.plain fun rest => rfl
  | @raw kind name content attributes same names values closes declares opens =>
      have plain := plain_of_raw same
      refine (tag_guarded bang_markup plain names values fun rest => ?_).append
        (content_guarded (fun a b rest whole => ?_) (close_guarded plain fun rest => rfl))
      · refine bang_body (fun c first => ?_) (ne_nil_of_raw same)
        have letter := @word_of_caseless beyond _ _ kind.plain.1 same c
          (List.mem_of_mem_head? first)
        rintro rfl
        cases letter
      · cases b with
        | nil => rfl
        | cons c b =>
            refine eq_false_of_ne_true fun opened => declares ?_
            have mark : c = '!' := by simpa [bang] using opened
            exact ⟨a, b, by rw [whole, mark]; simp⟩

/-- Only an element of the kind begins with its name, once the kinds before it are gone. -/
theorem raw_guarded (kind : RawKind) {token : Token} (tame : token.Tame beyond)
    (notComment : token.isComment = false) (other : token.isRaw kind = false)
    (gone : ∀ earlier ∈ kind.earlier, token.isRaw earlier = false) :
    Guarded (named beyond [kind.name]) token.source := by
  have markup : Markup (named beyond [kind.name]) := by
    refine named_markup fun name member => ?_
    rw [List.mem_singleton.mp member]
    exact kind.plain.2.2
  have slash (rest : Text) : named beyond [kind.name] ('/' :: rest) = false := by
    cases kind <;> rfl
  cases tame with
  | text shown => exact guarded_of_plain (escape_plain shown)
  | comment open_ => cases notComment
  | openTag tag ordinary names values =>
      refine tag_guarded markup tag.plain names (fun attr member => (values attr member).1) ?_
      intro rest
      simpa [named, tagWord_body] using ordinary kind
  | closeTag tag => exact close_guarded tag.plain fun rest => slash _
  | @raw found name content attributes same names values closes declares opens =>
      have different : kind ≠ found := by simpa [Token.isRaw] using other
      have before : kind ∈ found.earlier := by
        refine RawKind.ordered different fun earlier => ?_
        have here := gone found earlier
        simp [Token.isRaw] at here
      have plain := plain_of_raw same
      refine (tag_guarded markup plain names values fun rest => ?_).append
        (content_guarded (fun a b rest whole => ?_) (close_guarded plain fun rest => slash _))
      · refine eq_false_of_ne_true fun opened => different ?_
        have here : caseless kind.name name = true := by
          simpa [named, tagWord_body, tagWord_raw same] using opened
        exact RawKind.eq_of_caseless here same
      · have known := opens kind before a b whole
        have solid : isWord beyond '<' = false := rfl
        simpa [named, tagWord, takeWhile_margin solid] using known

/-- Only the tag of a block begins with a block name, once comments and scripts are gone. -/
theorem block_guarded {token : Token} (tame : token.Tame beyond)
    (notComment : token.isComment = false) (notRaw : ∀ kind, token.isRaw kind = false)
    (other : token.isBlockTag beyond = false) : Guarded (blockOpens beyond) token.source := by
  cases tame with
  | text shown => exact guarded_of_plain (escape_plain shown)
  | comment open_ => cases notComment
  | @openTag name attributes tag ordinary names values =>
      refine tag_guarded blockOpens_markup tag.plain names
        (fun attr member => (values attr member).1) fun rest => ?_
      have inline_ : isBlock beyond name = false := other
      obtain ⟨c, letters, whole, -⟩ := tag.head
      have first := tag.head_ne (d := '/') (by decide) c (by rw [whole]; rfl)
      rw [blockOpens, isBlock_body, inline_, Bool.false_or, Bool.and_eq_false_iff]
      left
      rw [whole]
      simpa [tagBody] using first
  | @closeTag name tag =>
      refine close_guarded tag.plain fun rest => ?_
      have inline_ : isBlock beyond name = false := other
      have slash : isBlock beyond ('/' :: (name ++ '>' :: rest)) = false := rfl
      rw [blockOpens, slash, Bool.false_or, Bool.and_eq_false_iff]
      right
      rw [List.tail_cons, ← inline_]
      unfold isBlock
      rw [tagWord_close]
  | @raw kind name content attributes same names values closes declares opens =>
      have here := notRaw kind
      simp [Token.isRaw] at here

end Classes

section Replaced

variable {beyond : Char → Bool} {before : Option Char} {other : Text}

/-- The shortest way to the end of a comment. -/
theorem comment_replaces {hidden : Text} (closes : ¬ "-->".toList <:+: hidden) :
    Pattern.Replaces commentPattern (fun _ => other) (Token.comment hidden).source other := by
  refine ⟨List.cons_ne_nil _ _, fun before rest => ?_⟩
  have ends : ((literal "-->").runs (hidden.getLast?.or (some '-')) ("-->".toList ++ rest)).head? =
      some ⟨"-->".toList, [], rest⟩ := by
    rw [literal, Pattern.runs_word, if_pos (List.prefix_append _ _), List.drop_left]
    rfl
  have shortest := Pattern.head?_lazy (fun a b whole some_ => ?_) ends
  · rw [Token.source_comment, commentPattern, literal, List.append_assoc, List.append_assoc,
      Pattern.runs_word_seq, List.head?_map]
    have last : ("<!--".toList.getLast?.or before) = some '-' := rfl
    rw [last, anything, shortest]
    exact ⟨_, rfl, by simp [Match.behind], rfl⟩
  · rw [literal, Pattern.runs_word]
    refine if_neg fun begins => closes ?_
    cases b with
    | nil => exact absurd rfl some_
    | cons c b =>
        cases b with
        | nil => simp at begins
        | cons d b =>
            cases b with
            | nil => simp at begins
            | cons e b =>
                have three : c = '-' ∧ d = '-' ∧ e = '>' := by
                  simpa [eq_comm] using begins
                obtain ⟨rfl, rfl, rfl⟩ := three
                exact ⟨a, b, by rw [whole]; simp⟩

def closePattern (name : Text) : Pattern Char :=
  .seq (literal "</") (.seq (anyCaseWord name) (literal ">"))

theorem close_runs {name word : Text} (same : caseless name word = true) (rest : Text) :
    (closePattern name).runs before ('<' :: '/' :: (word ++ '>' :: rest)) =
      [⟨'<' :: '/' :: (word ++ ['>']), [], rest⟩] := by
  have opened : (closePattern name).runs before ("</".toList ++ (word ++ '>' :: rest)) = _ :=
    Pattern.runs_word_seq "</".toList (word ++ '>' :: rest)
  have ends : ∀ before : Option Char,
      (literal ">").runs before ('>' :: rest) = [⟨['>'], [], rest⟩] := by
    intro before
    rw [literal, Pattern.runs_word, if_pos (by exact ⟨rest, rfl⟩)]
    rfl
  rw [runs_caseless word same, ends] at opened
  exact opened

theorem closes_of_runs {name text : Text} (some_ : (closePattern name).runs before text ≠ []) :
    ∃ word rest, text = '<' :: '/' :: (word ++ '>' :: rest) ∧ caseless name word = true := by
  obtain ⟨inner, rfl, named⟩ := Pattern.runs_word_seq_ne_nil.mp some_
  obtain ⟨word, rest, rfl, same, last⟩ := caseless_of_runs named
  rw [literal, Pattern.runs_word] at last
  split at last
  · next ends =>
      obtain ⟨behind, rfl⟩ := ends
      exact ⟨word, behind, rfl, same⟩
  · exact absurd rfl last

/-- An end tag has no angle bracket but its first one. -/
theorem close_inside {kind : RawKind} {word b rest more : Text}
    (same : caseless kind.name word = true) (some_ : b ≠ [])
    (whole : b ++ '<' :: rest = '<' :: '/' :: (word ++ '>' :: more)) :
    ∃ behind, b = '<' :: '/' :: (word ++ '>' :: behind) := by
  obtain ⟨c, b, rfl⟩ := List.exists_cons_of_ne_nil some_
  have later : b ++ '<' :: rest = '/' :: (word ++ '>' :: more) := (List.cons.inj whole).2
  obtain ⟨rfl, -⟩ := List.cons.inj whole
  have split : (b ++ '<' :: rest) = ('/' :: (word ++ ['>'])) ++ more := by
    rw [later]
    simp
  rcases List.append_eq_append_iff.mp split with ⟨between, front, back⟩ | ⟨between, front, -⟩
  · cases between with
    | nil =>
        refine ⟨[], ?_⟩
        rw [List.append_nil] at front
        rw [← front]
    | cons d between =>
        have bracket : '<' ∈ '/' :: (word ++ ['>']) := by
          rw [front, (List.cons.inj back).1]
          simp
        rcases List.mem_cons.mp bracket with slash | inner
        · exact absurd slash (by decide)
        · rcases List.mem_append.mp inner with letter | last
          · exact absurd rfl (plain_of_raw same '<' letter).1
          · exact absurd last (by decide)
  · exact ⟨between, by rw [front]; simp⟩

theorem head?_lazy_close {kind : RawKind} {name skipped rest : Text}
    (same : caseless kind.name name = true)
    (none_ : ∀ a w u, skipped = a ++ '<' :: '/' :: (w ++ '>' :: u) → caseless kind.name w = false) :
    ((Pattern.seq anything (closePattern kind.name)).runs before
      (skipped ++ '<' :: '/' :: (name ++ '>' :: rest))).head? =
        some ⟨skipped ++ '<' :: '/' :: (name ++ ['>']), [], rest⟩ := by
  refine Pattern.head?_lazy (fun a b whole some_ => ?_) (congrArg List.head? (close_runs same rest))
  by_contra runs_
  obtain ⟨w, more, shape, found⟩ := closes_of_runs runs_
  obtain ⟨behind, rfl⟩ := close_inside found some_ shape
  rw [none_ a w behind whole] at found
  cases found

/-- The contents of a script up to its end tag, behind the name in its opening tag. -/
theorem raw_closes {kind : RawKind} {content : Text} {attributes : TagAttributes}
    (names : ∀ attr ∈ attributes, ∀ c ∈ attr.1, c ≠ '<' ∧ c ≠ '>')
    (values : ∀ attr ∈ attributes, Harmless attr.2) (closes : ClosesNo kind.name content) :
    ∀ a w u, (attributes.flatMap attributeText ++ ['>']) ++ content =
      a ++ '<' :: '/' :: (w ++ '>' :: u) → caseless kind.name w = false := by
  intro a w u whole
  have slash : Markup fun text => text.head? == some '/' := by
    intro text opened
    rw [beq_iff_eq] at opened
    rw [opened]
    rfl
  have guarded := attributes_guarded slash names values
  rcases List.append_eq_append_iff.mp whole with ⟨more, rfl, later⟩ | ⟨more, front, later⟩
  · exact closes more w u later
  · cases more with
    | nil => exact closes [] w u later.symm
    | cons c more =>
        have bracket := (List.cons.inj later).1
        subst bracket
        have opened := guarded a more content front
        have tail : '/' :: (w ++ '>' :: u) = more ++ content := (List.cons.inj later).2
        rw [← tail] at opened
        cases opened

theorem raw_replaces {kind : RawKind} {name content : Text} {attributes : TagAttributes}
    (same : caseless kind.name name = true)
    (names : ∀ attr ∈ attributes, ∀ c ∈ attr.1, c ≠ '<' ∧ c ≠ '>')
    (values : ∀ attr ∈ attributes, Harmless attr.2) (closes : ClosesNo kind.name content) :
    Pattern.Replaces (elementPattern beyond kind.name) (fun _ => other)
      (Token.raw kind name attributes content).source other := by
  refine ⟨List.cons_ne_nil _ _, fun before rest => ?_⟩
  obtain ⟨x, behind, margin, solid⟩ := @margin_of_tag beyond attributes
    (content ++ '<' :: '/' :: (name ++ '>' :: rest))
  have source : (Token.raw kind name attributes content).source ++ rest =
      '<' :: (name ++ x :: behind) := by
    rw [← margin]
    simp [Token.source_raw, tagBody]
  have word := @tagWord_raw beyond _ _ same
  have closed := @head?_lazy_close (name.getLast?.or (some '<')) kind name _ rest same
    (raw_closes names values closes)
  rw [List.append_assoc, margin] at closed
  rw [source, elementPattern, runs_bracket, runs_name kind.plain.1 kind.plain.2.1,
    takeWhile_margin solid, dropWhile_margin solid]
  rw [tagWord] at word
  have all : name.dropWhile (isWord beyond) = [] := by
    have parts := List.takeWhile_append_dropWhile (p := isWord beyond) (l := name)
    rw [word] at parts
    simpa using parts
  rw [word, all, List.nil_append, if_pos same, List.head?_map, List.head?_map]
  rw [closePattern] at closed
  rw [closed]
  exact ⟨_, rfl, by simp [Match.behind, Token.source_raw, tagBody], rfl⟩

/-- A tag runs to the next closing bracket. -/
theorem tagEnd_runs {least : Nat} {piece : Text} (plain : '>' ∉ piece) (long : least ≤ piece.length)
    (rest : Text) :
    (toTagEnd least).runs before (piece ++ '>' :: rest) = [⟨piece ++ ['>'], [], rest⟩] := by
  refine Pattern.runs_many_one (fun d inside => ?_) (fun d member => ?_) long rfl
  · simpa using inside
  · have differ : d ≠ '>' := fun same => plain (same ▸ member)
    simpa using differ

theorem head?_flatMap_if {names : List Text} {test : Text → Bool} {found : List (Match Char)}
    (some_ : names.any test = true) (one : found.head?.isSome = true) :
    (names.flatMap fun name => if test name then found else []).head? = found.head? := by
  induction names with
  | nil => cases some_
  | cons name names ih =>
      rw [List.flatMap_cons, List.head?_append]
      cases here : test name with
      | true =>
          rw [if_pos rfl]
          obtain ⟨first, known⟩ := Option.isSome_iff_exists.mp one
          rw [known, Option.some_or]
      | false =>
          rw [List.any_cons, here, Bool.false_or] at some_
          rw [if_neg Bool.false_ne_true, List.head?_nil, Option.none_or, ih some_]

/-- The rest of a block tag behind the bracket or the slash. -/
theorem block_head {name piece rest : Text} (block : isBlock beyond name = true)
    (plain : '>' ∉ piece) {text : Text} (word : tagWord beyond text = tagWord beyond name)
    (behind : text.dropWhile (isWord beyond) = piece ++ '>' :: rest) :
    ((Pattern.seq (.oneOf (blockNames.map anyCaseWord))
      (.seq (edge beyond) (toTagEnd 0))).runs before
      text).head? = some ⟨tagWord beyond name ++ (piece ++ ['>']), [], rest⟩ := by
  rw [runs_blockNames, behind, word, tagEnd_runs plain (Nat.zero_le _),
    head?_flatMap_if block rfl]
  rfl

/-- The body of a tag: its word, and the rest up to the closing bracket. -/
theorem open_body (beyond : Char → Bool) (name : Text) (attributes : TagAttributes) :
    tagBody name attributes =
      tagWord beyond name ++
        ((name.dropWhile (isWord beyond) ++ attributes.flatMap attributeText) ++
        ['>']) := by
  have parts := List.takeWhile_append_dropWhile (p := isWord beyond) (l := name)
  calc tagBody name attributes
      = (tagWord beyond name ++ name.dropWhile (isWord beyond)) ++
          (attributes.flatMap attributeText ++ ['>']) := by rw [tagWord, parts, tagBody]
    _ = _ := by simp only [List.append_assoc]

theorem dropWhile_body (name : Text) (attributes : TagAttributes) (rest : Text) :
    (tagBody name attributes ++ rest).dropWhile (isWord beyond) =
      (name.dropWhile (isWord beyond) ++ attributes.flatMap attributeText) ++ '>' :: rest := by
  obtain ⟨x, behind, whole, solid⟩ := @margin_of_tag beyond attributes rest
  rw [tagBody, List.append_assoc, whole, dropWhile_margin solid, ← whole]
  simp only [List.append_assoc, List.singleton_append]

theorem plain_of_attributes {attributes : TagAttributes}
    (names : ∀ attr ∈ attributes, ∀ c ∈ attr.1, c ≠ '<' ∧ c ≠ '>')
    (values : ∀ attr ∈ attributes, '>' ∉ attr.2) : '>' ∉ attributes.flatMap attributeText := by
  intro member
  obtain ⟨attr, inside, letter⟩ := List.mem_flatMap.mp member
  have name : '>' ∉ attr.1 := fun there => (names attr inside '>' there).2 rfl
  have value := values attr inside
  rw [attributeText] at letter
  simp [name, value] at letter

section Tags

variable {name : Text} {attributes : TagAttributes} (tag : TagName name)

include tag

theorem drop_plain : '>' ∉ name.dropWhile (isWord beyond) := fun member =>
  (tag.plain '>' ((List.dropWhile_sublist _).subset member)).2 rfl

theorem openTag_block (block : isBlock beyond name = true)
    (plain : '>' ∉ attributes.flatMap attributeText) :
    Pattern.Replaces (blockTagPattern beyond) (fun _ => other)
      (Token.openTag name attributes).source
      other := by
  refine ⟨List.cons_ne_nil _ _, fun before rest => ?_⟩
  obtain ⟨c, letters, whole, letter⟩ := tag.head
  have first : (c == '/') = false := by
    have differ := tag.head_ne (d := '/') (by decide) c (by rw [whole]; rfl)
    simpa using differ
  have piece : '>' ∉ name.dropWhile (isWord beyond) ++ attributes.flatMap attributeText :=
    fun there =>
    (List.mem_append.mp there).elim (drop_plain tag) plain
  have head := @block_head beyond (some '<') name _ rest block piece _
    (tagWord_body name attributes rest) (dropWhile_body name attributes rest)
  rw [← open_body] at head
  have slash : (Pattern.seq (.one (· == '/')) (.seq (.oneOf (blockNames.map anyCaseWord))
      (.seq (edge beyond) (toTagEnd 0)))).runs (some '<')
        (tagBody name attributes ++ rest) = [] := by
    rw [whole, tagBody, List.cons_append, List.cons_append, Pattern.runs_one_seq, first]
    rfl
  rw [Token.source_openTag, List.cons_append, blockTagPattern, runs_bracket, Pattern.optional,
    Pattern.runs_alt_seq, slash, List.nil_append, Pattern.runs_nothing_seq, List.head?_map, head]
  exact ⟨_, rfl, rfl, rfl⟩

theorem closeTag_block (block : isBlock beyond name = true) :
    Pattern.Replaces (blockTagPattern beyond) (fun _ => other) (Token.closeTag name).source
      other := by
  refine ⟨List.cons_ne_nil _ _, fun before rest => ?_⟩
  have head := @block_head beyond (some '/') name _ rest block (drop_plain tag) _
    (tagWord_close name rest) (dropWhile_margin rfl name rest)
  have parts := List.takeWhile_append_dropWhile (p := isWord beyond) (l := name)
  rw [tagWord, ← List.append_assoc, parts] at head
  rw [Token.source_closeTag, List.cons_append, blockTagPattern, runs_bracket, Pattern.optional,
    Pattern.runs_alt_seq, List.cons_append, Pattern.runs_one_seq, if_pos (by rfl), List.map_append,
    List.head?_append, List.head?_map, List.head?_map, List.append_assoc, List.singleton_append,
    head]
  exact ⟨_, rfl, rfl, rfl⟩

theorem openTag_removed (plain : '>' ∉ attributes.flatMap attributeText) :
    Pattern.Replaces anyTagPattern (fun _ => other) (Token.openTag name attributes).source
      other := by
  refine ⟨List.cons_ne_nil _ _, fun before rest => ?_⟩
  obtain ⟨c, letters, whole, -⟩ := tag.head
  have piece : '>' ∉ name ++ attributes.flatMap attributeText := by
    intro there
    rcases List.mem_append.mp there with inside | behind
    · exact (tag.plain '>' inside).2 rfl
    · exact plain behind
  have ends := @tagEnd_runs (some '<') 1 _ piece
    (by rw [whole, List.length_append, List.length_cons]; omega) rest
  have source : (Token.openTag name attributes).source ++ rest =
      '<' :: ((name ++ attributes.flatMap attributeText) ++ '>' :: rest) := by
    simp [Token.source_openTag, tagBody]
  rw [source, anyTagPattern, runs_bracket, ends]
  exact ⟨_, rfl, by simp [Match.behind, Token.source_openTag, tagBody], rfl⟩

theorem closeTag_removed :
    Pattern.Replaces anyTagPattern (fun _ => other) (Token.closeTag name).source other := by
  refine ⟨List.cons_ne_nil _ _, fun before rest => ?_⟩
  have piece : '>' ∉ '/' :: name := by
    intro there
    rcases List.mem_cons.mp there with slash | inside
    · exact absurd slash (by decide)
    · exact (tag.plain '>' inside).2 rfl
  have ends := @tagEnd_runs (some '<') 1 _ piece
    (by rw [List.length_cons]; omega) rest
  have source : (Token.closeTag name).source ++ rest = '<' :: (('/' :: name) ++ '>' :: rest) := by
    simp [Token.source_closeTag]
  rw [source, anyTagPattern, runs_bracket, ends]
  exact ⟨_, rfl, by simp [Match.behind, Token.source_closeTag], rfl⟩

end Tags

end Replaced

end SP42.Citation

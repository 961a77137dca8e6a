import Mathlib
import SP42.Citation.Extraction

/-!
The extraction as a whole: the patterns one after the other, the entities decoded once, and the
white space collapsed. What is left is the visible text, its words one space apart.
-/
namespace SP42.Citation

open Regex SP42.Patterns

section Squeezing

theorem squeezeFrom_true (text : Text) :
    Parsoid.squeezeFrom true text = Parsoid.squeeze (text.dropWhile Text.isWhitespace) := by
  induction text with
  | nil => rfl
  | cons c rest ih =>
      rw [Parsoid.squeezeFrom]
      cases blank : Text.isWhitespace c with
      | true => simpa [blank] using ih
      | false => simp [blank, Parsoid.squeeze, Parsoid.squeezeFrom]

theorem squeezeFrom_laid (spaced : Bool) (text : Text) :
    Parsoid.squeezeFrom spaced text =
      Words.laid ' ' (fun word => !word.isEmpty) id spaced
        (Words.words Text.isWhitespace text) := by
  revert spaced
  refine @Words.words_induction Char Text.isWhitespace (fun text => ∀ spaced,
    Parsoid.squeezeFrom spaced text =
      Words.laid ' ' (fun word => !word.isEmpty) id spaced (Words.words Text.isWhitespace text))
    (fun word solid spaced => ?_) (fun word space rest solid gap ih spaced => ?_) text
  · rw [Words.words_solid solid, Words.laid, if_pos rfl, List.append_nil, id]
    by_cases empty : word = []
    · rw [empty]
      rfl
    · have written := Parsoid.squeezeFrom_solid solid spaced [] empty
      rw [List.append_nil] at written
      rw [written]
      exact List.append_nil word
  · rw [Words.words_spaced solid gap, Words.laid, if_neg (Words.words_ne_nil rest), ← ih, id]
    by_cases empty : word = []
    · subst empty
      rw [List.nil_append, Parsoid.squeezeFrom, if_pos gap]
      cases spaced <;> rfl
    · rw [Parsoid.squeezeFrom_solid solid spaced _ empty, Parsoid.squeeze, Parsoid.squeezeFrom,
        if_pos gap]
      cases spaced <;> simp [empty]

/-- A squeezed and trimmed text is its words. -/
theorem trim_squeeze (text : Text) : Text.trim (Parsoid.squeeze text) = collapsed text := by
  obtain ⟨leading, trailing, split⟩ := @Words.laid_eq Char Char ' ' (fun word => !word.isEmpty) id
    false (Words.words Text.isWhitespace text) fun word _ none_ => by simpa using none_
  have blank : ∀ n, ∀ c ∈ List.replicate n ' ', Text.isWhitespace c = true := by
    intro n c member
    rw [List.eq_of_mem_replicate member]
    rfl
  rw [Parsoid.squeeze, squeezeFrom_laid, split, Text.trim_append_right (blank _),
    Text.trim_append_left (blank _), Words.core, List.map_id]
  refine Text.trim_join fun piece member => ?_
  exact Parsoid.solid_of_mem_splitWhitespace member

/-- The greedy run of a class is all of it. -/
theorem head?_manyRuns {accepts : Char → Bool} {text : Text} :
    ∀ {least : Nat}, least ≤ (text.takeWhile accepts).length →
      (manyRuns true accepts least none text).head? =
        some (text.takeWhile accepts, text.dropWhile accepts) := by
  induction text with
  | nil =>
      intro least long
      rw [manyRuns, if_pos (Nat.le_zero.mp long)]
      rfl
  | cons c rest ih =>
      intro least long
      rw [manyRuns]
      cases taken : accepts c with
      | false =>
          rw [List.takeWhile_cons_of_neg (by simp [taken])] at long ⊢
          rw [List.dropWhile_cons_of_neg (by simp [taken]), if_pos (Nat.le_zero.mp long)]
          rfl
      | true =>
          rw [List.takeWhile_cons_of_pos taken, List.length_cons] at long
          have first := ih (Nat.sub_le_of_le_add long)
          rw [List.takeWhile_cons_of_pos taken, List.dropWhile_cons_of_pos taken]
          simp [first]

theorem replaceFrom_whitespace (text : Text) : ∀ before,
    whitespacePattern.replaceFrom (fun _ => [' ']) 0 before text = Parsoid.squeeze text := by
  induction size : text.length using Nat.strong_induction_on generalizing text with
  | _ n ih =>
      subst size
      intro before
      cases text with
      | nil => rfl
      | cons c rest =>
          rw [Parsoid.squeeze, Parsoid.squeezeFrom, Pattern.replaceFrom, whitespacePattern,
            Pattern.runs, List.head?_map]
          cases blank : Text.isWhitespace c with
          | false =>
              have none_ : manyRuns true Text.isWhitespace 1 none (c :: rest) = [] := by
                rw [manyRuns, blank]
                rfl
              rw [none_, if_neg Bool.false_ne_true]
              exact congrArg (c :: ·) (ih rest.length (Nat.lt_succ_self _) rest rfl _)
          | true =>
              have run := List.takeWhile_cons_of_pos (l := rest) blank
              rw [head?_manyRuns (by rw [run]; exact Nat.succ_le_succ (Nat.zero_le _)), run,
                Option.map_some, if_pos rfl, if_neg Bool.false_ne_true, squeezeFrom_true]
              have parts := List.takeWhile_append_dropWhile (p := Text.isWhitespace) (l := rest)
              have shorter : (rest.dropWhile Text.isWhitespace).length < (c :: rest).length :=
                Nat.lt_succ_of_le (List.dropWhile_sublist _).length_le
              have later := @Pattern.replaceFrom_skip _ whitespacePattern (fun _ => [' '])
                (rest.takeWhile Text.isWhitespace) (rest.dropWhile Text.isWhitespace) (some c)
              rw [parts, ih _ shorter _ rfl] at later
              exact congrArg (' ' :: ·) later

end Squeezing

section Decoding

/-- The reference of a name that the escapes use. -/
theorem entity_head {before : Option Char} {name rest : Text}
    (known : name ∈ [['a', 'm', 'p'], ['l', 't'], ['g', 't']]) :
    (entityPattern.runs before ('&' :: (name ++ ';' :: rest))).head? =
      some ⟨'&' :: (name ++ [';']), [name], rest⟩ := by
  simp only [List.mem_cons, List.not_mem_nil, or_false] at known
  rcases known with rfl | rfl | rfl <;> rfl

theorem entity_replaces {name : Text} {c : Char}
    (known : name ∈ [['a', 'm', 'p'], ['l', 't'], ['g', 't']]) (meaning : decodeOne name = [c]) :
    Pattern.Replaces entityPattern decodeReference ('&' :: (name ++ [';'])) [c] := by
  refine ⟨List.cons_ne_nil _ _, fun before rest => ?_⟩
  have head := @entity_head before name rest known
  refine ⟨⟨'&' :: (name ++ [';']), [name], rest⟩, ?_, rfl, meaning⟩
  rw [← head]
  simp

theorem escapeChar_replaces {c : Char} (special : c = '&' ∨ c = '<' ∨ c = '>') :
    Pattern.Replaces entityPattern decodeReference (escapeChar c) [c] := by
  rcases special with rfl | rfl | rfl
  · exact @entity_replaces ['a', 'm', 'p'] '&' (by decide) (by decide +kernel)
  · exact @entity_replaces ['l', 't'] '<' (by decide) (by decide +kernel)
  · exact @entity_replaces ['g', 't'] '>' (by decide) (by decide +kernel)

theorem decodeEntities_escape (text : Text) : decodeEntities (escape text) = text := by
  have pieces := @Pattern.replaceAll_flatMap _ entityPattern decodeReference Char escapeChar
    (fun c => [c]) text fun c _ => ?_
  · rwa [List.flatMap_singleton'] at pieces
  · by_cases special : c = '&' ∨ c = '<' ∨ c = '>'
    · exact .inr (escapeChar_replaces special)
    · left
      rw [not_or, not_or] at special
      rw [escapeChar, if_neg special.1, if_neg special.2.1, if_neg special.2.2]
      refine ⟨Pattern.inert_nil.cons fun before rest => ?_, rfl⟩
      refine Pattern.runs_word_seq_of_not fun begins => special.1 ?_
      exact (List.cons_prefix_cons.mp begins).1.symm

end Decoding

section Stages

variable {beyond : Char → Bool} {pattern : Pattern Char} {bad : Text → Bool}

/-- The page with a space for each token that is gone. -/
def Token.left (gone : Token → Bool) (token : Token) : Text :=
  if gone token then [' '] else token.source

/-- A pattern takes out the tokens that it matches as a whole, where it matches in no other. -/
theorem replaced_left {tokens : List Token} {gone next : Token → Bool} (opens : OpensAt pattern bad)
    (keeps : ∀ token, gone token = true → next token = true)
    (each : ∀ token ∈ tokens, gone token = false →
      next token = true ∧ Pattern.Replaces pattern (fun _ => [' ']) token.source [' '] ∨
        next token = false ∧ Guarded bad token.source) :
    replaced pattern [' '] (tokens.flatMap (Token.left gone)) =
      tokens.flatMap (Token.left next) := by
  refine Pattern.replaceAll_flatMap fun token member => ?_
  cases here : gone token with
  | true =>
      rw [Token.left, Token.left, if_pos here, if_pos (keeps token here)]
      exact .inl ⟨inert_of_guarded opens (guarded_of_plain (by decide)), rfl⟩
  | false =>
      rw [Token.left, Token.left, if_neg (by simp [here])]
      rcases each token member here with ⟨taken, replaces⟩ | ⟨left, guarded⟩
      · rw [if_pos taken]
        exact .inr replaces
      · rw [if_neg (by simp [left])]
        exact .inl ⟨inert_of_guarded opens guarded, rfl⟩

/-- Comments and the elements of the kinds are gone. -/
def Token.without (kinds : List RawKind) (token : Token) : Bool :=
  token.isComment || kinds.any fun kind => token.isRaw kind

theorem replaced_comments {tokens : List Token} (tame : ∀ token ∈ tokens, token.Tame beyond) :
    replaced commentPattern [' '] (tokens.flatMap Token.source) =
      tokens.flatMap (Token.left (Token.without [])) := by
  have start : tokens.flatMap Token.source = tokens.flatMap (Token.left fun _ => false) := rfl
  rw [start]
  refine replaced_left opensAt_word nofun fun token member _ => ?_
  cases kind : token.isComment with
  | true =>
      cases tame token member with
      | comment closes => exact .inl ⟨rfl, comment_replaces closes⟩
      | _ => cases kind
  | false =>
      exact .inr ⟨by simp [Token.without, kind], bang_guarded (tame token member) kind⟩

/-- Once the comments are gone, nothing begins like one or like a declaration. -/
theorem replaced_bang {word : Text} {second : Pattern Char} {tokens : List Token}
    (tame : ∀ token ∈ tokens, token.Tame beyond) :
    replaced (.seq (.word ('<' :: '!' :: word)) second) [' ']
      (tokens.flatMap (Token.left (Token.without []))) =
        tokens.flatMap (Token.left (Token.without [])) := by
  refine replaced_left opensAt_word (fun _ gone => gone) fun token member gone => .inr ⟨gone, ?_⟩
  exact bang_guarded (tame token member) (Bool.or_eq_false_iff.mp gone).1

theorem replaced_raw {tokens : List Token} (tame : ∀ token ∈ tokens, token.Tame beyond)
    (kind : RawKind) :
    replaced (elementPattern beyond kind.name) [' ']
      (tokens.flatMap (Token.left (Token.without kind.earlier))) =
        tokens.flatMap (Token.left (Token.without (kind :: kind.earlier))) := by
  refine replaced_left (opensAt_element kind.plain.1 kind.plain.2.1) (fun token gone => ?_)
    fun token member gone => ?_
  · rcases (Bool.or_eq_true _ _).mp gone with comment | raw
    · simp [Token.without, comment]
    · rw [Token.without, List.any_cons, raw, Bool.or_true, Bool.or_true]
  · obtain ⟨notComment, notEarlier⟩ := Bool.or_eq_false_iff.mp gone
    cases own : token.isRaw kind with
    | true =>
        left
        refine ⟨by simp [Token.without, own], ?_⟩
        cases tame token member with
        | raw named names values closes declares opens =>
            obtain rfl := beq_iff_eq.mp own
            exact raw_replaces named names values closes
        | _ => cases own
    | false =>
        right
        refine ⟨by rw [Token.without, List.any_cons, own, notComment, notEarlier]; rfl, ?_⟩
        refine raw_guarded kind (tame token member) notComment own fun earlier before => ?_
        refine eq_false_of_ne_true fun raw => ?_
        have one : kind.earlier.any (fun kind => token.isRaw kind) = true :=
          List.any_eq_true.mpr ⟨earlier, before, raw⟩
        rw [notEarlier] at one
        cases one

/-- All that leaves a space. -/
def Token.spaced (beyond : Char → Bool) (token : Token) : Bool :=
  token.without [.noscript, .style, .script] || token.isBlockTag beyond

theorem replaced_blocks {tokens : List Token} (tame : ∀ token ∈ tokens, token.Tame beyond) :
    replaced (blockTagPattern beyond) [' ']
      (tokens.flatMap (Token.left (Token.without [.noscript, .style, .script]))) =
        tokens.flatMap (Token.left (Token.spaced beyond)) := by
  refine replaced_left opensAt_block (fun token gone => by simp [Token.spaced, gone])
    fun token member gone => ?_
  obtain ⟨notComment, kinds⟩ := Bool.or_eq_false_iff.mp gone
  cases block : token.isBlockTag beyond with
  | true =>
      left
      refine ⟨by simp [Token.spaced, block], ?_⟩
      cases tame token member with
      | openTag tag ordinary names values =>
          exact openTag_block tag block
            (plain_of_attributes names fun attr member => (values attr member).2)
      | closeTag tag => exact closeTag_block tag block
      | _ => cases block
  | false =>
      right
      refine ⟨by simp [Token.spaced, gone, block], ?_⟩
      refine block_guarded (tame token member) notComment (fun kind => ?_) block
      refine eq_false_of_ne_true fun raw => ?_
      have one : [RawKind.noscript, .style, .script].any (fun kind => token.isRaw kind) = true :=
        List.any_eq_true.mpr ⟨kind, by cases kind <;> decide, raw⟩
      rw [kinds] at one
      cases one

theorem replaced_step {pattern : Pattern Char} {patterns : List (Pattern Char)} {text next : Text}
    (step : replaced pattern [' '] text = next) :
    (pattern :: patterns).foldl (fun text pattern => replaced pattern [' '] text) text =
      patterns.foldl (fun text pattern => replaced pattern [' '] text) next :=
  congrArg (List.foldl (fun text pattern => replaced pattern [' '] text) · patterns) step

theorem spaced_eq {document : Document} (tame : document.Tame beyond) :
    (spacedPatterns beyond).foldl (fun text pattern => replaced pattern [' '] text) document.html =
      document.tokens.flatMap (Token.left (Token.spaced beyond)) := by
  have unterminated : replaced unterminatedCommentPattern [' ']
      (document.tokens.flatMap (Token.left (Token.without []))) = _ :=
    @replaced_bang beyond ['-', '-'] _ _ tame
  have declaration : replaced declarationPattern [' ']
      (document.tokens.flatMap (Token.left (Token.without []))) = _ :=
    @replaced_bang beyond [] _ _ tame
  exact (replaced_step (replaced_comments tame)).trans ((replaced_step unterminated).trans
    ((replaced_step declaration).trans ((replaced_step (replaced_raw tame .script)).trans
      ((replaced_step (replaced_raw tame .style)).trans
        ((replaced_step (replaced_raw tame .noscript)).trans
          (replaced_step (replaced_blocks tame)))))))

/-- What a token shows. -/
def Token.shown (beyond : Char → Bool) : Token → Text
  | text shown => shown
  | comment _ => [' ']
  | openTag name _ => blockEdge beyond name
  | closeTag name => blockEdge beyond name
  | raw _ _ _ _ => [' ']

theorem shown_tokens (document : Document) :
    document.shown beyond [' '] = document.tokens.flatMap (Token.shown beyond) := by
  induction document with
  | done => rfl
  | text shown next ih => exact congrArg (shown ++ ·) ih
  | comment hidden next ih => exact congrArg ([' '] ++ ·) ih
  | element name attributes children next ihChildren ihNext =>
      rw [Document.shown, Document.tokens, ihChildren, ihNext]
      simp [Token.shown]
  | void name attributes next ih => exact congrArg (blockEdge beyond name ++ ·) ih
  | raw kind name attributes content next ih => exact congrArg ([' '] ++ ·) ih

theorem opensAt_anyTag : OpensAt anyTagPattern fun _ => true where
  first before c rest other := runs_no_bracket other
  second before text other := by cases other

theorem escape_blockEdge (name : Text) :
    escape (blockEdge beyond name) = blockEdge beyond name := by
  unfold blockEdge
  split <;> rfl

/-- The tags that are left are taken out, without a space. -/
theorem replaced_tags {tokens : List Token} (tame : ∀ token ∈ tokens, token.Tame beyond) :
    replaced anyTagPattern [] (tokens.flatMap (Token.left (Token.spaced beyond))) =
      escape (tokens.flatMap (Token.shown beyond)) := by
  have pieces := @Pattern.replaceAll_flatMap _ anyTagPattern (fun _ => []) Token
    (Token.left (Token.spaced beyond)) (fun token => escape (token.shown beyond)) tokens
    fun token member => ?_
  · rw [escape, List.flatMap_assoc]
    exact pieces
  · have space : Pattern.Inert anyTagPattern [' '] :=
      inert_of_guarded opensAt_anyTag (guarded_of_plain (by decide))
    cases tame token member with
    | text shown =>
        exact .inl ⟨inert_of_guarded opensAt_anyTag (guarded_of_plain (escape_plain shown)), rfl⟩
    | comment closes => exact .inl ⟨space, rfl⟩
    | @raw kind name content attributes named names values closes declares opens =>
        have left :
            (Token.raw kind name attributes content).left (Token.spaced beyond) = [' '] := by
          cases kind <;> rfl
        rw [left]
        exact .inl ⟨space, rfl⟩
    | @openTag name attributes tag ordinary names values =>
        rw [Token.shown, escape_blockEdge, blockEdge]
        cases block : isBlock beyond name with
        | true =>
            have left : (Token.openTag name attributes).left (Token.spaced beyond) = [' '] :=
              if_pos block
            rw [left]
            exact .inl ⟨space, rfl⟩
        | false =>
            have left : (Token.openTag name attributes).left (Token.spaced beyond) =
                (Token.openTag name attributes).source :=
              if_neg fun spaced => Bool.false_ne_true (block.symm.trans spaced)
            rw [left]
            exact .inr (openTag_removed tag
              (plain_of_attributes names fun attr member => (values attr member).2))
    | @closeTag name tag =>
        rw [Token.shown, escape_blockEdge, blockEdge]
        cases block : isBlock beyond name with
        | true =>
            have left : (Token.closeTag name).left (Token.spaced beyond) = [' '] := if_pos block
            rw [left]
            exact .inl ⟨space, rfl⟩
        | false =>
            have left : (Token.closeTag name).left (Token.spaced beyond) =
                (Token.closeTag name).source :=
              if_neg fun spaced => Bool.false_ne_true (block.symm.trans spaced)
            rw [left]
            exact .inr (closeTag_removed tag)

/-- The page of a tame document is extracted to its visible text. -/
theorem htmlToText_shown (document : Document) (tame : document.Tame beyond) :
    htmlToText beyond document.html = collapsed (document.shown beyond [' ']) := by
  rw [htmlToText, spaced_eq tame, replaced_tags tame, decodeEntities_escape, ← shown_tokens]
  rw [replaced, Pattern.replaceAll, replaceFrom_whitespace, trim_squeeze]

end Stages

section Pages

def ascii : Char → Bool := fun _ => false

theorem plain_of_all {text : Text} (all : text.all (fun c => c != '<' && c != '>') = true) :
    ∀ c ∈ text, c ≠ '<' ∧ c ≠ '>' := by
  intro c among
  have plain := List.all_eq_true.mp all c among
  rw [Bool.and_eq_true, bne_iff_ne, bne_iff_ne] at plain
  exact plain

/-- A page with a comment inside a block, a script and a line break. -/
def notedPage : Document :=
  .element "div".toList [("class".toList, "a & b".toList)]
    (.text "x < y &amp; z".toList (.comment "seen".toList (.text "there".toList .done)))
    (.raw .script "Script".toList [] "if (a > b) go()".toList (.void "br".toList [] .done))

theorem notedPage_tame : notedPage.Tame ascii := by
  have div : TagName "div".toList := ⟨rfl, plain_of_all rfl⟩
  intro token member
  simp only [notedPage, Document.tokens, List.cons_append, List.nil_append, List.mem_cons,
    List.not_mem_nil, or_false] at member
  rcases member with rfl | rfl | rfl | rfl | rfl | rfl | rfl
  · refine .openTag div (fun kind => by cases kind <;> decide) ?_ ?_ <;>
      intro attr among <;> obtain rfl := List.mem_singleton.mp among
    · exact plain_of_all rfl
    refine ⟨?_, by decide⟩
    intro c opens found
    exact absurd (found.subset List.mem_cons_self) (by decide)
  · exact .text _
  · refine .comment ?_
    decide
  · exact .text _
  · exact .closeTag div
  · refine .raw rfl (fun attr => nofun) (fun attr => nofun) ?_ (by decide) (fun other => nofun)
    intro before word rest whole
    exact absurd (whole ▸ List.mem_append_right before List.mem_cons_self) (by decide)
  · exact .openTag ⟨rfl, plain_of_all rfl⟩ (fun kind => by cases kind <;> decide)
      (fun attr => nofun) (fun attr => nofun)

theorem htmlToText_notedPage :
    htmlToText ascii notedPage.html = collapsed (notedPage.shown ascii [' ']) :=
  htmlToText_shown notedPage notedPage_tame

/-- A word with a note in it, and a script that has a sign of a declaration. -/
def brokenWord : Document :=
  .text "foo".toList (.comment "note".toList (.text "bar".toList .done))

def leakedScript : Document :=
  .raw .script "script".toList [] "if (a<!b) go()".toList (.text "shown".toList .done)

/-- The word is broken where the note stood, and a piece of the script is shown. -/
theorem brokenWord_shown :
    collapsed (brokenWord.shown ascii []) = "foobar".toList ∧
      htmlToText ascii brokenWord.html = "foo bar".toList ∧
      collapsed (leakedScript.shown ascii []) = "shown".toList ∧
      htmlToText ascii leakedScript.html = "if (a shown".toList := by
  decide +kernel

end Pages

end SP42.Citation

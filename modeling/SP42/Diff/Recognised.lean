import Mathlib
import SP42.Diff.Additions

/-!
When the addition of references is recognised: the page before must not open a reference
or a citation template itself.
-/
namespace SP42.Diff

open Text (toAsciiLowercase)
open Scan (Inserted)

section Constructs

/-- Braces come in pairs that are closed in order, or alone between other characters. -/
inductive Braced : Text → Prop
  | nil : Braced []
  | plain {c : Char} {rest : Text} : c ∉ ['{', '}'] → Braced rest → Braced (c :: rest)
  | single {brace c : Char} {rest : Text} : brace ∈ ['{', '}'] → c ∉ ['{', '}'] → Braced rest →
      Braced (brace :: c :: rest)
  | nested {inner rest : Text} : Braced inner → Braced rest →
      Braced ('{' :: '{' :: (inner ++ '}' :: '}' :: rest))

/-- The opening tag of a reference element. -/
def OpenTag (tag : Text) : Prop :=
  ∃ name attributes, tag = '<' :: (name ++ (attributes ++ ['>'])) ∧
    toAsciiLowercase name = "ref".toList ∧ (∀ c ∈ attributes.head?, Text.isWhitespace c = true) ∧
      '<' ∉ attributes ∧ '>' ∉ attributes ∧ attributes.getLast? ≠ some '/'

/-- A well-formed reference element or citation template. -/
inductive Construct : Text → Prop
  | reference {tag content close : Text} : OpenTag tag →
      ¬ "</ref>".toList <:+: toAsciiLowercase content → toAsciiLowercase close = "</ref>".toList →
      Construct (tag ++ (content ++ close))
  | template {body opening : Text} : Braced body → opening ∈ templateOpenings →
      opening <+: toAsciiLowercase ('{' :: '{' :: (body ++ ['}', '}'])) →
      Construct ('{' :: '{' :: (body ++ ['}', '}']))

/-- The words with which the scanner starts to consume. -/
def openings : List Text := "<ref".toList :: templateOpenings

/-- The text opens a reference or a citation template somewhere. -/
def Referenced (text : Text) : Prop := ∃ opening ∈ openings, opening <:+: toAsciiLowercase text

end Constructs

section Takes

theorem lowercase_append (a b : Text) :
    toAsciiLowercase (a ++ b) = toAsciiLowercase a ++ toAsciiLowercase b := List.map_append

/-- Only a capital is lowered to something else, and then to a letter. -/
theorem eq_of_toLower_eq {c d : Char} (unlettered : d.isLower = false) (same : c.toLower = d) :
    c = d := by
  unfold Char.toLower at same
  split at same
  · next upper =>
      have low : 65 ≤ c.val.toNat := upper.1
      have high : c.val.toNat ≤ 90 := upper.2
      have value : d.val.toNat = (c.val.toNat + 32) % 2 ^ 32 := by rw [← same]; rfl
      rw [Nat.mod_eq_of_lt (by omega)] at value
      have letter : d.isLower = true := by
        unfold Char.isLower
        rw [Bool.and_eq_true, decide_eq_true_iff, decide_eq_true_iff]
        constructor
        · show 97 ≤ d.val.toNat
          omega
        · show d.val.toNat ≤ 122
          omega
      rw [letter] at unlettered
      cases unlettered
  · exact same

theorem mem_lowercase {c : Char} (unlettered : c.isLower = false) {text : Text}
    (member : c ∈ toAsciiLowercase text) : c ∈ text := by
  obtain ⟨d, listed, same⟩ := List.mem_map.mp member
  exact eq_of_toLower_eq unlettered same ▸ listed

theorem closeBraces_plain {c : Char} (plain : c ∉ ['{', '}']) (depth : Nat) (rest : Text) :
    closeBraces depth (c :: rest) = closeBraces depth rest := by
  simp only [List.mem_cons, List.not_mem_nil, or_false, not_or] at plain
  rw [closeBraces]
  · rintro more rfl
    exact absurd rfl plain.1
  · rintro more rfl
    exact absurd rfl plain.2

theorem closeBraces_single {brace c : Char} (plain : c ∉ ['{', '}']) (depth : Nat) (rest : Text) :
    closeBraces depth (brace :: c :: rest) = closeBraces depth (c :: rest) := by
  simp only [List.mem_cons, List.not_mem_nil, or_false, not_or] at plain
  rw [closeBraces]
  · intro more _ same
    exact plain.1 (List.cons.inj same).1
  · intro more _ same
    exact plain.2 (List.cons.inj same).1

theorem closeBraces_braced {body : Text} (braced : Braced body) (depth : Nat) (rest : Text) :
    closeBraces (depth + 1) (body ++ rest) = closeBraces (depth + 1) rest := by
  induction braced generalizing depth rest with
  | nil => rfl
  | plain other _ ih => exact (closeBraces_plain other _ _).trans (ih depth rest)
  | single _ other _ ih =>
      exact (closeBraces_single other _ _).trans ((closeBraces_plain other _ _).trans (ih depth rest))
  | @nested inner more _ _ ihInner ihMore =>
      calc closeBraces (depth + 1) ('{' :: '{' :: (inner ++ '}' :: '}' :: more) ++ rest)
          = closeBraces (depth + 2) (inner ++ '}' :: '}' :: (more ++ rest)) := by
            simp [closeBraces]
        _ = closeBraces (depth + 2) ('}' :: '}' :: (more ++ rest)) := ihInner (depth + 1) _
        _ = closeBraces (depth + 1) (more ++ rest) := by simp [closeBraces]
        _ = closeBraces (depth + 1) rest := ihMore depth rest

theorem closing_unbordered : Search.unbordered "</ref>".toList = true := by decide

theorem consumeRefTag_reference {tag content close : Text} (opens : OpenTag tag)
    (unclosed : ¬ "</ref>".toList <:+: toAsciiLowercase content)
    (closes : toAsciiLowercase close = "</ref>".toList) (next : Text) :
    consumeRefTag (tag ++ (content ++ close) ++ next) = some next := by
  obtain ⟨name, attributes, rfl, named, -, noOpen, -, -⟩ := opens
  have lowered : toAsciiLowercase ('<' :: (name ++ (attributes ++ ['>'])) ++ (content ++ close) ++ next) =
      ('<' :: ("ref".toList ++ (toAsciiLowercase attributes ++ ['>'])) ++ toAsciiLowercase content) ++
        ("</ref>".toList ++ toAsciiLowercase next) := by
    rw [← named, ← closes]
    simp [toAsciiLowercase]
  have starts : "<ref".toList.isPrefixOf (toAsciiLowercase
      ('<' :: (name ++ (attributes ++ ['>'])) ++ (content ++ close) ++ next)) = true := by
    rw [lowered]
    rfl
  -- the closing tag cannot start in the opening one, which has no other angle bracket
  have fresh : ¬ "</ref>".toList <:+:
      '<' :: ("ref".toList ++ (toAsciiLowercase attributes ++ ['>'])) ++ toAsciiLowercase content := by
    intro inside
    rcases List.infix_cons_iff.mp inside with here | later
    · obtain ⟨tail, whole⟩ := here
      cases whole
    · refine unclosed (Search.infix_of_left_margin ?_ later)
      intro opening
      rcases List.mem_append.mp opening with inName | rest
      · revert inName
        decide
      · rcases List.mem_append.mp rest with inAttributes | last
        · exact noOpen (mem_lowercase (by decide) inAttributes)
        · revert last
          decide
  have found := @Search.find_append _ _ _ _ (toAsciiLowercase next) closing_unbordered fresh
  unfold consumeRefTag
  dsimp only
  rw [if_pos starts, lowered, found, Option.map_some]
  have sizes := congrArg List.length named
  have closing := congrArg List.length closes
  simp only [toAsciiLowercase, List.length_map] at sizes closing
  refine congrArg some (List.drop_left' ?_)
  simp only [toAsciiLowercase, List.length_append, List.length_cons, List.length_map, sizes, closing]
  rfl

theorem consumeReferenceTemplate_template {body opening : Text} (braced : Braced body)
    (known : opening ∈ templateOpenings)
    (opens : opening <+: toAsciiLowercase ('{' :: '{' :: (body ++ ['}', '}']))) (next : Text) :
    consumeReferenceTemplate ('{' :: '{' :: (body ++ ['}', '}']) ++ next) = some next := by
  have starts : templateOpenings.any (fun opening => opening.isPrefixOf
      (toAsciiLowercase ('{' :: '{' :: (body ++ ['}', '}']) ++ next))) = true := by
    refine List.any_eq_true.mpr ⟨opening, known, List.isPrefixOf_iff_prefix.mpr ?_⟩
    rw [lowercase_append]
    exact opens.trans (List.prefix_append _ _)
  have closed : closeBraces 0 ('{' :: '{' :: (body ++ ['}', '}']) ++ next) = some next :=
    calc closeBraces 0 ('{' :: '{' :: (body ++ ['}', '}']) ++ next)
        = closeBraces 1 (body ++ ('}' :: '}' :: next)) := by simp [closeBraces]
      _ = closeBraces 1 ('}' :: '}' :: next) := closeBraces_braced braced 0 _
      _ = some next := by simp [closeBraces]
  unfold consumeReferenceTemplate
  dsimp only
  rw [if_pos starts, closed]

theorem consumeRefTag_brace (text : Text) : consumeRefTag ('{' :: text) = none := by
  have other : "<ref".toList.isPrefixOf (toAsciiLowercase ('{' :: text)) = false := rfl
  unfold consumeRefTag
  dsimp only
  rw [other]
  rfl

theorem consume_construct {piece : Text} (construct : Construct piece) (next : Text) :
    consumeReference (piece ++ next) = some next := by
  cases construct with
  | reference opens unclosed closes =>
      unfold consumeReference
      rw [consumeRefTag_reference opens unclosed closes, Option.some_or]
  | @template body opening braced known opens =>
      unfold consumeReference
      rw [List.cons_append, consumeRefTag_brace, Option.none_or, ← List.cons_append, consumeReferenceTemplate_template braced known opens]

end Takes

section Opening

/-- A piece of an opening behind its first letter. -/
def Inner (word : Text) : Prop := ∃ opening ∈ openings, word <:+ opening.tail

/-- No construct begins inside an opening. -/
def fitsInside : Text → Bool
  | '<' :: _ => false
  | ['{'] => false
  | '{' :: '{' :: _ => false
  | _ => true

theorem inner_fits {word : Text} (inner : Inner word) : fitsInside word = true := by
  have all : (openings.all fun opening => opening.tail.tails.all fitsInside) = true := by decide
  obtain ⟨opening, known, suffix⟩ := inner
  have each := List.all_eq_true.mp all opening known
  exact List.all_eq_true.mp each word ((List.mem_tails _ _).mpr suffix)

theorem Inner.tail {c : Char} {word : Text} (inner : Inner (c :: word)) : Inner word := by
  obtain ⟨opening, known, suffix⟩ := inner
  exact ⟨opening, known, (List.suffix_cons c word).trans suffix⟩

/-- The rest of an opening does not run into a construct. -/
theorem inner_outside {before after word : Text} (inserted : Inserted Construct before after)
    (inner : Inner word) (reads : word <+: toAsciiLowercase after) :
    word <+: toAsciiLowercase before := by
  induction inserted generalizing word with
  | nil => exact reads
  | keep c _ ih =>
      cases word with
      | nil => exact List.nil_prefix
      | cons d word =>
          obtain ⟨same, rest⟩ := List.cons_prefix_cons.mp reads
          exact List.cons_prefix_cons.mpr ⟨same, ih inner.tail rest⟩
  | @insert piece before after construct _ ih =>
      cases word with
      | nil => exact List.nil_prefix
      | cons c word =>
          -- a construct starts with an angle bracket or with two braces
          have fits := inner_fits inner
          cases construct with
          | @reference tag content close opens _ _ =>
              obtain ⟨name, attributes, rfl, -⟩ := opens
              obtain ⟨rfl, -⟩ := List.cons_prefix_cons.mp reads
              cases fits
          | template _ _ _ =>
              obtain ⟨rfl, rest⟩ := List.cons_prefix_cons.mp reads
              cases word with
              | nil => cases fits
              | cons d word =>
                  obtain ⟨rfl, -⟩ := List.cons_prefix_cons.mp rest
                  cases fits

/-- A reference or a citation template opens right here. -/
def Opens (text : Text) : Prop := ∃ opening ∈ openings, opening <+: toAsciiLowercase text

theorem opens_of_consumed {text next : Text} (consumed : consumeReference text = some next) :
    Opens text := by
  rcases Option.or_eq_some_iff.mp consumed with tag | ⟨-, template⟩
  · unfold consumeRefTag at tag
    dsimp only at tag
    split at tag
    · next starts => exact ⟨_, List.mem_cons_self, List.isPrefixOf_iff_prefix.mp starts⟩
    · cases tag
  · unfold consumeReferenceTemplate at template
    dsimp only at template
    split at template
    · next starts =>
        obtain ⟨opening, known, start⟩ := List.any_eq_true.mp starts
        exact ⟨opening, List.mem_cons_of_mem _ known, List.isPrefixOf_iff_prefix.mp start⟩
    · cases template

/-- An insertion further on opens nothing here. -/
theorem opens_of_inserted {c : Char} {before after : Text}
    (inserted : Inserted Construct before after) (opens : Opens (c :: after)) :
    Opens (c :: before) := by
  obtain ⟨opening, known, reads⟩ := opens
  refine ⟨opening, known, ?_⟩
  cases opening with
  | nil => exact List.nil_prefix
  | cons d word =>
      obtain ⟨same, rest⟩ := List.cons_prefix_cons.mp reads
      have inner : Inner word := ⟨_, known, List.suffix_refl _⟩
      exact List.cons_prefix_cons.mpr ⟨same, inner_outside inserted inner rest⟩

theorem Opens.referenced {text : Text} (opens : Opens text) : Referenced text := by
  obtain ⟨opening, known, reads⟩ := opens
  exact ⟨opening, known, reads.isInfix⟩

theorem referenced_cons {c : Char} {text : Text} : Referenced (c :: text) ↔ Opens (c :: text) ∨ Referenced text := by
  constructor
  · rintro ⟨opening, known, inside⟩
    rcases List.infix_cons_iff.mp inside with here | later
    · exact .inl ⟨opening, known, here⟩
    · exact .inr ⟨opening, known, later⟩
  · rintro (opens | ⟨opening, known, inside⟩)
    · exact opens.referenced
    · exact ⟨opening, known, inside.trans (List.suffix_cons _ _).isInfix⟩

/-- What comes before the first opening opens nothing. -/
theorem first_opening {text : Text} (referenced : Referenced text) :
    ∃ front opened, text = front ++ opened ∧ Opens opened ∧
      ∀ back, back ≠ [] → back <:+ front → ¬ Opens (back ++ opened) := by
  induction text with
  | nil =>
      obtain ⟨opening, known, inside⟩ := referenced
      have empty : [] ∈ openings := List.infix_nil.mp inside ▸ known
      exact absurd empty (by decide)
  | cons c text ih =>
      by_cases opens : Opens (c :: text)
      · exact ⟨[], c :: text, rfl, opens, fun back inhabited inside =>
          absurd (List.suffix_nil.mp inside) inhabited⟩
      · obtain ⟨front, opened, rfl, opensLater, closed⟩ := ih ((referenced_cons.mp referenced).resolve_left opens)
        refine ⟨c :: front, opened, rfl, opensLater, fun back inhabited inside => ?_⟩
        rcases List.suffix_cons_iff.mp inside with rfl | later
        · exact opens
        · exact closed back inhabited later

end Opening

section Recognised

theorem remove_inserted {before after : Text} (inserted : Inserted Construct before after)
    (unreferenced : ¬ Referenced before) : removeReferenceConstructs after = before := by
  refine @Scan.strip_inserted _ _ consumeReference_forward Construct (fun text => ¬ Referenced text)
    (fun piece construct next => consume_construct construct next) ?_ ?_ _ _ inserted unreferenced
  · intro c text quiet referenced
    exact quiet (referenced_cons.mpr (.inr referenced))
  · intro c before after inserted quiet
    cases consumed : consumeReference (c :: after) with
    | none => rfl
    | some next =>
        have opens := opens_of_inserted inserted (opens_of_consumed consumed)
        exact absurd opens.referenced quiet

/-- An insertion leaves something that is not blank. -/
theorem trim_inserted {before after : Text} (inserted : Inserted Construct before after)
    (different : after ≠ before) : Text.trim after ≠ [] := by
  have solid : ∃ c ∈ after, Text.isWhitespace c = false := by
    induction inserted with
    | nil => exact absurd rfl different
    | keep c _ ih =>
        obtain ⟨d, member, ink⟩ := ih fun same => different (congrArg (c :: ·) same)
        exact ⟨d, List.mem_cons_of_mem c member, ink⟩
    | insert construct _ _ =>
        cases construct with
        | reference opens _ _ =>
            obtain ⟨name, attributes, rfl, -⟩ := opens
            exact ⟨'<', List.mem_cons_self, by decide⟩
        | template _ _ _ => exact ⟨'{', List.mem_cons_self, by decide⟩
  obtain ⟨c, member, ink⟩ := solid
  intro blank
  have all := Text.trim_eq_nil_iff.mp blank c member
  rw [ink] at all
  cases all

/-- A reference element without attributes. -/
theorem construct_plain {content : Text} (unclosed : ¬ "</ref>".toList <:+: toAsciiLowercase content) :
    Construct ("<ref>".toList ++ (content ++ "</ref>".toList)) := by
  refine .reference ⟨"ref".toList, [], rfl, by decide, ?_, by decide, by decide, by decide⟩ unclosed
    (by decide)
  exact fun _ none => nomatch none

theorem braced_plain {text : Text} (plain : ∀ c ∈ text, c ∉ ['{', '}']) : Braced text := by
  induction text with
  | nil => exact .nil
  | cons c text ih =>
      obtain ⟨first, rest⟩ := List.forall_mem_cons.mp plain
      exact .plain first (ih rest)

/-- A reference put behind the opening of another one ends that one. -/
theorem consume_opened_reference {word : Text} (named : toAsciiLowercase word = "<ref".toList)
    (rest : Text) :
    consumeReference (word ++ ("<ref>".toList ++ ([] ++ "</ref>".toList) ++ rest)) = some rest := by
  have lowered : toAsciiLowercase (word ++ ("<ref>".toList ++ ([] ++ "</ref>".toList) ++ rest)) =
      "<ref<ref>".toList ++ ("</ref>".toList ++ toAsciiLowercase rest) := by
    rw [lowercase_append, named]
    rfl
  have starts : "<ref".toList.isPrefixOf
      (toAsciiLowercase (word ++ ("<ref>".toList ++ ([] ++ "</ref>".toList) ++ rest))) = true := by
    rw [lowered]
    rfl
  have found := @Search.find_append _ _ _ "<ref<ref>".toList (toAsciiLowercase rest)
    closing_unbordered (by decide)
  have size := congrArg List.length named
  have tag : consumeRefTag (word ++ ("<ref>".toList ++ ([] ++ "</ref>".toList) ++ rest)) = some rest := by
    unfold consumeRefTag
    dsimp only
    rw [if_pos starts, lowered, found, Option.map_some, ← List.append_assoc]
    refine congrArg some (List.drop_left' ?_)
    simp only [toAsciiLowercase, List.length_map] at size
    rw [List.length_append, size]
    rfl
  unfold consumeReference
  rw [tag, Option.some_or]

theorem unbraced {text : Text} (plain : (text.all fun c => !(['{', '}'].contains c)) = true) :
    ∀ c ∈ text, c ∉ ['{', '}'] := by
  intro c member brace
  have outside := List.all_eq_true.mp plain c member
  rw [List.contains_iff_mem.mpr brace] at outside
  cases outside

/-- The opening of a template is two braces and letters. -/
theorem braced_opening {word opening : Text} (known : opening ∈ templateOpenings)
    (named : toAsciiLowercase word = opening) :
    ∃ letters, word = '{' :: '{' :: letters ∧ ∀ c ∈ letters, c ∉ ['{', '}'] := by
  obtain ⟨name, rfl, lettered⟩ : ∃ name, opening = '{' :: '{' :: name ∧ ∀ c ∈ name, c ∉ ['{', '}'] := by
    simp only [templateOpenings, List.map_cons, List.map_nil, List.mem_cons, List.not_mem_nil,
      or_false] at known
    rcases known with rfl | rfl | rfl
    · exact ⟨"cite".toList, rfl, unbraced (by decide)⟩
    · exact ⟨"citation".toList, rfl, unbraced (by decide)⟩
    · exact ⟨"sfn".toList, rfl, unbraced (by decide)⟩
  cases word with
  | nil => cases named
  | cons first word =>
      obtain ⟨one, named⟩ := List.cons.inj named
      cases word with
      | nil => cases named
      | cons second letters =>
          obtain ⟨two, spelled⟩ := List.cons.inj named
          have one := eq_of_toLower_eq (by decide) one
          have two := eq_of_toLower_eq (by decide) two
          subst one two
          refine ⟨letters, rfl, fun c member brace => ?_⟩
          have lowered : c.toLower ∈ name := by
            rw [← spelled]
            exact List.mem_map_of_mem member
          have kept : c.toLower = c := by
            simp only [List.mem_cons, List.not_mem_nil, or_false] at brace
            rcases brace with rfl | rfl <;> decide
          exact lettered c (kept ▸ lowered) brace

/-- Closing braces put behind the opening of a template end it. -/
theorem consume_opened_template {word opening : Text} (known : opening ∈ templateOpenings)
    (named : toAsciiLowercase word = opening) (rest : Text) :
    consumeReference (word ++ ("<ref>".toList ++ ("\x7d\x7d".toList ++ "</ref>".toList) ++ rest)) =
      some ("</ref>".toList ++ rest) := by
  have starts : templateOpenings.any (fun opening => opening.isPrefixOf (toAsciiLowercase
      (word ++ ("<ref>".toList ++ ("\x7d\x7d".toList ++ "</ref>".toList) ++ rest)))) = true := by
    refine List.any_eq_true.mpr ⟨opening, known, List.isPrefixOf_iff_prefix.mpr ?_⟩
    rw [lowercase_append, named]
    exact List.prefix_append _ _
  obtain ⟨letters, rfl, lettered⟩ := braced_opening known named
  have plain : ∀ c ∈ letters ++ "<ref>".toList, c ∉ ['{', '}'] := by
    intro c member
    rcases List.mem_append.mp member with inside | tag
    · exact lettered c inside
    · exact @unbraced "<ref>".toList (by decide) c tag
  have closed : closeBraces 0 ('{' :: '{' :: letters ++
      ("<ref>".toList ++ ("\x7d\x7d".toList ++ "</ref>".toList) ++ rest)) = some ("</ref>".toList ++ rest) :=
    calc closeBraces 0 ('{' :: '{' :: letters ++
          ("<ref>".toList ++ ("\x7d\x7d".toList ++ "</ref>".toList) ++ rest))
        = closeBraces 1 ((letters ++ "<ref>".toList) ++ ('}' :: '}' :: ("</ref>".toList ++ rest))) := by
          simp [closeBraces]
      _ = closeBraces 1 ('}' :: '}' :: ("</ref>".toList ++ rest)) :=
          closeBraces_braced (braced_plain plain) 0 _
      _ = some ("</ref>".toList ++ rest) := by simp [closeBraces]
  unfold consumeReference consumeReferenceTemplate
  dsimp only
  rw [if_pos starts, closed, List.cons_append, consumeRefTag_brace, Option.none_or]

theorem inserted_behind (front word : Text) {piece : Text} (construct : Construct piece) (rest : Text) :
    Inserted Construct (front ++ (word ++ rest)) (front ++ (word ++ (piece ++ rest))) :=
  ((Inserted.insert construct (Inserted.refl rest)).append_left word).append_left front

/-- A page that opens a reference or a template somewhere takes an addition that is missed. -/
theorem missed_of_referenced {before : Text} (referenced : Referenced before) : ∃ after,
    Inserted Construct before after ∧ after ≠ before ∧ removeReferenceConstructs after ≠ before := by
  obtain ⟨front, opened, rfl, ⟨opening, known, reads⟩, closed⟩ := first_opening referenced
  obtain ⟨word, rest, rfl, named⟩ : ∃ word rest, opened = word ++ rest ∧
      toAsciiLowercase word = opening := by
    refine ⟨opened.take opening.length, opened.drop opening.length,
      (List.take_append_drop _ _).symm, ?_⟩
    rw [toAsciiLowercase, List.map_take]
    exact (List.prefix_iff_eq_take.mp reads).symm
  have passed : ∀ {piece next : Text}, Construct piece →
      consumeReference (word ++ (piece ++ rest)) = some next →
      removeReferenceConstructs (front ++ (word ++ (piece ++ rest))) =
        front ++ removeReferenceConstructs next := by
    intro piece next construct consumed
    unfold removeReferenceConstructs
    rw [Scan.strip_append, Scan.strip_consumed consumeReference_forward consumed]
    intro back inhabited inside
    cases found : consumeReference (back ++ (word ++ (piece ++ rest))) with
    | none => rfl
    | some later =>
        cases back with
        | nil => exact absurd rfl inhabited
        | cons c back =>
            have opens := opens_of_inserted (inserted_behind back word construct rest)
              (opens_of_consumed found)
            exact absurd opens (closed _ inhabited inside)
  have longer : ∀ {piece : Text}, piece ≠ [] →
      front ++ (word ++ (piece ++ rest)) ≠ front ++ (word ++ rest) := by
    intro piece inhabited same
    have size := congrArg List.length same
    have some := List.length_pos_of_ne_nil inhabited
    simp only [List.length_append] at size
    omega
  rcases List.mem_cons.mp known with rfl | template
  · -- the reference that is added closes the one that is open
    have construct := @construct_plain [] (by decide)
    refine ⟨_, inserted_behind front word construct rest, longer (by decide), ?_⟩
    rw [passed construct (consume_opened_reference named rest)]
    intro same
    have size := congrArg List.length same
    have opened := congrArg List.length named
    have shorter := Scan.strip_length consumeReference_forward rest
    simp only [toAsciiLowercase, List.length_map, List.length_append] at size opened
    unfold removeReferenceConstructs at size
    have four : "<ref".toList.length = 4 := rfl
    omega
  · -- the braces in the reference that is added close the template that is open
    have construct := @construct_plain "\x7d\x7d".toList (by decide)
    refine ⟨_, inserted_behind front word construct rest, longer (by decide), ?_⟩
    rw [passed construct (consume_opened_template template named rest)]
    intro same
    obtain ⟨letters, rfl, -⟩ := braced_opening template named
    have head : removeReferenceConstructs ("</ref>".toList ++ rest) =
        '<' :: removeReferenceConstructs ("/ref>".toList ++ rest) := by
      refine Scan.strip_kept ?_
      cases consumed : consumeReference ('<' :: ("/ref>".toList ++ rest)) with
      | none => rfl
      | some later =>
          obtain ⟨opening, known, tail, whole⟩ := opens_of_consumed consumed
          simp only [openings, templateOpenings, List.map_cons, List.map_nil, List.mem_cons,
            List.not_mem_nil, or_false] at known
          rcases known with rfl | rfl | rfl | rfl <;> cases whole
    rw [head] at same
    have first : '<' = '{' := (List.cons.inj (List.append_cancel_left same)).1
    exact absurd first (by decide)

/-- The addition of references to a page is recognised wherever it is made just where the page
itself opens no reference and no citation template. -/
theorem additions_recognised_iff (before : Text) :
    (∀ diff, beforeText diff = before → Inserted Construct before (afterText diff) →
      afterText diff ≠ before → (analyzeDiffForScoring diff).referenceAdditionOnly = true) ↔
      ¬ Referenced before := by
  constructor
  · intro recognised referenced
    obtain ⟨after, inserted, different, missed⟩ := missed_of_referenced referenced
    obtain ⟨diff, rfl, rfl⟩ := exists_diff before after
    have flagged := recognised diff rfl inserted different
    obtain ⟨-, -, removed⟩ := onlyAdds_iff.mp flagged
    exact missed removed
  · rintro unreferenced diff rfl inserted different
    refine onlyAdds_iff.mpr ⟨trim_inserted inserted different, different.symm, ?_⟩
    exact remove_inserted inserted unreferenced

/-- A second reference behind the first one of a page. -/
def secondReference : StructuredDiff :=
  collectSegments .lines [⟨.equal, "Paris<ref>a</ref>".toList⟩, ⟨.insert, "<ref>b</ref>".toList⟩]

theorem second_reference_missed :
    Inserted Construct (beforeText secondReference) (afterText secondReference) ∧
      afterText secondReference ≠ beforeText secondReference ∧
      (analyzeDiffForScoring secondReference).referenceAdditionOnly = false := by
  refine ⟨?_, by decide, by decide +kernel⟩
  have construct := @construct_plain "b".toList (by decide)
  exact (Inserted.insert construct .nil).append_left "Paris<ref>a</ref>".toList

end Recognised

end SP42.Diff

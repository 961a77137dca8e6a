import Mathlib.Data.List.Infix
import Mathlib.Tactic.Common

/-!
Regular expressions as a backtracking engine reads them: the ways to match at a place, in the
order in which they are tried, the leftmost match of a text, and all of them replaced. A pattern
that is replaced has to match something.
-/
namespace Regex

variable {α : Type*}

inductive Pattern (α : Type*) where
  | nothing
  | one (accepts : α → Bool)
  /-- A run of accepted letters, the longest or the shortest first. -/
  | many (greedy : Bool) (least : Nat) (most : Option Nat) (accepts : α → Bool)
  /-- A look at the letters before and behind. -/
  | look (holds : Option α → Option α → Bool)
  | seq (first second : Pattern α)
  | alt (first second : Pattern α)
  | group (inner : Pattern α)

/-- A match: its text, what the groups hold, and what follows it. -/
structure Match (α : Type*) where
  text : List α
  groups : List (List α)
  rest : List α
  deriving DecidableEq

/-- The match with more text before it. -/
def Match.behind (taken : List α) (found : Match α) : Match α :=
  { found with text := taken ++ found.text }

@[simp] theorem Match.behind_nil : Match.behind ([] : List α) = id := rfl

@[simp] theorem Match.behind_behind (taken more : List α) (found : Match α) :
    (found.behind more).behind taken = found.behind (taken ++ more) := by
  simp [Match.behind]

/-- The runs of accepted letters at a place, each with what follows it. -/
def manyRuns (greedy : Bool) (accepts : α → Bool) :
    Nat → Option Nat → List α → List (List α × List α)
  | least, _, [] => if least = 0 then [([], [])] else []
  | least, most, c :: rest =>
      let here := if least = 0 then [([], c :: rest)] else []
      let further :=
        if accepts c && most != some 0 then
          (manyRuns greedy accepts (least - 1) (most.map (· - 1)) rest).map fun run =>
            (c :: run.1, run.2)
        else []
      if greedy then further ++ here else here ++ further

namespace Pattern

/-- The ways to match behind a letter. -/
def runs : Pattern α → Option α → List α → List (Match α)
  | nothing, _, text => [⟨[], [], text⟩]
  | one _, _, [] => []
  | one accepts, _, c :: rest => if accepts c then [⟨[c], [], rest⟩] else []
  | many greedy least most accepts, _, text =>
      (manyRuns greedy accepts least most text).map fun run => ⟨run.1, [], run.2⟩
  | look holds, before, text => if holds before text.head? then [⟨[], [], text⟩] else []
  | seq first second, before, text =>
      (first.runs before text).flatMap fun head =>
        (second.runs (head.text.getLast?.or before) head.rest).map fun tail =>
          ⟨head.text ++ tail.text, head.groups ++ tail.groups, tail.rest⟩
  | alt first second, before, text => first.runs before text ++ second.runs before text
  | group inner, before, text =>
      (inner.runs before text).map fun found => { found with groups := found.text :: found.groups }

/-- The leftmost match, behind the letters skipped. -/
def search (pattern : Pattern α) : Option α → List α → Option (List α × Match α)
  | before, [] => (pattern.runs before []).head?.map fun found => ([], found)
  | before, c :: rest =>
      match (pattern.runs before (c :: rest)).head? with
      | some found => some ([], found)
      | none => (search pattern (some c) rest).map fun found => (c :: found.1, found.2)

/-- `Regex::is_match`. -/
def isMatch (pattern : Pattern α) (text : List α) : Bool := (pattern.search none text).isSome

/-- `Regex::captures`. -/
def captures (pattern : Pattern α) (text : List α) : Option (Match α) :=
  (pattern.search none text).map Prod.snd

/-- The letters one after the other. -/
def word [DecidableEq α] : List α → Pattern α
  | [] => nothing
  | c :: rest => seq (one fun d => decide (d = c)) (word rest)

/-- The first of the patterns that matches. -/
def oneOf : List (Pattern α) → Pattern α
  | [] => look fun _ _ => false
  | pattern :: rest => alt pattern (oneOf rest)

def optional (pattern : Pattern α) : Pattern α := alt pattern nothing

/-- The loop of `Regex::replace_all`, with the letters of a match still to skip. -/
def replaceFrom (pattern : Pattern α) (replacement : Match α → List α) :
    Nat → Option α → List α → List α
  | _, _, [] => []
  | skip + 1, _, c :: rest => replaceFrom pattern replacement skip (some c) rest
  | 0, before, c :: rest =>
      match (pattern.runs before (c :: rest)).head? with
      | some found =>
          replacement found ++
            replaceFrom pattern replacement (found.text.length - 1) (some c) rest
      | none => c :: replaceFrom pattern replacement 0 (some c) rest

def replaceAll (pattern : Pattern α) (replacement : Match α → List α) (text : List α) : List α :=
  replaceFrom pattern replacement 0 none text

section Runs

variable {before : Option α} {text : List α} {pattern first second : Pattern α}

theorem runs_nothing : (nothing : Pattern α).runs before text = [⟨[], [], text⟩] := rfl

theorem runs_one_nil {accepts : α → Bool} : (one accepts).runs before [] = [] := rfl

theorem runs_one_cons {accepts : α → Bool} {c : α} {rest : List α} :
    (one accepts).runs before (c :: rest) = if accepts c then [⟨[c], [], rest⟩] else [] := rfl

theorem runs_many {greedy : Bool} {least : Nat} {most : Option Nat} {accepts : α → Bool} :
    (many greedy least most accepts).runs before text =
      (manyRuns greedy accepts least most text).map fun run => ⟨run.1, [], run.2⟩ := rfl

theorem runs_look {holds : Option α → Option α → Bool} :
    (look holds).runs before text = if holds before text.head? then [⟨[], [], text⟩] else [] := rfl

theorem runs_seq :
    (seq first second).runs before text = (first.runs before text).flatMap fun head =>
      (second.runs (head.text.getLast?.or before) head.rest).map fun tail =>
        ⟨head.text ++ tail.text, head.groups ++ tail.groups, tail.rest⟩ := rfl

theorem runs_alt :
    (alt first second).runs before text = first.runs before text ++ second.runs before text := rfl

theorem runs_alt_ne_nil :
    (alt first second).runs before text ≠ [] ↔
      first.runs before text ≠ [] ∨ second.runs before text ≠ [] := by
  rw [runs_alt, ne_eq, List.append_eq_nil_iff, not_and_or]

theorem runs_oneOf_ne_nil {patterns : List (Pattern α)} :
    (oneOf patterns).runs before text ≠ [] ↔
      ∃ pattern ∈ patterns, pattern.runs before text ≠ [] := by
  induction patterns with
  | nil => exact iff_of_false (fun some_ => some_ rfl) nofun
  | cons pattern rest ih =>
      rw [oneOf, runs_alt_ne_nil, ih, List.exists_mem_cons_iff]

theorem runs_seq_ne_nil :
    (seq first second).runs before text ≠ [] ↔
      ∃ head ∈ first.runs before text,
        second.runs (head.text.getLast?.or before) head.rest ≠ [] := by
  rw [runs_seq, ne_eq, List.flatMap_eq_nil_iff]
  simp only [List.map_eq_nil_iff, not_forall, exists_prop]

/-- A look before a pattern takes nothing. -/
theorem runs_look_seq {holds : Option α → Option α → Bool} :
    (seq (look holds) second).runs before text =
      if holds before text.head? then second.runs before text else [] := by
  rw [runs_seq, runs_look]
  cases holds before text.head? with
  | true => simp
  | false => rfl

theorem runs_nothing_seq : (seq nothing second).runs before text = second.runs before text := by
  simp [runs_seq, runs_nothing]

theorem runs_seq_assoc {third : Pattern α} :
    (seq (seq first second) third).runs before text =
      (seq first (seq second third)).runs before text := by
  simp only [runs_seq, List.flatMap_assoc, List.flatMap_map, List.map_flatMap, List.map_map]
  refine List.flatMap_congr fun head _ => List.flatMap_congr fun tail _ => ?_
  rw [List.getLast?_append, Option.or_assoc]
  refine List.map_congr_left fun last _ => ?_
  simp [List.append_assoc]

theorem runs_one_seq {accepts : α → Bool} {c : α} {rest : List α} :
    (seq (one accepts) second).runs before (c :: rest) =
      if accepts c then (second.runs (some c) rest).map (Match.behind [c]) else [] := by
  rw [runs_seq, runs_one_cons]
  cases accepts c with
  | true => simp [Match.behind]
  | false => rfl

theorem runs_alt_seq {third : Pattern α} :
    (seq (alt first second) third).runs before text =
      (seq first third).runs before text ++ (seq second third).runs before text := by
  simp only [runs_seq, runs_alt, List.flatMap_append]

theorem runs_oneOf_seq {patterns : List (Pattern α)} :
    (seq (oneOf patterns) second).runs before text =
      patterns.flatMap fun pattern => (seq pattern second).runs before text := by
  induction patterns with
  | nil => rfl
  | cons pattern rest ih =>
      rw [List.flatMap_cons, ← ih, oneOf, runs_alt_seq]

/-- The shortest run first: the next pattern is tried here, and then one letter further. -/
theorem runs_lazy_cons {c : α} {rest : List α} :
    (seq (many false 0 none fun _ => true) second).runs before (c :: rest) =
      second.runs before (c :: rest) ++
        ((seq (many false 0 none fun _ => true) second).runs (some c) rest).map
          (Match.behind [c]) := by
  have split : manyRuns false (fun _ => true) 0 none (c :: rest) =
      ([], c :: rest) :: (manyRuns false (fun _ => true) 0 none rest).map fun run =>
        (c :: run.1, run.2) := rfl
  rw [runs_seq, runs_many, split, List.map_cons, List.flatMap_cons]
  congr 1
  · simp
  · rw [runs_seq, runs_many, List.map_map, List.flatMap_map, List.flatMap_map, List.map_flatMap]
    refine List.flatMap_congr fun run _ => ?_
    rw [List.map_map, Function.comp_apply, List.getLast?_cons, Option.some_or, ← Option.or_some]
    rfl

/-- The shortest run that the next pattern matches behind. -/
theorem head?_lazy {skipped rest : List α} {found : Match α}
    (later : ∀ a b, skipped = a ++ b → b ≠ [] → second.runs (a.getLast?.or before) (b ++ rest) = [])
    (here : (second.runs (skipped.getLast?.or before) rest).head? = some found) :
    ((seq (many false 0 none fun _ => true) second).runs before (skipped ++ rest)).head? =
      some (found.behind skipped) := by
  induction skipped generalizing before with
  | nil =>
      rw [List.nil_append]
      rw [List.getLast?_nil, Option.none_or] at here
      have same : found.behind [] = found := rfl
      cases rest with
      | nil => simpa [runs_seq, runs_many, manyRuns, same] using here
      | cons c rest => rw [runs_lazy_cons, List.head?_append, here, Option.some_or, same]
  | cons c skipped ih =>
      have none_ := later [] (c :: skipped) rfl (List.cons_ne_nil _ _)
      rw [List.getLast?_nil, Option.none_or, List.cons_append] at none_
      rw [List.cons_append, runs_lazy_cons, none_, List.nil_append, List.head?_map]
      rw [List.getLast?_cons, Option.some_or, ← Option.or_some] at here
      rw [ih (fun a b whole some_ => ?_) here]
      · rfl
      · have further := later (c :: a) b (by rw [whole, List.cons_append]) some_
        rwa [List.getLast?_cons, Option.some_or, ← Option.or_some] at further

theorem runs_one_before {accepts : α → Bool} :
    (one accepts).runs before text = (one accepts).runs none text := by
  cases text <;> rfl

theorem runs_one_groups {accepts : α → Bool} {found : Match α}
    (member : found ∈ (one accepts).runs before text) : found.groups = [] := by
  cases text with
  | nil => cases member
  | cons c rest =>
      rw [runs_one_cons] at member
      split at member
      · rw [List.mem_singleton.mp member]
      · cases member

/-- A run of a class up to a letter that is none of it has one match. -/
theorem runs_many_one {greedy : Bool} {least : Nat} {accepts stop : α → Bool} {piece rest : List α}
    {c : α} (apart : ∀ d, accepts d = true → stop d = false) (all : ∀ d ∈ piece, accepts d = true)
    (long : least ≤ piece.length) (stops : stop c = true) :
    (seq (many greedy least none accepts) (one stop)).runs before (piece ++ c :: rest) =
      [⟨piece ++ [c], [], rest⟩] := by
  have step (text : List α) (least : Nat) (before : Option α) :
      (seq (many greedy least none accepts) (one stop)).runs before text =
        (manyRuns greedy accepts least none text).flatMap fun run =>
          ((one stop).runs none run.2).map (Match.behind run.1) := by
    rw [runs_seq, runs_many, List.flatMap_map]
    refine List.flatMap_congr fun run _ => ?_
    rw [runs_one_before]
    simp only [List.nil_append]
    refine List.map_congr_left fun tail member => ?_
    rw [Match.behind, runs_one_groups member]
  rw [step]
  clear step
  induction piece generalizing least with
  | nil =>
      have solid : accepts c = false := eq_false_of_ne_true fun taken => by
        rw [apart c taken] at stops
        cases stops
      rw [List.nil_append, manyRuns, if_pos (Nat.le_zero.mp long), solid]
      cases greedy <;> simp [runs_one_cons, stops, Match.behind]
  | cons d piece ih =>
      have taken := all d List.mem_cons_self
      have further := ih (fun e member => all e (List.mem_cons_of_mem _ member))
        (Nat.sub_le_of_le_add long)
      have blocked : ((one stop).runs none (d :: (piece ++ c :: rest))) = [] := by
        rw [runs_one_cons, if_neg (by rw [apart d taken]; exact Bool.false_ne_true)]
      have longer : ((manyRuns greedy accepts (least - 1) none (piece ++ c :: rest)).map fun run =>
          (d :: run.1, run.2)).flatMap (fun run =>
            ((one stop).runs none run.2).map (Match.behind run.1)) =
          [⟨d :: piece ++ [c], [], rest⟩] := by
        rw [List.flatMap_map]
        have grown := congrArg (List.map (Match.behind [d])) further
        rw [List.map_flatMap] at grown
        refine Eq.trans (List.flatMap_congr fun run _ => ?_) grown
        rw [List.map_map]
        rfl
      have here : (if least = 0 then [(([] : List α), d :: (piece ++ c :: rest))] else []).flatMap
          (fun run => ((one stop).runs none run.2).map (Match.behind run.1)) = [] := by
        split
        · rw [List.flatMap_singleton, blocked, List.map_nil]
        · rfl
      have goes : (accepts d && (none : Option Nat) != some 0) = true := by
        rw [taken]
        rfl
      rw [List.cons_append, manyRuns, Option.map_none]
      cases greedy with
      | true =>
          rw [if_pos rfl, if_pos goes, List.flatMap_append, here, longer, List.append_nil]
      | false =>
          rw [if_neg Bool.false_ne_true, if_pos goes, List.flatMap_append, here, longer,
            List.nil_append]

variable [DecidableEq α]

/-- A word matches where the text begins with it. -/
theorem runs_word (letters : List α) :
    (word letters).runs before text =
      if letters <+: text then [⟨letters, [], text.drop letters.length⟩] else [] := by
  induction letters generalizing before text with
  | nil => rw [if_pos (List.nil_prefix), word, runs_nothing, List.length_nil, List.drop_zero]
  | cons c letters ih =>
      cases text with
      | nil => rw [if_neg (by simp), word, runs_seq, runs_one_nil, List.flatMap_nil]
      | cons d text =>
          rw [word, runs_seq, runs_one_cons]
          by_cases same : d = c
          · rw [if_pos (decide_eq_true same), List.flatMap_singleton, ih, same]
            by_cases begins : letters <+: text
            · rw [if_pos begins, if_pos (List.cons_prefix_cons.mpr ⟨rfl, begins⟩)]
              rfl
            · rw [if_neg begins, if_neg fun whole => begins (List.cons_prefix_cons.mp whole).2]
              rfl
          · rw [if_neg (by simpa using same), List.flatMap_nil, if_neg]
            exact fun whole => same (List.cons_prefix_cons.mp whole).1.symm

/-- Behind a word the next pattern is tried, after its last letter. -/
theorem runs_word_seq_ne_nil {letters : List α} :
    (seq (word letters) second).runs before text ≠ [] ↔
      ∃ rest, text = letters ++ rest ∧ second.runs (letters.getLast?.or before) rest ≠ [] := by
  rw [runs_seq_ne_nil, runs_word]
  constructor
  · rintro ⟨head, member, some_⟩
    split at member
    · next begins =>
        obtain ⟨rest, rfl⟩ := begins
        rw [List.mem_singleton.mp member, List.drop_left] at some_
        exact ⟨rest, rfl, some_⟩
    · cases member
  · rintro ⟨rest, rfl, some_⟩
    rw [if_pos (List.prefix_append _ _), List.drop_left]
    exact ⟨_, List.mem_singleton_self _, some_⟩

theorem runs_word_seq_of_not {letters : List α} (other : ¬ letters <+: text) :
    (seq (word letters) second).runs before text = [] := by
  by_contra some_
  obtain ⟨rest, rfl, -⟩ := runs_word_seq_ne_nil.mp some_
  exact other (List.prefix_append _ _)

theorem runs_word_seq (letters rest : List α) :
    (seq (word letters) second).runs before (letters ++ rest) =
      (second.runs (letters.getLast?.or before) rest).map (Match.behind letters) := by
  rw [runs_seq, runs_word, if_pos (List.prefix_append _ _), List.flatMap_singleton, List.drop_left]
  rfl

end Runs

section Search

variable {pattern : Pattern α}

/-- A text matches where some place of it does. -/
theorem search_isSome {before : Option α} {text : List α} :
    (pattern.search before text).isSome = true ↔
      ∃ skipped rest, text = skipped ++ rest ∧
        pattern.runs (skipped.getLast?.or before) rest ≠ [] := by
  induction text generalizing before with
  | nil =>
      rw [search, Option.isSome_map, List.isSome_head?]
      constructor
      · exact fun some_ => ⟨[], [], rfl, by simpa using some_⟩
      · rintro ⟨skipped, rest, whole, some_⟩
        obtain ⟨rfl, rfl⟩ := List.append_eq_nil_iff.mp whole.symm
        simpa using some_
  | cons c text ih =>
      rw [search]
      cases here : (pattern.runs before (c :: text)).head? with
      | some found =>
          refine iff_of_true rfl ⟨[], c :: text, rfl, fun none_ => ?_⟩
          rw [List.getLast?_nil, Option.none_or] at none_
          rw [none_] at here
          cases here
      | none =>
          dsimp only
          rw [Option.isSome_map, ih]
          constructor
          · rintro ⟨skipped, rest, rfl, some_⟩
            refine ⟨c :: skipped, rest, rfl, ?_⟩
            rwa [List.getLast?_cons, Option.some_or, ← Option.or_some]
          · rintro ⟨skipped, rest, whole, some_⟩
            cases skipped with
            | nil =>
                rw [List.nil_append] at whole
                rw [← whole, List.getLast?_nil, Option.none_or] at some_
                exact absurd (List.head?_eq_none_iff.mp here) some_
            | cons d skipped =>
                obtain ⟨rfl, rfl⟩ := List.cons.inj whole
                refine ⟨skipped, rest, rfl, ?_⟩
                rwa [List.getLast?_cons, Option.some_or, ← Option.or_some] at some_

theorem isMatch_iff {text : List α} :
    pattern.isMatch text = true ↔
      ∃ skipped rest, text = skipped ++ rest ∧ pattern.runs skipped.getLast? rest ≠ [] := by
  rw [isMatch, search_isSome]
  simp only [Option.or_none]

end Search

section Replacement

variable {pattern : Pattern α} {replacement : Match α → List α}

/-- No match begins in the piece, whatever stands around it. -/
def Inert (pattern : Pattern α) (piece : List α) : Prop :=
  ∀ before rest a b, piece = a ++ b → b ≠ [] →
    pattern.runs (a.getLast?.or before) (b ++ rest) = []

/-- The piece is matched as a whole, whatever stands around it, and becomes the other text. -/
def Replaces (pattern : Pattern α) (replacement : Match α → List α) (piece other : List α) : Prop :=
  piece ≠ [] ∧ ∀ before rest, ∃ found, (pattern.runs before (piece ++ rest)).head? = some found ∧
    found.text = piece ∧ replacement found = other

theorem inert_nil : Inert pattern [] := by
  intro before rest a b whole some_
  exact absurd (List.append_eq_nil_iff.mp whole.symm).2 some_

/-- A letter more, where no match begins at it. -/
theorem Inert.cons {c : α} {piece : List α} (inert : Inert pattern piece)
    (here : ∀ before rest, pattern.runs before (c :: piece ++ rest) = []) :
    Inert pattern (c :: piece) := by
  intro before rest a b whole some_
  cases a with
  | nil =>
      rw [List.nil_append] at whole
      rw [← whole, List.getLast?_nil, Option.none_or]
      exact here before rest
  | cons d a =>
      obtain ⟨rfl, rfl⟩ := List.cons.inj whole
      rw [List.getLast?_cons, Option.some_or, ← Option.or_some]
      exact inert (some c) rest a b rfl some_

theorem replaceFrom_skip (taken rest : List α) (before : Option α) :
    replaceFrom pattern replacement taken.length before (taken ++ rest) =
      replaceFrom pattern replacement 0 (taken.getLast?.or before) rest := by
  induction taken generalizing before with
  | nil => rw [List.getLast?_nil, Option.none_or]; rfl
  | cons c taken ih =>
      rw [List.length_cons, List.cons_append, replaceFrom, ih, List.getLast?_cons, Option.some_or,
        ← Option.or_some]

theorem replaceFrom_inert {piece rest : List α} {before : Option α}
    (inert : ∀ a b, piece = a ++ b → b ≠ [] →
      pattern.runs (a.getLast?.or before) (b ++ rest) = []) :
    replaceFrom pattern replacement 0 before (piece ++ rest) =
      piece ++ replaceFrom pattern replacement 0 (piece.getLast?.or before) rest := by
  induction piece generalizing before with
  | nil => rw [List.getLast?_nil, Option.none_or]; rfl
  | cons c piece ih =>
      have here := inert [] (c :: piece) rfl (List.cons_ne_nil _ _)
      rw [List.getLast?_nil, Option.none_or, List.cons_append] at here
      have later : ∀ a b, piece = a ++ b → b ≠ [] →
          pattern.runs (a.getLast?.or (some c)) (b ++ rest) = [] := by
        intro a b whole some_
        have further := inert (c :: a) b (congrArg (c :: ·) whole) some_
        rwa [List.getLast?_cons, Option.some_or, ← Option.or_some] at further
      rw [List.cons_append, replaceFrom, here, List.head?_nil, ih later, List.getLast?_cons,
        Option.some_or, ← Option.or_some, List.cons_append]

theorem replaceFrom_replaces {piece other : List α}
    (replaces : Replaces pattern replacement piece other) (before : Option α) (rest : List α) :
    replaceFrom pattern replacement 0 before (piece ++ rest) =
      other ++ replaceFrom pattern replacement 0 (piece.getLast?.or before) rest := by
  obtain ⟨some_, taken⟩ := replaces
  obtain ⟨found, first, rfl, rfl⟩ := taken before rest
  obtain ⟨c, piece, whole⟩ := List.exists_cons_of_ne_nil some_
  rw [whole] at first ⊢
  rw [List.cons_append] at first ⊢
  rw [replaceFrom, first]
  dsimp only
  rw [whole, List.length_cons, Nat.add_sub_cancel, replaceFrom_skip, List.getLast?_cons,
    Option.some_or, ← Option.or_some]

/-- Where each piece of a text is replaced as a whole or has no match, so is the text. -/
theorem replaceAll_flatMap {τ : Type*} {source other : τ → List α} {tokens : List τ}
    (each : ∀ token ∈ tokens,
      Inert pattern (source token) ∧ other token = source token ∨
        Replaces pattern replacement (source token) (other token)) :
    replaceAll pattern replacement (tokens.flatMap source) = tokens.flatMap other := by
  rw [replaceAll]
  generalize (none : Option α) = before
  induction tokens generalizing before with
  | nil => rfl
  | cons token tokens ih =>
      have later := ih fun other member => each other (List.mem_cons_of_mem _ member)
      rw [List.flatMap_cons, List.flatMap_cons]
      rcases each token List.mem_cons_self with ⟨inert, same⟩ | replaces
      · rw [replaceFrom_inert (inert before _), later, same]
      · rw [replaceFrom_replaces replaces, later]

end Replacement

end Pattern

end Regex

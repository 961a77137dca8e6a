import SP42.Base.Json
import SP42.Base.Patterns
import SP42.Citation.Finding
import SP42.Parsoid.Anchors
import Mathlib.Data.List.Zip

/-!
How the answer of a model becomes a verdict: a JSON object first, the prose after it. Four
patterns are tried in order on the verdict text, so a judgment is read as support wherever its
negation is none of the forms that the earlier patterns know.
-/
namespace SP42.Citation

open Regex SP42.Patterns

section Parser

variable (beyond : Char → Bool) (toLowercase : Text → Text) (fromStr : Text → Option Json)

def unavailablePattern : Pattern Char :=
  .oneOf
    [inOrder [edge beyond, .oneOf [literal "unavailable", literal "inaccessible"], edge beyond],
      inOrder
        [.oneOf
          [inOrder [literal "could", .optional (literal " "), literal "n",
            .optional (.one (· != '\n')), literal "t"],
            literal "cannot",
            inOrder [literal "can", .optional (.one (· != '\n')), literal "t"],
            literal "unable to", literal "failed to", literal "no"],
          literal " ",
          .oneOf [literal "access", literal "retrieve", literal "reach", literal "load",
            literal "fetch"]]]

def notSupportedPattern : Pattern Char :=
  .oneOf [Patterns.wholeWord beyond "unsupported", Patterns.wholeWord beyond "not supported",
    wordStem beyond "contradict", wordStem beyond "refut"]

def partialPattern : Pattern Char :=
  .oneOf [wordStem beyond "partial", Patterns.wholeWord beyond "partly"]

def supportedPattern : Pattern Char :=
  .oneOf [Patterns.wholeWord beyond "supported", Patterns.wholeWord beyond "supports",
    wordStem beyond "confirm"]

/-- The raw verdict text in lower case, without underscores, each run of white space a space. -/
def normalizeVerdict (raw : Text) : Text :=
  Parsoid.normalizeAnchorText ((toLowercase raw).map fun c => if c = '_' then ' ' else c)

def canonicalizeVerdict (raw : Text) : Option Verdict :=
  let text := normalizeVerdict toLowercase raw
  if text = [] then none
  else if (unavailablePattern beyond).isMatch text then some .sourceUnavailable
  else if (notSupportedPattern beyond).isMatch text then some .notSupported
  else if (partialPattern beyond).isMatch text then some .partially
  else if (supportedPattern beyond).isMatch text then some .supported
  else none

def fencePattern : Pattern Char :=
  inOrder [literal "\x60\x60\x60", .optional (literalAnyCase "json"),
    .many true 0 none Text.isWhitespace, .group (.many false 0 none fun _ => true),
    literal "\x60\x60\x60"]

def quotedSpanPattern : Pattern Char :=
  inOrder [.one fun c => c == '"' || c == '“',
    .group (.many true 1 (some 2000) fun c => c != '"' && c != '”'),
    .one fun c => c == '"' || c == '”']

/-- What the only group of a pattern captures. -/
def captured (pattern : Pattern Char) (text : Text) : Option Text :=
  (pattern.captures text).bind fun found => found.groups.head?

/-- The first quoted span, trimmed. -/
def firstQuotedSpan (text : Text) : Option Text :=
  ((captured quotedSpanPattern text).map Text.trim).filter (· ≠ [])

/-- From the first opening brace to the last closing one. -/
def braceSpan (text : Text) : Option Text := do
  let first ← text.findIdx? (· == '\x7b')
  let fromEnd ← text.reverse.findIdx? (· == '\x7d')
  let last := text.length - 1 - fromEnd
  if first < last then some ((text.take (last + 1)).drop first) else none

def jsonCandidates (text : Text) : List Text :=
  (captured fencePattern text).toList ++ (braceSpan text).toList

/-- A field of the object that a candidate holds. -/
def fieldOf (candidate : Text) (key : String) : Option Json :=
  ((fromStr candidate).bind Json.asObject).bind fun members => members.lookup key

/-- One candidate: its verdict where the field names one, and the first quote it has. -/
def parseCandidate (candidate : Text) : Option ParsedVerdict := do
  let verdictValue ← fieldOf fromStr candidate "verdict"
  let verdict ← canonicalizeVerdict beyond toLowercase (verdictValue.asStr.getD [])
  let quote := ["quote", "supporting_quote", "evidence"].findSome? fun key =>
    (fieldOf fromStr candidate key).bind Json.asStr
  some ⟨verdict, (quote.map Text.trim).filter (· ≠ [])⟩

def parseVerdictResponse (text : Text) : Option ParsedVerdict :=
  ((jsonCandidates text).findSome? (parseCandidate beyond toLowercase fromStr)).or
    ((canonicalizeVerdict beyond toLowercase text).map fun verdict =>
      ⟨verdict, firstQuotedSpan text⟩)

end Parser

section Judgment

variable (beyond : Char → Bool)

/-- A word of support begins here: one of three whole words, or a word with one of two stems. -/
def supportBegins (text : Text) : Bool :=
  (["supported", "supports", "partly"].any fun word =>
    word.toList.isPrefixOf text && !(text.drop word.toList.length).head?.any (isWord beyond)) ||
  ["confirm", "partial"].any fun stem => stem.toList.isPrefixOf text

/-- The places of a text, as what stands before and behind them. -/
def places (text : Text) : List (Text × Text) := text.inits.zip text.tails

/-- The words of support in a text, each as what stands before it and the text from it on. -/
def supportMentions (text : Text) : List (Text × Text) :=
  (places text).filter fun place =>
    !place.1.getLast?.any (isWord beyond) && supportBegins beyond place.2

/-- What stands in the sentence before a place. -/
def sentenceBefore (before : Text) : Text :=
  before.rtakeWhile fun c => c ∉ ['.', '!', '?']

def isNegation (word : Text) : Bool :=
  ["not", "no", "never", "cannot"].any (fun negation => word == negation.toList) ||
    ["n't", "n’t"].any fun ending => ending.toList.isSuffixOf word

/-- A negation stands in the sentence before the place. -/
def negatedAt (before : Text) : Bool :=
  ((sentenceBefore before).splitOnP fun c => !(isWord beyond c || c == '\x27' || c == '’')).any
    isNegation

/-- The text mentions support, and only behind negations. -/
def NegatedOnly (text : Text) : Prop :=
  supportMentions beyond text ≠ [] ∧
    ∀ place ∈ supportMentions beyond text, negatedAt beyond place.1 = true

instance (text : Text) : Decidable (NegatedOnly beyond text) :=
  inferInstanceAs (Decidable (_ ∧ _))

variable {beyond}

theorem supportBegins_iff {text : Text} :
    supportBegins beyond text = true ↔
      (∃ word ∈ ["supported", "supports", "partly"], ∃ rest, text = word.toList ++ rest ∧
        rest.head?.any (isWord beyond) = false) ∨
      ∃ stem ∈ ["confirm", "partial"], ∃ rest, text = stem.toList ++ rest := by
  rw [supportBegins, Bool.or_eq_true, List.any_eq_true, List.any_eq_true]
  refine or_congr (exists_congr fun word => and_congr_right fun _ => ?_)
    (exists_congr fun stem => and_congr_right fun _ => ?_)
  · rw [Bool.and_eq_true, List.isPrefixOf_iff_prefix, Bool.not_eq_true']
    constructor
    · rintro ⟨⟨rest, rfl⟩, ends⟩
      rw [List.drop_left] at ends
      exact ⟨rest, rfl, ends⟩
    · rintro ⟨rest, rfl, ends⟩
      exact ⟨List.prefix_append _ _, by rwa [List.drop_left]⟩
  · rw [List.isPrefixOf_iff_prefix]
    exact exists_congr fun rest => eq_comm

theorem regroup {a b c d e : Prop} : (a ∨ b) ∨ c ∨ d ∨ e ↔ (c ∨ d ∨ b) ∨ e ∨ a := by tauto

/-- One of the two patterns of support matches exactly where a word of support begins. -/
theorem runs_support {before : Option Char} {text : Text} :
    (partialPattern beyond).runs before text ≠ [] ∨
      (supportedPattern beyond).runs before text ≠ [] ↔
      before.any (isWord beyond) = false ∧ supportBegins beyond text = true := by
  have begins (stem : String) (letters : stem.toList.all Char.isLower = true)
      (inhabited : stem.toList ≠ []) := @runs_wordStem beyond before text stem letters inhabited
  have whole (word : String) (letters : word.toList.all Char.isLower = true)
      (inhabited : word.toList ≠ []) := @runs_wholeWord beyond before text word letters inhabited
  rw [partialPattern, supportedPattern, Pattern.runs_oneOf_ne_nil, Pattern.runs_oneOf_ne_nil,
    supportBegins_iff]
  simp only [List.exists_mem_cons_iff, List.not_mem_nil, false_and, exists_false, or_false]
  rw [begins "partial" rfl (by decide), begins "confirm" rfl (by decide),
    whole "partly" rfl (by decide), whole "supported" rfl (by decide),
    whole "supports" rfl (by decide), ← and_or_left, ← and_or_left, ← and_or_left, ← and_or_left]
  exact and_congr_right fun _ => regroup

theorem supportMentions_ne_nil {text : Text} :
    supportMentions beyond text ≠ [] ↔
      (partialPattern beyond).isMatch text = true ∨
        (supportedPattern beyond).isMatch text = true := by
  rw [Pattern.isMatch_iff, Pattern.isMatch_iff]
  constructor
  · intro some_
    obtain ⟨⟨before, after⟩, member⟩ := List.exists_mem_of_ne_nil _ some_
    obtain ⟨place, mention⟩ := List.mem_filter.mp member
    rw [Bool.and_eq_true, Bool.not_eq_true'] at mention
    have whole := (List.mem_zip_inits_tails.mp place).symm
    rcases runs_support.mpr mention with here | here
    · exact .inl ⟨before, after, whole, here⟩
    · exact .inr ⟨before, after, whole, here⟩
  · intro found
    obtain ⟨before, after, whole, here⟩ : ∃ before after, text = before ++ after ∧
        ((partialPattern beyond).runs before.getLast? after ≠ [] ∨
          (supportedPattern beyond).runs before.getLast? after ≠ []) := by
      rcases found with ⟨before, after, whole, here⟩ | ⟨before, after, whole, here⟩
      · exact ⟨before, after, whole, .inl here⟩
      · exact ⟨before, after, whole, .inr here⟩
    obtain ⟨starts, mention⟩ := runs_support.mp here
    refine List.ne_nil_of_mem (List.mem_filter.mpr
      ⟨List.mem_zip_inits_tails.mpr whole.symm, ?_⟩)
    rw [Bool.and_eq_true, Bool.not_eq_true']
    exact ⟨starts, mention⟩

end Judgment

section Readings

variable {beyond : Char → Bool} {toLowercase : Text → Text} {fromStr : Text → Option Json}

/-- Support is read where it is mentioned and no pattern before it matches. -/
theorem canonicalizeVerdict_support {raw : Text} :
    (∃ verdict, canonicalizeVerdict beyond toLowercase raw = some verdict ∧
      verdict.isSupportClass = true) ↔
    supportMentions beyond (normalizeVerdict toLowercase raw) ≠ [] ∧
      ¬ ((unavailablePattern beyond).isMatch (normalizeVerdict toLowercase raw) = true ∨
        (notSupportedPattern beyond).isMatch (normalizeVerdict toLowercase raw) = true) := by
  unfold canonicalizeVerdict
  dsimp only
  generalize normalizeVerdict toLowercase raw = text
  split
  · next empty =>
      rw [empty]
      refine iff_of_false nofun fun mentioned => mentioned.1 ?_
      rfl
  · split
    · next gone => exact iff_of_false (by simp [Verdict.isSupportClass]) fun h => h.2 (.inl gone)
    · next here =>
        split
        · next refused =>
            exact iff_of_false (by simp [Verdict.isSupportClass]) fun h => h.2 (.inr refused)
        · next open_ =>
            rw [supportMentions_ne_nil]
            have none_ := not_or.mpr ⟨here, open_⟩
            split
            · next part => exact iff_of_true ⟨_, rfl, rfl⟩ ⟨.inl part, none_⟩
            · next whole =>
                split
                · next full => exact iff_of_true ⟨_, rfl, rfl⟩ ⟨.inr full, none_⟩
                · next silent =>
                    exact iff_of_false nofun fun h => h.1.elim whole silent

variable (beyond toLowercase fromStr)

/-- The verdict string of a candidate, where it is usable. -/
def usableVerdict (candidate : Text) : Option Text :=
  ((fieldOf fromStr candidate "verdict").map fun value => value.asStr.getD []).filter fun raw =>
    (canonicalizeVerdict beyond toLowercase raw).isSome

/-- The text that is judged: the first usable verdict string, or all the prose. -/
def verdictText (text : Text) : Text :=
  ((jsonCandidates text).findSome? (usableVerdict beyond toLowercase fromStr)).getD text

variable {beyond toLowercase fromStr}

theorem parseCandidate_verdict (candidate : Text) :
    (parseCandidate beyond toLowercase fromStr candidate).map ParsedVerdict.verdict =
      (usableVerdict beyond toLowercase fromStr candidate).bind
        (canonicalizeVerdict beyond toLowercase) := by
  rw [parseCandidate, usableVerdict]
  cases fieldOf fromStr candidate "verdict" with
  | none => rfl
  | some value =>
      rw [Option.map_some]
      cases judged : canonicalizeVerdict beyond toLowercase (value.asStr.getD []) with
      | none =>
          rw [Option.filter_some_neg (by rw [judged]; rfl)]
          simp [judged]
      | some verdict =>
          rw [Option.filter_some_pos (by rw [judged]; rfl), Option.bind_some, judged]
          simp [judged]

/-- The verdict of an answer is what its verdict text is read as. -/
theorem parseVerdictResponse_verdict (text : Text) :
    (parseVerdictResponse beyond toLowercase fromStr text).map ParsedVerdict.verdict =
      canonicalizeVerdict beyond toLowercase
        (verdictText beyond toLowercase fromStr text) := by
  rw [parseVerdictResponse, verdictText]
  generalize jsonCandidates text = candidates
  induction candidates with
  | nil =>
      rw [List.findSome?_nil, List.findSome?_nil, Option.none_or, Option.getD_none, Option.map_map]
      exact Option.map_id'
  | cons candidate rest ih =>
      have here := @parseCandidate_verdict beyond toLowercase fromStr candidate
      rw [List.findSome?_cons, List.findSome?_cons]
      cases usable : usableVerdict beyond toLowercase fromStr candidate with
      | none =>
          rw [usable, Option.bind_none, Option.map_eq_none_iff] at here
          rw [here]
          exact ih
      | some raw =>
          rw [usable, Option.bind_some] at here
          have known := (Option.filter_eq_some_iff.mp usable).2
          obtain ⟨verdict, judged⟩ := Option.isSome_iff_exists.mp known
          rw [judged] at here
          obtain ⟨parsed, found, same⟩ := Option.map_eq_some_iff.mp here
          rw [found, Option.getD_some, judged, ← same]
          rfl

variable (beyond toLowercase fromStr) in
/-- A judgment whose words of support are all negated is read as none exactly where its text has
one of the forms that the patterns of unavailable sources and of refusals know. -/
theorem negated_judgment_iff (text : Text) :
    let judgment := normalizeVerdict toLowercase (verdictText beyond toLowercase fromStr text)
    (NegatedOnly beyond judgment →
      ∀ parsed, parseVerdictResponse beyond toLowercase fromStr text = some parsed →
        parsed.verdict.isSupportClass = false) ↔
    (NegatedOnly beyond judgment →
      (unavailablePattern beyond).isMatch judgment = true ∨
        (notSupportedPattern beyond).isMatch judgment = true) := by
  intro judgment
  refine forall_congr' fun negated => ?_
  have read := @parseVerdictResponse_verdict beyond toLowercase fromStr text
  have support := @canonicalizeVerdict_support beyond toLowercase
    (verdictText beyond toLowercase fromStr text)
  rw [← read] at support
  constructor
  · intro never
    by_contra open_
    obtain ⟨verdict, known, supports⟩ := support.mpr ⟨negated.1, open_⟩
    obtain ⟨parsed, found, rfl⟩ := Option.map_eq_some_iff.mp known
    rw [never parsed found] at supports
    cases supports
  · intro refused parsed found
    refine eq_false_of_ne_true fun supports => ?_
    exact (support.mp ⟨_, by rw [found]; rfl, supports⟩).2 refused

/-- An adverb between the negation and the word of support. -/
def hedgedAnswer : Text := "The claim is not fully supported by the source.".toList

theorem hedged_reads_supported :
    let toLowercase : Text → Text := fun text => text.map Char.toLower
    let ascii : Char → Bool := fun _ => false
    NegatedOnly ascii
      (normalizeVerdict toLowercase (verdictText ascii toLowercase (fun _ => none) hedgedAnswer)) ∧
    parseVerdictResponse ascii toLowercase (fun _ => none) hedgedAnswer =
      some ⟨.supported, none⟩ := by
  decide +kernel

end Readings

end SP42.Citation

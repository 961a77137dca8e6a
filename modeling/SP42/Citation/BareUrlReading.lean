import Mathlib
import SP42.Base.Json
import SP42.Base.Wikitext
import SP42.Citation.Finding

/-!
Repair of a reference that is only a URL: the bibliographic record of the page becomes the
parameters of a citation template.
-/
namespace SP42.Citation

/-- A string that is not blank. -/
def asString (value : Json) : Option Text :=
  value.asStr.filter fun s => Text.trim s ≠ []

/-- One author: a name, or its parts. -/
def authorName : Json → Text
  | .array parts => Text.join [' '] ((parts.filterMap Json.asStr).filter (· ≠ []))
  | .string s => s
  | _ => []

def formatAuthors (value : Json) : Option Text :=
  value.asArray.bind fun entries =>
    let names := (entries.map authorName).filter (· ≠ [])
    if names = [] then none else some (Text.join ", ".toList names)

/-- The record of a parsed answer, unless it names nothing. -/
def buildCitoidHeader (raw : Json) (sourceUrl : Text) : Option CitoidMetadata :=
  let publication := ((raw.get "publicationTitle").bind asString).or
    ((raw.get "websiteTitle").bind asString)
  let published := (raw.get "date").bind asString
  let author := ((raw.get "author").bind formatAuthors).or ((raw.get "creators").bind formatAuthors)
  let title := (raw.get "title").bind asString
  if publication.isNone ∧ published.isNone ∧ author.isNone ∧ title.isNone then none
  else some
    { publication := publication, published := published, author := author, title := title
      url := sourceUrl }

inductive BareUrlDeclineReason where
  | metadataUnavailable
  | noUsableTitle
  deriving DecidableEq, Repr

inductive BareUrlOutcome where
  | proposed (replacementWikitext : Text)
  | declined (reason : BareUrlDeclineReason)
  deriving DecidableEq

/-- English is the wiki's own language. -/
def isOwnLanguage (language : Text) : Bool :=
  let lowered := language.map Char.toLower
  lowered == "en".toList || "en-".toList.isPrefixOf lowered

def sanitizeChar (c : Char) : Text :=
  if c = '|' then "\x7b\x7b!\x7d\x7d".toList else if c = '\n' ∨ c = '\r' then [' '] else [c]

/-- Pipes are escaped and newlines become spaces; everything else stays. -/
def sanitizeTemplateValue (value : Text) : Text := value.flatMap sanitizeChar

/-- The title, trimmed, if it is one and not the URL again. -/
def usableTitle (metadata : CitoidMetadata) : Option Text :=
  ((metadata.title.map Text.trim).filter (· ≠ [])).filter (· ≠ Text.trim metadata.url)

/-- The language to be named. -/
def shownLanguage (language : Option Text) : Option Text :=
  (language.map Text.trim).filter fun language => language ≠ [] ∧ ¬ isOwnLanguage language

/-- The parameters of the citation, in order. -/
def citationParameters (metadata : CitoidMetadata) (title : Text) (language : Option Text)
    (accessDateIso : Text) : List (String × Text) :=
  [("url", Text.trim metadata.url), ("title", title)] ++
    (metadata.publication.map fun publication => ("website", publication)).toList ++
    (metadata.author.map fun author => ("author", author)).toList ++
    (metadata.published.map fun published => ("date", published)).toList ++
    [("access-date", accessDateIso)] ++
    ((shownLanguage language).map fun language => ("language", language)).toList

def renderParameter (parameter : String × Text) : Text :=
  '|' :: parameter.1.toList ++ '=' :: sanitizeTemplateValue parameter.2

def renderBareUrlCitation (templateName : Text) (metadata : Option CitoidMetadata)
    (language : Option Text) (accessDateIso : Text) : BareUrlOutcome :=
  match metadata with
  | none => .declined .metadataUnavailable
  | some metadata =>
      match usableTitle metadata with
      | none => .declined .noUsableTitle
      | some title =>
          let body := Text.join [' ']
            ((citationParameters metadata title language accessDateIso).map renderParameter)
          .proposed ("\x7b\x7b".toList ++ templateName ++ ' ' :: body ++ "\x7d\x7d".toList)

end SP42.Citation

/-!
When the wikitext of a repaired reference reads as one template call with the values it was
made from: no value may hold the braces, links, tags or signatures of wikitext.
-/
namespace SP42.Citation

open Wikitext

/-- A value as it reads: newlines are spaces. -/
def shown (value : Text) : Text := value.map fun c => if c = '\n' ∨ c = '\r' then ' ' else c

/-- What cannot stand in a value: two braces, a pipe between braces, or an opening. -/
def breaks (text : Text) : Bool :=
  ['{', '{'].isPrefixOf text || ['}', '}'].isPrefixOf text || ['{', '|', '}'].isPrefixOf text ||
    opensMarkup text

def Inert (value : Text) : Prop := ∀ rest, rest <:+ value → breaks rest = false

instance (value : Text) : Decidable (Inert value) :=
  decidable_of_iff (value.tails.all fun rest => !breaks rest) (by simp [Inert])

/-- The values of a call: the closing braces follow the last one. -/
def Closed : List Text → Prop
  | [] => True
  | [last] => Inert (last ++ ['}'])
  | value :: rest => Inert value ∧ Closed rest

instance decidableClosed : ∀ values, Decidable (Closed values)
  | [] => .isTrue trivial
  | [last] => inferInstanceAs (Decidable (Inert (last ++ ['}'])))
  | value :: next :: rest =>
      have := decidableClosed (next :: rest)
      inferInstanceAs (Decidable (Inert value ∧ Closed (next :: rest)))

theorem inert_cons {c : Char} {value : Text} :
    Inert (c :: value) ↔ breaks (c :: value) = false ∧ Inert value := by
  unfold Inert
  simp only [List.suffix_cons_iff]
  constructor
  · intro inert
    exact ⟨inert _ (.inl rfl), fun rest suffix => inert rest (.inr suffix)⟩
  · rintro ⟨here, later⟩ rest (rfl | suffix)
    · exact here
    · exact later rest suffix

theorem breaks_of_stops {c : Char} (stopping : stops c = true) : breaks [c] = false := by
  simp [breaks, opensMarkup_of_stops stopping, List.isPrefixOf]

theorem nil_inert : Inert [] := by
  intro rest suffix
  rw [List.suffix_nil.mp suffix]
  simp [breaks, opensMarkup_nil]

theorem inert_stop {c : Char} (stopping : stops c = true) : Inert [c] := by
  rw [inert_cons]
  exact ⟨breaks_of_stops stopping, nil_inert⟩

theorem shown_cons (c : Char) (value : Text) :
    shown (c :: value) = (if c = '\n' ∨ c = '\r' then ' ' else c) :: shown value := rfl

theorem sanitize_cons (c : Char) (value : Text) :
    sanitizeTemplateValue (c :: value) = sanitizeChar c ++ sanitizeTemplateValue value := rfl

/-- Sanitizing neither makes nor breaks an opening. -/
theorem opensMarkup_sanitize (value : Text) {stop : Char} (stopping : stops stop = true)
    (rest : Text) : opensMarkup (sanitizeTemplateValue value ++ stop :: rest) =
      opensMarkup value := by
  have clean : ∀ text : Text, (∀ c ∈ text, stops c = false) → sanitizeTemplateValue text = text := by
    intro text unstopped
    induction text with
    | nil => rfl
    | cons c text ih =>
        have here := unstopped c List.mem_cons_self
        have same : sanitizeChar c = [c] := by
          unfold sanitizeChar
          split
          · simp_all [stops]
          · split
            · simp_all [stops]
            · rfl
        rw [sanitize_cons, same, ih fun d member => unstopped d (List.mem_cons_of_mem c member)]
        rfl
  have front : ∀ c ∈ value.takeWhile (!stops ·), stops c = false := by
    intro c member
    simpa using List.mem_takeWhile_imp member
  rw [← List.takeWhile_append_dropWhile (p := (!stops ·)) (l := value)]
  cases split : value.dropWhile (!stops ·) with
  | nil =>
      rw [List.append_nil, clean _ front]
      exact opensMarkup_stop stopping _ _
  | cons c later =>
      have last : stops c = true := by
        have head := List.head?_dropWhile_not (!stops ·) value
        rw [split] at head
        simpa using head
      obtain ⟨d, more, begins, stays⟩ : ∃ d more, sanitizeChar c = d :: more ∧ stops d = true := by
        unfold sanitizeChar
        split
        · exact ⟨'{', _, rfl, rfl⟩
        · split
          · exact ⟨' ', [], rfl, rfl⟩
          · exact ⟨c, [], rfl, last⟩
      have cut : sanitizeTemplateValue (value.takeWhile (!stops ·) ++ c :: later) ++ stop :: rest =
          value.takeWhile (!stops ·) ++ d :: (more ++ sanitizeTemplateValue later ++ stop :: rest) := by
        unfold sanitizeTemplateValue at clean ⊢
        rw [List.flatMap_append, clean _ front, List.flatMap_cons, begins]
        simp
      rw [cut, opensMarkup_stop stays, opensMarkup_stop last]

theorem breaks_space (value : Text) : breaks (value ++ [' ']) = breaks value := by
  unfold breaks
  rw [opensMarkup_stop rfl, isPrefixOf_stop (by decide), isPrefixOf_stop (by decide),
    isPrefixOf_stop (by decide)]

theorem inert_space {value : Text} : Inert (value ++ [' ']) ↔ Inert value := by
  induction value with
  | nil => exact iff_of_true (inert_stop rfl) nil_inert
  | cons c value ih =>
      rw [List.cons_append, inert_cons, inert_cons, ih, ← List.cons_append, breaks_space]

section Reading

variable {next : Char} {rest : Text}

/-- What follows a value: a space before the next parameter, or the closing braces. -/
structure Follows (next : Char) (rest : Text) : Prop where
  ends : next = ' ' ∨ next = '}'
  more : rest ≠ []

theorem Follows.stops (follows : Follows next rest) : stops next = true := by
  rcases follows.ends with rfl | rfl <;> rfl

theorem Follows.notOpen (follows : Follows next rest) : next ≠ '{' ∧ next ≠ '|' := by
  rcases follows.ends with rfl | rfl <;> decide

theorem head_brace {value : Text} {first : Char}
    (head : (sanitizeTemplateValue value ++ next :: rest).head? = some first) :
    ∃ c later, value ++ [next] = c :: later ∧
      (first = c ∨ first = '{' ∧ c = '|' ∨ first = ' ' ∧ (c = '\n' ∨ c = '\r')) := by
  cases value with
  | nil => exact ⟨next, [], rfl, .inl (Option.some.inj head).symm⟩
  | cons c value =>
      refine ⟨c, value ++ [next], rfl, ?_⟩
      rw [sanitize_cons] at head
      unfold sanitizeChar at head
      split at head
      · exact .inr (.inl ⟨(Option.some.inj head).symm, ‹_›⟩)
      · split at head
        · exact .inr (.inr ⟨(Option.some.inj head).symm, ‹_›⟩)
        · exact .inl (Option.some.inj head).symm

/-- A character of an inert value begins nothing, also behind the sanitizer. -/
theorem lead_sanitized {c : Char} {value : Text} (follows : Follows next rest) (notBar : c ≠ '|')
    (inert : breaks (c :: value ++ [next]) = false) :
    ∃ d, sanitizeChar c = [d] ∧ d = (if c = '\n' ∨ c = '\r' then ' ' else c) ∧
      lead (d :: (sanitizeTemplateValue value ++ next :: rest)) = .plain := by
  have bare : opensMarkup (c :: value) = false := by
    rw [breaks, opensMarkup_stop follows.stops] at inert
    exact (Bool.or_eq_false_iff.mp inert).2
  by_cases newline : c = '\n' ∨ c = '\r'
  · refine ⟨' ', by simp [sanitizeChar, notBar, newline], by simp [newline], ?_⟩
    rw [lead_other (by decide), opensMarkup_of_stops rfl, if_neg Bool.false_ne_true]
  · have single : sanitizeChar c = [c] := by simp [sanitizeChar, notBar, newline]
    refine ⟨c, single, by simp [newline], ?_⟩
    by_cases opened : c = '{'
    · subst opened
      by_cases escaped : ∃ later, value = '|' :: later
      · obtain ⟨later, rfl⟩ := escaped
        refine lead_escaped ?_
        intro head
        obtain ⟨d, others, split, cases⟩ := head_brace head
        have closed : d = '}' := by
          rcases cases with same | ⟨differ, -⟩ | ⟨differ, -⟩
          · exact same.symm
          · exact absurd differ (by decide)
          · exact absurd differ (by decide)
        rw [List.cons_append, List.cons_append, split, closed] at inert
        simp [breaks, List.isPrefixOf] at inert
      · refine lead_open ?_
        intro head
        obtain ⟨d, others, split, cases⟩ := head_brace head
        rcases cases with same | ⟨-, bar⟩ | ⟨differ, -⟩
        · rw [List.cons_append, split, ← same] at inert
          simp [breaks, List.isPrefixOf] at inert
        · subst bar
          cases value with
          | nil =>
              obtain rfl : next = '|' := (List.cons.inj split).1
              exact follows.notOpen.2 rfl
          | cons e later =>
              obtain rfl : e = '|' := (List.cons.inj split).1
              exact escaped ⟨later, rfl⟩
        · exact absurd differ (by decide)
    · by_cases closed : c = '}'
      · subst closed
        refine lead_close ?_
        intro head
        obtain ⟨d, others, split, cases⟩ := head_brace head
        rcases cases with same | ⟨differ, -⟩ | ⟨differ, -⟩
        · rw [List.cons_append, split, ← same] at inert
          simp [breaks, List.isPrefixOf] at inert
        · exact absurd differ (by decide)
        · exact absurd differ (by decide)
      · have whole := opensMarkup_sanitize (c :: value) follows.stops rest
        rw [sanitize_cons, single, bare] at whole
        rw [lead_other ⟨opened, closed, notBar⟩]
        exact if_neg (by simpa using whole)

/-- An inert value is read as it is shown. -/
theorem arguments_inert {value : Text} (follows : Follows next rest)
    (inert : Inert (value ++ [next])) :
    arguments 0 (sanitizeTemplateValue value ++ next :: rest) =
      (arguments 0 (next :: rest)).after (shown value) := by
  induction value with
  | nil => exact (Reading.after_nil _).symm
  | cons c value ih =>
      obtain ⟨here, later⟩ := inert_cons.mp inert
      by_cases bar : c = '|'
      · subst bar
        show arguments 0 ('{' :: '{' :: '!' :: '}' :: '}' ::
          (sanitizeTemplateValue value ++ next :: rest)) = _
        rw [arguments_escaped, ih later, Reading.after_after]
        rfl
      · obtain ⟨d, single, same, plain⟩ := lead_sanitized follows bar here
        rw [sanitize_cons, single, List.singleton_append, List.cons_append, arguments_plain plain,
          ih later, Reading.after_after, shown_cons, ← same]
        rfl

/-- A reading that gives a pipe where the value has a brace. -/
def Misread (value : Text) (reading : Reading) : Prop :=
  ∀ first others, reading = some (first, others) → ∃ before a b,
    first = before ++ '|' :: a ∧ shown value = before ++ '{' :: b

theorem Misread.cons {c : Char} {value : Text} {reading : Reading} (misread : Misread value reading) :
    Misread (c :: value) (reading.after (shown [c])) := by
  intro first others read
  cases reading with
  | none => cases read
  | some arguments =>
      obtain ⟨before, a, b, here, there⟩ := misread arguments.1 arguments.2 rfl
      refine ⟨shown [c] ++ before, a, b, ?_, ?_⟩
      · rw [Reading.after_some] at read
        obtain ⟨rfl, -⟩ := Prod.mk.inj (Option.some.inj read)
        rw [here, List.append_assoc]
      · show shown [c] ++ shown value = _
        rw [there, List.append_assoc]

theorem misread_none (value : Text) : Misread value none := fun _ _ read => nomatch read

theorem Misread.after {c d : Char} {value : Text} {reading : Reading}
    (misread : Misread value reading) (same : shown [c] = [d]) :
    Misread (c :: value) (reading.after [d]) := same ▸ misread.cons

theorem breaks_cases {text : Text} (broken : breaks text = true) :
    (∃ later, text = '{' :: '{' :: later) ∨ (∃ later, text = '}' :: '}' :: later) ∨
      (∃ later, text = '{' :: '|' :: '}' :: later) ∨ opensMarkup text = true := by
  have whole : ∀ word : Text, word.isPrefixOf text = true → ∃ later, text = word ++ later := by
    intro word begins
    obtain ⟨later, same⟩ := List.isPrefixOf_iff_prefix.mp begins
    exact ⟨later, same.symm⟩
  simp only [breaks, Bool.or_eq_true] at broken
  rcases broken with ((opened | closed) | parameter) | markup
  · exact .inl (whole _ opened)
  · exact .inr (.inl (whole _ closed))
  · exact .inr (.inr (.inl (whole _ parameter)))
  · exact .inr (.inr (.inr markup))

/-- The first character of a value that goes on with another one. -/
theorem value_cons {value later : Text} {c : Char} (differ : next ≠ c)
    (split : value ++ [next] = c :: later) : ∃ more, value = c :: more ∧ more ++ [next] = later := by
  cases value with
  | nil => exact absurd (List.cons.inj split).1 differ
  | cons d more =>
      obtain ⟨rfl, same⟩ := List.cons.inj split
      exact ⟨more, rfl, same⟩

theorem misread_head {c : Char} {value : Text} (follows : Follows next rest)
    (broken : breaks (c :: value ++ [next]) = true) :
    Misread (c :: value) (arguments 0 (sanitizeTemplateValue (c :: value) ++ next :: rest)) := by
  rcases breaks_cases broken with ⟨later, whole⟩ | ⟨later, whole⟩ | ⟨later, whole⟩ | markup
  · obtain ⟨rfl, split⟩ := List.cons.inj whole
    obtain ⟨more, rfl, -⟩ := value_cons follows.notOpen.1 split
    rcases arguments_doubled (sanitizeTemplateValue more ++ next :: rest) with
      none | ⟨before, reading, shape, read⟩
    · exact none ▸ misread_none _
    · intro first others ends
      obtain ⟨first', others', rfl⟩ : ∃ first' others', reading = some (first', others') := by
        cases reading with
        | none =>
            have absent := read.symm.trans ends
            cases absent
        | some arguments => exact ⟨_, _, rfl⟩
      obtain ⟨rfl, -⟩ := Prod.mk.inj (Option.some.inj (read.symm.trans ends))
      rcases shape with rfl | rfl
      · exact ⟨[], first', _, rfl, rfl⟩
      · exact ⟨['{'], first', _, rfl, rfl⟩
  · obtain ⟨rfl, split⟩ := List.cons.inj whole
    refine (?_ : arguments 0 _ = none) ▸ misread_none _
    cases value with
    | nil =>
        obtain rfl : next = '}' := (List.cons.inj split).1
        exact arguments_closed follows.more
    | cons d more =>
        obtain rfl : d = '}' := (List.cons.inj split).1
        exact arguments_closed (by simp)
  · obtain ⟨rfl, split⟩ := List.cons.inj whole
    obtain ⟨more, rfl, behind⟩ := value_cons follows.notOpen.2 split
    refine (arguments_markup (lead_parameter ?_) : arguments 0 _ = none) ▸ misread_none _
    cases more with
    | nil =>
        obtain rfl : next = '}' := (List.cons.inj behind).1
        rfl
    | cons d more =>
        obtain rfl : d = '}' := (List.cons.inj behind).1
        rfl
  · rw [opensMarkup_stop follows.stops] at markup
    have begins : stops c = false := by
      rw [Bool.eq_false_iff]
      intro stopping
      rw [opensMarkup_of_stops stopping] at markup
      cases markup
    have whole := opensMarkup_sanitize (c :: value) follows.stops rest
    have single : sanitizeChar c = [c] := by
      unfold sanitizeChar
      split
      · simp_all [stops]
      · split
        · simp_all [stops]
        · rfl
    rw [sanitize_cons, single, markup] at whole
    rw [sanitize_cons, single]
    refine (arguments_markup ?_ : arguments 0 _ = none) ▸ misread_none _
    rw [lead_other (by simp_all [stops])]
    exact if_pos whole

theorem arguments_broken {value : Text} (follows : Follows next rest)
    (broken : ¬ Inert (value ++ [next])) :
    Misread value (arguments 0 (sanitizeTemplateValue value ++ next :: rest)) := by
  induction value with
  | nil => exact absurd (inert_stop follows.stops) broken
  | cons c value ih =>
      cases here : breaks (c :: value ++ [next]) with
      | true => exact misread_head follows here
      | false =>
          have later : ¬ Inert (value ++ [next]) := fun inert => broken (inert_cons.mpr ⟨here, inert⟩)
          by_cases bar : c = '|'
          · subst bar
            exact (arguments_escaped _).symm ▸ (ih later).after rfl
          · obtain ⟨d, single, same, plain⟩ := lead_sanitized follows bar here
            rw [sanitize_cons, single, List.singleton_append, List.cons_append,
              arguments_plain plain]
            exact (ih later).after (congrArg (fun x => [x]) same.symm)

end Reading

section Calls

/-- A parameter as it is supplied: its name, and its value without surrounding white space. -/
def supplied (parameter : String × Text) : Option Text × Text :=
  (some parameter.1.toList, Text.trim (shown parameter.2))

/-- The rest of a call behind a parameter. -/
def closing (parameters : List (String × Text)) : Text :=
  (parameters.flatMap fun parameter => ' ' :: renderParameter parameter) ++ ['}', '}']

def PlainName (name : String) : Prop := ∀ c ∈ name.toList, c.isLower = true ∨ c = '-'

variable {parameter : String × Text}

theorem PlainName.quiet {name : String} (plain : PlainName name) : ∀ c ∈ name.toList, Quiet c := by
  intro c member special
  have begins := plain c member
  simp only [List.mem_cons, List.not_mem_nil, or_false] at special
  rcases special with rfl | rfl | rfl | rfl | rfl | rfl <;> exact absurd begins (by decide)

theorem PlainName.unsplit {name : String} (plain : PlainName name) : '=' ∉ name.toList :=
  fun member => absurd (plain '=' member) (by decide)

theorem PlainName.trim {name : String} (plain : PlainName name) :
    Text.trim name.toList = name.toList := by
  refine Text.trim_of_solid ?_
  intro c member
  rcases plain c member with lower | rfl
  · simp only [Char.isLower, Bool.and_eq_true, decide_eq_true_eq] at lower
    have low : 97 ≤ c.toNat := lower.1
    have high : c.toNat ≤ 122 := lower.2
    simp only [Text.isWhitespace, Bool.or_eq_false_iff, Bool.and_eq_false_iff, decide_eq_false_iff_not,
      beq_eq_false_iff_ne]
    omega
  · decide

/-- One parameter is read as supplied exactly if its value is, and the rest after it. -/
theorem parameter_read_iff (plain : PlainName parameter.1) (rest : Text)
    (others : List (Option Text × Text)) :
    (∃ arguments', arguments 0 (renderParameter parameter ++ rest) = some ([], arguments') ∧
      arguments'.map readArgument = supplied parameter :: others) ↔
    ∃ first later, arguments 0 (sanitizeTemplateValue parameter.2 ++ rest) = some (first, later) ∧
      Text.trim first = Text.trim (shown parameter.2) ∧ later.map readArgument = others := by
  have equals : Quiet '=' := by unfold Quiet; decide
  have laid : renderParameter parameter ++ rest =
      '|' :: ((parameter.1.toList ++ ['=']) ++ (sanitizeTemplateValue parameter.2 ++ rest)) := by
    simp [renderParameter]
  have quiet : ∀ c ∈ parameter.1.toList ++ ['='], Quiet c := by
    intro c member
    rcases List.mem_append.mp member with named | last
    · exact plain.quiet c named
    · rw [List.mem_singleton.mp last]
      exact equals
  have named : ∀ first, readArgument (parameter.1.toList ++ ['='] ++ first) =
      (some parameter.1.toList, Text.trim first) := by
    intro first
    rw [List.append_assoc, List.singleton_append, readArgument_named plain.unsplit, plain.trim]
  rw [laid, arguments_bar, arguments_quiet quiet]
  cases arguments 0 (sanitizeTemplateValue parameter.2 ++ rest) with
  | none => simp
  | some reading =>
      obtain ⟨first, later⟩ := reading
      constructor
      · rintro ⟨whole, read, same⟩
        obtain ⟨-, rfl⟩ := Prod.mk.inj (Option.some.inj read)
        rw [List.map_cons, named] at same
        obtain ⟨value, others⟩ := List.cons.inj same
        exact ⟨first, later, rfl, (Prod.mk.inj value).2, others⟩
      · rintro ⟨_, _, read, value, same⟩
        obtain ⟨rfl, rfl⟩ := Prod.mk.inj (Option.some.inj read)
        refine ⟨_, rfl, ?_⟩
        rw [List.map_cons, named, value, same]
        rfl

theorem misread_trim {value first : Text} {others : List Text}
    (misread : Misread value (some (first, others))) : Text.trim first ≠ Text.trim (shown value) := by
  obtain ⟨before, a, b, rfl, there⟩ := misread first others rfl
  rw [there]
  exact Text.trim_ne (by decide) (by decide) (by decide) a b

/-- The parameters of a call are read as supplied exactly if every value is inert. -/
theorem parameters_read_iff (parameters : List (String × Text))
    (plain : ∀ q ∈ parameter :: parameters, PlainName q.1) :
    (∃ arguments', arguments 0 (renderParameter parameter ++ closing parameters) =
        some ([], arguments') ∧
      arguments'.map readArgument = (parameter :: parameters).map supplied) ↔
    Closed ((parameter :: parameters).map Prod.snd) := by
  induction parameters generalizing parameter with
  | nil =>
      have follows : Follows '}' ['}'] := ⟨.inr rfl, by simp⟩
      rw [List.map_singleton, parameter_read_iff (plain _ List.mem_cons_self)]
      by_cases inert : Inert (parameter.2 ++ ['}'])
      · refine iff_of_true ?_ inert
        exact ⟨shown parameter.2 ++ [], [], arguments_inert follows inert, by simp, rfl⟩
      · refine iff_of_false ?_ inert
        rintro ⟨first, later, read, same, -⟩
        exact misread_trim (read ▸ arguments_broken follows inert) same
  | cons q parameters ih =>
      have laid : closing (q :: parameters) = ' ' :: (renderParameter q ++ closing parameters) := by
        simp [closing]
      have follows : Follows ' ' (renderParameter q ++ closing parameters) := ⟨.inl rfl, nofun⟩
      have rest := ih fun r member => plain r (List.mem_cons_of_mem _ member)
      rw [List.map_cons (l := q :: parameters), List.map_cons (l := q :: parameters),
        parameter_read_iff (plain _ List.mem_cons_self), laid]
      show _ ↔ Inert parameter.2 ∧ Closed ((q :: parameters).map Prod.snd)
      rw [← inert_space, ← rest]
      by_cases inert : Inert (parameter.2 ++ [' '])
      · have space : arguments 0 (' ' :: (renderParameter q ++ closing parameters)) =
            (arguments 0 (renderParameter q ++ closing parameters)).after [' '] :=
          arguments_quiet (show ∀ c ∈ [' '], Quiet c by simp [Quiet]) _
        rw [arguments_inert follows inert, space, Reading.after_after]
        refine Iff.trans ?_ (and_iff_right inert).symm
        cases read : arguments 0 (renderParameter q ++ closing parameters) with
        | none => simp
        | some reading =>
            obtain ⟨first, later⟩ := reading
            obtain rfl : first = [] := arguments_bar_first read
            constructor
            · rintro ⟨_, _, same, -, map⟩
              obtain ⟨-, rfl⟩ := Prod.mk.inj (Option.some.inj same)
              exact ⟨later, rfl, map⟩
            · rintro ⟨_, same, map⟩
              obtain ⟨-, rfl⟩ := Prod.mk.inj (Option.some.inj same)
              refine ⟨_, later, rfl, ?_, map⟩
              rw [List.append_nil]
              exact Text.trim_append_right (by simp [Text.isWhitespace]) _
      · refine iff_of_false ?_ fun both => inert both.1
        rintro ⟨first, later, read, same, -⟩
        exact misread_trim (read ▸ arguments_broken follows inert) same

theorem body_closing (parameters : List (String × Text)) :
    Text.join [' '] ((parameter :: parameters).map renderParameter) ++ ['}', '}'] =
      renderParameter parameter ++ closing parameters := by
  rw [List.map_cons, Text.join_cons, closing, List.flatMap_map, List.append_assoc]
  rfl

/-- A template name of letters, digits and spaces; letters beyond ASCII too. -/
def PlainTemplate (templateName : Text) : Prop :=
  ∀ c ∈ templateName, c.isAlphanum = true ∨ c = ' ' ∨ 128 ≤ c.toNat

theorem PlainTemplate.quiet {templateName : Text} (plain : PlainTemplate templateName) :
    ∀ c ∈ templateName ++ [' '], Quiet c := by
  intro c member special
  simp only [List.mem_cons, List.not_mem_nil, or_false] at special
  rcases List.mem_append.mp member with named | last
  · have begins := plain c named
    rcases special with rfl | rfl | rfl | rfl | rfl | rfl <;> exact absurd begins (by decide)
  · rw [List.mem_singleton.mp last] at special
    revert special
    decide

/-- The call is read with the parameters as supplied exactly if it has a name and every value
is inert. -/
theorem call_read_iff {templateName : Text} (plain : PlainTemplate templateName)
    (parameters : List (String × Text))
    (names : ∀ q ∈ parameter :: parameters, PlainName q.1) :
    readCall (['{', '{'] ++ templateName ++ ' ' ::
        Text.join [' '] ((parameter :: parameters).map renderParameter) ++ ['}', '}']) =
      some { name := Text.trim templateName
             parameters := (parameter :: parameters).map supplied } ↔
    Text.trim templateName ≠ [] ∧ Closed ((parameter :: parameters).map Prod.snd) := by
  have laid : ['{', '{'] ++ templateName ++ ' ' ::
      Text.join [' '] ((parameter :: parameters).map renderParameter) ++ ['}', '}'] =
      '{' :: '{' :: ((templateName ++ [' ']) ++
        (renderParameter parameter ++ closing parameters)) := by
    rw [← body_closing]
    simp
  have trimmed : Text.trim (templateName ++ [' ']) = Text.trim templateName :=
    Text.trim_append_right (by simp [Text.isWhitespace]) _
  rw [laid, readCall, arguments_quiet plain.quiet, ← parameters_read_iff parameters names]
  cases read : arguments 0 (renderParameter parameter ++ closing parameters) with
  | none => simp
  | some reading =>
      obtain ⟨first, later⟩ := reading
      obtain rfl : first = [] := arguments_bar_first read
      rw [Reading.after_some, Option.bind_some]
      dsimp only
      rw [List.append_nil, trimmed]
      by_cases blank : Text.trim templateName = []
      · simp [blank]
      · rw [if_neg blank]
        constructor
        · intro same
          exact ⟨blank, later, rfl, (Call.mk.inj (Option.some.inj same)).2⟩
        · rintro ⟨-, _, same, map⟩
          obtain ⟨-, rfl⟩ := Prod.mk.inj (Option.some.inj same)
          rw [map]

end Calls

/-- The names of the parameters, in order. -/
theorem citationParameters_names (metadata : CitoidMetadata) (title : Text)
    (language : Option Text) (accessDateIso : Text) :
    ∀ parameter ∈ citationParameters metadata title language accessDateIso,
      PlainName parameter.1 := by
  have plain : ∀ name : String, (name.toList.all fun c => c.isLower || c == '-') = true →
      PlainName name := by
    intro name each c member
    simpa using List.all_eq_true.mp each c member
  intro parameter member
  simp only [citationParameters, List.mem_append, List.mem_cons, List.not_mem_nil, or_false,
    Option.mem_toList, Option.map_eq_some_iff] at member
  rcases member with (((((rfl | rfl) | ⟨_, -, rfl⟩) | ⟨_, -, rfl⟩) | ⟨_, -, rfl⟩) | rfl) | ⟨_, -, rfl⟩ <;>
    exact plain _ (by dsimp only; decide)

/-- A proposal reads as one call with exactly the supplied parameters if and only if no value
holds markup, a double brace or a pipe between braces, and the last one ends with no brace. -/
theorem proposed_reads_iff {templateName : Text} (plain : PlainTemplate templateName)
    (metadata : Option CitoidMetadata) (language : Option Text) (accessDateIso : Text) :
    (∀ wikitext, renderBareUrlCitation templateName metadata language accessDateIso =
        .proposed wikitext →
      ∃ record title, metadata = some record ∧ usableTitle record = some title ∧
        readCall wikitext = some
          { name := Text.trim templateName
            parameters := (citationParameters record title language accessDateIso).map supplied }) ↔
    ∀ record title, metadata = some record → usableTitle record = some title →
      Text.trim templateName ≠ [] ∧
        Closed ((citationParameters record title language accessDateIso).map Prod.snd) := by
  cases metadata with
  | none => simp [renderBareUrlCitation]
  | some record =>
      cases usable : usableTitle record with
      | none =>
          refine iff_of_true ?_ ?_
          · intro wikitext proposes
            rw [renderBareUrlCitation, usable] at proposes
            cases proposes
          · rintro _ title same found
            rw [← Option.some.inj same, usable] at found
            cases found
      | some title =>
          have call := call_read_iff plain _
            (citationParameters_names record title language accessDateIso)
          have rendered : renderBareUrlCitation templateName (some record) language accessDateIso =
              .proposed (['{', '{'] ++ templateName ++ ' ' :: Text.join [' ']
                ((citationParameters record title language accessDateIso).map renderParameter) ++
                ['}', '}']) := by
            rw [renderBareUrlCitation, usable]
            rfl
          rw [rendered]
          constructor
          · rintro reads _ _ same found
            obtain rfl := Option.some.inj same
            obtain rfl := Option.some.inj (usable.symm.trans found)
            obtain ⟨_, _, same, found, read⟩ := reads _ rfl
            obtain rfl := Option.some.inj same
            obtain rfl := Option.some.inj (usable.symm.trans found)
            exact call.mp read
          · rintro closed wikitext same
            obtain rfl := BareUrlOutcome.proposed.inj same
            exact ⟨record, title, rfl, usable, call.mpr (closed record title rfl usable)⟩

/-- A page with a plain record. -/
def guardian : CitoidMetadata where
  publication := some "The Guardian".toList
  published := some "2020-01-01".toList
  author := some "Jane Doe, John Smith".toList
  title := some "A | B = C".toList
  url := "https://example.com/a".toList

theorem guardian_reads :
    usableTitle guardian = some "A | B = C".toList ∧
      ∀ wikitext, renderBareUrlCitation "cite web".toList (some guardian) none
          "2026-06-02".toList = .proposed wikitext →
        ∃ record title, some guardian = some record ∧ usableTitle record = some title ∧
          readCall wikitext = some
            { name := Text.trim "cite web".toList
              parameters := (citationParameters record title none "2026-06-02".toList).map
                supplied } := by
  have named : PlainTemplate "cite web".toList := by
    have each : ("cite web".toList.all fun c => c.isAlphanum || c == ' ') = true := by decide
    intro c member
    have here := List.all_eq_true.mp each c member
    rw [Bool.or_eq_true, beq_iff_eq] at here
    exact here.imp_right .inl
  have usable : usableTitle guardian = some "A | B = C".toList := by decide
  refine ⟨usable, (proposed_reads_iff named (some guardian) none "2026-06-02".toList).mpr ?_⟩
  rintro _ _ same found
  obtain rfl := Option.some.inj same
  obtain rfl := Option.some.inj (usable.symm.trans found)
  exact ⟨by decide, by decide +kernel⟩

/-- A title that closes the call and opens another one. -/
def closingTitle : CitoidMetadata := { guardian with title := some "A \x7d\x7d\x7b\x7bdelete".toList }

def splicedCall : Text :=
  "\x7b\x7bcite web |url=https://example.com/a |title=A \x7d\x7d\x7b\x7bdelete |website=The Guardian |author=Jane Doe, John Smith |date=2020-01-01 |access-date=2026-06-02\x7d\x7d".toList

theorem title_closes_call : ¬ ∀ wikitext, renderBareUrlCitation "cite web".toList
      (some closingTitle) none "2026-06-02".toList = .proposed wikitext →
    ∃ record title, some closingTitle = some record ∧ usableTitle record = some title ∧
      readCall wikitext = some
        { name := Text.trim "cite web".toList
          parameters := (citationParameters record title none "2026-06-02".toList).map supplied } := by
  intro reads
  obtain ⟨_, _, -, -, read⟩ := reads splicedCall (by decide +kernel)
  have unread : (readCall splicedCall).isNone = true := by decide +kernel
  rw [read] at unread
  cases unread

end SP42.Citation

import SP42.Base.Text

/-!
What a wikitext reader makes of a template call. The call is read as a whole: other markup
inside it, text behind it or a missing end is no reading. `{{!}}` is the escaped pipe, and
a named parameter is read without the white space around it.
-/
namespace SP42.Wikitext

/-- The protocols that make a bracketed text a link. -/
def protocols : List String :=
  ["http://", "https://", "ftp://", "ftps://", "ssh://", "sftp://", "irc://", "ircs://", "xmpp:",
    "sip:", "sips:", "gopher://", "telnet://", "nntp://", "worldwind://", "mailto:", "tel:", "sms:",
    "news:", "svn://", "git://", "mms://", "bitcoin:", "magnet:", "urn:", "geo:", "matrix:", "//"]

def letters : Text := "abcdefghijklmnopqrstuvwxyz".toList

/-- What opens a link, a signature, a tag or a comment, in lower case. -/
def openings : List Text :=
  ["[[".toList, "~~~".toList, "</".toList, "<!--".toList] ++ letters.map (fun c => ['<', c]) ++
    protocols.map fun protocol => '[' :: protocol.toList

def opensMarkup (text : Text) : Bool :=
  openings.any fun opening => opening.isPrefixOf (text.map Char.toLower)

inductive Lead where
  | close
  | bar
  | escapedBar
  | markup
  | plain

/-- What begins here. Three braces on both sides are a parameter of the enclosing template;
on one side only, the outer one is a character. -/
def lead : Text → Lead
  | '}' :: '}' :: _ => .close
  | '|' :: _ => .bar
  | '{' :: '{' :: '{' :: '!' :: '}' :: '}' :: rest => if rest.head? = some '}' then .markup else .plain
  | '{' :: '{' :: '!' :: '}' :: '}' :: _ => .escapedBar
  | '{' :: '{' :: _ => .markup
  | text => if opensMarkup text then .markup else .plain

/-- The argument under way and those after it. -/
abbrev Reading := Option (Text × List Text)

/-- What was read before, put in front of the argument under way. -/
def Reading.after (before : Text) (reading : Reading) : Reading :=
  reading.map fun arguments => (before ++ arguments.1, arguments.2)

/-- The arguments up to the end of the call, which must be the end of the text; the number
says how many characters were read already. -/
def arguments : Nat → Text → Reading
  | _, [] => none
  | skip + 1, _ :: rest => arguments skip rest
  | 0, c :: rest =>
      match lead (c :: rest) with
      | .close => if rest.tail = [] then some ([], []) else none
      | .bar => (arguments 0 rest).map fun next => ([], next.1 :: next.2)
      | .escapedBar => (arguments 4 rest).after ['|']
      | .markup => none
      | .plain => (arguments 0 rest).after [c]

/-- An argument with a name, or one without. -/
def readArgument (argument : Text) : Option Text × Text :=
  if '=' ∈ argument then
    (some (Text.trim (argument.takeWhile (· != '='))),
      Text.trim ((argument.dropWhile (· != '=')).drop 1))
  else (none, argument)

structure Call where
  name : Text
  parameters : List (Option Text × Text)
  deriving DecidableEq

def readCall : Text → Option Call
  | '{' :: '{' :: text =>
      (arguments 0 text).bind fun reading =>
        if Text.trim reading.1 = [] then none
        else some { name := Text.trim reading.1, parameters := reading.2.map readArgument }
  | _ => none

@[simp] theorem Reading.after_none (before : Text) : Reading.after before none = none := rfl

@[simp] theorem Reading.after_some (before first : Text) (rest : List Text) :
    Reading.after before (some (first, rest)) = some (before ++ first, rest) := rfl

theorem Reading.after_after (before further : Text) (reading : Reading) :
    (reading.after further).after before = reading.after (before ++ further) := by
  cases reading with
  | none => rfl
  | some arguments => simp [Reading.after]

theorem Reading.after_nil (reading : Reading) : reading.after [] = reading := by
  cases reading <;> rfl

section Openings

/-- The characters that no opening holds, each its own lower case. -/
def stops (c : Char) : Bool := [' ', '{', '}', '|', '\n', '\r'].contains c

theorem openings_unstopped : (openings.all fun opening => opening.all fun c => !stops c) = true := by
  decide +kernel

theorem toLower_of_stops {c : Char} (stop : stops c = true) : c.toLower = c := by
  simp only [stops, List.contains_eq_mem, List.mem_cons, List.not_mem_nil, or_false,
    decide_eq_true_eq] at stop
  rcases stop with rfl | rfl | rfl | rfl | rfl | rfl <;> decide

/-- A word ends before a character that it does not hold. -/
theorem isPrefixOf_stop {word : Text} {stop : Char} (outside : stop ∉ word) (text rest : Text) :
    word.isPrefixOf (text ++ stop :: rest) = word.isPrefixOf text := by
  induction word generalizing text with
  | nil => simp
  | cons c word ih =>
      rw [List.mem_cons, not_or] at outside
      cases text with
      | nil =>
          have differ : (c == stop) = false := beq_false_of_ne (Ne.symm outside.1)
          show (c == stop && word.isPrefixOf rest) = false
          rw [differ, Bool.false_and]
      | cons d text =>
          show (c == d && word.isPrefixOf (text ++ stop :: rest)) = (c == d && word.isPrefixOf text)
          rw [ih outside.2]

theorem opensMarkup_stop {stop : Char} (stopping : stops stop = true) (text rest : Text) :
    opensMarkup (text ++ stop :: rest) = opensMarkup text := by
  have same : ∀ opening ∈ openings, opening.isPrefixOf ((text ++ stop :: rest).map Char.toLower) =
      opening.isPrefixOf (text.map Char.toLower) := by
    intro opening member
    rw [List.map_append, List.map_cons, toLower_of_stops stopping]
    refine isPrefixOf_stop ?_ _ _
    intro inside
    have unstopped := List.all_eq_true.mp (List.all_eq_true.mp openings_unstopped _ member) _ inside
    rw [stopping] at unstopped
    cases unstopped
  unfold opensMarkup
  rw [Bool.eq_iff_iff, List.any_eq_true, List.any_eq_true]
  constructor
  · rintro ⟨opening, member, opens⟩
    exact ⟨opening, member, same opening member ▸ opens⟩
  · rintro ⟨opening, member, opens⟩
    exact ⟨opening, member, (same opening member).symm ▸ opens⟩

theorem opensMarkup_nil : opensMarkup [] = false := by decide +kernel

theorem opensMarkup_of_stops {stop : Char} (stopping : stops stop = true) (rest : Text) :
    opensMarkup (stop :: rest) = false :=
  (opensMarkup_stop stopping [] rest).trans opensMarkup_nil

end Openings

section Leads

variable {c : Char} {rest : Text}

/-- What begins neither a pair of braces nor a bar. -/
theorem lead_single (opened : c = '{' → rest.head? ≠ some '{')
    (closed : c = '}' → rest.head? ≠ some '}') (bar : c ≠ '|') :
    lead (c :: rest) = if opensMarkup (c :: rest) then .markup else .plain := by
  unfold lead
  split <;> simp_all

theorem lead_open (single : rest.head? ≠ some '{') : lead ('{' :: rest) = .plain := by
  rw [lead_single (fun _ => single) (fun same => absurd same (by decide)) (by decide),
    opensMarkup_of_stops rfl rest]
  rfl

theorem lead_close (single : rest.head? ≠ some '}') : lead ('}' :: rest) = .plain := by
  rw [lead_single (fun same => absurd same (by decide)) (fun _ => single) (by decide),
    opensMarkup_of_stops rfl rest]
  rfl

theorem lead_other (unbraced : c ≠ '{' ∧ c ≠ '}' ∧ c ≠ '|') :
    lead (c :: rest) = if opensMarkup (c :: rest) then .markup else .plain :=
  lead_single (fun same => absurd same unbraced.1) (fun same => absurd same unbraced.2.1)
    unbraced.2.2

/-- One brace before an escaped pipe, with none behind. -/
theorem lead_escaped (single : rest.head? ≠ some '}') :
    lead ('{' :: '{' :: '{' :: '!' :: '}' :: '}' :: rest) = .plain := if_neg single

theorem lead_parameter (single : rest.head? = some '}') :
    lead ('{' :: '{' :: '{' :: '!' :: '}' :: '}' :: rest) = .markup := if_pos single

theorem arguments_cons (c : Char) (rest : Text) : arguments 0 (c :: rest) =
    match lead (c :: rest) with
    | .close => if rest.tail = [] then some ([], []) else none
    | .bar => (arguments 0 rest).map fun next => ([], next.1 :: next.2)
    | .escapedBar => (arguments 4 rest).after ['|']
    | .markup => none
    | .plain => (arguments 0 rest).after [c] := rfl

theorem arguments_plain (plain : lead (c :: rest) = .plain) :
    arguments 0 (c :: rest) = (arguments 0 rest).after [c] := by
  rw [arguments_cons, plain]

theorem arguments_markup (markup : lead (c :: rest) = .markup) :
    arguments 0 (c :: rest) = none := by
  rw [arguments_cons, markup]

theorem arguments_escaped (rest : Text) :
    arguments 0 ('{' :: '{' :: '!' :: '}' :: '}' :: rest) = (arguments 0 rest).after ['|'] := rfl

/-- Two braces that were not written for a pipe are read as a pipe or not at all. -/
theorem arguments_doubled (rest : Text) : arguments 0 ('{' :: '{' :: rest) = none ∨
    ∃ before reading, (before = [] ∨ before = ['{']) ∧
      arguments 0 ('{' :: '{' :: rest) = Reading.after (before ++ ['|']) reading := by
  by_cases three : ∃ later, rest = '{' :: '!' :: '}' :: '}' :: later
  · obtain ⟨later, rfl⟩ := three
    by_cases behind : later.head? = some '}'
    · exact .inl (arguments_markup (lead_parameter behind))
    · refine .inr ⟨['{'], arguments 0 later, .inr rfl, ?_⟩
      rw [arguments_plain (lead_escaped behind), arguments_escaped, Reading.after_after]
  · by_cases two : ∃ later, rest = '!' :: '}' :: '}' :: later
    · obtain ⟨later, rfl⟩ := two
      exact .inr ⟨[], arguments 0 later, .inl rfl, arguments_escaped later⟩
    · refine .inl (arguments_markup ?_)
      unfold lead
      split <;> simp_all

theorem arguments_closed {rest : Text} (goes : rest ≠ []) :
    arguments 0 ('}' :: '}' :: rest) = none := if_neg goes

/-- Characters that begin nothing. -/
def Quiet (c : Char) : Prop := c ∉ ['{', '}', '|', '[', '<', '~']

theorem openings_begin :
    (openings.all fun opening => opening.head?.any fun c => ['[', '<', '~'].contains c) = true := by
  decide +kernel

theorem eq_of_toLower {d : Char} (unlettered : ['[', '<', '~'].contains d = true)
    (same : d = c.toLower) : c = d := by
  rw [same]
  unfold Char.toLower at same ⊢
  split
  case isFalse => rfl
  case isTrue upper =>
      rw [dif_pos upper] at same
      simp only [List.contains_eq_mem, List.mem_cons, List.not_mem_nil, or_false,
        decide_eq_true_eq] at unlettered
      have low : 65 ≤ c.val.toNat := upper.1
      have high : c.val.toNat ≤ 90 := upper.2
      have value : d.val.toNat = (c.val.toNat + 32) % 2 ^ 32 := by rw [same]; rfl
      rw [Nat.mod_eq_of_lt (by omega)] at value
      rcases unlettered with rfl | rfl | rfl
      · exact absurd value (by show 91 ≠ _; omega)
      · exact absurd value (by show 60 ≠ _; omega)
      · exact absurd value (by show 126 ≠ _; omega)

theorem opensMarkup_quiet (quiet : Quiet c) : opensMarkup (c :: rest) = false := by
  rw [Bool.eq_false_iff]
  intro opens
  obtain ⟨opening, member, begins⟩ := List.any_eq_true.mp opens
  have head := List.all_eq_true.mp openings_begin opening member
  cases opening with
  | nil => simp at head
  | cons d word =>
      have first : ['[', '<', '~'].contains d = true := head
      have same : d = c.toLower := by
        rw [List.map_cons] at begins
        exact eq_of_beq (Bool.and_eq_true_iff.mp begins).1
      refine quiet ?_
      rw [eq_of_toLower first same]
      simp only [List.contains_eq_mem, List.mem_cons, List.not_mem_nil, or_false,
        decide_eq_true_eq] at first
      rcases first with rfl | rfl | rfl <;> decide

theorem arguments_quiet {text : Text} (quiet : ∀ c ∈ text, Quiet c) (rest : Text) :
    arguments 0 (text ++ rest) = (arguments 0 rest).after text := by
  induction text with
  | nil => exact (Reading.after_nil _).symm
  | cons c text ih =>
      have here : lead (c :: (text ++ rest)) = .plain := by
        have first := quiet c List.mem_cons_self
        rw [lead_other (by simp_all [Quiet]), opensMarkup_quiet first, if_neg Bool.false_ne_true]
      rw [List.cons_append, arguments_plain here, ih fun d member => quiet d (List.mem_cons_of_mem c member), Reading.after_after]
      rfl

theorem arguments_bar (rest : Text) :
    arguments 0 ('|' :: rest) = (arguments 0 rest).map fun next => ([], next.1 :: next.2) := rfl

theorem arguments_bar_first {rest first : Text} {later : List Text}
    (read : arguments 0 ('|' :: rest) = some (first, later)) : first = [] := by
  rw [arguments_bar] at read
  obtain ⟨next, -, same⟩ := Option.map_eq_some_iff.mp read
  exact (Prod.mk.inj same).1.symm

theorem readArgument_named {name value : Text} (unsplit : '=' ∉ name) :
    readArgument (name ++ '=' :: value) = (some (Text.trim name), Text.trim value) := by
  have front : ∀ c ∈ name, (c != '=') = true := by
    intro c member
    have differ : c ≠ '=' := by
      rintro rfl
      exact unsplit member
    simpa using differ
  have has : '=' ∈ name ++ '=' :: value := by simp
  rw [readArgument, if_pos has, List.takeWhile_append_of_pos front,
    List.dropWhile_append_of_pos front]
  simp

end Leads

end SP42.Wikitext

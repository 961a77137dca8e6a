import SP42.Base.Text

/-!
A template call as a wikitext preprocessor reads it. Braces and links are paired from runs of
brackets, an argument ends at a bar outside all of them, and its name at an equals sign there.
-/
namespace SP42.Template

section Reading

inductive Bracket where
  | brace
  | link
  deriving DecidableEq

/-- The runs of brackets that are still open, each with its length. -/
abbrev Stack := List (Bracket × Nat)

/-- How often the character stands here. -/
def opened (c : Char) (text : Text) : Nat := (text.takeWhile (· == c)).length

/-- One bracket alone is a character. -/
def push (bracket : Bracket) (count : Nat) (below : Stack) : Stack :=
  if 2 ≤ count then (bracket, count) :: below else below

inductive Move where
  | close
  | bar
  | go (taken : Nat) (stack : Stack)

/-- A run of braces is answered by two or three of them; outside of brackets two end the call. -/
def closeBrace (count : Nat) : Stack → Move
  | [] => if 2 ≤ count then .close else .go 1 []
  | (.brace, open_) :: below =>
      if 2 ≤ min count open_ then
        .go (min count open_) (push .brace (open_ - min count open_) below)
      else .go 1 ((.brace, open_) :: below)
  | stack => .go 1 stack

def closeLink (count : Nat) : Stack → Move
  | (.link, open_) :: below =>
      if 2 ≤ count then .go 2 (push .link (open_ - 2) below) else .go 1 ((.link, open_) :: below)
  | stack => .go 1 stack

def move (stack : Stack) : Text → Move
  | [] => .close
  | c :: rest =>
      let count := opened c (c :: rest)
      if c = '{' then .go count (push .brace count stack)
      else if c = '[' then .go count (push .link count stack)
      else if c = '}' then closeBrace (min count 3) stack
      else if c = ']' then closeLink (min count 3) stack
      else if c = '|' ∧ stack = [] then .bar
      else .go 1 stack

/-- The arguments of a call and what stands behind it. -/
structure Reading where
  first : Text
  others : List Text
  rest : Text

def Reading.after (c : Char) (reading : Reading) : Reading :=
  { reading with first := c :: reading.first }

/-- The arguments up to the end of the call; the number says how many characters were read
already. -/
def arguments : Nat → Stack → Text → Option Reading
  | _, _, [] => none
  | skip + 1, stack, c :: text => (arguments skip stack text).map (·.after c)
  | 0, stack, c :: text =>
      match move stack (c :: text) with
      | .close => some ⟨[], [], text.drop 1⟩
      | .bar => (arguments 0 [] text).map fun next => ⟨[], next.first :: next.others, next.rest⟩
      | .go taken above => (arguments (taken - 1) above text).map (·.after c)

/-- The name and the value of an argument. -/
def splitEquals : Nat → Stack → Text → Option (Text × Text)
  | _, _, [] => none
  | skip + 1, stack, c :: text =>
      (splitEquals skip stack text).map fun cut => (c :: cut.1, cut.2)
  | 0, stack, c :: text =>
      if c = '=' ∧ stack = [] then some ([], text)
      else
        match move stack (c :: text) with
        | .go taken above =>
            (splitEquals (taken - 1) above text).map fun cut => (c :: cut.1, cut.2)
        | _ => (splitEquals 0 stack text).map fun cut => (c :: cut.1, cut.2)

/-- An argument without a name is numbered and keeps its white space. -/
def parameter (index : Nat) (argument : Text) : Text × Text :=
  match splitEquals 0 [] argument with
  | some (name, value) => (Text.trim name, Text.trim value)
  | none => ((toString index).toList, argument)

def parameters : Nat → List Text → List (Text × Text)
  | _, [] => []
  | index, argument :: rest =>
      parameter index argument ::
        parameters (if (splitEquals 0 [] argument).isSome then index else index + 1) rest

/-- The name of a page. -/
def title (name : Text) : Bool :=
  Text.trim name ≠ [] &&
    name.all fun c => decide (c ∉ ['#', '<', '>', '[', ']', '|', '\x7b', '\x7d'])

structure Call where
  name : Text
  parameters : List (Text × Text)
  deriving DecidableEq

/-- The call that begins here and what follows it. -/
def readCall : Text → Option (Call × Text)
  | '{' :: '{' :: text =>
      (arguments 0 [] text).bind fun reading =>
        if title reading.first then
          some ({ name := Text.trim reading.first, parameters := parameters 1 reading.others },
            reading.rest)
        else none
  | _ => none

/-- Every bracket that opens in the text closes in it, and no bar and no end of the call stands
outside of brackets, when the other text stands behind it. -/
def closed : Nat → Stack → Text → Text → Bool
  | skip, stack, [], _ => skip = 0 && stack = []
  | skip + 1, stack, _ :: text, behind => closed skip stack text behind
  | 0, stack, c :: text, behind =>
      match move stack (c :: text ++ behind) with
      | .go taken above => closed (taken - 1) above text behind
      | _ => false

end Reading

section Moves

theorem opened_stop {c d : Char} (other : d ≠ c) (text more : Text) :
    opened c (text ++ d :: more) = opened c (text ++ [d]) := by
  have stops : (d == c) = false := beq_false_of_ne other
  rw [opened, opened, List.takeWhile_append, List.takeWhile_append]
  split
  · rw [List.takeWhile_cons_of_neg (by simp [stops]), List.takeWhile_cons_of_neg (by simp [stops])]
  · rfl

/-- Three of a run are as many as are ever asked for. -/
theorem opened_long {c : Char} {text : Text} (long : 3 ≤ text.length) (more : Text) :
    min (opened c (text ++ more)) 3 = min (opened c text) 3 := by
  rw [opened, opened, List.takeWhile_append]
  split
  · next whole =>
      rw [List.length_append, whole]
      omega
  · rfl

/-- A bar is the same whatever follows it. -/
theorem move_bar (stack : Stack) (text more : Text) :
    move stack (text ++ '|' :: more) = move stack (text ++ ['|']) := by
  cases text with
  | nil => rfl
  | cons c text =>
      have count : c ≠ '|' → opened c (c :: (text ++ '|' :: more)) =
          opened c (c :: (text ++ ['|'])) := fun other => opened_stop other.symm (c :: text) more
      rw [List.cons_append, List.cons_append, move, move]
      by_cases bar : c = '|'
      · subst bar
        rfl
      · rw [count bar]

/-- So is the end of a call, once something was read before it. -/
theorem move_close (stack : Stack) (c : Char) (text more : Text) :
    move stack (c :: text ++ '}' :: '}' :: more) = move stack (c :: text ++ ['}', '}']) := by
  have count : c ≠ '}' → opened c (c :: (text ++ '}' :: '}' :: more)) =
      opened c (c :: (text ++ ['}', '}'])) := by
    intro other
    have first := opened_stop other.symm (c :: text) ('}' :: more)
    exact first.trans (opened_stop other.symm (c :: text) ['}']).symm
  rw [List.cons_append, List.cons_append, move, move]
  by_cases closes : c = '}'
  · have least : min (opened c (c :: (text ++ '}' :: '}' :: more))) 3 =
        min (opened c (c :: (text ++ ['}', '}']))) 3 := by
      have long := @opened_long c (c :: (text ++ ['}', '}']))
        (by rw [List.length_cons, List.length_append]; simp) more
      rwa [List.cons_append, List.append_assoc] at long
    have brace : c ≠ '{' := closes ▸ by decide
    have link : c ≠ '[' := closes ▸ by decide
    simp only [if_neg brace, if_neg link, if_pos closes, least]
  · rw [count closes]

/-- A character that is no bracket and no bar. -/
def plain (c : Char) : Bool := decide (c ∉ ['\x7b', '\x7d', '[', ']', '|'])

theorem move_plain {c : Char} (simple : plain c = true) (stack : Stack) (text : Text) :
    move stack (c :: text) = .go 1 stack := by
  simp only [plain, decide_eq_true_eq, List.mem_cons, List.not_mem_nil, or_false, not_or] at simple
  obtain ⟨brace, close, link, end_, bar⟩ := simple
  rw [move]
  simp only [if_neg brace, if_neg close, if_neg link, if_neg end_, bar, false_and, if_false]

end Moves

section Arguments

/-- An enclosed text before a bar is one argument. -/
theorem arguments_bar {skip : Nat} {stack : Stack} {text : Text}
    (whole : closed skip stack text ['|'] = true) (more : Text) :
    arguments skip stack (text ++ '|' :: more) = (arguments 0 [] more).map fun next =>
      ⟨text, next.first :: next.others, next.rest⟩ := by
  induction text generalizing skip stack with
  | nil =>
      obtain ⟨rfl, rfl⟩ : skip = 0 ∧ stack = [] := by simpa [closed] using whole
      rfl
  | cons c text ih =>
      cases skip with
      | succ skip =>
          rw [closed] at whole
          rw [List.cons_append, arguments, ih whole, Option.map_map]
          rfl
      | zero =>
          rw [closed] at whole
          rw [List.cons_append, arguments, ← List.cons_append, move_bar]
          split at whole
          · next taken above here =>
              rw [here]
              dsimp only
              rw [ih whole, Option.map_map]
              rfl
          · cases whole

/-- An enclosed text before the end is the last argument. -/
theorem arguments_close {skip : Nat} {stack : Stack} {text : Text}
    (whole : closed skip stack text ['}', '}'] = true) (more : Text) :
    arguments skip stack (text ++ '}' :: '}' :: more) = some ⟨text, [], more⟩ := by
  induction text generalizing skip stack with
  | nil =>
      obtain ⟨rfl, rfl⟩ : skip = 0 ∧ stack = [] := by simpa [closed] using whole
      have ends : move [] ('}' :: '}' :: more) = .close := by
        have two : 2 ≤ min (opened '}' ('}' :: '}' :: more)) 3 := by
          rw [opened, List.takeWhile_cons_of_pos rfl, List.takeWhile_cons_of_pos rfl,
            List.length_cons, List.length_cons]
          omega
        exact if_pos two
      rw [List.nil_append, arguments, ends]
      rfl
  | cons c text ih =>
      cases skip with
      | succ skip =>
          rw [closed] at whole
          rw [List.cons_append, arguments, ih whole]
          rfl
      | zero =>
          rw [closed] at whole
          rw [List.cons_append, arguments, ← List.cons_append, move_close]
          split at whole
          · next taken above here =>
              rw [here]
              dsimp only
              rw [ih whole]
              rfl
          · cases whole

/-- What was read as one argument is enclosed. -/
inductive Ends (skip : Nat) (stack : Stack) : Text → Reading → Prop
  | close {first more : Text} (whole : closed skip stack first ['}', '}'] = true) :
      Ends skip stack (first ++ '}' :: '}' :: more) ⟨first, [], more⟩
  | bar {first more : Text} {next : Reading} (whole : closed skip stack first ['|'] = true)
      (later : arguments 0 [] more = some next) :
      Ends skip stack (first ++ '|' :: more) ⟨first, next.first :: next.others, next.rest⟩

theorem move_eq_bar {stack : Stack} {c : Char} {text : Text} (bar : move stack (c :: text) = .bar) :
    c = '|' ∧ stack = [] := by
  rw [move] at bar
  by_contra other
  split_ifs at bar
  · rw [closeBrace.eq_def] at bar
    split at bar
    · split_ifs at bar
    · split_ifs at bar
    · cases bar
  · rw [closeLink.eq_def] at bar
    split at bar
    · split_ifs at bar
    · cases bar

theorem move_eq_close {stack : Stack} {c : Char} {text : Text}
    (close : move stack (c :: text) = .close) :
    c = '}' ∧ stack = [] ∧ ∃ more, text = '}' :: more := by
  rw [move] at close
  split_ifs at close with brace link closes
  · subst closes
    rw [closeBrace.eq_def] at close
    split at close
    · split_ifs at close with two
      cases text with
      | nil => exact absurd two (by decide)
      | cons d more =>
          by_cases again : d = '}'
          · exact ⟨rfl, rfl, more, by rw [again]⟩
          · have stops : (d == '}') = false := beq_false_of_ne again
            rw [opened, List.takeWhile_cons_of_pos rfl,
              List.takeWhile_cons_of_neg (by simp [stops])] at two
            exact absurd two (by decide)
    · split_ifs at close
    · cases close
  · rw [closeLink.eq_def] at close
    split at close
    · split_ifs at close
    · cases close

theorem arguments_ends {skip : Nat} {stack : Stack} {text : Text} {reading : Reading}
    (read : arguments skip stack text = some reading) : Ends skip stack text reading := by
  fun_induction arguments skip stack text generalizing reading with
  | case1 => cases read
  | case2 skip stack c text ih =>
      obtain ⟨later, here, rfl⟩ := Option.map_eq_some_iff.mp read
      cases ih here with
      | @close first more whole => exact @Ends.close _ _ (c :: first) more whole
      | @bar first more next whole found =>
          exact @Ends.bar _ _ (c :: first) more next whole found
  | case3 stack c text close =>
      obtain ⟨rfl, rfl, more, rfl⟩ := move_eq_close close
      cases read
      exact @Ends.close _ _ [] more rfl
  | case4 stack c text bar ih =>
      obtain ⟨rfl, rfl⟩ := move_eq_bar bar
      obtain ⟨next, here, rfl⟩ := Option.map_eq_some_iff.mp read
      exact @Ends.bar _ _ [] text next rfl here
  | case5 stack c text taken above goes ih =>
      obtain ⟨later, here, rfl⟩ := Option.map_eq_some_iff.mp read
      cases ih here with
      | @close first more whole =>
          refine @Ends.close _ _ (c :: first) more ?_
          rw [closed, ← move_close stack c first more, List.cons_append, goes]
          exact whole
      | @bar first more next whole found =>
          refine @Ends.bar _ _ (c :: first) more next ?_ found
          rw [closed, ← move_bar stack (c :: first) more, List.cons_append, goes]
          exact whole

/-- Plain characters in front of a text leave it as enclosed as it is. -/
theorem closed_plain {name : Text} (simple : name.all plain = true) (text behind : Text) :
    closed 0 [] (name ++ text) behind = closed 0 [] text behind := by
  induction name with
  | nil => rfl
  | cons c name ih =>
      rw [List.all_cons, Bool.and_eq_true] at simple
      rw [List.cons_append, closed, List.cons_append, move_plain simple.1]
      exact ih simple.2

/-- A title is one argument. -/
theorem title_plain {name : Text} (named : title name = true) : name.all plain = true := by
  refine List.all_eq_true.mpr fun c member => ?_
  have outside := List.all_eq_true.mp (Bool.and_eq_true_iff.mp named).2 c member
  simp only [decide_eq_true_eq, List.mem_cons, List.not_mem_nil, or_false, not_or] at outside
  simp only [plain, decide_eq_true_eq, List.mem_cons, List.not_mem_nil, or_false, not_or]
  exact ⟨outside.2.2.2.2.2.2.1, outside.2.2.2.2.2.2.2, outside.2.2.2.1, outside.2.2.2.2.1,
    outside.2.2.2.2.2.1⟩

theorem title_closed {name : Text} (named : title name = true) :
    closed 0 [] name ['|'] = true := by
  rw [← List.append_nil name, closed_plain (title_plain named)]
  rfl

end Arguments

section Parameters

theorem splitEquals_none {skip : Nat} {stack : Stack} {text : Text} (unequal : '=' ∉ text) :
    splitEquals skip stack text = none := by
  induction text generalizing skip stack with
  | nil => cases skip <;> rfl
  | cons c text ih =>
      have later : '=' ∉ text := fun member => unequal (List.mem_cons_of_mem c member)
      have here : ¬ (c = '=' ∧ stack = []) := fun same => unequal (same.1 ▸ List.mem_cons_self)
      cases skip with
      | succ skip => rw [splitEquals, ih later, Option.map_none]
      | zero =>
          rw [splitEquals, if_neg here]
          split
          · rw [ih later, Option.map_none]
          · rw [ih later, Option.map_none]

theorem splitEquals_some {skip : Nat} {stack : Stack} {text : Text} {cut : Text × Text}
    (found : splitEquals skip stack text = some cut) : text = cut.1 ++ '=' :: cut.2 := by
  fun_induction splitEquals skip stack text generalizing cut with
  | case1 => cases found
  | case2 skip stack c text ih =>
      obtain ⟨later, here, rfl⟩ := Option.map_eq_some_iff.mp found
      exact congrArg (c :: ·) (ih here)
  | case3 stack c text equals =>
      cases found
      rw [equals.1]
      rfl
  | case4 stack c text _ taken above _ ih =>
      obtain ⟨later, here, rfl⟩ := Option.map_eq_some_iff.mp found
      exact congrArg (c :: ·) (ih here)
  | case5 stack c text _ _ ih =>
      obtain ⟨later, here, rfl⟩ := Option.map_eq_some_iff.mp found
      exact congrArg (c :: ·) (ih here)

/-- A plain name ends at the first equals sign. -/
theorem splitEquals_plain {name : Text} (simple : name.all (fun c => plain c && c != '=') = true)
    (value : Text) : splitEquals 0 [] (name ++ '=' :: value) = some (name, value) := by
  induction name with
  | nil => rfl
  | cons c name ih =>
      rw [List.all_cons, Bool.and_eq_true, Bool.and_eq_true] at simple
      obtain ⟨⟨bare, other⟩, later⟩ := simple
      rw [List.cons_append, splitEquals, if_neg fun same => bne_iff_ne.mp other same.1,
        move_plain bare]
      dsimp only
      rw [Nat.sub_self, ih later]
      rfl

theorem count_trimStart (text : Text) : (Text.trimStart text).count '|' = text.count '|' := by
  have blank : (text.takeWhile Text.isWhitespace).count '|' = 0 :=
    List.count_eq_zero_of_not_mem fun member =>
      absurd (List.mem_takeWhile_imp member) (by decide)
  have whole := congrArg (List.count '|')
    (@List.takeWhile_append_dropWhile _ Text.isWhitespace text)
  rw [List.count_append, blank, Nat.zero_add] at whole
  exact whole

/-- No bar is trimmed. -/
theorem count_trim (text : Text) : (Text.trim text).count '|' = text.count '|' := by
  rw [Text.trim, Text.trimEnd, List.rdropWhile, List.count_reverse]
  exact (count_trimStart _).trans (List.count_reverse.trans (count_trimStart text))

/-- An argument has the bars of its value, when its name has none. -/
theorem parameter_count {index : Nat} {argument name value : Text}
    (read : parameter index argument = (name, value)) (bare : name.count '|' = 0) :
    argument.count '|' = value.count '|' := by
  rw [parameter] at read
  split at read
  · next nm val found =>
      cases read
      rw [splitEquals_some found, List.count_append, List.count_cons_of_ne (by decide),
        count_trim, ← count_trim nm, bare, Nat.zero_add]
  · cases read
    rfl

/-- A text is cut at a bar in one way, once it is known how many bars come before. -/
theorem cut_bar {front other rest more : Text} (same : front ++ '|' :: rest = other ++ '|' :: more)
    (count : front.count '|' = other.count '|') : front = other ∧ rest = more := by
  rcases List.append_eq_append_iff.mp same with ⟨gap, rfl, split⟩ | ⟨gap, rfl, split⟩
  · cases gap with
    | nil => exact ⟨(List.append_nil front).symm, (List.cons.inj split).2⟩
    | cons c gap =>
        obtain ⟨rfl, -⟩ := List.cons.inj split
        rw [List.count_append, List.count_cons_self] at count
        omega
  · cases gap with
    | nil => exact ⟨List.append_nil other, (List.cons.inj split).2.symm⟩
    | cons c gap =>
        obtain ⟨rfl, -⟩ := List.cons.inj split
        rw [List.count_append, List.count_cons_self] at count
        omega

/-- A reading with as many bars in its first argument has that argument, and goes on behind it. -/
theorem next_argument {argument more : Text} {reading : Reading}
    (read : arguments 0 [] (argument ++ '|' :: more) = some reading)
    (several : reading.others ≠ []) (count : reading.first.count '|' = argument.count '|') :
    closed 0 [] argument ['|'] = true ∧ ∃ next, arguments 0 [] more = some next ∧
      reading = ⟨argument, next.first :: next.others, next.rest⟩ := by
  generalize whole : argument ++ '|' :: more = text at read
  cases arguments_ends read with
  | close => exact absurd rfl several
  | bar enclosed later =>
      obtain ⟨rfl, rfl⟩ := cut_bar whole.symm count
      exact ⟨enclosed, _, later, rfl⟩

theorem last_argument {argument more : Text} {reading : Reading}
    (read : arguments 0 [] (argument ++ '}' :: '}' :: more) = some reading)
    (alone : reading.others = []) (rest : reading.rest = more) :
    closed 0 [] argument ['}', '}'] = true ∧ reading.first = argument := by
  generalize whole : argument ++ '}' :: '}' :: more = text at read
  cases arguments_ends read with
  | close enclosed =>
      cases rest
      obtain rfl := List.append_cancel_right whole
      exact ⟨enclosed, rfl⟩
  | bar => cases alone

/-- The call is read from its name and its arguments. -/
theorem readCall_eq_some {text : Text} {call : Call} {rest : Text} :
    readCall ('{' :: '{' :: text) = some (call, rest) ↔ ∃ reading,
      arguments 0 [] text = some reading ∧ title reading.first = true ∧ rest = reading.rest ∧
        call = { name := Text.trim reading.first, parameters := parameters 1 reading.others } := by
  rw [readCall, Option.bind_eq_some_iff]
  refine exists_congr fun reading => and_congr_right fun _ => ?_
  constructor
  · intro found
    split at found
    · next named =>
        cases found
        exact ⟨named, rfl, rfl⟩
    · cases found
  · rintro ⟨named, rfl, rfl⟩
    rw [if_pos named]

end Parameters

end SP42.Template

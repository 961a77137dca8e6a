import SP42.Diff.Structure
import SP42.Lib.Words

/-!
The local file of credentials: how the setup window merges new values into it, and how the server
reads it when it starts.
-/
namespace SP42.Session

section File

structure LocalOAuthConfig where
  sourcePath : Option Text
  clientApplicationKey : Option Text
  clientApplicationSecret : Option Text
  accessToken : Option Text

def clientKeyName : Text := "WIKIMEDIA_CLIENT_APPLICATION_KEY".toList
def clientSecretName : Text := "WIKIMEDIA_CLIENT_APPLICATION_SECRET".toList
def accessTokenName : Text := "WIKIMEDIA_ACCESS_TOKEN".toList

def writableCredentialKeys : List Text := [accessTokenName, clientKeyName, clientSecretName]

def pushEnvLine (out key value : Text) : Text := out ++ key ++ ['='] ++ value ++ ['\n']

/-- A line of the existing file: the text so far, and which updates were applied. -/
def mergeLine (updates : List (Text × Text)) (merged : Text × List Bool) (line : Text) :
    Text × List Bool :=
  match Words.splitOnce '=' line with
  | none => (merged.1 ++ line ++ ['\n'], merged.2)
  | some (rawKey, _) =>
      match updates.findIdx? fun update => Text.trim rawKey = update.1 with
      | none => (merged.1 ++ line ++ ['\n'], merged.2)
      | some index =>
          let update := updates[index]?.getD ([], [])
          (pushEnvLine merged.1 update.1 update.2, merged.2.set index true)

def mergeEnv (existing : Text) (updates : List (Text × Text)) : Text :=
  let merged := (Text.lines existing).foldl (mergeLine updates) ([], updates.map fun _ => false)
  (updates.zip merged.2).foldl (fun out (update, applied) =>
    if applied then out else pushEnvLine out update.1 update.2) merged.1

def parseValue (rawValue : Text) : Text :=
  let trimmed := Text.trim rawValue
  if 2 ≤ Bytes.size trimmed ∧
      ((trimmed.head? = some '"' ∧ trimmed.getLast? = some '"') ∨
        (trimmed.head? = some '\x27' ∧ trimmed.getLast? = some '\x27')) then
    trimmed.tail.dropLast
  else trimmed

def keepNonEmpty (value : Text) : Option Text := if value = [] then none else some value

def parseLine (config : LocalOAuthConfig) (rawLine : Text) : LocalOAuthConfig :=
  let line := Text.trim rawLine
  if line = [] ∨ line.head? = some '#' then config
  else
    match Words.splitOnce '=' line with
    | none => config
    | some (rawKey, rawValue) =>
        let key := Text.trim rawKey
        let value := parseValue (Text.trim rawValue)
        if key = clientKeyName then { config with clientApplicationKey := keepNonEmpty value }
        else if key = clientSecretName then
          { config with clientApplicationSecret := keepNonEmpty value }
        else if key = accessTokenName then { config with accessToken := keepNonEmpty value }
        else config

def parseLocalEnv (contents : Text) (sourcePath : Option Text) : LocalOAuthConfig :=
  (Text.lines contents).foldl parseLine ⟨sourcePath, none, none, none⟩

end File

section Assignments

/-- The credential under its key. -/
def LocalOAuthConfig.credential (config : LocalOAuthConfig) (key : Text) : Option Text :=
  if key = clientKeyName then config.clientApplicationKey
  else if key = clientSecretName then config.clientApplicationSecret
  else if key = accessTokenName then config.accessToken
  else none

/-- The key and the value a line assigns. -/
def assignment (line : Text) : Option (Text × Text) :=
  (Words.splitOnce '=' line).map fun cut => (Text.trim cut.1, parseValue cut.2)

/-- What is held of a key after a line. -/
def holdLine (key : Text) (held : Option Text) (line : Text) : Option Text :=
  match assignment line with
  | some (other, value) => if other = key then keepNonEmpty value else held
  | none => held

/-- What the last assignment of a key gives. -/
def lastAssigned (key : Text) (lines : List Text) : Option Text :=
  lines.foldl (holdLine key) none

theorem parseValue_trim (value : Text) : parseValue (Text.trim value) = parseValue value := by
  rw [parseValue, parseValue, Text.trim_trim]

theorem trimStart_keeps (before : Text) {c : Char} (solid : Text.isWhitespace c = false)
    (rest : Text) : Text.trimStart (before ++ c :: rest) = Text.trimStart before ++ c :: rest := by
  unfold Text.trimStart
  rw [List.dropWhile_append, List.dropWhile_cons_of_neg (by simp [solid])]
  split
  case isTrue blank => rw [List.isEmpty_iff.mp blank, List.nil_append]
  case isFalse => rfl

theorem trimEnd_keeps (before : Text) {c : Char} (solid : Text.isWhitespace c = false)
    (rest : Text) : Text.trimEnd (before ++ c :: rest) = before ++ c :: Text.trimEnd rest := by
  unfold Text.trimEnd
  induction rest using List.reverseRecOn with
  | nil => exact List.rdropWhile_concat_neg Text.isWhitespace before c (by simp [solid])
  | append_singleton rest d ih =>
      rw [← List.cons_append, ← List.append_assoc]
      cases blank : Text.isWhitespace d with
      | true =>
          rw [List.rdropWhile_concat_pos _ _ _ blank, List.rdropWhile_concat_pos _ _ _ blank]
          exact ih
      | false =>
          rw [List.rdropWhile_concat_neg _ _ _ (by simp [blank]),
            List.rdropWhile_concat_neg _ _ _ (by simp [blank])]
          simp

theorem trim_trimStart (text : Text) : Text.trim (Text.trimStart text) = Text.trim text := by
  rw [Text.trim, Text.trim, Text.trimStart, Text.trimStart, List.dropWhile_idempotent]

theorem trim_trimEnd (text : Text) : Text.trim (Text.trimEnd text) = Text.trim text := by
  have split : text = Text.trimEnd text ++ (text.reverse.takeWhile Text.isWhitespace).reverse := by
    have whole := congrArg List.reverse
      (List.takeWhile_append_dropWhile (p := Text.isWhitespace) (l := text.reverse))
    rw [List.reverse_append, List.reverse_reverse] at whole
    exact whole.symm
  have blank : ∀ c ∈ (text.reverse.takeWhile Text.isWhitespace).reverse,
      Text.isWhitespace c = true := by
    intro c member
    exact List.mem_takeWhile_imp (List.mem_reverse.mp member)
  conv_rhs => rw [split]
  exact (Text.trim_append_right blank _).symm

/-- White space around a line is around its key and its value. -/
theorem splitOnce_trim (line : Text) : Words.splitOnce '=' (Text.trim line) =
    (Words.splitOnce '=' line).map fun cut => (Text.trimStart cut.1, Text.trimEnd cut.2) := by
  cases cut : Words.splitOnce '=' line with
  | none =>
      refine Words.splitOnce_eq_none.mpr fun member => ?_
      exact Words.splitOnce_eq_none.mp cut ((Text.trim_sublist line).subset member)
  | some halves =>
      obtain ⟨before, after⟩ := halves
      obtain ⟨rfl, fresh⟩ := Words.splitOnce_eq_some.mp cut
      rw [Text.trim, trimStart_keeps before (by decide), trimEnd_keeps _ (by decide)]
      exact Words.splitOnce_append
        (fun member => fresh ((List.dropWhile_sublist _).subset member)) _

theorem credential_ne_comment {key : Text} (credential : key ∈ writableCredentialKeys) :
    key.head? = some 'W' := by
  revert key
  decide

/-- A comment assigns no credential. -/
theorem comment_assigns {key line : Text} (credential : key ∈ writableCredentialKeys)
    (comment : Text.trim line = [] ∨ (Text.trim line).head? = some '#') (held : Option Text) :
    holdLine key held line = held := by
  unfold holdLine assignment
  have read := splitOnce_trim line
  cases cut : Words.splitOnce '=' line with
  | none => rfl
  | some halves =>
      obtain ⟨before, after⟩ := halves
      rw [cut, Option.map_some] at read
      obtain ⟨whole, -⟩ := Words.splitOnce_eq_some.mp read
      refine if_neg fun same => ?_
      have begins := credential_ne_comment credential
      rw [← same, ← trim_trimStart] at begins
      rcases comment with empty | hash
      · rw [empty] at whole
        exact absurd whole.symm (by simp)
      · rw [whole] at hash
        cases start : Text.trimStart before with
        | nil =>
            rw [start] at hash
            simp at hash
        | cons c rest =>
            rw [start] at hash begins
            obtain rfl : c = '#' := by simpa using hash
            obtain ⟨later, kept⟩ := Text.trim_keeps [] (c := '#') (by decide) rest
            rw [List.nil_append] at kept
            rw [kept] at begins
            simp [Text.trimStart] at begins

/-- A credential under the name of another is left as it is. -/
theorem credential_set {key : Text} (credential : key ∈ writableCredentialKeys)
    (config : LocalOAuthConfig) (other : Text) (value : Option Text) :
    LocalOAuthConfig.credential (if other = clientKeyName then
        { config with clientApplicationKey := value }
      else if other = clientSecretName then { config with clientApplicationSecret := value }
      else if other = accessTokenName then { config with accessToken := value }
      else config) key = if other = key then value else config.credential key := by
  obtain ⟨one, two, three⟩ : clientKeyName ≠ clientSecretName ∧ clientKeyName ≠ accessTokenName ∧
    clientSecretName ≠ accessTokenName := by decide
  simp only [writableCredentialKeys, List.mem_cons, List.not_mem_nil, or_false] at credential
  unfold LocalOAuthConfig.credential
  by_cases same : other = key
  · subst same
    rw [if_pos rfl]
    rcases credential with rfl | rfl | rfl
    · simp [two.symm, three.symm]
    · simp
    · simp [one.symm]
  · rw [if_neg same]
    split_ifs with first second third
    all_goals first
      | rfl
      | (rcases credential with rfl | rfl | rfl <;> simp_all)

theorem parseLine_credential {key : Text} (credential : key ∈ writableCredentialKeys)
    (config : LocalOAuthConfig) (line : Text) :
    (parseLine config line).credential key = holdLine key (config.credential key) line := by
  rw [parseLine]
  dsimp only
  by_cases comment : Text.trim line = [] ∨ (Text.trim line).head? = some '#'
  · rw [if_pos comment, comment_assigns credential comment]
  · rw [if_neg comment, splitOnce_trim]
    unfold holdLine assignment
    cases Words.splitOnce '=' line with
    | none => rfl
    | some halves =>
        obtain ⟨before, after⟩ := halves
        have value : parseValue (Text.trimEnd after) = parseValue after := by
          rw [← parseValue_trim, trim_trimEnd, parseValue_trim]
        simp only [Option.map_some, trim_trimStart, parseValue_trim, value]
        exact credential_set credential config _ _

theorem parseLocalEnv_credential {key : Text} (credential : key ∈ writableCredentialKeys)
    (contents : Text) (sourcePath : Option Text) :
    (parseLocalEnv contents sourcePath).credential key =
      lastAssigned key (Text.lines contents) := by
  have run : ∀ (lines : List Text) (config : LocalOAuthConfig),
      (lines.foldl parseLine config).credential key =
        lines.foldl (holdLine key) (config.credential key) := by
    intro lines
    induction lines with
    | nil => exact fun config => rfl
    | cons line lines ih =>
        intro config
        rw [List.foldl_cons, List.foldl_cons, ih, parseLine_credential credential]
  have start : LocalOAuthConfig.credential ⟨sourcePath, none, none, none⟩ key = none := by
    unfold LocalOAuthConfig.credential
    split_ifs
    · rfl
    · rfl
    · rfl
    · rfl
  rw [parseLocalEnv, run, start, lastAssigned]

theorem holdLine_other {key : Text} {line : Text} (held : Option Text)
    (other : ∀ value, assignment line ≠ some (key, value)) : holdLine key held line = held := by
  unfold holdLine
  cases there : assignment line with
  | none => rfl
  | some pair =>
      refine if_neg fun same => other pair.2 ?_
      rw [there, ← same]

/-- Where all assignments of a key agree, any of them tells what is held. -/
theorem lastAssigned_of_all {key value : Text} {lines : List Text}
    (some_ : ∃ line ∈ lines, assignment line = some (key, value))
    (all : ∀ line ∈ lines, ∀ other, assignment line = some (key, other) → other = value) :
    lastAssigned key lines = keepNonEmpty value := by
  induction lines using List.reverseRecOn with
  | nil =>
      obtain ⟨line, member, -⟩ := some_
      cases member
  | append_singleton lines last ih =>
      rw [lastAssigned, List.foldl_append, List.foldl_cons, List.foldl_nil]
      by_cases here : ∃ other, assignment last = some (key, other)
      · obtain ⟨other, there⟩ := here
        rw [holdLine, there, all last (List.mem_append_right _ List.mem_cons_self) other there]
        exact if_pos rfl
      · push Not at here
        rw [holdLine_other _ here]
        refine ih ?_ fun line member => all line (List.mem_append_left _ member)
        obtain ⟨line, member, there⟩ := some_
        rcases List.mem_append.mp member with earlier | later
        · exact ⟨line, earlier, there⟩
        · rw [List.mem_singleton.mp later] at there
          exact absurd there (here value)

theorem mem_parseValue {value : Text} {c : Char} (member : c ∈ parseValue value) : c ∈ value := by
  unfold parseValue at member
  dsimp only at member
  split at member
  · exact (Text.trim_sublist value).subset
      (List.mem_of_mem_tail (List.mem_of_mem_dropLast member))
  · exact (Text.trim_sublist value).subset member

theorem lastAssigned_solid {key value : Text} {lines : List Text} {c : Char}
    (clear : ∀ line ∈ lines, c ∉ line) (held : lastAssigned key lines = some value) :
    c ∉ value := by
  induction lines using List.reverseRecOn with
  | nil => cases held
  | append_singleton lines last ih =>
      have earlier := ih fun line member => clear line (List.mem_append_left _ member)
      rw [lastAssigned, List.foldl_append, List.foldl_cons, List.foldl_nil, holdLine,
        assignment] at held
      cases cut : Words.splitOnce '=' last with
      | none =>
          rw [cut] at held
          exact earlier held
      | some halves =>
          rw [cut, Option.map_some] at held
          dsimp only at held
          split at held
          · rw [keepNonEmpty] at held
            split at held
            · cases held
            · cases held
              obtain ⟨rfl, -⟩ := Words.splitOnce_eq_some.mp cut
              intro member
              exact clear _ (List.mem_append_right _ List.mem_cons_self)
                (List.mem_append_right _ (List.mem_cons_of_mem _ (mem_parseValue member)))
          · exact earlier held

end Assignments

section Lines

theorem linesFrom_append {line : Text} (whole : '\n' ∉ line) (begun rest : Text) :
    Text.linesFrom begun (line ++ '\n' :: rest) =
      Text.dropCarriageReturn (begun ++ line) :: Text.linesFrom [] rest := by
  induction line generalizing begun with
  | nil =>
      rw [List.append_nil]
      rfl
  | cons c line ih =>
      have other : c ≠ '\n' := fun same => whole (same ▸ List.mem_cons_self)
      have later : '\n' ∉ line := fun member => whole (List.mem_cons_of_mem _ member)
      rw [List.cons_append, Text.linesFrom, ih later, List.append_assoc, List.singleton_append]
      exact fun feed => other feed

/-- Lines written one behind another are read back, but for a carriage return at their end. -/
theorem lines_written {blocks : List Text} (whole : ∀ block ∈ blocks, '\n' ∉ block) :
    Text.lines (blocks.flatMap (· ++ ['\n'])) = blocks.map Text.dropCarriageReturn := by
  induction blocks with
  | nil => rfl
  | cons block blocks ih =>
      have later := ih fun other member => whole other (List.mem_cons_of_mem _ member)
      rw [List.flatMap_cons, List.append_assoc, List.singleton_append, Text.lines,
        linesFrom_append (whole block List.mem_cons_self), List.nil_append, List.map_cons, ← later]
      rfl

theorem dropCarriageReturn_sublist (line : Text) : (Text.dropCarriageReturn line).Sublist line := by
  unfold Text.dropCarriageReturn
  split
  · exact List.dropLast_sublist line
  · exact List.Sublist.refl line

theorem whole_of_mem_linesFrom {begun text line : Text} (whole : '\n' ∉ begun)
    (member : line ∈ Text.linesFrom begun text) : '\n' ∉ line := by
  induction text generalizing begun with
  | nil =>
      rw [Text.linesFrom] at member
      split at member
      · cases member
      · rwa [List.mem_singleton.mp member]
  | cons c text ih =>
      by_cases feed : c = '\n'
      · subst feed
        rw [Text.linesFrom] at member
        rcases List.mem_cons.mp member with rfl | later
        · exact fun inside => whole ((dropCarriageReturn_sublist begun).subset inside)
        · exact ih List.not_mem_nil later
      · rw [Text.linesFrom] at member
        · refine ih ?_ member
          intro inside
          rcases List.mem_append.mp inside with earlier | here
          · exact whole earlier
          · exact feed (List.mem_singleton.mp here).symm
        · exact fun same => feed same

theorem whole_of_mem_lines {text line : Text} (member : line ∈ Text.lines text) : '\n' ∉ line :=
  whole_of_mem_linesFrom List.not_mem_nil member

/-- A carriage return at the end of a line is white space around its value. -/
theorem assignment_dropCarriageReturn (line : Text) :
    assignment (Text.dropCarriageReturn line) = assignment line := by
  unfold Text.dropCarriageReturn
  split
  · next ends =>
      obtain ⟨front, rfl⟩ := List.getLast?_eq_some_iff.mp ends
      rw [List.dropLast_concat]
      unfold assignment
      cases cut : Words.splitOnce '=' front with
      | none =>
          have fresh := Words.splitOnce_eq_none.mp cut
          rw [Words.splitOnce_eq_none.mpr (by simp [fresh])]
      | some halves =>
          obtain ⟨before, after⟩ := halves
          obtain ⟨rfl, fresh⟩ := Words.splitOnce_eq_some.mp cut
          rw [List.append_assoc, List.cons_append, Words.splitOnce_append fresh, Option.map_some,
            Option.map_some, ← parseValue_trim (after ++ ['\r']), ← parseValue_trim after,
            Text.trim_append_right]
          simp only [List.mem_singleton]
          rintro c rfl
          rfl
  · rfl

end Lines

section Merging

variable {updates : List (Text × Text)}

/-- Which update replaces a line. -/
def replacementIndex (updates : List (Text × Text)) (line : Text) : Option Nat :=
  (Words.splitOnce '=' line).bind fun cut =>
    updates.findIdx? fun update => Text.trim cut.1 = update.1

def replacement (updates : List (Text × Text)) (line : Text) : Option (Text × Text) :=
  (replacementIndex updates line).bind fun index => updates[index]?

def envText (update : Text × Text) : Text := update.1 ++ '=' :: update.2

/-- What a line of the file becomes. -/
def mergedLine (updates : List (Text × Text)) (line : Text) : Text :=
  match replacement updates line with
  | some update => envText update
  | none => line

def markApplied (updates : List (Text × Text)) (applied : List Bool) (line : Text) : List Bool :=
  match replacementIndex updates line with
  | some index => applied.set index true
  | none => applied

theorem pushEnvLine_eq (out key value : Text) :
    pushEnvLine out key value = out ++ (envText (key, value) ++ ['\n']) := by
  simp only [pushEnvLine, envText, List.append_assoc, List.cons_append, List.nil_append]

theorem mergeLine_eq (merged : Text × List Bool) (line : Text) : mergeLine updates merged line =
    (merged.1 ++ (mergedLine updates line ++ ['\n']), markApplied updates merged.2 line) := by
  unfold mergeLine mergedLine replacement markApplied replacementIndex
  cases Words.splitOnce '=' line with
  | none =>
      rw [Option.bind_none, List.append_assoc]
      rfl
  | some halves =>
      dsimp only
      rw [Option.bind_some]
      cases found : updates.findIdx? fun update => decide (Text.trim halves.1 = update.1) with
      | none =>
          rw [Option.bind_none, List.append_assoc]
      | some index =>
          obtain ⟨inside, -⟩ := List.findIdx?_eq_some_iff_getElem.mp found
          rw [Option.bind_some, List.getElem?_eq_getElem inside]
          dsimp only
          rw [List.getElem?_eq_getElem inside, Option.getD_some, pushEnvLine_eq]

theorem foldl_mergeLine (lines : List Text) (merged : Text × List Bool) :
    lines.foldl (mergeLine updates) merged =
      (merged.1 ++ (lines.map (mergedLine updates)).flatMap (· ++ ['\n']),
        lines.foldl (markApplied updates) merged.2) := by
  induction lines generalizing merged with
  | nil => simp
  | cons line lines ih =>
      rw [List.foldl_cons, ih, mergeLine_eq, List.map_cons, List.flatMap_cons, List.foldl_cons,
        List.append_assoc]

theorem markApplied_true {applied : List Bool} {line : Text} {index : Nat}
    (marked : (markApplied updates applied line)[index]? = some true) :
    applied[index]? = some true ∨ replacementIndex updates line = some index := by
  unfold markApplied at marked
  cases found : replacementIndex updates line with
  | none =>
      rw [found] at marked
      exact .inl marked
  | some other =>
      rw [found] at marked
      by_cases same : other = index
      · exact .inr (congrArg some same)
      · rw [List.getElem?_set_ne same] at marked
        exact .inl marked

theorem foldl_markApplied (lines : List Text) (applied : List Bool) :
    (lines.foldl (markApplied updates) applied).length = applied.length ∧
      ∀ index : Nat, (lines.foldl (markApplied updates) applied)[index]? = some true →
        applied[index]? = some true ∨
          ∃ line ∈ lines, replacementIndex updates line = some index := by
  induction lines generalizing applied with
  | nil => exact ⟨rfl, fun index marked => .inl marked⟩
  | cons line lines ih =>
      obtain ⟨length, later⟩ := ih (markApplied updates applied line)
      refine ⟨length.trans ?_, fun index marked => ?_⟩
      · unfold markApplied
        split
        · exact List.length_set
        · rfl
      · rcases later index marked with here | ⟨other, member, there⟩
        · rcases markApplied_true here with earlier | found
          · exact .inl earlier
          · exact .inr ⟨line, List.mem_cons_self, found⟩
        · exact .inr ⟨other, List.mem_cons_of_mem _ member, there⟩

/-- The updates that no line took. -/
def leftOver (marked : List ((Text × Text) × Bool)) : List (Text × Text) :=
  (marked.filter fun entry => !entry.2).map Prod.fst

theorem foldl_leftOver (marked : List ((Text × Text) × Bool)) (out : Text) :
    marked.foldl (fun out (update, applied) =>
        if applied then out else pushEnvLine out update.1 update.2) out =
      out ++ ((leftOver marked).map envText).flatMap (· ++ ['\n']) := by
  induction marked generalizing out with
  | nil => simp [leftOver]
  | cons entry marked ih =>
      obtain ⟨update, applied⟩ := entry
      rw [List.foldl_cons, ih]
      cases applied with
      | true => rfl
      | false =>
          dsimp only
          rw [if_neg Bool.false_ne_true, pushEnvLine_eq, leftOver, leftOver,
            List.filter_cons_of_pos rfl, List.map_cons, List.map_cons, List.flatMap_cons,
            List.append_assoc]

/-- The merged file, line by line: the lines of the file, some replaced, and what was left over. -/
theorem mergeEnv_lines (existing : Text) (updates : List (Text × Text)) :
    ∃ rest : List (Text × Text),
    mergeEnv existing updates =
      ((Text.lines existing).map (mergedLine updates) ++ rest.map envText).flatMap (· ++ ['\n']) ∧
    (∀ update ∈ rest, update ∈ updates) ∧
    ∀ update ∈ updates, update ∈ rest ∨
      ∃ line ∈ Text.lines existing, replacement updates line = some update := by
  obtain ⟨length, marked⟩ := @foldl_markApplied updates (Text.lines existing)
    (updates.map fun _ => false)
  rw [List.length_map] at length
  refine ⟨leftOver (updates.zip ((Text.lines existing).foldl (markApplied updates)
    (updates.map fun _ => false))), ?_, ?_, ?_⟩
  · rw [mergeEnv]
    dsimp only
    rw [foldl_mergeLine, foldl_leftOver, List.nil_append, List.flatMap_append]
  · intro update member
    obtain ⟨entry, held, rfl⟩ := List.mem_map.mp member
    exact (List.of_mem_zip (List.mem_filter.mp held).1).1
  · intro update member
    obtain ⟨index, inside, rfl⟩ := List.mem_iff_getElem.mp member
    cases flag : ((Text.lines existing).foldl (markApplied updates)
        (updates.map fun _ => false))[index]? with
    | none =>
        rw [List.getElem?_eq_none_iff, length] at flag
        exact absurd inside (Nat.not_lt.mpr flag)
    | some applied =>
        cases applied with
        | true =>
            right
            rcases marked index flag with early | ⟨line, among, found⟩
            · rw [List.getElem?_map, List.getElem?_eq_getElem inside] at early
              cases early
            · refine ⟨line, among, ?_⟩
              rw [replacement, found, Option.bind_some, List.getElem?_eq_getElem inside]
        | false =>
            left
            refine List.mem_map.mpr ⟨(updates[index], false), List.mem_filter.mpr ⟨?_, rfl⟩, rfl⟩
            refine List.mem_of_getElem? (i := index) ?_
            rw [List.getElem?_zip_eq_some]
            exact ⟨List.getElem?_eq_getElem inside, flag⟩

theorem replacement_some {line : Text} {update : Text × Text}
    (found : replacement updates line = some update) :
    update ∈ updates ∧ ∃ value, assignment line = some (update.1, value) := by
  unfold replacement replacementIndex at found
  cases cut : Words.splitOnce '=' line with
  | none =>
      rw [cut] at found
      cases found
  | some halves =>
      rw [cut, Option.bind_some] at found
      obtain ⟨index, first, there⟩ := Option.bind_eq_some_iff.mp found
      obtain ⟨inside, same, -⟩ := List.findIdx?_eq_some_iff_getElem.mp first
      rw [List.getElem?_eq_getElem inside] at there
      cases there
      refine ⟨List.getElem_mem inside, parseValue halves.2, ?_⟩
      rw [assignment, cut, Option.map_some, of_decide_eq_true same]

theorem replacement_none {line : Text} (kept : replacement updates line = none)
    {update : Text × Text} (member : update ∈ updates) (value : Text) :
    assignment line ≠ some (update.1, value) := by
  intro assigned
  unfold assignment at assigned
  obtain ⟨halves, cut, same⟩ := Option.map_eq_some_iff.mp assigned
  obtain ⟨key, -⟩ := Prod.mk.inj same
  unfold replacement replacementIndex at kept
  rw [cut, Option.bind_some] at kept
  cases first : updates.findIdx? fun update => decide (Text.trim halves.1 = update.1) with
  | none =>
      have other := List.findIdx?_eq_none_iff.mp first update member
      exact of_decide_eq_false other key
  | some index =>
      obtain ⟨inside, -⟩ := List.findIdx?_eq_some_iff_getElem.mp first
      rw [first, Option.bind_some, List.getElem?_eq_getElem inside] at kept
      cases kept

theorem writable_key {key : Text} (writable : key ∈ writableCredentialKeys) :
    '=' ∉ key ∧ '\n' ∉ key ∧ Text.trim key = key := by
  revert key
  decide

/-- An update as the setup window makes it: a writable key and a trimmed value. -/
structure Savable (update : Text × Text) : Prop where
  writable : update.1 ∈ writableCredentialKeys
  trimmed : Text.trim update.2 = update.2
  nonempty : update.2 ≠ []

theorem Savable.assignment {update : Text × Text} (savable : Savable update) :
    assignment (envText update) = some (update.1, parseValue update.2) := by
  obtain ⟨fresh, -, trimmed⟩ := writable_key savable.writable
  rw [Session.assignment, envText, Words.splitOnce_append fresh, Option.map_some, trimmed]

theorem Savable.dropCarriageReturn {update : Text × Text} (savable : Savable update) :
    Text.dropCarriageReturn (envText update) = envText update := by
  refine if_neg fun ends => ?_
  obtain ⟨front, last, split⟩ : ∃ front last, update.2 = front ++ [last] := by
    rcases List.eq_nil_or_concat update.2 with empty | ⟨front, last, split⟩
    · exact absurd empty savable.nonempty
    · exact ⟨front, last, split.trans List.concat_eq_append⟩
  rw [envText, split, ← List.cons_append, ← List.append_assoc, List.getLast?_concat] at ends
  cases ends
  have trimmed := savable.trimmed
  rw [split, Text.trim_append_right (by simp; decide)] at trimmed
  have shorter := (Text.trim_sublist front).length_le
  rw [trimmed, List.length_append, List.length_singleton] at shorter
  omega

theorem Savable.whole {update : Text × Text} (savable : Savable update) (one : '\n' ∉ update.2) :
    '\n' ∉ envText update := by
  obtain ⟨-, fresh, -⟩ := writable_key savable.writable
  simp [envText, fresh, one]

/-- The lines of the merged file, where no value has a line break. -/
theorem lines_mergeEnv (savable : ∀ update ∈ updates, Savable update)
    (single : ∀ update ∈ updates, '\n' ∉ update.2) (existing : Text) :
    ∃ rest : List (Text × Text), Text.lines (mergeEnv existing updates) =
        (Text.lines existing).map (fun line => Text.dropCarriageReturn (mergedLine updates line)) ++
          rest.map envText ∧
      (∀ update ∈ rest, update ∈ updates) ∧
      ∀ update ∈ updates, update ∈ rest ∨
        ∃ line ∈ Text.lines existing, replacement updates line = some update := by
  obtain ⟨rest, merged, known, taken⟩ := mergeEnv_lines existing updates
  refine ⟨rest, ?_, known, taken⟩
  have whole : ∀ block ∈ (Text.lines existing).map (mergedLine updates) ++ rest.map envText,
      '\n' ∉ block := by
    intro block member
    rcases List.mem_append.mp member with earlier | later
    · obtain ⟨line, held, rfl⟩ := List.mem_map.mp earlier
      unfold mergedLine
      cases found : replacement updates line with
      | none => exact whole_of_mem_lines held
      | some update =>
          obtain ⟨among, -⟩ := replacement_some found
          exact (savable update among).whole (single update among)
    · obtain ⟨update, held, rfl⟩ := List.mem_map.mp later
      exact (savable update (known update held)).whole (single update (known update held))
  rw [merged, lines_written whole, List.map_append, List.map_map, List.map_map]
  refine congrArg (_ ++ ·) (List.map_congr_left fun update member => ?_)
  exact (savable update (known update member)).dropCarriageReturn

end Merging

section ReadBack

variable {updates : List (Text × Text)}

/-- The lines of the file that assign no updated key. -/
def keptLines (updates : List (Text × Text)) (existing : Text) : List Text :=
  (Text.lines existing).filter fun line => (replacement updates line).isNone

/-- The merged file is read back as it was meant. -/
structure ReadBack (existing : Text) (updates : List (Text × Text)) (sourcePath : Option Text) :
    Prop where
  updated : ∀ update ∈ updates,
    (parseLocalEnv (mergeEnv existing updates) sourcePath).credential update.1 = some update.2
  others : ∀ key ∈ writableCredentialKeys, (∀ update ∈ updates, update.1 ≠ key) →
    (parseLocalEnv (mergeEnv existing updates) sourcePath).credential key =
      (parseLocalEnv existing sourcePath).credential key
  preserved : (keptLines updates existing).Sublist (Text.lines (mergeEnv existing updates))

/-- A value that the reader takes out of its quotes. -/
def Quoted (value : Text) : Prop :=
  2 ≤ Bytes.size value ∧ ((value.head? = some '"' ∧ value.getLast? = some '"') ∨
    (value.head? = some '\x27' ∧ value.getLast? = some '\x27'))

instance (value : Text) : Decidable (Quoted value) := inferInstanceAs (Decidable (_ ∧ _))

theorem parseValue_eq_iff {value : Text} (trimmed : Text.trim value = value)
    (nonempty : value ≠ []) : parseValue value = value ↔ ¬ Quoted value := by
  rw [parseValue, trimmed]
  by_cases quoted : Quoted value
  · refine iff_of_false ?_ (not_not.mpr quoted)
    intro same
    have shorter := congrArg List.length ((if_pos quoted).symm.trans same)
    have positive := List.length_pos_of_ne_nil nonempty
    rw [List.length_dropLast, List.length_tail] at shorter
    omega
  · exact iff_of_true (if_neg quoted) quoted

theorem foldl_silent {key : Text} {lines : List Text}
    (silent : ∀ line ∈ lines, ∀ held, holdLine key held line = held) (held : Option Text) :
    lines.foldl (holdLine key) held = held := by
  induction lines with
  | nil => rfl
  | cons line lines ih =>
      rw [List.foldl_cons, silent line List.mem_cons_self]
      exact ih fun other member => silent other (List.mem_cons_of_mem _ member)

/-- What the merged lines assign to an updated key. -/
theorem lastAssigned_updated (savable : ∀ update ∈ updates, Savable update)
    (single : ∀ update ∈ updates, '\n' ∉ update.2)
    (agree : ∀ one ∈ updates, ∀ other ∈ updates, one.1 = other.1 → one.2 = other.2)
    (existing : Text) {update : Text × Text} (member : update ∈ updates) :
    lastAssigned update.1 (Text.lines (mergeEnv existing updates)) =
      keepNonEmpty (parseValue update.2) := by
  obtain ⟨rest, lines, known, taken⟩ := lines_mergeEnv savable single existing
  have same : ∀ other ∈ updates, ∀ value,
      assignment (envText other) = some (update.1, value) → value = parseValue update.2 := by
    intro other among value assigned
    rw [(savable other among).assignment] at assigned
    obtain ⟨key, rfl⟩ := Prod.mk.inj (Option.some.inj assigned)
    rw [agree other among update member key]
  rw [lines]
  refine lastAssigned_of_all ?_ ?_
  · rcases taken update member with held | ⟨line, held, found⟩
    · exact ⟨envText update, List.mem_append_right _ (List.mem_map_of_mem held),
        (savable update member).assignment⟩
    · refine ⟨envText update, List.mem_append_left _ (List.mem_map.mpr ⟨line, held, ?_⟩),
        (savable update member).assignment⟩
      rw [mergedLine, found]
      exact (savable update member).dropCarriageReturn
  · intro line among value assigned
    rcases List.mem_append.mp among with earlier | later
    · obtain ⟨original, held, rfl⟩ := List.mem_map.mp earlier
      rw [assignment_dropCarriageReturn, mergedLine] at assigned
      cases found : replacement updates original with
      | none =>
          rw [found] at assigned
          exact absurd assigned (replacement_none found member value)
      | some other =>
          rw [found] at assigned
          exact same other (replacement_some found).1 value assigned
    · obtain ⟨other, held, rfl⟩ := List.mem_map.mp later
      exact same other (known other held) value assigned

/-- The merged lines assign nothing else to the other keys. -/
theorem lastAssigned_other (savable : ∀ update ∈ updates, Savable update)
    (single : ∀ update ∈ updates, '\n' ∉ update.2) (existing : Text) {key : Text}
    (other : ∀ update ∈ updates, update.1 ≠ key) :
    lastAssigned key (Text.lines (mergeEnv existing updates)) =
      lastAssigned key (Text.lines existing) := by
  obtain ⟨rest, lines, known, -⟩ := lines_mergeEnv savable single existing
  have silent : ∀ update ∈ updates, ∀ held, holdLine key held (envText update) = held := by
    intro update member held
    refine holdLine_other held fun value assigned => ?_
    rw [(savable update member).assignment] at assigned
    exact other update member (Prod.mk.inj (Option.some.inj assigned)).1
  have same : ∀ line held, holdLine key held
      (Text.dropCarriageReturn (mergedLine updates line)) = holdLine key held line := by
    intro line held
    have cleared : holdLine key held (Text.dropCarriageReturn (mergedLine updates line)) =
        holdLine key held (mergedLine updates line) := by
      unfold holdLine
      rw [assignment_dropCarriageReturn]
    rw [cleared, mergedLine]
    cases found : replacement updates line with
    | none => rfl
    | some update =>
        obtain ⟨among, value, assigned⟩ := replacement_some found
        dsimp only
        rw [silent update among, holdLine_other]
        intro value' assigned'
        rw [assigned] at assigned'
        exact other update among (Prod.mk.inj (Option.some.inj assigned')).1
  rw [lines, lastAssigned, List.foldl_append, foldl_silent, List.foldl_map]
  · simp only [same]
    rfl
  · intro line member held
    obtain ⟨update, among, rfl⟩ := List.mem_map.mp member
    exact silent update (known update among) held

/-- Merging changes no line into one that assigns an updated key, or back. -/
theorem replacement_merged (savable : ∀ update ∈ updates, Savable update) (line : Text) :
    (replacement updates (Text.dropCarriageReturn (mergedLine updates line))).isNone =
      (replacement updates line).isNone := by
  cases found : replacement updates line with
  | some update =>
      obtain ⟨among, -⟩ := replacement_some found
      rw [mergedLine, found]
      dsimp only
      rw [(savable update among).dropCarriageReturn]
      cases again : replacement updates (envText update) with
      | some other => rfl
      | none => exact absurd (savable update among).assignment (replacement_none again among _)
  | none =>
      rw [mergedLine, found]
      dsimp only
      cases again : replacement updates (Text.dropCarriageReturn line) with
      | none => rfl
      | some update =>
          obtain ⟨among, value, assigned⟩ := replacement_some again
          rw [assignment_dropCarriageReturn] at assigned
          exact absurd assigned (replacement_none found among value)

theorem mem_of_map_eq {α : Type} {f : α → α} {items : List α} (same : items.map f = items) :
    ∀ item ∈ items, f item = item := by
  induction items with
  | nil => exact fun item member => absurd member List.not_mem_nil
  | cons first items ih =>
      obtain ⟨here, later⟩ := List.cons.inj same
      intro item member
      rcases List.mem_cons.mp member with rfl | among
      · exact here
      · exact ih later item among

theorem dropCarriageReturn_eq_iff {line : Text} :
    Text.dropCarriageReturn line = line ↔ line.getLast? ≠ some '\r' := by
  constructor
  · intro same ends
    have shorter := congrArg List.length ((if_pos ends).symm.trans same)
    rw [List.length_dropLast] at shorter
    cases line with
    | nil => cases ends
    | cons c rest =>
        rw [List.length_cons] at shorter
        omega
  · exact fun ends => if_neg ends

/-- The kept lines are found again when none of them ends in a carriage return, and only then. -/
theorem preserved_iff (savable : ∀ update ∈ updates, Savable update)
    (single : ∀ update ∈ updates, '\n' ∉ update.2) (existing : Text) :
    (keptLines updates existing).Sublist (Text.lines (mergeEnv existing updates)) ↔
      ∀ line ∈ keptLines updates existing, line.getLast? ≠ some '\r' := by
  obtain ⟨rest, lines, known, -⟩ := lines_mergeEnv savable single existing
  have kept : ∀ line ∈ keptLines updates existing, mergedLine updates line = line := by
    intro line member
    unfold mergedLine
    rw [Option.isNone_iff_eq_none.mp (List.mem_filter.mp member).2]
  constructor
  · intro found
    have unassigned : (Text.lines (mergeEnv existing updates)).filter
        (fun line => (replacement updates line).isNone) =
          (keptLines updates existing).map Text.dropCarriageReturn := by
      have none_ : (rest.map envText).filter
          (fun line => (replacement updates line).isNone) = [] := by
        refine List.filter_eq_nil_iff.mpr fun line member => ?_
        obtain ⟨update, held, rfl⟩ := List.mem_map.mp member
        cases again : replacement updates (envText update) with
        | some other => exact Bool.false_ne_true
        | none =>
            exact absurd (savable update (known update held)).assignment
              (replacement_none again (known update held) _)
      rw [lines, List.filter_append, none_, List.append_nil, List.filter_map]
      simp only [Function.comp_def, replacement_merged savable]
      refine List.map_congr_left fun line member => ?_
      rw [kept line member]
    have within := found.filter fun line => (replacement updates line).isNone
    rw [unassigned] at within
    have whole : (keptLines updates existing).filter
        (fun line => (replacement updates line).isNone) = keptLines updates existing :=
      List.filter_eq_self.mpr fun line member => (List.mem_filter.mp member).2
    rw [whole] at within
    have same := within.eq_of_length (List.length_map _).symm
    intro line member
    exact dropCarriageReturn_eq_iff.mp (mem_of_map_eq same.symm line member)
  · intro clean
    have same : (keptLines updates existing).map
        (fun line => Text.dropCarriageReturn (mergedLine updates line)) =
          keptLines updates existing := by
      conv_rhs => rw [← List.map_id (keptLines updates existing)]
      refine List.map_congr_left fun line member => ?_
      rw [kept line member]
      exact dropCarriageReturn_eq_iff.mpr (clean line member)
    rw [lines, ← same]
    exact (List.filter_sublist.map _).trans (List.sublist_append_left _ _)

/-- A merged file is read back as it was meant just when no value has a line break or stands between
quotes, no key is given two values, and no line that is kept ends in a carriage return. -/
theorem merge_readBack_iff (savable : ∀ update ∈ updates, Savable update) (existing : Text)
    (sourcePath : Option Text) : ReadBack existing updates sourcePath ↔
      (∀ update ∈ updates, '\n' ∉ update.2 ∧ ¬ Quoted update.2) ∧
      (∀ one ∈ updates, ∀ other ∈ updates, one.1 = other.1 → one.2 = other.2) ∧
      ∀ line ∈ keptLines updates existing, line.getLast? ≠ some '\r' := by
  have read : ∀ update ∈ updates,
      (parseLocalEnv (mergeEnv existing updates) sourcePath).credential update.1 =
        lastAssigned update.1 (Text.lines (mergeEnv existing updates)) :=
    fun update member => parseLocalEnv_credential (savable update member).writable _ _
  constructor
  · intro back
    have single : ∀ update ∈ updates, '\n' ∉ update.2 := by
      intro update member
      have held := back.updated update member
      rw [read update member] at held
      exact lastAssigned_solid (fun line => whole_of_mem_lines) held
    have agree : ∀ one ∈ updates, ∀ other ∈ updates, one.1 = other.1 → one.2 = other.2 := by
      intro one member other among same
      have here := back.updated one member
      have there := back.updated other among
      rw [same, there] at here
      exact (Option.some.inj here).symm
    refine ⟨fun update member => ⟨single update member, ?_⟩, agree,
      (preserved_iff savable single existing).mp back.preserved⟩
    have held := back.updated update member
    rw [read update member, lastAssigned_updated savable single agree existing member,
      keepNonEmpty] at held
    have good := savable update member
    refine (parseValue_eq_iff good.trimmed good.nonempty).mp ?_
    split at held
    · cases held
    · exact Option.some.inj held
  · rintro ⟨values, agree, clean⟩
    have single : ∀ update ∈ updates, '\n' ∉ update.2 :=
      fun update member => (values update member).1
    refine ⟨fun update member => ?_, fun key writable other => ?_,
      (preserved_iff savable single existing).mpr clean⟩
    · have good := savable update member
      rw [read update member, lastAssigned_updated savable single agree existing member,
        (parseValue_eq_iff good.trimmed good.nonempty).mpr (values update member).2]
      exact if_neg good.nonempty
    · rw [parseLocalEnv_credential writable, parseLocalEnv_credential writable,
        lastAssigned_other savable single existing other]

def tokenUpdate (value : String) : List (Text × Text) := [(accessTokenName, value.toList)]

theorem savable_token {value : String} (trimmed : Text.trim value.toList = value.toList)
    (nonempty : value.toList ≠ []) : ∀ update ∈ tokenUpdate value, Savable update := by
  intro update member
  rw [List.mem_singleton.mp member]
  exact ⟨List.mem_cons_self, trimmed, nonempty⟩

theorem token_read_back :
    ReadBack "# local\nWIKIMEDIA_ACCESS_TOKEN=old\n".toList (tokenUpdate "new-token") none := by
  refine (merge_readBack_iff (savable_token (by decide +kernel) (by decide)) _ none).mpr
    ⟨?_, ?_, ?_⟩
  · intro update member
    rw [List.mem_singleton.mp member]
    decide
  · intro one member other among _
    rw [List.mem_singleton.mp member, List.mem_singleton.mp among]
  · decide +kernel

/-- A value between quotes is saved with them and read back without. -/
theorem quotes_lost :
    (parseLocalEnv (mergeEnv [] (tokenUpdate "\"token\"")) none).credential accessTokenName =
        some "token".toList ∧
      ¬ ReadBack [] (tokenUpdate "\"token\"") none := by
  have read : (parseLocalEnv (mergeEnv [] (tokenUpdate "\"token\"")) none).credential
      accessTokenName = some "token".toList := by decide +kernel
  refine ⟨read, fun back => ?_⟩
  have held := back.updated (accessTokenName, "\"token\"".toList) List.mem_cons_self
  rw [read] at held
  revert held
  decide

end ReadBack

end SP42.Session

import Mathlib.Data.List.DropRight
import Mathlib.Data.List.SplitOn
import Mathlib.Tactic.Common

/-!
How a browser reads a URL: the basic parser of the URL Standard over a base with a
hierarchical path. Hosts are read by a parameter, credentials are passed over, and the
fragment and the query are cut off first: their marks end every other part.
-/
namespace Whatwg

section Marks

def isC0OrSpace (c : Char) : Bool := decide (c.toNat ≤ 0x20)

def isTabOrNewline (c : Char) : Bool := c == '\t' || c == '\n' || c == '\r'

/-- The input without what is around it, tabs and newlines. -/
def clean (input : List Char) : List Char :=
  ((input.dropWhile isC0OrSpace).rdropWhile isC0OrSpace).filter fun c => !isTabOrNewline c

/-- The text before a mark, and the text after it if there is one. -/
def cutAt (mark : Char) (text : List Char) : List Char × Option (List Char) :=
  (text.takeWhile (· != mark), match text.dropWhile (· != mark) with
    | [] => none
    | _ :: rest => some rest)

/-- The input as it is read when something follows it. -/
def begun (input : List Char) : List Char :=
  (input.dropWhile isC0OrSpace).filter fun c => !isTabOrNewline c

theorem isC0OrSpace_of_tab {c : Char} (tab : isTabOrNewline c = true) : isC0OrSpace c = true := by
  simp only [isTabOrNewline, Bool.or_eq_true, beq_iff_eq] at tab
  rcases tab with (rfl | rfl) | rfl <;> rfl

theorem filter_solid {text : List Char} (solid : ∀ c ∈ text, isC0OrSpace c = false) :
    (text.filter fun c => !isTabOrNewline c) = text := by
  refine List.filter_eq_self.mpr fun c mem => ?_
  cases tab : isTabOrNewline c with
  | false => rfl
  | true => exact absurd (isC0OrSpace_of_tab tab) (by simp [solid c mem])

/-- What follows a text keeps its end from being stripped. -/
theorem clean_append {input rest : List Char} (started : input.dropWhile isC0OrSpace ≠ [])
    (inhabited : rest ≠ []) (solid : ∀ c ∈ rest, isC0OrSpace c = false) :
    clean (input ++ rest) = begun input ++ rest := by
  have front : (input ++ rest).dropWhile isC0OrSpace = input.dropWhile isC0OrSpace ++ rest := by
    rw [List.dropWhile_append, if_neg (by simpa using started)]
  have ends : (input.dropWhile isC0OrSpace ++ rest).rdropWhile isC0OrSpace =
      input.dropWhile isC0OrSpace ++ rest := by
    rw [List.rdropWhile_eq_self_iff]
    intro nonempty
    rw [List.getLast_append_of_ne_nil _ inhabited]
    simp [solid _ (List.getLast_mem inhabited)]
  rw [clean, front, ends, List.filter_append, filter_solid solid]
  rfl

/-- What is stripped from the end of an input. -/
def stripped (input : List Char) : List Char :=
  ((input.dropWhile isC0OrSpace).rtakeWhile isC0OrSpace).filter fun c => !isTabOrNewline c

theorem begun_eq (input : List Char) : begun input = clean input ++ stripped input := by
  unfold begun clean stripped
  rw [← List.filter_append, List.rdropWhile_append_rtakeWhile]

theorem stripped_control {input : List Char} {c : Char} (mem : c ∈ stripped input) :
    isC0OrSpace c = true ∧ isTabOrNewline c = false := by
  obtain ⟨taken, kept⟩ := List.mem_filter.mp mem
  exact ⟨List.mem_rtakeWhile_imp taken, by simpa using kept⟩

theorem stripped_ne_nil {input : List Char} (started : input.dropWhile isC0OrSpace ≠ []) {c : Char}
    (last : c ∈ input.getLast?) (control : isC0OrSpace c = true) (kept : isTabOrNewline c = false) :
    stripped input ≠ [] := by
  have same : (input.dropWhile isC0OrSpace).getLast started = c := by
    rw [(List.dropWhile_suffix isC0OrSpace).getLast started]
    rw [List.getLast?_eq_some_getLast (List.ne_nil_of_mem (List.mem_of_mem_getLast? last))] at last
    exact Option.some.inj last
  have split := List.dropLast_append_getLast started
  rw [same] at split
  unfold stripped
  rw [← split, List.rtakeWhile_concat_pos _ _ _ control, List.filter_append]
  simp [kept]

theorem mem_of_mem_begun {c : Char} {input : List Char} (mem : c ∈ begun input) : c ∈ input :=
  (List.dropWhile_sublist isC0OrSpace).subset (List.mem_filter.mp mem).1

theorem mem_of_mem_clean {c : Char} {input : List Char} (mem : c ∈ clean input) : c ∈ input :=
  mem_of_mem_begun (begun_eq input ▸ List.mem_append_left _ mem)

/-- What is no control character is read. -/
theorem mem_clean {c : Char} {input : List Char} (solid : isC0OrSpace c = false) (mem : c ∈ input) :
    c ∈ clean input := by
  have untabbed : isTabOrNewline c = false := by
    refine Bool.eq_false_iff.mpr fun tab => ?_
    rw [isC0OrSpace_of_tab tab] at solid
    cases solid
  have dropped : c ∈ input.dropWhile isC0OrSpace := by
    rw [← List.takeWhile_append_dropWhile (p := isC0OrSpace) (l := input)] at mem
    rcases List.mem_append.mp mem with front | rest
    · rw [List.mem_takeWhile_imp front] at solid
      cases solid
    · exact rest
  have begins : c ∈ begun input := List.mem_filter.mpr ⟨dropped, by simp [untabbed]⟩
  rw [begun_eq] at begins
  rcases List.mem_append.mp begins with read | control
  · exact read
  · rw [(stripped_control control).1] at solid
    cases solid

/-- Nothing is stripped from a text whose last character is solid. -/
theorem clean_eq_begun {input : List Char} (solid : ∀ c ∈ input.getLast?, isC0OrSpace c = false) :
    clean input = begun input := by
  have ends : (input.dropWhile isC0OrSpace).rdropWhile isC0OrSpace = input.dropWhile isC0OrSpace := by
    rw [List.rdropWhile_eq_self_iff]
    intro nonempty
    have last : (input.dropWhile isC0OrSpace).getLast nonempty ∈ input.getLast? := by
      rw [(List.dropWhile_suffix isC0OrSpace).getLast nonempty]
      exact List.getLast?_eq_some_getLast _
    simp [solid _ last]
  rw [clean, ends]
  rfl

theorem cutAt_of_notMem {mark : Char} {text : List Char} (unmarked : mark ∉ text) :
    cutAt mark text = (text, none) := by
  have kept : ∀ c ∈ text, (c != mark) = true := fun c mem =>
    bne_iff_ne.mpr fun same => unmarked (same ▸ mem)
  unfold cutAt
  rw [List.takeWhile_eq_self_iff.mpr kept, List.dropWhile_eq_nil_iff.mpr kept]

theorem cutAt_append {mark : Char} {text : List Char} (unmarked : mark ∉ text) (rest : List Char) :
    cutAt mark (text ++ mark :: rest) = (text, some rest) := by
  have kept : ∀ c ∈ text, (c != mark) = true := fun c mem =>
    bne_iff_ne.mpr fun same => unmarked (same ▸ mem)
  unfold cutAt
  rw [List.takeWhile_append_of_pos kept, List.dropWhile_append_of_pos kept]
  simp

end Marks

section Escapes

def upperHex (n : Nat) : Char := "0123456789ABCDEF".toList.getD n '0'

def percentByte (byte : UInt8) : List Char :=
  ['%', upperHex (byte.toNat / 16), upperHex (byte.toNat % 16)]

/-- UTF-8 percent-encoding of the characters of a set. -/
def percentEncode (set : Char → Bool) (text : List Char) : List Char :=
  text.flatMap fun c => if set c then (String.utf8EncodeChar c).flatMap percentByte else [c]

def c0ControlSet (c : Char) : Bool := decide (c.toNat ≤ 0x1f) || decide (0x7e < c.toNat)

def fragmentSet (c : Char) : Bool := c0ControlSet c || [' ', '"', '<', '>', '\x60'].contains c

def querySet (special : Bool) (c : Char) : Bool :=
  c0ControlSet c || [' ', '"', '#', '<', '>'].contains c || (special && c == '\x27')

def pathSet (c : Char) : Bool :=
  querySet false c || ['?', '^', '\x60', '\x7b', '\x7d'].contains c

theorem percentEncode_append (set : Char → Bool) (text more : List Char) :
    percentEncode set (text ++ more) = percentEncode set text ++ percentEncode set more :=
  List.flatMap_append

theorem percentEncode_of_unset {set : Char → Bool} {text : List Char}
    (unset : ∀ c ∈ text, set c = false) : percentEncode set text = text := by
  induction text with
  | nil => rfl
  | cons c text ih =>
      have rest := ih fun d mem => unset d (List.mem_cons_of_mem c mem)
      unfold percentEncode at rest ⊢
      rw [List.flatMap_cons, unset c List.mem_cons_self, rest]
      rfl

/-- Encoding loses no text. -/
theorem length_le_percentEncode (set : Char → Bool) (text : List Char) :
    text.length ≤ (percentEncode set text).length := by
  induction text with
  | nil => exact Nat.le_refl 0
  | cons c text ih =>
      have first : 1 ≤ (if set c then (String.utf8EncodeChar c).flatMap percentByte else [c]).length := by
        by_cases escaped : set c = true
        · rw [if_pos escaped]
          cases bytes : String.utf8EncodeChar c with
          | nil => exact absurd bytes String.utf8EncodeChar_ne_nil
          | cons byte bytes =>
              rw [List.flatMap_cons, List.length_append]
              exact Nat.le_add_right_of_le (by decide : 1 ≤ 3)
        · rw [if_neg escaped]
          exact Nat.le_refl 1
      unfold percentEncode at ih ⊢
      rw [List.flatMap_cons, List.length_append, List.length_cons]
      omega

end Escapes

section Parts

def file : List Char := "file".toList

/-- The special schemes other than that of files, with their ports. -/
def defaultPort (scheme : List Char) : Option Nat :=
  [("ftp".toList, 21), ("http".toList, 80), ("https".toList, 443), ("ws".toList, 80),
    ("wss".toList, 443)].lookup scheme

def isSpecial (scheme : List Char) : Bool := scheme == file || (defaultPort scheme).isSome

def isSchemeChar (c : Char) : Bool := c.isAlphanum || ['+', '-', '.'].contains c

/-- The scheme that a text begins with, and what follows its colon. -/
def schemeOf (text : List Char) : Option (List Char × List Char) :=
  match text with
  | [] => none
  | c :: _ =>
      if c.isAlpha then
        match text.dropWhile isSchemeChar with
        | ':' :: rest => some ((text.takeWhile isSchemeChar).map Char.toLower, rest)
        | _ => none
      else none

def isSlash (special : Bool) (c : Char) : Bool := c == '/' || (special && c == '\\')

inductive Path where
  | bare (text : List Char)
  | segments (segments : List (List Char))
  deriving DecidableEq

/-- What a URL is made of before its query. -/
structure Front where
  scheme : List Char
  host : Option (List Char)
  port : Option Nat
  path : Path
  deriving DecidableEq

structure Url extends Front where
  query : Option (List Char)
  fragment : Option (List Char)
  deriving DecidableEq

end Parts

section Paths

def isSingleDot (segment : List Char) : Bool :=
  [".".toList, "%2e".toList].contains (segment.map Char.toLower)

def isDoubleDot (segment : List Char) : Bool :=
  ["..".toList, ".%2e".toList, "%2e.".toList, "%2e%2e".toList].contains (segment.map Char.toLower)

def isDriveLetter : List Char → Bool
  | [letter, colon] => letter.isAlpha && (colon == ':' || colon == '|')
  | _ => false

def isNormalDriveLetter : List Char → Bool
  | [letter, colon] => letter.isAlpha && colon == ':'
  | _ => false

/-- A drive letter at the root of a file's path stays. -/
def shorten (scheme : List Char) (path : List (List Char)) : List (List Char) :=
  if scheme = file ∧ path.length = 1 ∧ path.all isNormalDriveLetter then path else path.dropLast

/-- A segment as it enters the path. -/
def writtenSegment (scheme : List Char) (path : List (List Char)) (segment : List Char) : List Char :=
  if scheme = file ∧ path = [] ∧ isDriveLetter segment then segment.take 1 ++ [':']
  else percentEncode pathSet segment

def pathStep (scheme : List Char) (path : List (List Char)) (segment : List Char) (last : Bool) :
    List (List Char) :=
  if isDoubleDot segment then
    if last then shorten scheme path ++ [[]] else shorten scheme path
  else if isSingleDot segment then
    if last then path ++ [[]] else path
  else path ++ [writtenSegment scheme path segment]

def walk (scheme : List Char) : List (List Char) → List (List Char) → List (List Char)
  | path, [] => path
  | path, [segment] => pathStep scheme path segment true
  | path, segment :: rest => walk scheme (pathStep scheme path segment false) rest

/-- The path after its first slash. -/
def readPath (scheme : List Char) (path : List (List Char)) (text : List Char) : Path :=
  .segments (walk scheme path (text.splitOnP (isSlash (isSpecial scheme))))

/-- The path after an authority. -/
def pathStart (scheme : List Char) : List Char → Path
  | [] => if isSpecial scheme then .segments [[]] else .segments []
  | c :: rest =>
      if isSlash (isSpecial scheme) c then readPath scheme [] rest else readPath scheme [] (c :: rest)

end Paths

section Authorities

/-- The host up to the first colon outside brackets, and what follows that colon. -/
def hostEnd : Bool → List Char → List Char × Option (List Char)
  | _, [] => ([], none)
  | inside, c :: rest =>
      if c = ':' ∧ inside = false then ([], some rest)
      else
        let found := hostEnd (if c = '[' then true else if c = ']' then false else inside) rest
        (c :: found.1, found.2)

/-- A port: nothing at all, or a number in range, which is dropped where it is the default. -/
def readPort (scheme digits : List Char) : Option (Option Nat) :=
  if digits = [] then some none
  else if digits.all Char.isDigit then
    let port := digits.foldl (fun n c => n * 10 + (c.toNat - '0'.toNat)) 0
    if 65535 < port then none
    else some (if defaultPort scheme = some port then none else some port)
  else none

/-- What follows the last at sign. -/
def afterCredentials (authority : List Char) : List Char :=
  (authority.reverse.takeWhile (· != '@')).reverse

/-- How hosts are read, those of special schemes and the opaque ones of the others. -/
abbrev Hosts := Bool → List Char → Option (List Char)

variable (hosts : Hosts)

def readAuthority (scheme authority : List Char) : Option (List Char × Option Nat) :=
  let hostPort := afterCredentials authority
  let (host, port) := hostEnd false hostPort
  if authority.contains '@' ∧ hostPort = [] then none
  else if host = [] ∧ (isSpecial scheme ∨ port.isSome) then none
  else
    match hosts (isSpecial scheme) host, port.elim (some none) (readPort scheme) with
    | some host, some port => some (host, port)
    | _, _ => none

def afterSlashes (scheme text : List Char) : Option Front :=
  let slash := isSlash (isSpecial scheme)
  (readAuthority hosts scheme (text.takeWhile fun c => !slash c)).map fun (host, port) =>
    ⟨scheme, some host, port, pathStart scheme (text.dropWhile fun c => !slash c)⟩

/-- The text of a file URL after its scheme. -/
def readFile (text : List Char) : Option Front :=
  match text with
  | c :: d :: rest =>
      if isSlash true c ∧ isSlash true d then
        let host := rest.takeWhile fun c => !isSlash true c
        let left := rest.dropWhile fun c => !isSlash true c
        -- a drive letter in the place of a host belongs to the path
        if isDriveLetter host then some ⟨file, some [], none, readPath file [] rest⟩
        else if host = [] then some ⟨file, some [], none, pathStart file left⟩
        else
          (hosts true host).map fun host =>
            ⟨file, some (if host = "localhost".toList then [] else host), none, pathStart file left⟩
      else if isSlash true c then some ⟨file, some [], none, readPath file [] (d :: rest)⟩
      else some ⟨file, some [], none, readPath file [] text⟩
  | [c] => some ⟨file, some [], none, readPath file [] (if isSlash true c then [] else [c])⟩
  | [] => some ⟨file, some [], none, readPath file [] []⟩

def baseSegments (base : Front) : List (List Char) :=
  match base.path with
  | .bare _ => []
  | .segments segments => segments

/-- A text without a scheme, or with that of the base and without two slashes. -/
def readRelative (base : Front) (text : List Char) : Option Front :=
  let slash := isSlash (isSpecial base.scheme)
  match text with
  | [] => some base
  | [c] =>
      if slash c then some { base with path := readPath base.scheme [] [] }
      else some { base with path := readPath base.scheme (shorten base.scheme (baseSegments base)) [c] }
  | c :: d :: rest =>
      if slash c then
        if slash d then
          afterSlashes hosts base.scheme
            (if isSpecial base.scheme then rest.dropWhile (isSlash true) else rest)
        else some { base with path := readPath base.scheme [] (d :: rest) }
      else
        some { base with path := readPath base.scheme (shorten base.scheme (baseSegments base)) text }

def twoSlashes : List Char → Option (List Char)
  | '/' :: '/' :: rest => some rest
  | _ => none

/-- The text after a scheme. -/
def readSchemed (base : Option Front) (scheme rest : List Char) : Option Front :=
  if scheme = file then readFile hosts rest
  else if isSpecial scheme then
    match base.filter fun base => base.scheme = scheme ∧ (twoSlashes rest).isNone with
    | some base => readRelative hosts base rest
    | none => afterSlashes hosts scheme (rest.dropWhile (isSlash true))
  else
    match twoSlashes rest with
    | some rest => afterSlashes hosts scheme rest
    | none =>
        match rest with
        | '/' :: rest => some ⟨scheme, none, none, readPath scheme [] rest⟩
        | _ => some ⟨scheme, none, none, .bare (percentEncode c0ControlSet rest)⟩

def readFront (base : Option Front) (text : List Char) : Option Front :=
  match schemeOf text with
  | some (scheme, rest) => readSchemed hosts base scheme rest
  | none => base.bind fun base => readRelative hosts base text

/-- There is nothing relative to the base in the text. -/
def restsOnBase (base : Url) (text : List Char) : Bool :=
  match schemeOf text with
  | none => text == []
  | some (scheme, rest) => rest == [] && scheme == base.scheme && isSpecial scheme

def readQuery (base : Option Url) (front : Front) (text : List Char) (query : Option (List Char)) :
    Option (List Char) :=
  match query with
  | some query => some (percentEncode (querySet (isSpecial front.scheme)) query)
  | none => (base.filter fun base => restsOnBase base text).bind Url.query

def parse (base : Option Url) (input : List Char) : Option Url :=
  let (body, fragment) := cutAt '#' (clean input)
  let (text, query) := cutAt '?' body
  (readFront hosts (base.map Url.toFront) text).map fun front =>
    { front with
      query := readQuery base front text query
      fragment := fragment.map (percentEncode fragmentSet) }

section Reading

variable {hosts : Hosts} {base : Option Url} {input text : List Char}

theorem parse_unqueried (cleaned : clean input = text) (noFragment : '#' ∉ text)
    (noQuery : '?' ∉ text) : parse hosts base input =
      (readFront hosts (base.map Url.toFront) text).map fun front =>
        { front with query := readQuery base front text none, fragment := none } := by
  unfold parse
  rw [cleaned, cutAt_of_notMem noFragment]
  dsimp only
  rw [cutAt_of_notMem noQuery]
  rfl

theorem parse_queried {query : List Char} (cleaned : clean input = text ++ '?' :: query)
    (noFragment : '#' ∉ text ++ '?' :: query) (noQuery : '?' ∉ text) : parse hosts base input =
      (readFront hosts (base.map Url.toFront) text).map fun front =>
        { front with
          query := some (percentEncode (querySet (isSpecial front.scheme)) query)
          fragment := none } := by
  unfold parse
  rw [cleaned, cutAt_of_notMem noFragment]
  dsimp only
  rw [cutAt_append noQuery]
  rfl

/-- The fragment is all that follows the first number sign. -/
theorem parse_fragment {front rest : List Char} (cleaned : clean input = front ++ '#' :: rest)
    (noFragment : '#' ∉ front) {url : Url} (parsed : parse hosts base input = some url) :
    url.fragment = some (percentEncode fragmentSet rest) := by
  unfold parse at parsed
  rw [cleaned, cutAt_append noFragment] at parsed
  dsimp only at parsed
  obtain ⟨read, -, rfl⟩ := Option.map_eq_some_iff.mp parsed
  rfl

theorem schemeOf_slash (rest : List Char) : schemeOf ('/' :: rest) = none := rfl

/-- One slash keeps the authority of the base. -/
theorem readFront_path {base : Front} {rest : List Char}
    (single : ∀ c ∈ rest.head?, isSlash (isSpecial base.scheme) c = false) : ∃ path,
      readFront hosts (some base) ('/' :: rest) = some { base with path := path } := by
  have slash : isSlash (isSpecial base.scheme) '/' = true := rfl
  unfold readFront
  rw [schemeOf_slash]
  cases rest with
  | nil =>
      refine ⟨readPath base.scheme [] [], ?_⟩
      simp only [Option.bind_some, readRelative, slash, if_true]
  | cons c rest =>
      refine ⟨readPath base.scheme [] (c :: rest), ?_⟩
      have other := single c rfl
      simp only [Option.bind_some, readRelative, slash, if_true, other, Bool.false_eq_true, if_false]

theorem readRelative_cases {base : Front} (web : isSpecial base.scheme = true) (text : List Char) :
    readRelative hosts base text =
        afterSlashes hosts base.scheme (text.dropWhile (isSlash true)) ∨
      ∃ path, readRelative hosts base text = some { base with path := path } := by
  match text with
  | [] => exact .inr ⟨base.path, rfl⟩
  | [c] =>
      by_cases slash : isSlash true c = true
      · exact .inr ⟨_, by simp only [readRelative, web, slash, if_true]; rfl⟩
      · exact .inr ⟨_, by simp only [readRelative, web, slash, if_false]; rfl⟩
  | c :: d :: rest =>
      by_cases slash : isSlash true c = true
      · by_cases second : isSlash true d = true
        · refine .inl ?_
          simp only [readRelative, web, slash, second, if_true, List.dropWhile_cons]
        · exact .inr ⟨_, by simp only [readRelative, web, slash, second, if_true, if_false]; rfl⟩
      · exact .inr ⟨_, by simp only [readRelative, web, slash, if_false]; rfl⟩

/-- A text with a scheme keeps the authority of the base or has its own whatever the base. -/
theorem readSchemed_base {base : Front} (web : isSpecial base.scheme = true) (scheme rest : List Char) :
    readSchemed hosts (some base) scheme rest = readSchemed hosts none scheme rest ∨
      ∃ path, readSchemed hosts (some base) scheme rest = some { base with path := path } := by
  unfold readSchemed
  by_cases ofFile : scheme = file
  · exact .inl (by rw [if_pos ofFile, if_pos ofFile])
  rw [if_neg ofFile, if_neg ofFile]
  by_cases special : isSpecial scheme = true
  · rw [if_pos special, if_pos special]
    by_cases relative : base.scheme = scheme ∧ (twoSlashes rest).isNone = true
    · have kept : (some base).filter (fun base => decide (base.scheme = scheme ∧
          (twoSlashes rest).isNone = true)) = some base := by
        simp only [Option.filter, relative, and_self, decide_true, if_true]
      rw [kept]
      obtain ⟨same, -⟩ := relative
      subst same
      exact readRelative_cases web rest
    · have dropped : (some base).filter (fun base => decide (base.scheme = scheme ∧
          (twoSlashes rest).isNone = true)) = none := by
        simp only [Option.filter, relative, decide_false, Bool.false_eq_true, if_false]
      exact .inl (by rw [dropped]; rfl)
  · exact .inl (by rw [if_neg special, if_neg special])

/-- What is read without a base has a scheme. -/
theorem readFront_base {base front : Front} (web : isSpecial base.scheme = true) {text : List Char}
    (absolute : readFront hosts none text = some front) :
    readFront hosts (some base) text = some front ∨
      ∃ path, readFront hosts (some base) text = some { base with path := path } := by
  unfold readFront at absolute ⊢
  cases schemed : schemeOf text with
  | none =>
      rw [schemed] at absolute
      cases absolute
  | some found =>
      rw [schemed] at absolute
      have absolute : readSchemed hosts none found.1 found.2 = some front := absolute
      have kept := @readSchemed_base hosts base web found.1 found.2
      rwa [absolute] at kept

/-- A query that is appended leaves the text before it as it was begun. -/
theorem parse_append_query (started : input.dropWhile isC0OrSpace ≠ []) (noFragment : '#' ∉ input)
    (noQuery : '?' ∉ input) {query : List Char} (solid : ∀ c ∈ query, isC0OrSpace c = false)
    (unmarked : '#' ∉ query) : parse hosts base (input ++ '?' :: query) =
      (readFront hosts (base.map Url.toFront) (begun input)).map fun front =>
        { front with
          query := some (percentEncode (querySet (isSpecial front.scheme)) query)
          fragment := none } := by
  have cleaned : clean (input ++ '?' :: query) = begun input ++ '?' :: query := by
    refine clean_append started (List.cons_ne_nil _ _) fun c mem => ?_
    rcases List.mem_cons.mp mem with rfl | mem
    · rfl
    · exact solid c mem
  refine parse_queried cleaned (fun mem => ?_) fun mem => noQuery (mem_of_mem_begun mem)
  rcases List.mem_append.mp mem with mem | mem
  · exact noFragment (mem_of_mem_begun mem)
  · rcases List.mem_cons.mp mem with mark | mem
    · exact absurd mark (by decide)
    · exact unmarked mem

/-- What is appended to a query belongs to the query. -/
theorem parse_append {query more : List Char} (started : input.dropWhile isC0OrSpace ≠ [])
    (noFragment : '#' ∉ input) (queried : begun input = text ++ '?' :: query) (noQuery : '?' ∉ text)
    (inhabited : more ≠ []) (solid : ∀ c ∈ more, isC0OrSpace c = false) (unmarked : '#' ∉ more) :
    parse hosts base (input ++ more) =
      (readFront hosts (base.map Url.toFront) text).map fun front =>
        { front with
          query := some (percentEncode (querySet (isSpecial front.scheme)) (query ++ more))
          fragment := none } := by
  have cleaned : clean (input ++ more) = text ++ '?' :: (query ++ more) := by
    rw [clean_append started inhabited solid, queried, List.append_assoc, List.cons_append]
  refine parse_queried cleaned (fun mem => ?_) noQuery
  rw [← List.cons_append, ← List.append_assoc, ← queried] at mem
  rcases List.mem_append.mp mem with mem | mem
  · exact noFragment (mem_of_mem_begun mem)
  · exact unmarked mem

end Reading

end Authorities

end Whatwg

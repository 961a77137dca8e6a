import Mathlib
import SP42.Session.Login

/-!
Where a browser lands after a login: the location that the server answers, resolved against
the origin of the API, beside the target that the login named.
-/
namespace SP42.Session

open FormEncoding (formPairs PlainName)
open Whatwg (Hosts Url Front)

/-- The origin that the API is served from. -/
structure ApiOrigin where
  scheme : Text
  host : Text
  port : Option Nat
  web : scheme = "http".toList ∨ scheme = "https".toList
  named : host ≠ []

def ApiOrigin.front (api : ApiOrigin) : Front := ⟨api.scheme, some api.host, api.port, .segments [[]]⟩

def ApiOrigin.url (api : ApiOrigin) : Url where
  toFront := api.front
  query := none
  fragment := none

section Landing

variable (hosts : Hosts) (api : ApiOrigin) (allowedOrigins : List HeaderValue)

def resolve (text : Text) : Option Url := Whatwg.parse hosts (some api.url) text

/-- The origin of the URL is that of the API or one of the allowed ones. -/
def OriginKept (url : Url) : Prop :=
  originOfUrl url = originOfUrl api.url ∨ originIsAllowed hosts url allowedOrigins = true

def queryPairs (url : Url) : List (String × Text) := formPairs (url.query.getD [])

/-- The browser stays with us, finds the outcome in the query, and all else of the target as it was. -/
def LandsSafely (target key value : Text) : Prop :=
  ∃ before after, resolve hosts api target = some before ∧
    resolve hosts api (redirectWithStatus target key value) = some after ∧
    OriginKept hosts api allowedOrigins after ∧ after.path = before.path ∧
    after.fragment = before.fragment ∧
    (queryPairs after).Perm ((String.ofList key, value) :: queryPairs before)

/-- A second slash, as a browser reads it, right after the first. -/
def TwoSlashed (target : Text) : Prop :=
  ∃ c rest, Whatwg.begun target = '/' :: c :: rest ∧ Whatwg.isSlash true c = true

/-- The target ends in a control character, which a browser strips from the end of a URL only. -/
def EndsInControl (target : Text) : Prop := ∃ c ∈ target.getLast?, Whatwg.isC0OrSpace c = true

/-- A target without a fragment, from whose end nothing of the path or the query is stripped, and
which, where two slashes or a control character could lead elsewhere, still leads to us. -/
structure Harmless (target : Text) : Prop where
  unmarked : '#' ∉ target
  settled : EndsInControl target → '?' ∉ target ∧ ∃ before kept,
    resolve hosts api target = some before ∧ resolve hosts api (target ++ ['?']) = some kept ∧
      kept.path = before.path
  ours : TwoSlashed target ∨ EndsInControl target → ∃ kept,
    resolve hosts api (target ++ ['?']) = some kept ∧ OriginKept hosts api allowedOrigins kept

end Landing

section Targets

variable {hosts : Hosts} {api : ApiOrigin} {allowedOrigins : List HeaderValue}

theorem special_api (api : ApiOrigin) : Whatwg.isSpecial api.front.scheme = true := by
  unfold ApiOrigin.front
  rcases api.web with web | web <;> rw [web] <;> rfl

theorem originOfUrl_congr {url other : Url} (same : url.toFront = other.toFront) :
    originOfUrl url = originOfUrl other := by
  unfold originOfUrl hostStr
  rw [same]

theorem originKept_congr {url other : Url} (same : url.toFront = other.toFront) :
    OriginKept hosts api allowedOrigins url ↔ OriginKept hosts api allowedOrigins other := by
  unfold OriginKept originIsAllowed
  rw [originOfUrl_congr same]

theorem originKept_of_base {url : Url} {path : Whatwg.Path}
    (based : url.toFront = { api.front with path := path }) :
    OriginKept hosts api allowedOrigins url := by
  refine .inl ?_
  unfold originOfUrl hostStr
  rw [based]
  rfl

/-- A target is a path whose second character is no slash, or a URL of an allowed origin. -/
theorem sanitized_cases (next : Option Text) (allowedOrigins : List HeaderValue) :
    (∃ rest, sanitizeRedirectTarget hosts next allowedOrigins = '/' :: rest ∧
      rest.head? ≠ some '/') ∨
    ∃ url, Whatwg.parse hosts none (sanitizeRedirectTarget hosts next allowedOrigins) = some url ∧
      originIsAllowed hosts url allowedOrigins = true := by
  unfold sanitizeRedirectTarget
  cases given : (next.map Text.trim).filter (· ≠ []) with
  | none => exact .inl ⟨[], rfl, by simp⟩
  | some target =>
      dsimp only
      split_ifs with relative absolute
      · obtain ⟨first, single⟩ := relative
        cases target with
        | nil => cases first
        | cons c rest =>
            cases first
            refine .inl ⟨rest, rfl, fun second => single ?_⟩
            cases rest with
            | nil => cases second
            | cons d rest =>
                cases second
                exact ⟨rest, rfl⟩
      · obtain ⟨url, parsed, allowed⟩ := Option.any_eq_true _ _ |>.mp absolute
        exact .inr ⟨url, parsed, allowed⟩
      · exact .inl ⟨[], rfl, by simp⟩

theorem sanitized_last (next : Option Text) (allowedOrigins : List HeaderValue) :
    ∀ c ∈ (sanitizeRedirectTarget hosts next allowedOrigins).getLast?, Text.isWhitespace c = false := by
  have root : ∀ c ∈ (['/'] : Text).getLast?, Text.isWhitespace c = false := by
    rintro c ⟨⟩
    rfl
  unfold sanitizeRedirectTarget
  cases given : (next.map Text.trim).filter (· ≠ []) with
  | none => exact root
  | some target =>
      have trimmed : ∀ c ∈ target.getLast?, Text.isWhitespace c = false := by
        obtain ⟨held, inhabited⟩ := Option.filter_eq_some_iff.mp given
        obtain ⟨text, -, rfl⟩ := Option.map_eq_some_iff.mp held
        intro c last
        have inhabited : Text.trim text ≠ [] := by simpa using inhabited
        have solid := List.rdropWhile_last_not Text.isWhitespace (Text.trimStart text) inhabited
        rw [List.getLast?_eq_some_getLast inhabited, Option.mem_some] at last
        subst last
        exact Bool.eq_false_iff.mpr solid
      dsimp only
      split_ifs with relative absolute
      · exact trimmed
      · exact trimmed
      · exact root

theorem sanitized_started (next : Option Text) (allowedOrigins : List HeaderValue) :
    (sanitizeRedirectTarget hosts next allowedOrigins).dropWhile Whatwg.isC0OrSpace ≠ [] := by
  rcases @sanitized_cases hosts next allowedOrigins with ⟨rest, path, -⟩ | ⟨url, parsed, -⟩
  · rw [path]
    exact List.cons_ne_nil _ _
  · intro blank
    unfold Whatwg.parse Whatwg.clean at parsed
    rw [blank] at parsed
    cases parsed

end Targets

section Locations

variable {hosts : Hosts} {api : ApiOrigin} {allowedOrigins : List HeaderValue}
  {target key value text query : Text}

/-- The outcome as it is appended. -/
def outcome (key value : Text) : Text := key ++ '=' :: FormEncoding.byteSerialize value

theorem outcome_passes (plain : PlainName key) {c : Char} (mem : c ∈ outcome key value)
    (special : Bool) :
    Whatwg.isC0OrSpace c = false ∧ Whatwg.querySet special c = false ∧ c ≠ '#' := by
  rcases List.mem_append.mp mem with name | rest
  · exact FormEncoding.written_passes (FormEncoding.isWritten_of_plain (plain c name)) special
  · rcases List.mem_cons.mp rest with rfl | written
    · cases special <;> decide
    · exact FormEncoding.written_passes (FormEncoding.written_byteSerialize written) special

theorem encoded_outcome (plain : PlainName key) (special : Bool) :
    Whatwg.percentEncode (Whatwg.querySet special) (outcome key value) = outcome key value :=
  Whatwg.percentEncode_of_unset fun _ mem => (outcome_passes plain mem special).2.1

theorem location_unqueried (plain : PlainName key)
    (started : target.dropWhile Whatwg.isC0OrSpace ≠ []) (unmarked : '#' ∉ target)
    (unqueried : '?' ∉ target) : resolve hosts api (redirectWithStatus target key value) =
      (Whatwg.readFront hosts (some api.front) (Whatwg.begun target)).map fun front =>
        { front with query := some (outcome key value), fragment := none } := by
  have sign : List.contains target '?' = false := by simpa using unqueried
  have location : redirectWithStatus target key value = target ++ '?' :: outcome key value := by
    unfold redirectWithStatus
    rw [sign]
    rfl
  unfold resolve
  rw [location, Whatwg.parse_append_query started unmarked unqueried
    (fun c mem => (outcome_passes plain mem true).1) fun mem => (outcome_passes plain mem true).2.2 rfl]
  simp only [encoded_outcome plain]
  rfl

theorem location_queried (plain : PlainName key)
    (started : target.dropWhile Whatwg.isC0OrSpace ≠ []) (unmarked : '#' ∉ target)
    (queried : Whatwg.begun target = text ++ '?' :: query) (first : '?' ∉ text) :
    resolve hosts api (redirectWithStatus target key value) =
      (Whatwg.readFront hosts (some api.front) text).map fun front =>
        { front with
          query := some (Whatwg.percentEncode (Whatwg.querySet (Whatwg.isSpecial front.scheme)) query ++
            '&' :: outcome key value)
          fragment := none } := by
  have inside : '?' ∈ target := Whatwg.mem_of_mem_begun (queried ▸ by simp)
  have sign : List.contains target '?' = true := by simpa using inside
  have location : redirectWithStatus target key value = target ++ '&' :: outcome key value := by
    unfold redirectWithStatus
    rw [sign]
    rfl
  unfold resolve
  rw [location, Whatwg.parse_append started unmarked queried first (List.cons_ne_nil _ _)]
  · have encoded (special : Bool) : Whatwg.percentEncode (Whatwg.querySet special)
        ('&' :: outcome key value) = '&' :: outcome key value := by
      refine Whatwg.percentEncode_of_unset fun c mem => ?_
      rcases List.mem_cons.mp mem with rfl | mem
      · cases special <;> decide
      · exact (outcome_passes plain mem special).2.1
    simp only [Whatwg.percentEncode_append, encoded]
    rfl
  · intro c mem
    rcases List.mem_cons.mp mem with rfl | mem
    · rfl
    · exact (outcome_passes plain mem true).1
  · intro mem
    rcases List.mem_cons.mp mem with sign | mem
    · exact absurd sign (by decide)
    · exact (outcome_passes plain mem true).2.2 rfl

theorem asked_unqueried (started : target.dropWhile Whatwg.isC0OrSpace ≠ []) (unmarked : '#' ∉ target)
    (unqueried : '?' ∉ target) : resolve hosts api (target ++ ['?']) =
      (Whatwg.readFront hosts (some api.front) (Whatwg.begun target)).map fun front =>
        { front with query := some [], fragment := none } :=
  Whatwg.parse_append_query started unmarked unqueried (fun _ mem => nomatch mem) List.not_mem_nil

theorem asked_queried (started : target.dropWhile Whatwg.isC0OrSpace ≠ []) (unmarked : '#' ∉ target)
    (queried : Whatwg.begun target = text ++ '?' :: query) (first : '?' ∉ text) :
    resolve hosts api (target ++ ['?']) =
      (Whatwg.readFront hosts (some api.front) text).map fun front =>
        { front with
          query := some (Whatwg.percentEncode (Whatwg.querySet (Whatwg.isSpecial front.scheme))
            (query ++ ['?']))
          fragment := none } :=
  Whatwg.parse_append started unmarked queried first (List.cons_ne_nil _ _)
    (fun c mem => List.mem_singleton.mp mem ▸ rfl) (by decide)

theorem target_unqueried (unmarked : '#' ∉ target) (unqueried : '?' ∉ target) :
    resolve hosts api target =
      (Whatwg.readFront hosts (some api.front) (Whatwg.clean target)).map fun front =>
        { front with query := none, fragment := none } := by
  unfold resolve
  rw [Whatwg.parse_unqueried rfl (fun mem => unmarked (Whatwg.mem_of_mem_clean mem))
    fun mem => unqueried (Whatwg.mem_of_mem_clean mem)]
  have query (front : Front) (text : Text) : Whatwg.readQuery (some api.url) front text none = none := by
    simp only [Whatwg.readQuery, Option.filter]
    split_ifs <;> rfl
  simp only [query]
  rfl

theorem target_queried (unmarked : '#' ∉ target) (queried : Whatwg.clean target = text ++ '?' :: query)
    (first : '?' ∉ text) : resolve hosts api target =
      (Whatwg.readFront hosts (some api.front) text).map fun front =>
        { front with
          query := some (Whatwg.percentEncode (Whatwg.querySet (Whatwg.isSpecial front.scheme)) query)
          fragment := none } :=
  Whatwg.parse_queried queried (fun mem => unmarked (Whatwg.mem_of_mem_clean (queried ▸ mem))) first

/-- The query of a target, found where the target is read. -/
theorem exists_query (queried : '?' ∈ target) : ∃ text query,
    Whatwg.clean target = text ++ '?' :: query ∧ '?' ∉ text :=
  List.eq_append_cons_of_mem (Whatwg.mem_clean rfl queried)

theorem perm_appended (pairs : List (String × Text)) (pair : String × Text) :
    (pairs ++ [pair]).Perm (pair :: pairs) := List.perm_append_comm

/-- Of a target from whose end nothing is stripped all depends on where it leads. -/
theorem landsSafely_iff (plain : PlainName key) (started : target.dropWhile Whatwg.isC0OrSpace ≠ [])
    (unmarked : '#' ∉ target) (ended : ¬ EndsInControl target) :
    LandsSafely hosts api allowedOrigins target key value ↔ ∃ kept,
      resolve hosts api (target ++ ['?']) = some kept ∧ OriginKept hosts api allowedOrigins kept := by
  have same : Whatwg.clean target = Whatwg.begun target :=
    Whatwg.clean_eq_begun fun c last => Bool.eq_false_iff.mpr fun control => ended ⟨c, last, control⟩
  unfold LandsSafely
  by_cases queried : '?' ∈ target
  · obtain ⟨text, query, cleaned, first⟩ := exists_query queried
    have begun := same ▸ cleaned
    rw [location_queried plain started unmarked begun first, asked_queried started unmarked begun first,
      target_queried unmarked cleaned first]
    cases Whatwg.readFront hosts (some api.front) text with
    | none => simp
    | some front =>
        constructor
        · rintro ⟨_, _, ⟨⟩, ⟨⟩, kept, -⟩
          exact ⟨_, rfl, (originKept_congr rfl).mp kept⟩
        rintro ⟨_, ⟨⟩, kept⟩
        refine ⟨_, _, rfl, rfl, (originKept_congr rfl).mp kept, rfl, rfl, ?_⟩
        unfold queryPairs
        simp only [Option.getD_some, FormEncoding.formPairs_append, outcome,
          FormEncoding.formPairs_written plain]
        exact perm_appended _ _
  · rw [location_unqueried plain started unmarked queried, asked_unqueried started unmarked queried,
      target_unqueried unmarked queried, same]
    cases Whatwg.readFront hosts (some api.front) (Whatwg.begun target) with
    | none => simp
    | some front =>
        constructor
        · rintro ⟨_, _, ⟨⟩, ⟨⟩, kept, -⟩
          exact ⟨_, rfl, (originKept_congr rfl).mp kept⟩
        rintro ⟨_, ⟨⟩, kept⟩
        refine ⟨_, _, rfl, rfl, (originKept_congr rfl).mp kept, rfl, rfl, ?_⟩
        unfold queryPairs
        simp only [Option.getD_some, Option.getD_none, outcome, FormEncoding.formPairs_written plain]
        exact .refl _

/-- Control characters are escaped in a query, one byte each. -/
theorem encoded_control {text : Text} (special : Bool)
    (control : ∀ c ∈ text, Whatwg.isC0OrSpace c = true) :
    Whatwg.percentEncode (Whatwg.querySet special) text =
      (text.map fun c => UInt8.ofNat c.toNat).flatMap Whatwg.percentByte := by
  induction text with
  | nil => rfl
  | cons c text ih =>
      have small : c.toNat ≤ 0x20 := of_decide_eq_true (control c List.mem_cons_self)
      have rest := ih fun d mem => control d (List.mem_cons_of_mem c mem)
      have set : Whatwg.querySet special c = true := by
        by_cases blank : c.toNat = 0x20
        · have same : c = ' ' := Char.toNat_inj.mp blank
          subst same
          rfl
        · have low : c.toNat ≤ 0x1f := by omega
          simp only [Whatwg.querySet, Whatwg.c0ControlSet, low, decide_true, Bool.true_or]
      have byte : String.utf8EncodeChar c = [UInt8.ofNat c.toNat] := by
        have ascii : c.val.toNat ≤ 0x7f := Nat.le_trans small (by decide)
        simp only [String.utf8EncodeChar, ascii, if_true]
        rfl
      unfold Whatwg.percentEncode at rest ⊢
      rw [List.flatMap_cons, if_pos set, byte, rest]
      rfl

/-- A query from whose end something is stripped holds more once the outcome is appended. -/
theorem not_safe_of_stripped (plain : PlainName key)
    (started : target.dropWhile Whatwg.isC0OrSpace ≠ []) (unmarked : '#' ∉ target)
    (queried : '?' ∈ target) (stripped : Whatwg.stripped target ≠ []) :
    ¬ LandsSafely hosts api allowedOrigins target key value := by
  obtain ⟨text, query, cleaned, first⟩ := exists_query queried
  have begun : Whatwg.begun target = text ++ '?' :: (query ++ Whatwg.stripped target) := by
    rw [Whatwg.begun_eq, cleaned, List.append_assoc, List.cons_append]
  unfold LandsSafely
  rw [location_queried plain started unmarked begun first, target_queried unmarked cleaned first]
  cases Whatwg.readFront hosts (some api.front) text with
  | none => simp
  | some front =>
      rintro ⟨_, _, ⟨⟩, ⟨⟩, -, -, -, pairs⟩
      have weights := FormEncoding.weight_perm (pairs.trans (perm_appended _ _).symm)
      have control : ∀ c ∈ Whatwg.stripped target, Whatwg.isC0OrSpace c = true :=
        fun c mem => (Whatwg.stripped_control mem).1
      have more : FormEncoding.weight (formPairs
            (Whatwg.percentEncode (Whatwg.querySet (Whatwg.isSpecial front.scheme)) query)) <
          FormEncoding.weight (formPairs (Whatwg.percentEncode
            (Whatwg.querySet (Whatwg.isSpecial front.scheme)) (query ++ Whatwg.stripped target))) := by
        rw [Whatwg.percentEncode_append, encoded_control _ control]
        refine FormEncoding.weight_escapes ?_ (by simpa using stripped) _
        intro byte mem
        obtain ⟨c, inside, rfl⟩ := List.mem_map.mp mem
        have small : c.toNat ≤ 0x20 := of_decide_eq_true (control c inside)
        rw [UInt8.toNat_ofNat']
        omega
      unfold queryPairs at weights
      simp only [Option.getD_some, FormEncoding.formPairs_append, outcome,
        FormEncoding.formPairs_written plain, FormEncoding.weight_append] at weights
      omega

/-- The outcome lands in the fragment where the target has one. -/
theorem not_safe_of_fragment (plain : PlainName key)
    (started : target.dropWhile Whatwg.isC0OrSpace ≠ []) (marked : '#' ∈ target) :
    ¬ LandsSafely hosts api allowedOrigins target key value := by
  rintro ⟨before, after, read, located, -, -, fragments, -⟩
  obtain ⟨front, rest, cleaned, first⟩ := List.eq_append_cons_of_mem (Whatwg.mem_clean rfl marked)
  have location : Whatwg.clean (redirectWithStatus target key value) =
      front ++ '#' :: (rest ++ (Whatwg.stripped target ++
        (if List.contains target '?' then '&' else '?') :: outcome key value)) := by
    have solid : ∀ c ∈ (if List.contains target '?' then '&' else '?') :: outcome key value,
        Whatwg.isC0OrSpace c = false := by
      intro c mem
      rcases List.mem_cons.mp mem with rfl | mem
      · split_ifs <;> rfl
      · exact (outcome_passes plain mem true).1
    have appended := Whatwg.clean_append started (List.cons_ne_nil _ _) solid
    rw [Whatwg.begun_eq, cleaned, List.append_assoc, List.append_assoc, List.cons_append] at appended
    exact appended
  have short := Whatwg.parse_fragment cleaned first read
  have long := Whatwg.parse_fragment location first located
  rw [short, long, Option.some_inj, Whatwg.percentEncode_append, Whatwg.percentEncode_append] at fragments
  have lengths := congrArg List.length fragments
  have added := Whatwg.length_le_percentEncode Whatwg.fragmentSet
    ((if List.contains target '?' then '&' else '?') :: outcome key value)
  simp only [List.length_append, List.length_cons] at lengths added
  omega

/-- Where a control character is stripped from the end, two readings of the target are compared. -/
theorem landsSafely_control_iff (plain : PlainName key)
    (started : target.dropWhile Whatwg.isC0OrSpace ≠ []) (unmarked : '#' ∉ target)
    (unqueried : '?' ∉ target) :
    LandsSafely hosts api allowedOrigins target key value ↔
      (∃ before kept, resolve hosts api target = some before ∧
        resolve hosts api (target ++ ['?']) = some kept ∧ kept.path = before.path) ∧
      ∃ kept, resolve hosts api (target ++ ['?']) = some kept ∧
        OriginKept hosts api allowedOrigins kept := by
  unfold LandsSafely
  rw [location_unqueried plain started unmarked unqueried, asked_unqueried started unmarked unqueried,
    target_unqueried unmarked unqueried]
  cases Whatwg.readFront hosts (some api.front) (Whatwg.begun target) with
  | none => simp
  | some front =>
      constructor
      · rintro ⟨before, _, read, ⟨⟩, kept, path, -⟩
        exact ⟨⟨before, _, read, rfl, path⟩, _, rfl, (originKept_congr rfl).mp kept⟩
      · rintro ⟨⟨before, _, read, ⟨⟩, path⟩, _, ⟨⟩, kept⟩
        refine ⟨before, _, read, rfl, (originKept_congr rfl).mp kept, path, ?_, ?_⟩
        · obtain ⟨_, -, rfl⟩ := Option.map_eq_some_iff.mp read
          rfl
        · obtain ⟨_, -, rfl⟩ := Option.map_eq_some_iff.mp read
          unfold queryPairs
          simp only [Option.getD_some, Option.getD_none, outcome, FormEncoding.formPairs_written plain]
          exact .refl _

end Locations

section Safety

variable {hosts : Hosts} {api : ApiOrigin} {key : Text}

/-- What a target begins with, as a browser reads it, up to the query. -/
def beginning (target : Text) : Text := (Whatwg.cutAt '?' (Whatwg.begun target)).1

theorem beginning_cases (target : Text) :
    ('?' ∉ Whatwg.begun target ∧ beginning target = Whatwg.begun target) ∨
      ∃ query, Whatwg.begun target = beginning target ++ '?' :: query ∧ '?' ∉ beginning target := by
  unfold beginning
  by_cases queried : '?' ∈ Whatwg.begun target
  · obtain ⟨text, query, begun, first⟩ := List.eq_append_cons_of_mem queried
    rw [begun, Whatwg.cutAt_append first]
    exact .inr ⟨query, rfl, first⟩
  · rw [Whatwg.cutAt_of_notMem queried]
    exact .inl ⟨queried, rfl⟩

variable {next : Option Text} {allowedOrigins : List HeaderValue} {target : Text}

/-- Whatever a target is resolved against, with a question mark or without, its beginning decides. -/
theorem asked_front (started : target.dropWhile Whatwg.isC0OrSpace ≠ []) (unmarked : '#' ∉ target)
    {front : Front} (read : Whatwg.readFront hosts (some api.front) (beginning target) = some front) :
    ∃ kept, resolve hosts api (target ++ ['?']) = some kept ∧ kept.toFront = front := by
  rcases beginning_cases target with ⟨unqueried, whole⟩ | ⟨query, queried, first⟩
  · have unqueried : '?' ∉ target := fun mem => unqueried <| by
      rw [Whatwg.begun_eq]
      exact List.mem_append_left _ (Whatwg.mem_clean rfl mem)
    rw [asked_unqueried started unmarked unqueried, ← whole, read]
    exact ⟨_, rfl, rfl⟩
  · rw [asked_queried started unmarked queried first, read]
    exact ⟨_, rfl, rfl⟩

theorem parsed_front (unmarked : '#' ∉ target) (ended : ¬ EndsInControl target) {url : Url}
    (parsed : Whatwg.parse hosts none target = some url) :
    Whatwg.readFront hosts none (beginning target) = some url.toFront := by
  have same : Whatwg.clean target = Whatwg.begun target :=
    Whatwg.clean_eq_begun fun c last => Bool.eq_false_iff.mpr fun control => ended ⟨c, last, control⟩
  have noFragment : '#' ∉ Whatwg.begun target := fun mem => unmarked (Whatwg.mem_of_mem_begun mem)
  rcases beginning_cases target with ⟨unqueried, whole⟩ | ⟨query, queried, first⟩
  · rw [Whatwg.parse_unqueried same noFragment unqueried] at parsed
    obtain ⟨front, read, rfl⟩ := Option.map_eq_some_iff.mp parsed
    rw [whole]
    exact read
  · rw [Whatwg.parse_queried (same.trans queried) (queried ▸ noFragment) first] at parsed
    obtain ⟨front, read, rfl⟩ := Option.map_eq_some_iff.mp parsed
    exact read

/-- Without a second slash, and with nothing stripped, a target that was let through leads to us. -/
theorem ours_of_sanitized (sanitized : sanitizeRedirectTarget hosts next allowedOrigins = target)
    (started : target.dropWhile Whatwg.isC0OrSpace ≠ []) (unmarked : '#' ∉ target)
    (single : ¬ TwoSlashed target) (ended : ¬ EndsInControl target) : ∃ kept,
      resolve hosts api (target ++ ['?']) = some kept ∧ OriginKept hosts api allowedOrigins kept := by
  rcases @sanitized_cases hosts next allowedOrigins with ⟨rest, path, -⟩ | ⟨url, parsed, allowed⟩
  · rw [sanitized] at path
    have begun : Whatwg.begun target = '/' :: rest.filter fun c => !Whatwg.isTabOrNewline c := by
      rw [path]
      rfl
    obtain ⟨others, begins, lone⟩ : ∃ others, beginning target = '/' :: others ∧
        ∀ c ∈ others.head?, Whatwg.isSlash true c = false := by
      generalize rest.filter (fun c => !Whatwg.isTabOrNewline c) = following at begun
      refine ⟨following.takeWhile (· != '?'), by unfold beginning; rw [begun]; rfl, fun c head => ?_⟩
      cases following with
      | nil => cases head
      | cons d more =>
          rw [List.takeWhile_cons] at head
          split_ifs at head with kept
          · cases head
            exact Bool.eq_false_iff.mpr fun slash => single ⟨_, more, begun, slash⟩
          · cases head
    obtain ⟨path, read⟩ := @Whatwg.readFront_path hosts api.front others (special_api api ▸ lone)
    rw [← begins] at read
    obtain ⟨kept, asked, front⟩ := asked_front started unmarked read
    exact ⟨kept, asked, originKept_of_base front⟩
  · rw [sanitized] at parsed
    have absolute := parsed_front unmarked ended parsed
    rcases Whatwg.readFront_base (special_api api) absolute with read | ⟨path, read⟩
    · obtain ⟨kept, asked, front⟩ := asked_front started unmarked read
      exact ⟨kept, asked, (originKept_congr front).mpr (.inr allowed)⟩
    · obtain ⟨kept, asked, front⟩ := asked_front started unmarked read
      exact ⟨kept, asked, originKept_of_base front⟩

/-- The browser stays with us, and the outcome of a login is all that is added to the target, just
where the target is harmless. -/
theorem redirect_safe_iff (hosts : Hosts) (api : ApiOrigin) (next : Option Text)
    (allowedOrigins : List HeaderValue) (key value : Text) (plain : PlainName key) :
    LandsSafely hosts api allowedOrigins (sanitizeRedirectTarget hosts next allowedOrigins) key value ↔
      Harmless hosts api allowedOrigins (sanitizeRedirectTarget hosts next allowedOrigins) := by
  have started := @sanitized_started hosts next allowedOrigins
  have last := @sanitized_last hosts next allowedOrigins
  generalize sanitized : sanitizeRedirectTarget hosts next allowedOrigins = target at started last ⊢
  by_cases marked : '#' ∈ target
  · exact iff_of_false (not_safe_of_fragment plain started marked) fun harmless =>
      harmless.unmarked marked
  by_cases ended : EndsInControl target
  · by_cases queried : '?' ∈ target
    · obtain ⟨c, final, control⟩ := ended
      have kept : Whatwg.isTabOrNewline c = false := by
        refine Bool.eq_false_iff.mpr fun tab => ?_
        have solid := last c final
        simp only [Whatwg.isTabOrNewline, Bool.or_eq_true, beq_iff_eq] at tab
        rcases tab with (rfl | rfl) | rfl <;> cases solid
      have stripped := Whatwg.stripped_ne_nil started final control kept
      exact iff_of_false (not_safe_of_stripped plain started marked queried stripped) fun harmless =>
        (harmless.settled ⟨c, final, control⟩).1 queried
    · rw [landsSafely_control_iff plain started marked queried]
      constructor
      · rintro ⟨settled, ours⟩
        exact ⟨marked, fun _ => ⟨queried, settled⟩, fun _ => ours⟩
      · intro harmless
        exact ⟨(harmless.settled ended).2, harmless.ours (.inr ended)⟩
  · rw [landsSafely_iff plain started marked ended]
    constructor
    · intro ours
      exact ⟨marked, fun control => absurd control ended, fun _ => ours⟩
    · intro harmless
      by_cases slashed : TwoSlashed target
      · exact harmless.ours (.inl slashed)
      · exact ours_of_sanitized sanitized started marked slashed ended

end Safety

section Samples

/-- Hosts that are written as they are served. -/
def plainHosts : Hosts := fun _ host => some host

def sampleApi : ApiOrigin where
  scheme := "https".toList
  host := "api.example.org".toList
  port := none
  web := .inr rfl
  named := by decide

theorem sample_plain : PlainName "auth".toList := by
  have all : "auth".toList.all FormEncoding.isSerializedPlain = true := by decide
  exact List.all_eq_true.mp all

theorem queried_path_lands : LandsSafely plainHosts sampleApi []
    (sanitizeRedirectTarget plainHosts (some "/?wiki=dewiki".toList) []) "auth".toList
      "oauth-ok".toList := by
  have target : sanitizeRedirectTarget plainHosts (some "/?wiki=dewiki".toList) [] =
    "/?wiki=dewiki".toList := by decide +kernel
  refine (redirect_safe_iff plainHosts sampleApi (some "/?wiki=dewiki".toList) [] _ _ sample_plain).mpr ?_
  rw [target]
  have single : ¬ TwoSlashed "/?wiki=dewiki".toList := by
    rintro ⟨c, rest, begun, slash⟩
    have begun : '/' :: '?' :: "wiki=dewiki".toList = '/' :: c :: rest := begun
    cases begun
    cases slash
  have ended : ¬ EndsInControl "/?wiki=dewiki".toList := by
    rintro ⟨c, last, control⟩
    have last : some 'i' = some c := last
    cases last
    cases control
  exact ⟨by decide, fun control => absurd control ended,
    fun leads => (leads.elim single ended).elim⟩

/-- A backslash leads to another host, and a fragment swallows the outcome. -/
theorem backslash_leads_away :
    ¬ LandsSafely plainHosts sampleApi []
      (sanitizeRedirectTarget plainHosts (some "/\\evil.example/".toList) []) "auth".toList
        "oauth-ok".toList ∧
    ¬ LandsSafely plainHosts sampleApi []
      (sanitizeRedirectTarget plainHosts (some "/?wiki=dewiki#view=patrol".toList) []) "auth".toList
        "oauth-ok".toList := by
  constructor
  · rintro ⟨before, after, -, located, kept, -⟩
    have away : (resolve plainHosts sampleApi (redirectWithStatus
        (sanitizeRedirectTarget plainHosts (some "/\\evil.example/".toList) []) "auth".toList
          "oauth-ok".toList)).bind originOfUrl = some "https://evil.example".toList := by
      decide +kernel
    rw [located] at away
    have away : originOfUrl after = some "https://evil.example".toList := away
    rcases kept with api | allowed
    · rw [away] at api
      exact absurd api (by decide +kernel)
    · unfold originIsAllowed at allowed
      rw [away] at allowed
      cases allowed
  · have target : sanitizeRedirectTarget plainHosts (some "/?wiki=dewiki#view=patrol".toList) [] =
      "/?wiki=dewiki#view=patrol".toList := by decide +kernel
    rw [target]
    exact not_safe_of_fragment sample_plain (by decide) (by decide)

end Samples

end SP42.Session

import Mathlib
import SP42.Base.FormWriting
import SP42.Citation.Apply
import SP42.Lib.Base64
import SP42.Session.Binding
import SP42.Session.LocalEnv

/-!
The proof key of a login: the verifier and the state token drawn for it, the challenge that leaves
with the browser, and the verifier that goes to the token endpoint. SHA-256, the parser of URLs and
the configuration of the wikis are parameters.
-/
namespace SP42.Session

open Citation (HttpRequest)
open FormEncoding (byteSerialize formPairs isSerializedPlain PlainName)
open Traverse (bind_ok)

inductive OAuthError where
  | invalidConfig (message : Text)
  | invalidVerifier (message : Text)
  | invalidCallback (message : Text)
  | stateMismatch
  | authorizationFailed (message : Text)
  deriving DecidableEq

def OAuthError.display : OAuthError → Text
  | .invalidConfig message => "oauth configuration is invalid: ".toList ++ message
  | .invalidVerifier message => "pkce verifier is invalid: ".toList ++ message
  | .invalidCallback message => "oauth callback is invalid: ".toList ++ message
  | .stateMismatch => "oauth callback state mismatch".toList
  | .authorizationFailed message => "oauth authorization failed: ".toList ++ message

section Tokens

def codeVerifierMinLen : Nat := 43

def codeVerifierMaxLen : Nat := 128

def isUnreserved (c : Char) : Bool := c.isAlphanum || ['-', '.', '_', '~'].contains c

def validateCodeVerifier (verifier : Text) : Except OAuthError Unit :=
  let length := Bytes.size verifier
  if ¬ (codeVerifierMinLen ≤ length ∧ length ≤ codeVerifierMaxLen) then
    .error (.invalidVerifier
      ("expected verifier length between 43 and 128, got ".toList ++ Nat.toDigits 10 length))
  else if verifier.any fun c => !isUnreserved c then
    .error (.invalidVerifier
      "verifier contains characters outside the PKCE unreserved set".toList)
  else .ok ()

variable {R : Type} (nextU64 : R → UInt64 × R)

/-- The lowest bytes of a number, the least significant first. -/
def leBytes : Nat → Nat → List UInt8
  | 0, _ => []
  | count + 1, n => UInt8.ofNat n :: leBytes count (n / 256)

def toLeBytes (word : UInt64) : List UInt8 := leBytes 8 word.toNat

theorem length_leBytes (count n : Nat) : (leBytes count n).length = count := by
  induction count generalizing n with
  | zero => rfl
  | succ count ih => rw [leBytes, List.length_cons, ih]

theorem length_toLeBytes (word : UInt64) : (toLeBytes word).length = 8 :=
  length_leBytes 8 word.toNat

/-- Words are drawn until there are bytes enough. -/
def fillBytes (byteCount : Nat) (bytes : List UInt8) (rng : R) : List UInt8 × R :=
  if bytes.length < byteCount then
    fillBytes byteCount (bytes ++ toLeBytes (nextU64 rng).1) (nextU64 rng).2
  else (bytes, rng)
termination_by byteCount - bytes.length
decreasing_by
  simp only [List.length_append, length_toLeBytes]
  omega

def generateToken (byteCount : Nat) (rng : R) : Text × R :=
  let filled := fillBytes nextU64 byteCount [] rng
  (Base64.encode (filled.1.take byteCount), filled.2)

def generatePkceVerifier (rng : R) : Text × R := generateToken nextU64 64 rng

def generateOauthState (rng : R) : Text × R := generateToken nextU64 32 rng

/-- `S256`: the base 64 of the digest of the verifier's bytes. -/
def codeChallengeFromVerifier (sha256 : List UInt8 → Vector UInt8 32) (verifier : Text) :
    Except OAuthError Text := do
  validateCodeVerifier verifier
  pure (Base64.encode (sha256 (verifier.flatMap String.utf8EncodeChar)).toList)

/-- The words that a generator yields. -/
def words : Nat → R → List UInt64
  | 0, _ => []
  | count + 1, rng => (nextU64 rng).1 :: words count (nextU64 rng).2

theorem leBytes_mod {count n m : Nat} (same : leBytes count n = leBytes count m) :
    n % 256 ^ count = m % 256 ^ count := by
  induction count generalizing n m with
  | zero => rw [pow_zero, Nat.mod_one, Nat.mod_one]
  | succ count ih =>
      obtain ⟨first, rest⟩ := List.cons.inj same
      have low : n % 256 = m % 256 := by simpa using congrArg UInt8.toNat first
      rw [pow_succ', Nat.mod_mul, Nat.mod_mul, low, ih rest]

theorem toLeBytes_injective : Function.Injective toLeBytes := by
  intro word other same
  have low : word.toNat % 2 ^ 64 = other.toNat % 2 ^ 64 := leBytes_mod same
  rw [Nat.mod_eq_of_lt word.toNat_lt, Nat.mod_eq_of_lt other.toNat_lt] at low
  exact UInt64.toNat_inj.mp low

theorem length_fillBytes (byteCount : Nat) (bytes : List UInt8) (rng : R) :
    byteCount ≤ (fillBytes nextU64 byteCount bytes rng).1.length := by
  fun_induction fillBytes nextU64 byteCount bytes rng with
  | case1 bytes rng short ih => exact ih
  | case2 bytes rng enough => exact Nat.not_lt.mp enough

/-- A whole number of words is drawn for as many bytes, and all of them are kept. -/
theorem fillBytes_words (count : Nat) {bytes : List UInt8} {byteCount : Nat}
    (left : byteCount = bytes.length + 8 * count) (rng : R) :
    (fillBytes nextU64 byteCount bytes rng).1 =
      bytes ++ (words nextU64 count rng).flatMap toLeBytes := by
  induction count generalizing bytes rng with
  | zero =>
      rw [fillBytes, if_neg (by omega)]
      exact (List.append_nil bytes).symm
  | succ count ih =>
      rw [fillBytes, if_pos (by omega), ih (by rw [List.length_append, length_toLeBytes]; omega),
        List.append_assoc]
      rfl

theorem length_generateToken (byteCount : Nat) (rng : R) :
    (generateToken nextU64 byteCount rng).1.length = (byteCount * 4 + 2) / 3 := by
  unfold generateToken
  rw [Base64.length_encode, List.length_take, Nat.min_eq_left (length_fillBytes nextU64 _ _ _)]

theorem flatMap_toLeBytes_injective {left right : List UInt64}
    (same : left.flatMap toLeBytes = right.flatMap toLeBytes) : left = right := by
  induction left generalizing right with
  | nil =>
      cases right with
      | nil => rfl
      | cons word right => cases same
  | cons word left ih =>
      cases right with
      | nil => cases same
      | cons other right =>
          rw [List.flatMap_cons, List.flatMap_cons] at same
          obtain ⟨first, rest⟩ := List.append_inj same (by simp only [length_toLeBytes])
          rw [toLeBytes_injective first, ih rest]

/-- A token of whole words says which words were drawn: two are equal only where those are. -/
theorem generateToken_eq_iff (count : Nat) (rng rng' : R) :
    (generateToken nextU64 (8 * count) rng).1 = (generateToken nextU64 (8 * count) rng').1 ↔
      words nextU64 count rng = words nextU64 count rng' := by
  have filled (rng : R) : (fillBytes nextU64 (8 * count) [] rng).1 =
      (words nextU64 count rng).flatMap toLeBytes :=
    fillBytes_words nextU64 count (by simp) rng
  have whole (rng : R) : (generateToken nextU64 (8 * count) rng).1 =
      Base64.encode ((words nextU64 count rng).flatMap toLeBytes) := by
    have long := length_fillBytes nextU64 (8 * count) [] rng
    have exactly : ((words nextU64 count rng).flatMap toLeBytes).length = 8 * count := by
      clear long filled
      induction count generalizing rng with
      | zero => rfl
      | succ count ih =>
          rw [words, List.flatMap_cons, List.length_append, length_toLeBytes, ih]
          omega
    unfold generateToken
    dsimp only
    rw [filled, List.take_of_length_le (Nat.le_of_eq exactly)]
  rw [whole, whole]
  constructor
  · intro same
    exact flatMap_toLeBytes_injective (Base64.encode_injective same)
  · intro same
    rw [same]

set_option maxRecDepth 2000 in
theorem unreserved_symbol : ∀ n < 64, isUnreserved (Base64.symbol n) = true ∧
    (Base64.symbol n).utf8Size = 1 ∧ Text.isWhitespace (Base64.symbol n) = false := by decide

theorem unreserved_encode {bytes : List UInt8} {c : Char} (mem : c ∈ Base64.encode bytes) :
    isUnreserved c = true ∧ c.utf8Size = 1 ∧ Text.isWhitespace c = false := by
  obtain ⟨n, small, rfl⟩ := Base64.mem_encode mem
  exact unreserved_symbol n small

theorem size_of_single {text : Text} (single : ∀ c ∈ text, c.utf8Size = 1) :
    Bytes.size text = text.length := by
  induction text with
  | nil => rfl
  | cons c rest ih =>
      rw [Bytes.size_cons, List.length_cons, single c List.mem_cons_self,
        ih fun d mem => single d (List.mem_cons_of_mem c mem), Nat.add_comm]

theorem encode_inked {bytes : List UInt8} (some_ : bytes ≠ []) :
    Text.trim (Base64.encode bytes) ≠ [] := by
  intro blank
  have length := Base64.length_encode bytes
  have long := List.length_pos_of_ne_nil some_
  obtain ⟨c, mem⟩ := List.exists_mem_of_length_pos (l := Base64.encode bytes) (by omega)
  have inked := (unreserved_encode mem).2.2
  rw [Text.trim_eq_nil_iff.mp blank c mem] at inked
  cases inked

/-- Whatever the generator yields, the verifier is valid. -/
theorem generated_verifier_valid (rng : R) :
    validateCodeVerifier (generatePkceVerifier nextU64 rng).1 = .ok () := by
  have length : Bytes.size (generatePkceVerifier nextU64 rng).1 = 86 :=
    (size_of_single fun _ mem => (unreserved_encode mem).2.1).trans
      (length_generateToken nextU64 64 rng)
  have plain : (generatePkceVerifier nextU64 rng).1.any (fun c => !isUnreserved c) = false := by
    refine List.any_eq_false.mpr fun c mem => ?_
    rw [(unreserved_encode mem).1]
    decide
  unfold validateCodeVerifier
  dsimp only
  rw [length, plain]
  rfl

end Tokens

section Urls

/-- A URL as it is written, cut at its marks. -/
structure WrittenUrl where
  front : Text
  query : Option Text
  fragment : Option Text
  whole : '?' ∉ front ∧ '#' ∉ front
  uncut : ∀ written ∈ query, '#' ∉ written

def marked (mark : Char) : Option Text → Text
  | none => []
  | some written => mark :: written

def WrittenUrl.text (url : WrittenUrl) : Text :=
  url.front ++ (marked '?' url.query ++ marked '#' url.fragment)

/-- The pairs in the query of a URL. -/
def sentPairs (text : Text) : List (String × Text) :=
  formPairs ((Whatwg.cutAt '?' (Whatwg.cutAt '#' text).1).2.getD [])

/-- `Serializer::append_pair`. -/
def appendPair (query : Text) (pair : String × Text) : Text :=
  (if query = [] then [] else query ++ ['&']) ++
    (byteSerialize pair.1.toList ++ '=' :: byteSerialize pair.2)

def appendPairs (query : Text) (pairs : List (String × Text)) : Text := pairs.foldl appendPair query

theorem unmarked_appendPair {query : Text} (unmarked : '#' ∉ query) (pair : String × Text) :
    '#' ∉ appendPair query pair := by
  have serialized (value : Text) : '#' ∉ byteSerialize value := fun mem =>
    absurd (FormEncoding.written_byteSerialize mem) (by decide)
  unfold appendPair
  split <;> simp [unmarked, serialized]

theorem unmarked_appendPairs {query : Text} (unmarked : '#' ∉ query)
    (pairs : List (String × Text)) : '#' ∉ appendPairs query pairs := by
  induction pairs generalizing query with
  | nil => exact unmarked
  | cons pair pairs ih => exact ih (unmarked_appendPair unmarked pair)

/-- `query_pairs_mut`, over all the pairs that are appended. -/
def WrittenUrl.appendPairs (url : WrittenUrl) (pairs : List (String × Text)) : WrittenUrl where
  front := url.front
  query := some (Session.appendPairs (url.query.getD []) pairs)
  fragment := url.fragment
  whole := url.whole
  uncut := by
    intro written found
    cases found
    refine unmarked_appendPairs ?_ pairs
    cases held : url.query with
    | none => exact List.not_mem_nil
    | some query => exact url.uncut query held

/-- Every name is written as it is. -/
def PlainNames (pairs : List (String × Text)) : Prop := ∀ pair ∈ pairs, PlainName pair.1.toList

/-- The pairs that are written are read behind those that were there. -/
theorem formPairs_appendPairs (query : Text) {pairs : List (String × Text)}
    (plain : PlainNames pairs) :
    formPairs (appendPairs query pairs) = formPairs query ++ pairs := by
  induction pairs generalizing query with
  | nil => exact (List.append_nil _).symm
  | cons pair pairs ih =>
      have name := plain pair List.mem_cons_self
      have written := FormEncoding.formPairs_written name pair.2
      rw [String.ofList_toList] at written
      have first : formPairs (appendPair query pair) = formPairs query ++ [pair] := by
        unfold appendPair
        rw [FormEncoding.byteSerialize_plain name]
        by_cases empty : query = []
        · rw [if_pos empty, empty]
          exact written
        · rw [if_neg empty, List.append_assoc, List.singleton_append,
            FormEncoding.formPairs_append, written]
      have rest := ih (appendPair query pair) fun other mem =>
        plain other (List.mem_cons_of_mem pair mem)
      rw [first, List.append_assoc, List.singleton_append] at rest
      exact rest

/-- A browser sends the query of the URL as it was written. -/
theorem sentPairs_text (url : WrittenUrl) : sentPairs url.text = formPairs (url.query.getD []) := by
  have cut : (Whatwg.cutAt '#' url.text).1 = url.front ++ marked '?' url.query := by
    have unmarked : '#' ∉ url.front ++ marked '?' url.query := by
      refine List.not_mem_append url.whole.2 ?_
      cases held : url.query with
      | none => exact List.not_mem_nil
      | some query => exact List.not_mem_cons_of_ne_of_not_mem (by decide) (url.uncut query held)
    unfold WrittenUrl.text
    rw [← List.append_assoc]
    cases url.fragment with
    | none => rw [marked, List.append_nil, Whatwg.cutAt_of_notMem unmarked]
    | some fragment => rw [marked, Whatwg.cutAt_append unmarked]
  unfold sentPairs
  rw [cut]
  cases url.query with
  | none => rw [marked, List.append_nil, Whatwg.cutAt_of_notMem url.whole.1]
  | some query => rw [marked, Whatwg.cutAt_append url.whole.1]

end Urls

section Launch

/-- The configuration of a client, with the endpoints of its wiki. -/
structure OAuthClient extends OAuthClientConfig where
  authorizeUrl : WrittenUrl
  tokenUrl : Text
  scopes : List Text

def loginScopes : List Text :=
  ["basic".toList, "editpage".toList, "patrol".toList, "rollback".toList]

structure OAuthLaunchContext where
  state : Text
  verifier : Text
  challenge : Text
  authorizationUrl : WrittenUrl

def ensureNonEmpty (label : String) (value : Text) : Except OAuthError Unit :=
  if Text.trim value = [] then .error (.invalidConfig (label.toList ++ " is required".toList))
  else .ok ()

/-- What is asked of the provider. -/
def authorizationPairs (config : OAuthClient) (state codeChallenge : Text) :
    List (String × Text) :=
  [("response_type", "code".toList), ("client_id", config.clientId),
    ("redirect_uri", config.redirectUri), ("code_challenge", codeChallenge),
    ("code_challenge_method", "S256".toList), ("state", state)]

def scopePairs (scopes : List Text) : List (String × Text) :=
  if scopes = [] then [] else [("scope", Text.join [' '] scopes)]

def buildAuthorizationUrl (config : OAuthClient) (state codeChallenge : Text) :
    Except OAuthError WrittenUrl := do
  ensureNonEmpty "client_id" config.clientId
  ensureNonEmpty "state" state
  ensureNonEmpty "code_challenge" codeChallenge
  let url := config.authorizeUrl.appendPairs (authorizationPairs config state codeChallenge)
  pure (if config.scopes = [] then url else url.appendPairs (scopePairs config.scopes))

def tokenPairs (config : OAuthClientConfig) (code verifier : Text) : List (String × Text) :=
  [("grant_type", "authorization_code".toList), ("client_id", config.clientId),
    ("redirect_uri", config.redirectUri), ("code", code), ("code_verifier", verifier)]

def encodeForm (fields : List (String × Text)) : List UInt8 :=
  (appendPairs [] fields).flatMap String.utf8EncodeChar

def accessTokenRequest (config : OAuthClient) (code verifier : Text) : HttpRequest Text where
  method := .post
  url := config.tokenUrl
  headers := [("content-type", "application/x-www-form-urlencoded".toList)]
  body := encodeForm (tokenPairs config.toOAuthClientConfig code verifier)

def buildAccessTokenRequest (config : OAuthClient) (code verifier : Text) :
    Except OAuthError (HttpRequest Text) := do
  ensureNonEmpty "client_id" config.clientId
  ensureNonEmpty "authorization code" code
  validateCodeVerifier verifier
  pure (accessTokenRequest config code verifier)

def prepareTokenExchangeFromCallback (config : OAuthClient)
    (callbackQuery expectedState verifier : Text) : Except OAuthError (HttpRequest Text) := do
  match ← (parseCallbackQuery callbackQuery).mapError .invalidCallback with
  | .authorizationCode code state =>
      if state ≠ expectedState then .error .stateMismatch
      else buildAccessTokenRequest config code verifier
  | .authorizationError error errorDescription _ =>
      .error (.authorizationFailed (errorDescription.getD error))

variable {R : Type} (sha256 : List UInt8 → Vector UInt8 32) (nextU64 : R → UInt64 × R)

def prepareOauthLaunch (config : OAuthClient) (rng : R) :
    Except OAuthError OAuthLaunchContext × R :=
  let verifier := generatePkceVerifier nextU64 rng
  let state := generateOauthState nextU64 verifier.2
  (do
    let challenge ← codeChallengeFromVerifier sha256 verifier.1
    let authorizationUrl ← buildAuthorizationUrl config state.1 challenge
    pure ⟨state.1, verifier.1, challenge, authorizationUrl⟩, state.2)

variable {sha256 nextU64}

theorem ensureNonEmpty_ok {label : String} {value : Text} :
    ensureNonEmpty label value = .ok () ↔ Text.trim value ≠ [] := by
  unfold ensureNonEmpty
  split_ifs with blank
  · exact iff_of_false (fun same => nomatch same) (not_not.mpr blank)
  · exact iff_of_true rfl blank

theorem plainName_of_all {name : String} (all : name.toList.all isSerializedPlain = true) :
    PlainName name.toList := List.all_eq_true.mp all

theorem plain_authorizationPairs (config : OAuthClient) (state codeChallenge : Text) :
    PlainNames (authorizationPairs config state codeChallenge) := by
  intro pair mem
  simp only [authorizationPairs, List.mem_cons, List.not_mem_nil, or_false] at mem
  rcases mem with rfl | rfl | rfl | rfl | rfl | rfl <;> dsimp only <;>
    exact plainName_of_all (by decide)

theorem plain_scopePairs (scopes : List Text) : PlainNames (scopePairs scopes) := by
  intro pair mem
  unfold scopePairs at mem
  split_ifs at mem
  · cases mem
  · rw [List.mem_singleton.mp mem]
    dsimp only
    exact plainName_of_all (by decide)

theorem plain_tokenPairs (config : OAuthClientConfig) (code verifier : Text) :
    PlainNames (tokenPairs config code verifier) := by
  intro pair mem
  simp only [tokenPairs, List.mem_cons, List.not_mem_nil, or_false] at mem
  rcases mem with rfl | rfl | rfl | rfl | rfl <;> dsimp only <;>
    exact plainName_of_all (by decide)

/-- What the browser carries to the provider: the pairs of the wiki's own URL, and ours. -/
theorem buildAuthorizationUrl_ok {config : OAuthClient} {state codeChallenge : Text}
    {url : WrittenUrl} (built : buildAuthorizationUrl config state codeChallenge = .ok url) :
    sentPairs url.text = formPairs (config.authorizeUrl.query.getD []) ++
      (authorizationPairs config state codeChallenge ++ scopePairs config.scopes) := by
  obtain ⟨-, -, rest⟩ := bind_ok built
  obtain ⟨-, -, rest⟩ := bind_ok rest
  obtain ⟨-, -, rest⟩ := bind_ok rest
  cases rest
  have ours := @formPairs_appendPairs (config.authorizeUrl.query.getD []) _
    (plain_authorizationPairs config state codeChallenge)
  rw [sentPairs_text]
  by_cases unscoped : config.scopes = []
  · rw [if_pos unscoped, scopePairs, if_pos unscoped, List.append_nil]
    exact ours
  · rw [if_neg unscoped, ← List.append_assoc, ← ours]
    exact formPairs_appendPairs _ (plain_scopePairs config.scopes)

/-- A challenge is the base 64 of a digest, and so no blank. -/
theorem challenge_inked {verifier challenge : Text}
    (derived : codeChallengeFromVerifier sha256 verifier = .ok challenge) :
    Text.trim challenge ≠ [] := by
  obtain ⟨-, -, rest⟩ := bind_ok derived
  cases rest
  refine encode_inked fun empty => ?_
  have length := congrArg List.length empty
  rw [Vector.length_toList] at length
  cases length

/-- The challenge of a valid verifier. -/
theorem challenge_of_valid {verifier : Text} (valid : validateCodeVerifier verifier = .ok ()) :
    ∃ challenge, codeChallengeFromVerifier sha256 verifier = .ok challenge := by
  unfold codeChallengeFromVerifier
  rw [valid]
  exact ⟨_, rfl⟩

theorem buildAuthorizationUrl_isOk {config : OAuthClient} {state codeChallenge : Text}
    (named : Text.trim config.clientId ≠ []) (stated : Text.trim state ≠ [])
    (challenged : Text.trim codeChallenge ≠ []) :
    ∃ url, buildAuthorizationUrl config state codeChallenge = .ok url := by
  unfold buildAuthorizationUrl
  rw [ensureNonEmpty_ok.mpr named, ensureNonEmpty_ok.mpr stated, ensureNonEmpty_ok.mpr challenged]
  exact ⟨_, rfl⟩

/-- The exchange goes ahead for a code that comes back with the state that was sent. -/
theorem prepareTokenExchange_ok_iff {config : OAuthClient} (named : Text.trim config.clientId ≠ [])
    {verifier : Text} (valid : validateCodeVerifier verifier = .ok ()) (query expected : Text)
    (request : HttpRequest Text) :
    prepareTokenExchangeFromCallback config query expected verifier = .ok request ↔
      ∃ code, parseCallbackQuery query = .ok (.authorizationCode code expected) ∧
        Text.trim code ≠ [] ∧ request = accessTokenRequest config code verifier := by
  unfold prepareTokenExchangeFromCallback
  cases read : parseCallbackQuery query with
  | error message => simp [Except.mapError, bind, Except.bind]
  | ok callback =>
      cases callback with
      | authorizationError error errorDescription state => simp [Except.mapError, bind, Except.bind]
      | authorizationCode code state =>
          have built : buildAccessTokenRequest config code verifier = .ok request ↔
              Text.trim code ≠ [] ∧ request = accessTokenRequest config code verifier := by
            unfold buildAccessTokenRequest
            rw [ensureNonEmpty_ok.mpr named, valid]
            by_cases blank : Text.trim code = []
            · simp [ensureNonEmpty, blank, bind, Except.bind]
            · rw [ensureNonEmpty_ok.mpr blank]
              simp [blank, bind, Except.bind, pure, Except.pure, eq_comm]
          by_cases same : state = expected
          · subst same
            simp [Except.mapError, bind, Except.bind, built]
          · simp [Except.mapError, bind, Except.bind, same]

/-- The token endpoint reads the pairs from the body. -/
theorem body_pairs (config : OAuthClient) (code verifier : Text) :
    ∃ form, (accessTokenRequest config code verifier).body = form.flatMap String.utf8EncodeChar ∧
      formPairs form = tokenPairs config.toOAuthClientConfig code verifier :=
  ⟨_, rfl, formPairs_appendPairs [] (plain_tokenPairs _ code verifier)⟩

/-- Whatever the generator yields, a named client is launched with a verifier that fits its
challenge, and a code that comes back with its state is exchanged with that verifier. -/
theorem launch_exchanged (sha256 : List UInt8 → Vector UInt8 32) (nextU64 : R → UInt64 × R)
    (config : OAuthClient) (named : Text.trim config.clientId ≠ []) (rng : R) :
    ∃ launch, (prepareOauthLaunch sha256 nextU64 config rng).1 = .ok launch ∧
      codeChallengeFromVerifier sha256 launch.verifier = .ok launch.challenge ∧
      sentPairs launch.authorizationUrl.text = formPairs (config.authorizeUrl.query.getD []) ++
        (authorizationPairs config launch.state launch.challenge ++ scopePairs config.scopes) ∧
      (∀ query request,
        prepareTokenExchangeFromCallback config query launch.state launch.verifier = .ok request ↔
          ∃ code, parseCallbackQuery query = .ok (.authorizationCode code launch.state) ∧
            Text.trim code ≠ [] ∧ request = accessTokenRequest config code launch.verifier) ∧
      ∀ code, ∃ form,
        (accessTokenRequest config code launch.verifier).body = form.flatMap String.utf8EncodeChar ∧
          formPairs form = tokenPairs config.toOAuthClientConfig code launch.verifier := by
  have valid := generated_verifier_valid nextU64 rng
  obtain ⟨challenge, derived⟩ := @challenge_of_valid sha256 _ valid
  have stated :
      Text.trim (generateOauthState nextU64 (generatePkceVerifier nextU64 rng).2).1 ≠ [] := by
    refine encode_inked fun empty => ?_
    have length := congrArg List.length empty
    rw [List.length_take, Nat.min_eq_left (length_fillBytes nextU64 _ _ _)] at length
    cases length
  obtain ⟨url, built⟩ := buildAuthorizationUrl_isOk named stated (challenge_inked derived)
  refine ⟨⟨_, _, challenge, url⟩, ?_, derived, buildAuthorizationUrl_ok built,
    fun query request => prepareTokenExchange_ok_iff named valid query _ request,
    fun code => body_pairs config code _⟩
  unfold prepareOauthLaunch
  dsimp only
  rw [derived]
  change (do
    let authorizationUrl ← buildAuthorizationUrl config _ challenge
    pure (OAuthLaunchContext.mk _ _ challenge authorizationUrl)) = _
  rw [built]
  rfl

/-- What a generator of zeros draws. -/
def sampleVerifier : Text := List.replicate 86 'A'

/-- The SHA-256 of the verifier. -/
def sampleDigest : Vector UInt8 32 :=
  ⟨#[225, 101, 154, 213, 64, 99, 163, 121, 247, 127, 238, 16, 138, 55, 106, 106, 125,
    90, 227, 208, 196, 55, 191, 132, 114, 3, 150, 59, 208, 7, 141, 252], rfl⟩

def sampleSha256 (bytes : List UInt8) : Vector UInt8 32 :=
  if bytes = sampleVerifier.flatMap String.utf8EncodeChar then sampleDigest
  else Vector.replicate 32 0

def metaAuthorize : WrittenUrl where
  front := "https://meta.wikimedia.org/oauth2/authorize".toList
  query := none
  fragment := none
  whole := by decide
  uncut _ found := nomatch found

def clientOf (config : OAuthClientConfig) : OAuthClient :=
  ⟨config, metaAuthorize, "https://meta.wikimedia.org/oauth2/access_token".toList, loginScopes⟩

def sampleClient : OAuthClient :=
  clientOf ⟨"client".toList, "https://sp42.example/auth/callback".toList⟩

theorem launch_exchanged_zeros :
    ∃ launch, (prepareOauthLaunch sampleSha256 (fun rng : Unit => (0, rng)) sampleClient ()).1 =
        .ok launch ∧
      codeChallengeFromVerifier sampleSha256 launch.verifier = .ok launch.challenge := by
  obtain ⟨launch, launched, derived, -⟩ :=
    launch_exchanged sampleSha256 (fun rng : Unit => (0, rng)) sampleClient (by decide) ()
  exact ⟨launch, launched, derived⟩

end Launch

section Site

def LocalOAuthConfig.clientId (config : LocalOAuthConfig) : Option Text :=
  config.clientApplicationKey

def LocalOAuthConfig.clientSecret (config : LocalOAuthConfig) : Option Text :=
  config.clientApplicationSecret

/-- Where a wiki sends a login, and where its codes are exchanged. -/
structure WikiEndpoints where
  oauthAuthorizeUrl : WrittenUrl
  oauthTokenUrl : Text

/-- What the deployment and the wikis configure. A URL that was parsed is parsed as itself. -/
structure OAuthSite where
  localOauth : LocalOAuthConfig
  publicBaseUrlVar : Option Text
  resolvedWikiConfig : String → Except Text WikiEndpoints
  parseUrl : Text → Except Text Text
  reparsed : ∀ text url, parseUrl text = .ok url → parseUrl url = .ok url

def isLocalHost (host : Text) : Bool :=
  let authority := Text.trim host
  let hostWithoutPort :=
    if authority.head? = some '[' then
      if ']' ∈ authority then (authority.takeWhile (· ≠ ']')).drop 1 else authority
    else authority.takeWhile (· ≠ ':')
  ["localhost".toList, "127.0.0.1".toList, "::1".toList].contains hostWithoutPort

def inked (text : Option Text) : Option Text := text.filter (Text.trim · ≠ [])

def publicBaseUrl (site : OAuthSite) (headers : Headers) : Except Text Text :=
  match inked site.publicBaseUrlVar with
  | some baseUrl => .ok (baseUrl.rdropWhile (· = '/'))
  | none =>
      match inked headers.host with
      | none => .error "host header is required to build oauth redirect URI".toList
      | some host =>
          if isLocalHost host then
            .ok ((inked headers.forwardedProto).getD "http".toList ++ ("://".toList ++ host))
          else .error ("non-local oauth redirects require SP42_PUBLIC_BASE_URL " ++
            "instead of trusting Host").toList

def authCallbackPath : Text := "/auth/callback".toList

def LocalOAuthConfig.hasConfidentialOauthClient (config : LocalOAuthConfig) : Bool :=
  config.clientId.any (· ≠ []) && config.clientSecret.any (· ≠ [])

def LocalOAuthConfig.requiredClientId (config : LocalOAuthConfig) : Except Text Text :=
  match config.clientId with
  | none => .error "oauth client id is missing".toList
  | some clientId => .ok clientId

/-- The client of a wiki, on a redirect URI that is parsed. -/
def clientConfig (site : OAuthSite) (wikiId : String) (redirectUri : Except Text Text) :
    Except Text OAuthClient := do
  let config ← site.resolvedWikiConfig wikiId
  let clientId ← site.localOauth.requiredClientId
  let redirectUri ← redirectUri
  pure ⟨⟨clientId, redirectUri⟩, config.oauthAuthorizeUrl, config.oauthTokenUrl, loginScopes⟩

def oauthClientConfigForRequest (site : OAuthSite) (headers : Headers) (wikiId : String) :
    Except Text OAuthClient :=
  clientConfig site wikiId (do
    let base ← publicBaseUrl site headers
    (site.parseUrl (base ++ authCallbackPath)).mapError
      ("oauth redirect URI was invalid: ".toList ++ ·))

def oauthClientConfigFromPending (site : OAuthSite) (pending : PendingOAuthLogin) :
    Except Text OAuthClient :=
  clientConfig site pending.wikiId
    ((site.parseUrl pending.redirectUri).mapError
      ("pending redirect URI was invalid: ".toList ++ ·))

/-- The server is configured so, and sends its browsers where the platform says. -/
structure Serves (sha256 : List UInt8 → Vector UInt8 32) (site : OAuthSite) (server : LoginServer) :
    Prop where
  confidential : server.hasConfidentialOauthClient = site.localOauth.hasConfidentialOauthClient
  configForRequest : server.configForRequest = fun headers wikiId =>
    (oauthClientConfigForRequest site headers wikiId).map OAuthClient.toOAuthClientConfig
  configFromPending : server.configFromPending = fun pending =>
    (oauthClientConfigFromPending site pending).map OAuthClient.toOAuthClientConfig
  challenge : server.codeChallengeFromVerifier = fun verifier =>
    (codeChallengeFromVerifier sha256 verifier).mapError OAuthError.display
  authorize : ∀ config state codeChallenge, ∃ client : OAuthClient,
    client.toOAuthClientConfig = config ∧ client.scopes = loginScopes ∧
      server.buildAuthorizationUrl config state codeChallenge =
        ((buildAuthorizationUrl client state codeChallenge).mapError OAuthError.display).map
          WrittenUrl.text

variable {site : OAuthSite}

theorem mapError_ok {ε δ α : Type} {f : ε → δ} {x : Except ε α} {value : α} :
    x.mapError f = .ok value ↔ x = .ok value := by
  cases x <;> simp [Except.mapError]

theorem map_ok {ε α β : Type} {f : α → β} {x : Except ε α} {value : β}
    (done : x.map f = .ok value) : ∃ before, x = .ok before ∧ f before = value := by
  cases x with
  | error reason => cases done
  | ok before => exact ⟨before, rfl, Except.ok.inj done⟩

theorem clientConfig_ok {wikiId : String} {redirectUri : Except Text Text} {client : OAuthClient}
    (made : clientConfig site wikiId redirectUri = .ok client) :
    site.localOauth.clientId = some client.clientId ∧ redirectUri = .ok client.redirectUri := by
  obtain ⟨config, -, rest⟩ := bind_ok made
  obtain ⟨clientId, named, rest⟩ := bind_ok rest
  obtain ⟨redirect, parsed, rest⟩ := bind_ok rest
  cases rest
  refine ⟨?_, parsed⟩
  unfold LocalOAuthConfig.requiredClientId at named
  cases held : site.localOauth.clientId with
  | none =>
      rw [held] at named
      cases named
  | some key =>
      rw [held] at named
      exact congrArg some (Except.ok.inj named)

/-- The client that a pending login is finished with is the one that it was sent out with. -/
theorem client_kept {headers : Headers} {wikiId : String} {client later : OAuthClient}
    {pending : PendingOAuthLogin}
    (sent : oauthClientConfigForRequest site headers wikiId = .ok client)
    (kept : pending.redirectUri = client.redirectUri)
    (finished : oauthClientConfigFromPending site pending = .ok later) :
    later.toOAuthClientConfig = client.toOAuthClientConfig := by
  obtain ⟨named, parsed⟩ := clientConfig_ok sent
  obtain ⟨named', parsed'⟩ := clientConfig_ok finished
  obtain ⟨base, -, parsed⟩ := bind_ok parsed
  have again := site.reparsed _ _ (mapError_ok.mp parsed)
  rw [mapError_ok, kept, again] at parsed'
  rw [named] at named'
  cases later with
  | mk config authorizeUrl tokenUrl scopes =>
      cases config with
      | mk clientId redirectUri =>
          cases client with
          | mk config' authorizeUrl' tokenUrl' scopes' =>
              cases config' with
              | mk clientId' redirectUri' =>
                  rw [OAuthClientConfig.mk.injEq]
                  exact ⟨(Option.some.inj named').symm, (Except.ok.inj parsed').symm⟩

end Site

section Runs

variable {B : Type} {server : LoginServer} {past : List (LoginEvent B)} {s : LoginState B}

/-- What a login leaves behind: its own tokens, and the URL that its browser was sent to. -/
theorem prepareLogin_ok {request : LoginRequest} {pending : PendingOAuthLogin} {url : Text}
    (prepared : prepareLogin server request = .ok (pending, url)) :
    pending.state = request.state ∧ pending.verifier = request.verifier ∧
    ∃ config challenge, server.configForRequest request.headers pending.wikiId = .ok config ∧
      pending.redirectUri = config.redirectUri ∧
      server.codeChallengeFromVerifier request.verifier = .ok challenge ∧
      server.buildAuthorizationUrl config request.state challenge = .ok url := by
  unfold prepareLogin at prepared
  split_ifs at prepared
  obtain ⟨config, configured, rest⟩ := bind_ok prepared
  obtain ⟨challenge, challenged, rest⟩ := bind_ok rest
  obtain ⟨authorizationUrl, built, rest⟩ := bind_ok rest
  cases rest
  exact ⟨rfl, rfl, config, challenge, configured, rfl, challenged, built⟩

/-- The pending login of a token was sent out, and nothing has been about the token since. -/
def SentOut (server : LoginServer) (past : List (LoginEvent B)) (token : Text)
    (pending : PendingOAuthLogin) : Prop :=
  pending.state = token ∧ ∃ earlier starter request url later,
    past = earlier ++ (.login starter request, .sent url) :: later ∧
      prepareLogin server request = .ok (pending, url) ∧ ∀ event ∈ later, ¬ carries token event

theorem SentOut.append {token : Text} {pending : PendingOAuthLogin}
    (sent : SentOut server past token pending) {event : LoginEvent B}
    (other : ¬ carries token event) : SentOut server (past ++ [event]) token pending := by
  obtain ⟨state, earlier, starter, request, url, later, rfl, prepared, silent⟩ := sent
  refine ⟨state, earlier, starter, request, url, later ++ [event], by simp, prepared,
    fun e mem => ?_⟩
  rcases List.mem_append.mp mem with old | new
  · exact silent e old
  · exact List.mem_singleton.mp new ▸ other

/-- Every pending login was sent out. -/
def AllSent (server : LoginServer) (past : List (LoginEvent B)) (s : LoginState B) : Prop :=
  ∀ token pending, s.pendings token = some pending → SentOut server past token pending

theorem allSent_login (sent : AllSent server past s) (browser : B) (request : LoginRequest) :
    AllSent server
      (past ++ [(.login browser request, (loginStep server s (.login browser request)).2)])
      (loginStep server s (.login browser request)).1 := by
  cases prepared : prepareLogin server request with
  | error message =>
      have step : loginStep server s (.login browser request) = (s, .refused message) := by
        simp only [loginStep, getAuthLogin, prepared]
      rw [step]
      exact fun token pending held => (sent token pending held).append id
  | ok found =>
      obtain ⟨pending, url⟩ := found
      have step : loginStep server s (.login browser request) =
          ({ s with pendings := storePendingOauthLogin s.pendings pending request.storedMs },
            .sent url) := by
        simp only [loginStep, getAuthLogin, prepared]
      rw [step]
      intro token held_ held
      dsimp only [storePendingOauthLogin] at held
      have state := (prepareLogin_ok prepared).1
      by_cases own : token = pending.state
      · rw [own, Function.update_self, Option.some_inj] at held
        subst held
        exact ⟨own.symm, past, browser, request, url, [], rfl, prepared,
          fun _ mem => absurd mem List.not_mem_nil⟩
      · rw [Function.update_of_ne own] at held
        exact (sent token held_ (pruned held).1).append
          fun same => own (same.symm.trans state.symm)

/-- A callback or the end of an exchange adds no pending login. -/
theorem allSent_kept {pendings : PendingLogins} {event : LoginEvent B}
    (sent : AllSent server past s) (kept : ∀ token pending, pendings token = some pending →
      s.pendings token = some pending ∧ ¬ carries token event) (token : Text)
    (pending : PendingOAuthLogin) (held : pendings token = some pending) :
    SentOut server (past ++ [event]) token pending := by
  obtain ⟨before, other⟩ := kept token pending held
  exact (sent token pending before).append other

theorem callback_pendings (server : LoginServer) (s : LoginState B) (browser : B)
    (request : CallbackRequest) : (loginStep server s (.callback browser request)).1.pendings =
      (getAuthCallback server s.pendings request).1 := by
  cases answer : (getAuthCallback server s.pendings request).2 <;> simp only [loginStep, answer]

theorem allSent_step (sent : AllSent server past s) (input : LoginInput B) :
    AllSent server (past ++ [(input, (loginStep server s input).2)])
      (loginStep server s input).1 := by
  cases input with
  | login browser request => exact allSent_login sent browser request
  | callback browser request =>
      intro token pending held
      rw [callback_pendings] at held
      exact allSent_kept sent (callback_cases server s.pendings request).1 token pending held
  | finish number outcome sessionId nowMs =>
      intro token pending held
      rw [(finish_cases server s number outcome sessionId nowMs).1] at held
      exact allSent_kept sent (fun _ _ held => ⟨held, id⟩) token pending held

theorem allSent_run (server : LoginServer) (inputs : List (LoginInput B)) :
    AllSent server (Run.trace (loginStep server) .start inputs)
      (Run.final (loginStep server) .start inputs) :=
  @Run.history_invariant _ _ _ (loginStep server) (AllSent server)
    (fun _ _ input sent => allSent_step sent input) [] .start (fun _ _ held => nomatch held) inputs

/-- The token request of a callback is made for the client of the pending login it took. -/
theorem exchange_config {pendings : PendingLogins} {request : CallbackRequest}
    {pending : PendingOAuthLogin} {token : TokenRequest}
    (goes : (getAuthCallback server pendings request).2 = .exchange pending token) :
    ∃ config, server.configFromPending pending = .ok config ∧ token.clientId = config.clientId ∧
      token.redirectUri = config.redirectUri := by
  unfold getAuthCallback at goes
  cases read : parseCallbackQuery request.query with
  | error message =>
      rw [read] at goes
      cases goes
  | ok callback =>
      cases callback with
      | authorizationError error errorDescription state =>
          rw [read] at goes
          cases goes
      | authorizationCode code state =>
          rw [read] at goes
          dsimp only [OAuthCallback.callbackState] at goes
          cases found : (takePendingOauthLogin pendings state request.nowMs).2 with
          | none =>
              rw [found] at goes
              cases goes
          | some entry =>
              rw [found] at goes
              dsimp only at goes
              split_ifs at goes with other
              cases config : server.configFromPending entry with
              | error message =>
                  rw [config] at goes
                  cases goes
              | ok config_ =>
                  rw [config] at goes
                  cases goes
                  exact ⟨config_, config, rfl, rfl⟩

def sampleSite : OAuthSite where
  localOauth := ⟨none, some "client".toList, some "secret".toList, none⟩
  publicBaseUrlVar := some "https://sp42.example".toList
  resolvedWikiConfig _ :=
    .ok ⟨metaAuthorize, "https://meta.wikimedia.org/oauth2/access_token".toList⟩
  parseUrl text := .ok text
  reparsed _ _ _ := rfl

def pkceServer : LoginServer where
  hosts _ host := some host
  allowedOrigins := []
  hasConfidentialOauthClient := true
  defaultWikiId := "frwiki"
  configForRequest headers wikiId :=
    (oauthClientConfigForRequest sampleSite headers wikiId).map OAuthClient.toOAuthClientConfig
  configFromPending pending :=
    (oauthClientConfigFromPending sampleSite pending).map OAuthClient.toOAuthClientConfig
  codeChallengeFromVerifier verifier :=
    (codeChallengeFromVerifier sampleSha256 verifier).mapError OAuthError.display
  buildAuthorizationUrl config state codeChallenge :=
    ((buildAuthorizationUrl (clientOf config) state codeChallenge).mapError
      OAuthError.display).map WrittenUrl.text
  sessionCookieHeader sessionId := some sessionId.toList

theorem pkceServer_serves : Serves sampleSha256 sampleSite pkceServer where
  confidential := rfl
  configForRequest := rfl
  configFromPending := rfl
  challenge := rfl
  authorize config _ _ := ⟨clientOf config, rfl, rfl, rfl⟩

def keyedLogin : LoginRequest := { sampleLogin with verifier := sampleVerifier }

def sampleUrl : Text :=
  ((metaAuthorize.appendPairs (authorizationPairs sampleClient "s".toList
    (Base64.encode sampleDigest.toList))).appendPairs (scopePairs loginScopes)).text

def keyedRequest : TokenRequest :=
  ⟨"client".toList, "https://sp42.example/auth/callback".toList, "c".toList, sampleVerifier⟩

theorem keyed_trace : Run.trace (loginStep pkceServer) .start
    [.login false keyedLogin, .callback true sampleCallback] =
      [(.login false keyedLogin, .sent sampleUrl)] ++
        [(.callback true sampleCallback, .exchanging 0 keyedRequest)] := by
  rfl

end Runs

end SP42.Session

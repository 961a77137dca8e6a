import Mathlib
import SP42.Base.FormWriting
import SP42.Session.Store

/-!
The login through the provider: a browser is sent there with a state token, the provider sends
one back to the callback with a code, and the code is exchanged for an access token while other
requests go on. The login names the target that the browser returns to, which is sanitized; the
outcome is appended to it. The configuration of the wikis and the URL library are parameters.
-/
namespace SP42.Session

open FormEncoding (formPairs)
open Whatwg (Hosts Url)

section Origins

/-- `Url::host_str`. -/
def hostStr (url : Url) : Option Text := url.host.filter (· ≠ [])

/-- The canonical origin: scheme, host, and the port unless it is the default. -/
def originOfUrl (url : Url) : Option Text :=
  (hostStr url).map fun host =>
    match url.port with
    | some port => url.scheme ++ ("://".toList ++ (host ++ ':' :: (Nat.toDigits 10 port)))
    | none => url.scheme ++ ("://".toList ++ host)

variable (hosts : Hosts)

def originOf (text : Text) : Option Text := (Whatwg.parse hosts none text).bind originOfUrl

end Origins

/-- The value of a header, in bytes. -/
abbrev HeaderValue := List UInt8

/-- `HeaderValue::to_str`: only tabs and visible ASCII are text. -/
def HeaderValue.toStr (value : HeaderValue) : Option Text :=
  if value.all fun byte => byte == 9 || (decide (32 ≤ byte) && decide (byte < 127)) then
    some (value.map fun byte => Char.ofNat byte.toNat)
  else none

section Targets

variable (hosts : Hosts)

def originIsAllowed (url : Url) (allowedOrigins : List HeaderValue) : Bool :=
  match originOfUrl url with
  | none => false
  | some candidate =>
      allowedOrigins.any fun origin => (origin.toStr.bind (originOf hosts)) == some candidate

/-- The target itself where it is a path of this origin or a URL of an allowed one. -/
def sanitizeRedirectTarget (next : Option Text) (allowedOrigins : List HeaderValue) : Text :=
  match (next.map Text.trim).filter (· ≠ []) with
  | none => ['/']
  | some target =>
      if target.head? = some '/' ∧ ¬ ['/', '/'] <+: target then target
      else if (Whatwg.parse hosts none target).any (originIsAllowed hosts · allowedOrigins) then target
      else ['/']

end Targets

section Status

def redirectWithStatus (target key value : Text) : Text :=
  target ++ ((if List.contains target '?' then '&' else '?') :: (key ++ '=' :: FormEncoding.byteSerialize value))

end Status

section Pending

structure PendingOAuthLogin where
  wikiId : String
  state : Text
  verifier : Text
  redirectUri : Text
  redirectAfterLogin : Text
  expiresAtMs : I64

def pendingOauthTtlMs : I64 := ⟨10 * 60 * 1000, by decide⟩

/-- The pending logins of the application state, by their state tokens. -/
abbrev PendingLogins := Text → Option PendingOAuthLogin

def pruneExpiredPendingOauthLogins (pendings : PendingLogins) (currentTimeMs : I64) : PendingLogins :=
  fun state => (pendings state).filter fun pending => currentTimeMs.val < pending.expiresAtMs.val

def storePendingOauthLogin (pendings : PendingLogins) (pending : PendingOAuthLogin) (nowMs : I64) :
    PendingLogins :=
  Function.update (pruneExpiredPendingOauthLogins pendings nowMs) pending.state (some pending)

def takePendingOauthLogin (pendings : PendingLogins) (stateToken : Text) (nowMs : I64) :
    PendingLogins × Option PendingOAuthLogin :=
  let pendings := pruneExpiredPendingOauthLogins pendings nowMs
  (Function.update pendings stateToken none, pendings stateToken)

end Pending

section Requests

/-- The headers that the two routes read. -/
structure Headers where
  cookie : Option Text
  host : Option Text
  forwardedProto : Option Text

structure OAuthClientConfig where
  clientId : Text
  redirectUri : Text

/-- What the routes are configured with. -/
structure LoginServer where
  hosts : Whatwg.Hosts
  allowedOrigins : List HeaderValue
  hasConfidentialOauthClient : Bool
  defaultWikiId : String
  configForRequest : Headers → String → Except Text OAuthClientConfig
  configFromPending : PendingOAuthLogin → Except Text OAuthClientConfig
  codeChallengeFromVerifier : Text → Except Text Text
  buildAuthorizationUrl : OAuthClientConfig → Text → Text → Except Text Text
  sessionCookieHeader : String → Option Text

/-- A request to log in, the tokens drawn for it, and the clock when it is read and stored. -/
structure LoginRequest where
  headers : Headers
  next : Option Text
  wikiId : Option String
  state : Text
  verifier : Text
  nowMs : I64
  storedMs : I64

def clientRequired : Text :=
  ("WIKIMEDIA_CLIENT_APPLICATION_KEY and WIKIMEDIA_CLIENT_APPLICATION_SECRET " ++
    "are required for OAuth login").toList

/-- The pending login and the URL that the browser is sent to. -/
def prepareLogin (server : LoginServer) (request : LoginRequest) :
    Except Text (PendingOAuthLogin × Text) :=
  if server.hasConfidentialOauthClient then do
    let wikiId := request.wikiId.getD server.defaultWikiId
    let oauthConfig ← server.configForRequest request.headers wikiId
    let challenge ← server.codeChallengeFromVerifier request.verifier
    let authorizationUrl ← server.buildAuthorizationUrl oauthConfig request.state challenge
    pure ({
      wikiId := wikiId
      state := request.state
      verifier := request.verifier
      redirectUri := oauthConfig.redirectUri
      redirectAfterLogin := sanitizeRedirectTarget server.hosts request.next server.allowedOrigins
      expiresAtMs := request.nowMs.saturatingAdd pendingOauthTtlMs }, authorizationUrl)
  else .error clientRequired

def getAuthLogin (server : LoginServer) (pendings : PendingLogins) (request : LoginRequest) :
    PendingLogins × Except Text Text :=
  match prepareLogin server request with
  | .error message => (pendings, .error message)
  | .ok (pending, authorizationUrl) =>
      (storePendingOauthLogin pendings pending request.storedMs, .ok authorizationUrl)

inductive OAuthCallback where
  | authorizationCode (code state : Text)
  | authorizationError (error : Text) (errorDescription state : Option Text)
  deriving DecidableEq

/-- Of several pairs of one name the last is kept. -/
def parameter (query : Text) (name : String) : Option Text :=
  (formPairs (query.dropWhile (· = '?'))).reverse.lookup name

def parseCallbackQuery (query : Text) : Except Text OAuthCallback :=
  match parameter query "error" with
  | some error =>
      .ok (.authorizationError error (parameter query "error_description") (parameter query "state"))
  | none =>
      match parameter query "code" with
      | none => .error "callback query does not contain code".toList
      | some code =>
          match parameter query "state" with
          | none => .error "callback query does not contain state".toList
          | some state => .ok (.authorizationCode code state)

def OAuthCallback.callbackState : OAuthCallback → Option Text
  | .authorizationCode _ state => some state
  | .authorizationError _ _ state => state

def oauthRedirectTarget (pending : Option PendingOAuthLogin) : Text :=
  match pending with
  | none => ['/']
  | some entry => entry.redirectAfterLogin

def oauthErrorRedirect (pending : Option PendingOAuthLogin) (message : Text) : Text :=
  redirectWithStatus (oauthRedirectTarget pending) "auth_error".toList message

structure CallbackRequest where
  headers : Headers
  query : Text
  nowMs : I64

/-- The token that a callback names. -/
def CallbackRequest.named (request : CallbackRequest) : Option Text :=
  match parseCallbackQuery request.query with
  | .error _ => none
  | .ok callback => callback.callbackState

/-- What is sent to the token endpoint. -/
structure TokenRequest where
  clientId : Text
  redirectUri : Text
  code : Text
  codeVerifier : Text
  deriving DecidableEq

inductive CallbackStep where
  | refused (message : Text)
  | redirected (location : Text)
  | exchange (pending : PendingOAuthLogin) (request : TokenRequest)

/-- A callback up to the request that it sends to the token endpoint. -/
def getAuthCallback (server : LoginServer) (pendings : PendingLogins) (request : CallbackRequest) :
    PendingLogins × CallbackStep :=
  match parseCallbackQuery request.query with
  | .error message => (pendings, .refused message)
  | .ok callback =>
      let taken := match callback.callbackState with
        | some stateToken => takePendingOauthLogin pendings stateToken request.nowMs
        | none => (pendings, none)
      (taken.1, match callback with
        | .authorizationError error errorDescription _ =>
            .redirected (oauthErrorRedirect taken.2 (errorDescription.getD error))
        | .authorizationCode code state =>
            match taken.2 with
            | none => .refused "oauth callback state was not recognized".toList
            | some pending =>
                if pending.state ≠ state then .refused "oauth callback state mismatch".toList
                else
                  match server.configFromPending pending with
                  | .error message => .refused message
                  | .ok config =>
                      .exchange pending ⟨config.clientId, config.redirectUri, code, pending.verifier⟩)

end Requests

section Machine

/-- A callback that waits for the provider, with the browser it answers. -/
structure Exchange (B : Type) where
  browser : B
  cookie : Option Text
  pending : PendingOAuthLogin

structure LoginState (B : Type) where
  pendings : PendingLogins
  sessions : Sessions
  exchanges : Nat → Option (Exchange B)
  next : Nat

def LoginState.start {B : Type} : LoginState B := ⟨fun _ => none, ∅, fun _ => none, 0⟩

/-- Requests of any browsers in any order; the provider may answer an exchange at any later time,
or fail. -/
inductive LoginInput (B : Type) where
  | login (browser : B) (request : LoginRequest)
  | callback (browser : B) (request : CallbackRequest)
  | finish (number : Nat) (outcome : Option OAuthLogin) (sessionId : String) (nowMs : I64)

inductive LoginAnswer (B : Type) where
  | refused (message : Text)
  | sent (authorizationUrl : Text)
  | redirected (location : Text)
  | exchanging (number : Nat) (request : TokenRequest)
  /-- The browser gets the cookie of its session and the place it returns to. -/
  | cookie (browser : B) (header location : Text)
  | failed

variable {B : Type}

/-- The rest of a callback, once the provider has answered. -/
def finishExchange (server : LoginServer) (sessions : Sessions) (exchange : Exchange B)
    (login : OAuthLogin) (sessionId : String) (nowMs : I64) : Sessions × LoginAnswer B :=
  match { login with wikiId := exchange.pending.wikiId }.storedSession nowMs with
  | none => (sessions, .failed)
  | some stored =>
      (installSession sessions sessionId (sessionCookieValue exchange.cookie) stored nowMs,
        match server.sessionCookieHeader sessionId with
        | none => .failed
        | some header =>
            .cookie exchange.browser header
              (redirectWithStatus exchange.pending.redirectAfterLogin "auth".toList "oauth-ok".toList))

def loginStep (server : LoginServer) (s : LoginState B) : LoginInput B → LoginState B × LoginAnswer B
  | .login _ request =>
      let answer := getAuthLogin server s.pendings request
      ({ s with pendings := answer.1 }, match answer.2 with
        | .error message => .refused message
        | .ok authorizationUrl => .sent authorizationUrl)
  | .callback browser request =>
      let answer := getAuthCallback server s.pendings request
      match answer.2 with
      | .refused message => ({ s with pendings := answer.1 }, .refused message)
      | .redirected location => ({ s with pendings := answer.1 }, .redirected location)
      | .exchange pending tokenRequest =>
          ({ s with
              pendings := answer.1
              exchanges := Function.update s.exchanges s.next
                (some ⟨browser, request.headers.cookie, pending⟩)
              next := s.next + 1 },
            .exchanging s.next tokenRequest)
  | .finish number outcome sessionId nowMs =>
      match s.exchanges number with
      | none => (s, .failed)
      | some exchange =>
          let s := { s with exchanges := Function.update s.exchanges number none }
          match outcome with
          | none => (s, .failed)
          | some login =>
              let answer := finishExchange server s.sessions exchange login sessionId nowMs
              ({ s with sessions := answer.1 }, answer.2)

end Machine

end SP42.Session

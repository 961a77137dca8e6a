import Mathlib
import SP42.Base.Arithmetic

/-!
The session store of the server: logins install sessions, requests read and touch
them, and every access first drops the sessions that have expired.
-/
namespace SP42.Session

def sessionCookieName : Text := "sp42_dev_session".toList

def sessionIdleTimeoutMs : I64 := ⟨30 * 60 * 1000, by decide⟩
def sessionAbsoluteTimeoutMs : I64 := ⟨8 * 60 * 60 * 1000, by decide⟩
def capabilityCacheTtlMs : I64 := ⟨30000, by decide⟩

structure DevAuthDerivedCapabilities where
  canAuthenticate : Bool
  canEdit : Bool
  canPatrol : Bool
  canRollback : Bool
  deriving DecidableEq

structure DevAuthCapabilityReport where
  checked : Bool
  wikiId : String
  capabilities : DevAuthDerivedCapabilities
  error : Option String
  deriving DecidableEq

structure CachedCapabilityReport where
  fetchedAtMs : I64
  report : DevAuthCapabilityReport
  deriving DecidableEq

structure StoredSession where
  username : String
  scopes : List String
  expiresAtMs : Option I64
  accessToken : String
  refreshToken : Option String
  upstreamAccessExpiresAtMs : Option I64
  bridgeMode : String
  csrfToken : String
  createdAtMs : I64
  lastSeenAtMs : I64
  capabilityCache : Std.ExtTreeMap String CachedCapabilityReport

structure SessionSnapshot where
  sessionId : String
  username : String
  scopes : List String
  expiresAtMs : Option I64
  accessToken : String
  bridgeMode : String
  csrfToken : String
  deriving DecidableEq

/-- The sessions of the application state. -/
abbrev Sessions := Std.ExtTreeMap String StoredSession

def effectiveSessionScopes (report : DevAuthCapabilityReport) : List String :=
  (if report.capabilities.canAuthenticate then ["basic"] else []) ++
  (if report.capabilities.canEdit then ["editpage"] else []) ++
  (if report.capabilities.canPatrol then ["patrol"] else []) ++
  (if report.capabilities.canRollback then ["rollback"] else [])

def splitScopeString (value : Text) : List String :=
  ((value.splitOnP Text.isWhitespace).filter (· ≠ [])).map String.ofList

/-- The value of the session cookie in a cookie header. -/
def sessionCookieValue (cookie : Option Text) : Option String :=
  cookie.bind fun header => (header.splitOn ';').findSome? fun entry =>
    let entry := Text.trim entry
    match entry.dropWhile (· ≠ '=') with
    | [] => none
    | _ :: value =>
        let key := Text.trim (entry.takeWhile (· ≠ '='))
        let value := Text.trim value
        if key = sessionCookieName ∧ value ≠ [] then some (String.ofList value) else none

def sessionExpiresAtMs (session : StoredSession) (currentTimeMs : I64) : I64 :=
  let idleDeadline := session.lastSeenAtMs.saturatingAdd sessionIdleTimeoutMs
  let absoluteDeadline := session.createdAtMs.saturatingAdd sessionAbsoluteTimeoutMs
  let deadline := if idleDeadline.val ≤ absoluteDeadline.val then idleDeadline else absoluteDeadline
  let deadline := match session.upstreamAccessExpiresAtMs with
    | some upstream => if deadline.val ≤ upstream.val then deadline else upstream
    | none => deadline
  if deadline.val ≤ currentTimeMs.val then currentTimeMs else deadline

def sessionIsExpired (session : StoredSession) (currentTimeMs : I64) : Bool :=
  decide ((sessionExpiresAtMs session currentTimeMs).val ≤ currentTimeMs.val)

def pruneExpiredSessions (sessions : Sessions) (currentTimeMs : I64) : Sessions :=
  sessions.filter fun _ session => !sessionIsExpired session currentTimeMs

def installSession (sessions : Sessions) (sessionId : String) (priorSessionId : Option String)
    (stored : StoredSession) (currentMs : I64) : Sessions :=
  let sessions := pruneExpiredSessions sessions currentMs
  let sessions := match priorSessionId with
    | some prior => sessions.erase prior
    | none => sessions
  sessions.insert sessionId stored

/-- Seen now, with the deadline that follows from it. -/
def touched (session : StoredSession) (currentTimeMs : I64) : StoredSession :=
  let session := { session with lastSeenAtMs := currentTimeMs }
  { session with expiresAtMs := some (sessionExpiresAtMs session currentTimeMs) }

def snapshotOf (sessionId : String) (session : StoredSession) : SessionSnapshot where
  sessionId := sessionId
  username := session.username
  scopes := session.scopes
  expiresAtMs := session.expiresAtMs
  accessToken := session.accessToken
  bridgeMode := session.bridgeMode
  csrfToken := session.csrfToken

def currentSessionSnapshot (sessions : Sessions) (cookie : Option Text) (touch : Bool)
    (currentTimeMs : I64) : Sessions × Option SessionSnapshot :=
  match sessionCookieValue cookie with
  | none => (sessions, none)
  | some sessionId =>
      let sessions := pruneExpiredSessions sessions currentTimeMs
      match sessions[sessionId]? with
      | none => (sessions, none)
      | some session =>
          let session := if touch then touched session currentTimeMs else session
          (sessions.insert sessionId session, some (snapshotOf sessionId session))

def cacheIsFresh (cache : CachedCapabilityReport) (currentTimeMs : I64) : Bool :=
  decide ((currentTimeMs.saturatingSub cache.fetchedAtMs).val < capabilityCacheTtlMs.val)

def cachedCapabilitiesForSession (sessions : Sessions) (sessionId wikiId : String)
    (currentTimeMs : I64) : Sessions × Option DevAuthCapabilityReport :=
  let sessions := pruneExpiredSessions sessions currentTimeMs
  match sessions[sessionId]? with
  | none => (sessions, none)
  | some session =>
      match session.capabilityCache[wikiId]? with
      | none => (sessions, none)
      | some cache =>
          if cacheIsFresh cache currentTimeMs then
            (sessions.insert sessionId (touched session currentTimeMs), some cache.report)
          else
            (sessions.insert sessionId
              { session with capabilityCache := session.capabilityCache.erase wikiId }, none)

def storeCapabilitiesForSession (sessions : Sessions) (sessionId : String)
    (report : DevAuthCapabilityReport) (currentTimeMs : I64) : Sessions :=
  let sessions := pruneExpiredSessions sessions currentTimeMs
  match sessions[sessionId]? with
  | none => sessions
  | some session =>
      sessions.insert sessionId { session with
        capabilityCache := session.capabilityCache.insert report.wikiId ⟨currentTimeMs, report⟩ }

/-- What the token endpoint, the profile and the probe answered to a login. -/
structure OAuthLogin where
  username : String
  grants : List String
  accessToken : String
  refreshToken : Option String
  scope : Option Text
  expiresIn : Option Nat
  wikiId : String
  capabilityReport : DevAuthCapabilityReport
  csrfToken : String
  deriving DecidableEq

/-- When the access token of the login expires: a number of seconds outside `i64` is dropped. -/
def OAuthLogin.upstreamAccessExpiresAtMs (login : OAuthLogin) (currentMs : I64) : Option I64 :=
  login.expiresIn.bind fun seconds =>
    if (seconds : Int) ≤ i64Max then
      some (currentMs.saturatingAdd (.saturate ((seconds : Int) * 1000)))
    else none

/-- The session that `complete_auth_callback` stores; its first deadline may overflow. -/
def OAuthLogin.storedSession (login : OAuthLogin) (currentMs : I64) : Option StoredSession :=
  (currentMs.add sessionIdleTimeoutMs).map fun expires =>
    { username := login.username
      scopes :=
        if login.capabilityReport.checked ∧ login.capabilityReport.error = none then
          effectiveSessionScopes login.capabilityReport
        else if login.grants ≠ [] then login.grants
        else (login.scope.map splitScopeString).getD []
      expiresAtMs := some expires
      accessToken := login.accessToken
      refreshToken := login.refreshToken
      upstreamAccessExpiresAtMs := login.upstreamAccessExpiresAtMs currentMs
      bridgeMode := "wikimedia-oauth"
      csrfToken := login.csrfToken
      createdAtMs := currentMs
      lastSeenAtMs := currentMs
      capabilityCache := Std.ExtTreeMap.empty.insert login.wikiId ⟨currentMs, login.capabilityReport⟩ }

/-- What `post_bootstrap_session` has read when it installs the local token. -/
structure BootstrapLogin where
  username : String
  accessToken : String
  wikiId : String
  capabilityReport : DevAuthCapabilityReport
  csrfToken : String
  deriving DecidableEq

def BootstrapLogin.storedSession (login : BootstrapLogin) (currentMs : I64) :
    Option StoredSession :=
  (currentMs.add sessionIdleTimeoutMs).map fun expires =>
    { username := login.username
      scopes := effectiveSessionScopes login.capabilityReport
      expiresAtMs := some expires
      accessToken := login.accessToken
      refreshToken := none
      upstreamAccessExpiresAtMs := none
      bridgeMode := "local-env-token"
      csrfToken := login.csrfToken
      createdAtMs := currentMs
      lastSeenAtMs := currentMs
      capabilityCache := Std.ExtTreeMap.empty.insert login.wikiId ⟨currentMs, login.capabilityReport⟩ }

inductive Login where
  | oauth (login : OAuthLogin)
  | bootstrap (login : BootstrapLogin)
  deriving DecidableEq

def Login.storedSession : Login → I64 → Option StoredSession
  | .oauth login => login.storedSession
  | .bootstrap login => login.storedSession

inductive Operation where
  /-- The session id is drawn at random; the cookie names the session it replaces. -/
  | install (login : Login) (sessionId : String) (cookie : Option Text)
  | snapshot (cookie : Option Text) (touch : Bool)
  | cachedCapabilities (sessionId wikiId : String)
  | storeCapabilities (sessionId : String) (report : DevAuthCapabilityReport)
  | sessionCount
  deriving DecidableEq

/-- An operation with the clock time it runs at. -/
structure Access where
  nowMs : I64
  operation : Operation
  deriving DecidableEq

inductive Answer where
  | installed
  | snapshot (snapshot : Option SessionSnapshot)
  | capabilities (report : Option DevAuthCapabilityReport)
  | stored
  | count (sessions : Nat)
  | panicked

def step (sessions : Sessions) (access : Access) : Sessions × Answer :=
  match access.operation with
  | .install login sessionId cookie =>
      match login.storedSession access.nowMs with
      | none => (sessions, .panicked)
      | some stored =>
          (installSession sessions sessionId (sessionCookieValue cookie) stored access.nowMs,
            .installed)
  | .snapshot cookie touch =>
      let (sessions, snapshot) := currentSessionSnapshot sessions cookie touch access.nowMs
      (sessions, .snapshot snapshot)
  | .cachedCapabilities sessionId wikiId =>
      let (sessions, report) := cachedCapabilitiesForSession sessions sessionId wikiId access.nowMs
      (sessions, .capabilities report)
  | .storeCapabilities sessionId report =>
      (storeCapabilitiesForSession sessions sessionId report access.nowMs, .stored)
  | .sessionCount =>
      let sessions := pruneExpiredSessions sessions access.nowMs
      (sessions, .count sessions.size)

end SP42.Session

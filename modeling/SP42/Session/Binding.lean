import SP42.Lib.Run
import SP42.Lib.Total
import SP42.Session.Login

/-!
What a session cookie stands on: the history of the server says which login a state token was
drawn for, which callback took it and which exchange followed. The browsers are only names, and
no step compares them.
-/
namespace SP42.Session

open Traverse (bind_ok)

variable {B : Type}

abbrev LoginEvent (B : Type) := LoginInput B × LoginAnswer B

section History

/-- The event is about the token: it was sent out, or a callback names it. -/
def carries (token : Text) : LoginEvent B → Prop
  | (.login _ request, .sent _) => request.state = token
  | (.callback _ request, _) => request.named = some token
  | _ => False

/-- The login was started, and nothing has been about its token since. -/
def StartedIn (past : List (LoginEvent B)) (starter : B) (request : LoginRequest) : Prop :=
  ∃ earlier url later, past = earlier ++ (.login starter request, .sent url) :: later ∧
    ∀ event ∈ later, ¬ carries request.state event

/-- The exchange goes back to a callback of the browser, whose token belongs to a login that was
started less than ten minutes before and that nothing had taken. -/
def Granted (past : List (LoginEvent B)) (number : Nat) (browser starter : B) : Prop :=
  ∃ before callback request later login,
    past = before ++ (.callback browser callback, .exchanging number request) :: later ∧
    StartedIn before starter login ∧
    callback.nowMs.val < login.nowMs.val + pendingOauthTtlMs.val ∧
    parseCallbackQuery callback.query = .ok (.authorizationCode request.code login.state) ∧
    request.codeVerifier = login.verifier ∧
    ∀ outcome sessionId nowMs answer, (.finish number outcome sessionId nowMs, answer) ∉ later

theorem StartedIn.append {past : List (LoginEvent B)} {starter : B} {request : LoginRequest}
    (started : StartedIn past starter request) {event : LoginEvent B}
    (other : ¬ carries request.state event) : StartedIn (past ++ [event]) starter request := by
  obtain ⟨earlier, url, later, rfl, silent⟩ := started
  refine ⟨earlier, url, later ++ [event], by simp, fun e mem => ?_⟩
  rcases List.mem_append.mp mem with old | new
  · exact silent e old
  · exact List.mem_singleton.mp new ▸ other

theorem Granted.append {past : List (LoginEvent B)} {number : Nat} {browser starter : B}
    (granted : Granted past number browser starter) {event : LoginEvent B}
    (other : ∀ outcome sessionId nowMs, event.1 ≠ .finish number outcome sessionId nowMs) :
    Granted (past ++ [event]) number browser starter := by
  obtain ⟨before, callback, request, later, login, rfl, started, young, read, verifier, open_⟩ :=
    granted
  refine ⟨before, callback, request, later ++ [event], login, by simp, started, young, read, verifier,
    fun outcome sessionId nowMs answer mem => ?_⟩
  rcases List.mem_append.mp mem with old | new
  · exact open_ outcome sessionId nowMs answer old
  · have same := List.mem_singleton.mp new
    exact other outcome sessionId nowMs (congrArg Prod.fst same).symm

end History

section Invariant

/-- A pending login, by what the history knows of it. -/
def Owed (past : List (LoginEvent B)) (token : Text) (entry : PendingOAuthLogin) : Prop :=
  entry.state = token ∧ ∃ starter request, StartedIn past starter request ∧
    request.state = token ∧ entry.verifier = request.verifier ∧
    entry.expiresAtMs.val ≤ request.nowMs.val + pendingOauthTtlMs.val

/-- The tables hold nothing that the history does not account for. -/
structure Accounted (past : List (LoginEvent B)) (s : LoginState B) : Prop where
  pendings : ∀ token entry, s.pendings token = some entry → Owed past token entry
  exchanges : ∀ number exchange, s.exchanges number = some exchange →
    ∃ starter, Granted past number exchange.browser starter

theorem Owed.append {past : List (LoginEvent B)} {token : Text} {entry : PendingOAuthLogin}
    (owed : Owed past token entry) {event : LoginEvent B} (other : ¬ carries token event) :
    Owed (past ++ [event]) token entry := by
  obtain ⟨state, starter, request, started, same, verifier, expires⟩ := owed
  exact ⟨state, starter, request, started.append (same ▸ other), same, verifier, expires⟩

theorem pruned {pendings : PendingLogins} {nowMs : I64} {token : Text} {entry : PendingOAuthLogin}
    (held : pruneExpiredPendingOauthLogins pendings nowMs token = some entry) :
    pendings token = some entry ∧ nowMs.val < entry.expiresAtMs.val := by
  obtain ⟨held, young⟩ := Option.filter_eq_some_iff.mp held
  exact ⟨held, of_decide_eq_true young⟩

/-- A login adds its own token, which expires ten minutes on. -/
theorem login_cases (server : LoginServer) (pendings : PendingLogins) (request : LoginRequest) :
    (∃ message, getAuthLogin server pendings request = (pendings, .error message)) ∨
    ∃ pending url, getAuthLogin server pendings request =
        (storePendingOauthLogin pendings pending request.storedMs, .ok url) ∧
      pending.state = request.state ∧ pending.verifier = request.verifier ∧
      pending.expiresAtMs.val ≤ request.nowMs.val + pendingOauthTtlMs.val := by
  unfold getAuthLogin
  cases prepared : prepareLogin server request with
  | error message => exact .inl ⟨message, rfl⟩
  | ok found =>
      obtain ⟨pending, url⟩ := found
      refine .inr ⟨pending, url, rfl, ?_⟩
      have expires := I64.saturatingAdd_le (a := request.nowMs) (show 0 ≤ pendingOauthTtlMs.val by decide)
      unfold prepareLogin at prepared
      split_ifs at prepared
      obtain ⟨config, -, rest⟩ := bind_ok prepared
      obtain ⟨challenge, -, rest⟩ := bind_ok rest
      obtain ⟨authorizationUrl, -, rest⟩ := bind_ok rest
      cases rest
      exact ⟨rfl, rfl, expires⟩

theorem taken {pendings : PendingLogins} {state token : Text} {nowMs : I64} {entry : PendingOAuthLogin}
    (held : (takePendingOauthLogin pendings state nowMs).1 token = some entry) :
    pendings token = some entry ∧ some state ≠ some token := by
  unfold takePendingOauthLogin at held
  dsimp only at held
  by_cases same : token = state
  · rw [same, Function.update_self] at held
    cases held
  · rw [Function.update_of_ne same] at held
    exact ⟨(pruned held).1, fun named => same (Option.some.inj named).symm⟩

/-- A callback leaves no login behind the token that it names, and goes on with the one it took. -/
theorem callback_cases (server : LoginServer) (pendings : PendingLogins) (request : CallbackRequest) :
    (∀ token entry, (getAuthCallback server pendings request).1 token = some entry →
      pendings token = some entry ∧ request.named ≠ some token) ∧
    ∀ pending tokenRequest,
      (getAuthCallback server pendings request).2 = .exchange pending tokenRequest →
        pendings pending.state = some pending ∧ request.nowMs.val < pending.expiresAtMs.val ∧
        parseCallbackQuery request.query =
          .ok (.authorizationCode tokenRequest.code pending.state) ∧
        tokenRequest.codeVerifier = pending.verifier := by
  unfold getAuthCallback CallbackRequest.named
  cases read : parseCallbackQuery request.query with
  | error message =>
      exact ⟨fun token entry held => ⟨held, fun named => nomatch named⟩, fun _ _ step => nomatch step⟩
  | ok callback =>
      cases callback with
      | authorizationError error errorDescription state =>
          refine ⟨fun token entry held => ?_, fun _ _ step => nomatch step⟩
          cases state with
          | none => exact ⟨held, fun named => nomatch named⟩
          | some state => exact taken held
      | authorizationCode code state =>
          refine ⟨fun token entry held => taken held, fun pending tokenRequest step => ?_⟩
          dsimp only [OAuthCallback.callbackState] at step
          cases found : (takePendingOauthLogin pendings state request.nowMs).2 with
          | none =>
              rw [found] at step
              cases step
          | some entry =>
              rw [found] at step
              dsimp only at step
              split_ifs at step with other
              cases config : server.configFromPending entry with
              | error message =>
                  rw [config] at step
                  cases step
              | ok config =>
                  rw [‹server.configFromPending entry = _›] at step
                  cases step
                  obtain ⟨held, young⟩ := pruned found
                  have same : pending.state = state := not_not.mp other
                  rw [same]
                  exact ⟨held, young, rfl, rfl⟩

variable {server : LoginServer} {past : List (LoginEvent B)} {s : LoginState B}

theorem owed_of_kept {pendings : PendingLogins} {event : LoginEvent B} (accounted : Accounted past s)
    (kept : ∀ token entry, pendings token = some entry →
      s.pendings token = some entry ∧ ¬ carries token event) :
    ∀ token entry, pendings token = some entry → Owed (past ++ [event]) token entry := by
  intro token entry held
  obtain ⟨before, other⟩ := kept token entry held
  exact (accounted.pendings token entry before).append other

theorem granted_of_kept {exchanges : Nat → Option (Exchange B)} {event : LoginEvent B}
    (accounted : Accounted past s)
    (kept : ∀ number exchange, exchanges number = some exchange →
      s.exchanges number = some exchange ∧
        ∀ outcome sessionId nowMs, event.1 ≠ .finish number outcome sessionId nowMs) :
    ∀ number exchange, exchanges number = some exchange →
      ∃ starter, Granted (past ++ [event]) number exchange.browser starter := by
  intro number exchange held
  obtain ⟨before, other⟩ := kept number exchange held
  obtain ⟨starter, granted⟩ := accounted.exchanges number exchange before
  exact ⟨starter, granted.append other⟩

theorem accounted_login (accounted : Accounted past s) (browser : B) (request : LoginRequest) :
    Accounted (past ++ [(.login browser request, (loginStep server s (.login browser request)).2)])
      (loginStep server s (.login browser request)).1 := by
  rcases login_cases server s.pendings request with ⟨message, refused⟩ |
    ⟨pending, url, stored, state, verifier, expires⟩
  · have step : loginStep server s (.login browser request) = (s, .refused message) := by
      simp only [loginStep, refused]
    rw [step]
    exact ⟨owed_of_kept accounted fun token entry held => ⟨held, id⟩,
      granted_of_kept accounted fun number exchange held => ⟨held, fun _ _ _ same => nomatch same⟩⟩
  · have step : loginStep server s (.login browser request) =
        ({ s with pendings := storePendingOauthLogin s.pendings pending request.storedMs },
          .sent url) := by
      simp only [loginStep, stored]
    rw [step]
    refine ⟨fun token entry held => ?_, granted_of_kept accounted
      fun number exchange held => ⟨held, fun _ _ _ same => nomatch same⟩⟩
    dsimp only [storePendingOauthLogin] at held
    by_cases own : token = pending.state
    · rw [own, Function.update_self, Option.some_inj] at held
      rw [own, ← held]
      exact ⟨rfl, browser, request, ⟨past, url, [], rfl, fun event mem => nomatch mem⟩, state.symm,
        verifier, expires⟩
    · rw [Function.update_of_ne own] at held
      exact (accounted.pendings token entry (pruned held).1).append
        fun same => own (same.symm.trans state.symm)

theorem accounted_callback (accounted : Accounted past s) (browser : B) (request : CallbackRequest) :
    Accounted
      (past ++ [(.callback browser request, (loginStep server s (.callback browser request)).2)])
      (loginStep server s (.callback browser request)).1 := by
  obtain ⟨kept, goes⟩ := callback_cases server s.pendings request
  have owed (answer : LoginAnswer B) := @owed_of_kept _ _ _ _ (.callback browser request, answer)
    accounted kept
  have granted (answer : LoginAnswer B) := @granted_of_kept _ _ _ s.exchanges
    (.callback browser request, answer) accounted
    fun number exchange held => ⟨held, fun _ _ _ same => nomatch same⟩
  cases answer : (getAuthCallback server s.pendings request).2 with
  | refused message =>
      have step : loginStep server s (.callback browser request) =
          ({ s with pendings := (getAuthCallback server s.pendings request).1 }, .refused message) := by
        simp only [loginStep, answer]
      rw [step]
      exact ⟨owed _, granted _⟩
  | redirected location =>
      have step : loginStep server s (.callback browser request) =
          ({ s with pendings := (getAuthCallback server s.pendings request).1 },
            .redirected location) := by
        simp only [loginStep, answer]
      rw [step]
      exact ⟨owed _, granted _⟩
  | exchange pending tokenRequest =>
      have step : loginStep server s (.callback browser request) =
          ({ s with
              pendings := (getAuthCallback server s.pendings request).1
              exchanges := Function.update s.exchanges s.next
                (some ⟨browser, request.headers.cookie, pending⟩)
              next := s.next + 1 }, .exchanging s.next tokenRequest) := by
        simp only [loginStep, answer]
      rw [step]
      refine ⟨owed _, fun number exchange held => ?_⟩
      dsimp only at held
      by_cases new : number = s.next
      · rw [new, Function.update_self, Option.some_inj] at held
        subst held
        obtain ⟨pended, young, read, verifier⟩ := goes pending tokenRequest answer
        obtain ⟨-, starter, login, started, same, paired, expires⟩ :=
          accounted.pendings pending.state pending pended
        refine ⟨starter, past, request, tokenRequest, [], login, ?_, started, by omega, ?_,
          verifier.trans paired, fun _ _ _ _ mem => nomatch mem⟩
        · rw [new]
        · rw [same]
          exact read
      · rw [Function.update_of_ne new] at held
        exact granted _ number exchange held

/-- An exchange is finished once, and its cookie goes to the browser of its callback. -/
theorem finish_cases (server : LoginServer) (s : LoginState B) (number : Nat)
    (outcome : Option OAuthLogin) (sessionId : String) (nowMs : I64) :
    (loginStep server s (.finish number outcome sessionId nowMs)).1.pendings = s.pendings ∧
    (∀ other exchange, (loginStep server s (.finish number outcome sessionId nowMs)).1.exchanges other =
      some exchange → s.exchanges other = some exchange ∧ other ≠ number) ∧
    ∀ browser header location,
      (loginStep server s (.finish number outcome sessionId nowMs)).2 =
        .cookie browser header location →
          ∃ exchange, s.exchanges number = some exchange ∧ exchange.browser = browser := by
  cases held : s.exchanges number with
  | none =>
      have step : loginStep server s (.finish number outcome sessionId nowMs) = (s, .failed) := by
        simp only [loginStep, held]
      rw [step]
      refine ⟨rfl, fun other exchange found => ⟨found, ?_⟩, fun _ _ _ answer => nomatch answer⟩
      rintro rfl
      rw [held] at found
      cases found
  | some exchange =>
      have removed : ∀ other found, Function.update s.exchanges number none other = some found →
          s.exchanges other = some found ∧ other ≠ number := by
        intro other found kept
        by_cases same : other = number
        · rw [same, Function.update_self] at kept
          cases kept
        · rw [Function.update_of_ne same] at kept
          exact ⟨kept, same⟩
      cases outcome with
      | none =>
          have step : loginStep server s (.finish number none sessionId nowMs) =
              ({ s with exchanges := Function.update s.exchanges number none }, .failed) := by
            simp only [loginStep, held]
          rw [step]
          exact ⟨rfl, removed, fun _ _ _ answer => nomatch answer⟩
      | some login =>
          have step : loginStep server s (.finish number (some login) sessionId nowMs) =
              ({ s with
                  exchanges := Function.update s.exchanges number none
                  sessions := (finishExchange server s.sessions exchange login sessionId nowMs).1 },
                (finishExchange server s.sessions exchange login sessionId nowMs).2) := by
            simp only [loginStep, held]
          rw [step]
          refine ⟨rfl, removed, fun browser header location answer => ⟨exchange, rfl, ?_⟩⟩
          unfold finishExchange at answer
          split at answer
          · cases answer
          · dsimp only at answer
            split at answer
            · cases answer
            · cases answer
              rfl

theorem accounted_finish (accounted : Accounted past s) (number : Nat) (outcome : Option OAuthLogin)
    (sessionId : String) (nowMs : I64) :
    Accounted (past ++ [(.finish number outcome sessionId nowMs,
        (loginStep server s (.finish number outcome sessionId nowMs)).2)])
      (loginStep server s (.finish number outcome sessionId nowMs)).1 := by
  obtain ⟨pendings, exchanges, -⟩ := finish_cases server s number outcome sessionId nowMs
  refine ⟨owed_of_kept accounted fun token entry held => ⟨pendings ▸ held, id⟩,
    granted_of_kept accounted fun other exchange held => ?_⟩
  obtain ⟨before, different⟩ := exchanges other exchange held
  refine ⟨before, fun _ _ _ same => different ?_⟩
  cases same
  rfl

theorem accounted_step (accounted : Accounted past s) (input : LoginInput B) :
    Accounted (past ++ [(input, (loginStep server s input).2)]) (loginStep server s input).1 := by
  cases input with
  | login browser request => exact accounted_login accounted browser request
  | callback browser request => exact accounted_callback accounted browser request
  | finish number outcome sessionId nowMs =>
      exact accounted_finish accounted number outcome sessionId nowMs

theorem accounted_run (server : LoginServer) (inputs : List (LoginInput B)) :
    Accounted (Run.trace (loginStep server) .start inputs)
      (Run.final (loginStep server) .start inputs) := by
  have start : Accounted ([] : List (LoginEvent B)) .start :=
    ⟨fun _ _ held => (nomatch held), fun _ _ held => (nomatch held)⟩
  exact @Run.history_invariant _ _ _ (loginStep server) Accounted
    (fun _ _ input accounted => accounted_step accounted input) [] .start start inputs

end Invariant

section Cookies

/-- In every run a session cookie goes to a browser only for an exchange of a callback of that
browser, with the token and the verifier of one login, started less than ten minutes before and
taken by no other callback; which browser started it no step asks. -/
theorem cookie_granted (server : LoginServer) (inputs : List (LoginInput B)) (number : Nat)
    (outcome : Option OAuthLogin) (sessionId : String) (nowMs : I64) (browser : B)
    (header location : Text) (past future : List (LoginEvent B))
    (issued : Run.trace (loginStep server) .start inputs =
      past ++ (.finish number outcome sessionId nowMs, .cookie browser header location) :: future) :
    ∃ starter, Granted past number browser starter := by
  obtain ⟨before, after, -, rfl, answer⟩ := Run.trace_split issued
  obtain ⟨-, -, gives⟩ := finish_cases server (Run.final (loginStep server) .start before) number
    outcome sessionId nowMs
  obtain ⟨exchange, held, rfl⟩ := gives browser header location answer.symm
  exact (accounted_run server before).exchanges number exchange held

/-- A server whose configuration never fails. -/
def openServer : LoginServer where
  hosts _ host := some host
  allowedOrigins := []
  hasConfidentialOauthClient := true
  defaultWikiId := "frwiki"
  configForRequest _ _ := .ok ⟨"client".toList, "https://sp42.example/auth/callback".toList⟩
  configFromPending pending := .ok ⟨"client".toList, pending.redirectUri⟩
  codeChallengeFromVerifier verifier := .ok verifier
  buildAuthorizationUrl _ state _ := .ok ("https://meta.wikimedia.org/?state=".toList ++ state)
  sessionCookieHeader sessionId := some sessionId.toList

def sampleHeaders : Headers := ⟨none, some "localhost".toList, none⟩

def sampleLogin : LoginRequest where
  headers := sampleHeaders
  next := none
  wikiId := none
  state := "s".toList
  verifier := "v".toList
  nowMs := ⟨0, by decide⟩
  storedMs := ⟨0, by decide⟩

def sampleCallback : CallbackRequest := ⟨sampleHeaders, "code=c&state=s".toList, ⟨1, by decide⟩⟩

def sampleOutcome : OAuthLogin where
  username := "Attacker"
  grants := []
  accessToken := "t"
  refreshToken := none
  scope := none
  expiresIn := none
  wikiId := "frwiki"
  capabilityReport := ⟨true, "frwiki", ⟨true, false, false, false⟩, none⟩
  csrfToken := "csrf"

/-- One browser starts a login, another one delivers its callback. -/
def crossedRun : List (LoginInput Bool) :=
  [.login false sampleLogin, .callback true sampleCallback,
    .finish 0 (some sampleOutcome) "session" ⟨2, by decide⟩]

theorem StartedIn.mem {past : List (LoginEvent B)} {starter : B} {request : LoginRequest}
    (started : StartedIn past starter request) : ∃ url, (.login starter request, .sent url) ∈ past := by
  obtain ⟨earlier, url, later, rfl, -⟩ := started
  exact ⟨url, by simp⟩

def crossedPast : List (LoginEvent Bool) :=
  [(.login false sampleLogin, .sent "https://meta.wikimedia.org/?state=s".toList),
    (.callback true sampleCallback, .exchanging 0 ⟨"client".toList,
      "https://sp42.example/auth/callback".toList, "c".toList, "v".toList⟩)]

/-- The cookie of a login that one browser started is given to another. -/
theorem cookie_to_other_browser :
    Run.trace (loginStep openServer) .start crossedRun =
        crossedPast ++ [(.finish 0 (some sampleOutcome) "session" ⟨2, by decide⟩,
          .cookie true "session".toList "/?auth=oauth-ok".toList)] ∧
      ¬ Granted crossedPast 0 true true := by
  refine ⟨rfl, ?_⟩
  rintro ⟨before, callback, request, later, login, whole, started, -⟩
  obtain ⟨url, mem⟩ := started.mem
  have inside : (LoginInput.login true login, LoginAnswer.sent url) ∈ crossedPast := by
    rw [whole]
    exact List.mem_append_left _ mem
  simp [crossedPast] at inside

theorem crossed_cookie_granted : ∃ starter, Granted crossedPast 0 true starter :=
  cookie_granted openServer crossedRun 0 (some sampleOutcome) "session" ⟨2, by decide⟩ true
    "session".toList "/?auth=oauth-ok".toList crossedPast [] rfl

end Cookies

end SP42.Session

import SP42.Session.Store
import SP42.Lib.Run

/-!
How long a session lives. The history of the store says when each session was installed
and last touched; the stored records agree with it, and the three deadlines follow.
-/
namespace SP42.Session

/-- What the history says of the session under an id. -/
structure Account where
  installedAt : I64
  upstream : Option I64
  lastTouch : I64

abbrev Event := Access × Answer

/-- The session that an answer gives back. -/
def returned : Event → Option String
  | (_, .snapshot (some snapshot)) => some snapshot.sessionId
  | (⟨_, .cachedCapabilities sessionId _⟩, .capabilities (some _)) => some sessionId
  | _ => none

/-- The session that an access extends. -/
def touches : Event → Option String
  | (⟨_, .snapshot _ true⟩, .snapshot (some snapshot)) => some snapshot.sessionId
  | (⟨_, .cachedCapabilities sessionId _⟩, .capabilities (some _)) => some sessionId
  | _ => none

/-- The session that a login installs. -/
def installs : Event → Option (String × Login)
  | (⟨_, .install login sessionId _⟩, .installed) => some (sessionId, login)
  | _ => none

def Login.upstream : Login → I64 → Option I64
  | .oauth login, currentMs => login.upstreamAccessExpiresAtMs currentMs
  | .bootstrap _, _ => none

/-- The account of a session after one more event. -/
def note (sessionId : String) (account : Option Account) (event : Event) : Option Account :=
  match installs event with
  | some (installed, login) =>
      if installed = sessionId then
        some ⟨event.1.nowMs, login.upstream event.1.nowMs, event.1.nowMs⟩
      else account
  | none =>
      if touches event = some sessionId then
        account.map fun account => { account with lastTouch := event.1.nowMs }
      else account

def accountOf (sessionId : String) (history : List Event) : Option Account :=
  history.foldl (note sessionId) none

/-- The three bounds on the times at which a session may be returned. -/
structure Account.Alive (account : Account) (t : I64) : Prop where
  absolute : t.val < account.installedAt.val + sessionAbsoluteTimeoutMs.val
  upstream : ∀ upstream ∈ account.upstream, t.val < upstream.val
  idle : t.val < account.lastTouch.val + sessionIdleTimeoutMs.val

/-- The three bounds on a deadline that is stored. -/
structure Account.Within (account : Account) (deadline : I64) : Prop where
  absolute : deadline.val ≤ account.installedAt.val + sessionAbsoluteTimeoutMs.val
  upstream : ∀ upstream ∈ account.upstream, deadline.val ≤ upstream.val
  idle : deadline.val ≤ account.lastTouch.val + sessionIdleTimeoutMs.val

def after (accesses : List Access) : Sessions := Run.final step ∅ accesses

def history (accesses : List Access) : List Event := Run.trace step ∅ accesses

structure LifetimeBounds (accesses : List Access) : Prop where
  returned : ∀ before access rest sessionId, accesses = before ++ access :: rest →
    returned (access, (step (after before) access).2) = some sessionId →
      ∃ account ∈ accountOf sessionId (history before), account.Alive access.nowMs
  written : ∀ before rest sessionId session, accesses = before ++ rest →
    (after before)[sessionId]? = some session →
      ∃ account ∈ accountOf sessionId (history before),
        ∀ deadline ∈ session.expiresAtMs, account.Within deadline
  gone : ∀ before rest sessionId now, accesses = before ++ rest →
    (∀ session ∈ (after before)[sessionId]?, sessionIsExpired session now = true) →
    (∀ access ∈ rest, now.val ≤ access.nowMs.val) →
    (∀ event ∈ Run.trace step (after before) rest, (installs event).map Prod.fst ≠ some sessionId) →
      ∀ event ∈ Run.trace step (after before) rest, Session.returned event ≠ some sessionId

section Deadlines

variable {session : StoredSession} {now : I64}

theorem not_expired_iff : sessionIsExpired session now = false ↔
    now.val < (session.lastSeenAtMs.saturatingAdd sessionIdleTimeoutMs).val ∧
      now.val < (session.createdAtMs.saturatingAdd sessionAbsoluteTimeoutMs).val ∧
      ∀ upstream ∈ session.upstreamAccessExpiresAtMs, now.val < upstream.val := by
  rw [sessionIsExpired, decide_eq_false_iff_not, not_le, sessionExpiresAtMs]
  cases session.upstreamAccessExpiresAtMs with
  | none =>
      simp only [Option.not_mem_none, false_imp_iff, implies_true, and_true]
      split_ifs <;> omega
  | some upstream =>
      simp only [Option.mem_some_iff, forall_eq']
      split_ifs <;> omega

/-- Each of the three deadlines bounds what is written, as soon as it is not past. -/
theorem sessionExpiresAtMs_le {bound : Int} (late : now.val ≤ bound)
    (capped : (session.lastSeenAtMs.saturatingAdd sessionIdleTimeoutMs).val ≤ bound ∨
      (session.createdAtMs.saturatingAdd sessionAbsoluteTimeoutMs).val ≤ bound ∨
      ∃ upstream ∈ session.upstreamAccessExpiresAtMs, upstream.val ≤ bound) :
    (sessionExpiresAtMs session now).val ≤ bound := by
  rw [sessionExpiresAtMs]
  cases named : session.upstreamAccessExpiresAtMs with
  | none =>
      rw [named] at capped
      simp only [Option.not_mem_none, false_and, exists_false, or_false] at capped
      dsimp only
      split_ifs <;> omega
  | some upstream =>
      rw [named] at capped
      simp only [Option.mem_some_iff, exists_eq_left'] at capped
      dsimp only
      split_ifs <;> omega

/-- An expired session stays expired. -/
theorem expired_later {later : I64} (h : sessionIsExpired session now = true)
    (ordered : now.val ≤ later.val) : sessionIsExpired session later = true := by
  rw [← Bool.not_eq_false] at h ⊢
  rw [not_expired_iff] at h ⊢
  rintro ⟨idle, absolute, upstream⟩
  exact h ⟨by omega, by omega, fun u hu => by have := upstream u hu; omega⟩

def StoredSession.account (session : StoredSession) : Account :=
  ⟨session.createdAtMs, session.upstreamAccessExpiresAtMs, session.lastSeenAtMs⟩

theorem alive_of_not_expired (h : sessionIsExpired session now = false) :
    session.account.Alive now := by
  obtain ⟨idle, absolute, upstream⟩ := not_expired_iff.mp h
  have idleBound : (session.lastSeenAtMs.saturatingAdd sessionIdleTimeoutMs).val ≤ _ :=
    I64.saturatingAdd_le (by decide)
  have absoluteBound : (session.createdAtMs.saturatingAdd sessionAbsoluteTimeoutMs).val ≤ _ :=
    I64.saturatingAdd_le (by decide)
  exact ⟨by dsimp only [StoredSession.account]; omega, upstream,
    by dsimp only [StoredSession.account]; omega⟩

/-- The deadline that a touch writes keeps the bounds of the touched session. -/
theorem touched_within (h : sessionIsExpired session now = false) :
    ∀ deadline ∈ (touched session now).expiresAtMs,
      (touched session now).account.Within deadline := by
  obtain ⟨-, absolute, upstream⟩ := not_expired_iff.mp h
  have idleBound : (now.saturatingAdd sessionIdleTimeoutMs).val ≤ _ :=
    I64.saturatingAdd_le (by decide)
  have absoluteBound : (session.createdAtMs.saturatingAdd sessionAbsoluteTimeoutMs).val ≤ _ :=
    I64.saturatingAdd_le (by decide)
  have timeout : 0 ≤ sessionIdleTimeoutMs.val := by decide
  intro deadline written
  obtain rfl := Option.some.inj written
  refine ⟨?_, fun u member => ?_, ?_⟩
  · exact sessionExpiresAtMs_le (by dsimp only [touched, StoredSession.account]; omega)
      (.inr (.inl absoluteBound))
  · exact sessionExpiresAtMs_le (upstream u member).le (.inr (.inr ⟨u, member, le_refl _⟩))
  · exact sessionExpiresAtMs_le (by dsimp only [touched, StoredSession.account]; omega)
      (.inl idleBound)

end Deadlines

section Steps

variable {sessions : Sessions} {sessionId : String} {session : StoredSession} {now : I64}

theorem getElem?_prune (sessions : Sessions) (now : I64) (sessionId : String) :
    (pruneExpiredSessions sessions now)[sessionId]? =
      sessions[sessionId]?.filter fun session => !sessionIsExpired session now :=
  Std.ExtTreeMap.getElem?_filter'

theorem of_prune (h : (pruneExpiredSessions sessions now)[sessionId]? = some session) :
    sessions[sessionId]? = some session ∧ sessionIsExpired session now = false := by
  rw [getElem?_prune, Option.filter_eq_some_iff] at h
  exact ⟨h.1, by simpa using h.2⟩

/-- What one event does to the record of one session: it installs it, touches it while it is
alive, or leaves its times as they are. -/
inductive Evolves (sessions : Sessions) (sessionId : String) (event : Event)
    (session : StoredSession) : Prop
  | installed (login : Login) (installs : installs event = some (sessionId, login))
      (stored : login.storedSession event.1.nowMs = some session)
  | touched (old : StoredSession) (held : sessions[sessionId]? = some old)
      (alive : sessionIsExpired old event.1.nowMs = false) (none : installs event = none)
      (touches : touches event = some sessionId)
      (same : session = Session.touched old event.1.nowMs)
  | kept (old : StoredSession) (held : sessions[sessionId]? = some old)
      (other : ∀ login, installs event ≠ some (sessionId, login))
      (untouched : touches event ≠ some sessionId) (account : session.account = old.account)
      (deadline : session.expiresAtMs = old.expiresAtMs)

theorem Evolves.of_prune {event : Event}
    (h : (pruneExpiredSessions sessions event.1.nowMs)[sessionId]? = some session)
    (other : ∀ login, installs event ≠ some (sessionId, login))
    (untouched : touches event ≠ some sessionId) : Evolves sessions sessionId event session :=
  .kept session (Session.of_prune h).1 other untouched rfl rfl

theorem Evolves.of_insert {event : Event} {readId : String} {new : StoredSession}
    (h : ((pruneExpiredSessions sessions event.1.nowMs).insert readId new)[sessionId]? =
      some session)
    (own : readId = sessionId → Evolves sessions sessionId event new)
    (other : ∀ login, installs event ≠ some (sessionId, login))
    (untouched : readId ≠ sessionId → touches event ≠ some sessionId) :
    Evolves sessions sessionId event session := by
  rw [Std.ExtTreeMap.getElem?_insert] at h
  simp only [Std.LawfulEqCmp.compare_eq_iff_eq] at h
  split at h
  · next same =>
      obtain rfl := Option.some.inj h
      exact own same
  · next differs => exact .of_prune h other (untouched differs)

theorem installSession_evolves {event : Event} {installedId : String} {prior : Option String}
    {stored : StoredSession} {login : Login} (installed : installs event = some (installedId, login))
    (untouched : touches event = none) (built : login.storedSession event.1.nowMs = some stored)
    (h : (installSession sessions installedId prior stored event.1.nowMs)[sessionId]? =
      some session) : Evolves sessions sessionId event session := by
  simp only [installSession, Std.ExtTreeMap.getElem?_insert,
    Std.LawfulEqCmp.compare_eq_iff_eq] at h
  split at h
  · next same =>
      cases h
      subst same
      exact .installed login installed built
  · next differs =>
      refine Evolves.of_prune ?_ ?_ (by rw [untouched]; nofun)
      · cases prior with
        | none => exact h
        | some prior =>
            rw [Std.ExtTreeMap.getElem?_erase] at h
            split at h
            · cases h
            · exact h
      · intro other same
        rw [installed] at same
        exact differs (Prod.mk.inj (Option.some.inj same)).1

theorem step_evolves {access : Access}
    (h : (step sessions access).1[sessionId]? = some session) :
    Evolves sessions sessionId (access, (step sessions access).2) session := by
  obtain ⟨now, operation⟩ := access
  cases operation with
  | install login installedId cookie =>
      simp only [step] at h ⊢
      cases built : login.storedSession now with
      | none =>
          rw [built] at h
          exact .kept session h (fun _ => nofun) nofun rfl rfl
      | some new =>
          rw [built] at h
          exact installSession_evolves rfl rfl built h
  | snapshot cookie touch =>
      simp only [step, currentSessionSnapshot] at h ⊢
      cases named : sessionCookieValue cookie with
      | none =>
          rw [named] at h
          exact .kept session h (fun _ => nofun) (by cases touch <;> nofun) rfl rfl
      | some readId =>
          rw [named] at h
          dsimp only at h ⊢
          cases found : (pruneExpiredSessions sessions now)[readId]? with
          | none =>
              rw [found] at h
              exact .of_prune h (fun _ => nofun) (by cases touch <;> nofun)
          | some old =>
              rw [found] at h
              obtain ⟨held, alive⟩ := of_prune found
              cases touch with
              | true =>
                  exact .of_insert h
                    (fun same => .touched old (same ▸ held) alive rfl (congrArg some same) rfl)
                    (fun _ => nofun) fun differs same => differs (Option.some.inj same)
              | false =>
                  exact .of_insert h
                    (fun same => .kept old (same ▸ held) (fun _ => nofun) nofun rfl rfl)
                    (fun _ => nofun) fun _ => nofun
  | cachedCapabilities readId wikiId =>
      simp only [step, cachedCapabilitiesForSession] at h ⊢
      cases found : (pruneExpiredSessions sessions now)[readId]? with
      | none =>
          rw [found] at h
          exact .of_prune h (fun _ => nofun) nofun
      | some old =>
          rw [found] at h
          obtain ⟨held, alive⟩ := of_prune found
          dsimp only at h ⊢
          cases cached : old.capabilityCache[wikiId]? with
          | none =>
              rw [cached] at h
              exact .of_prune h (fun _ => nofun) nofun
          | some cache =>
              rw [cached] at h
              dsimp only at h ⊢
              cases fresh : cacheIsFresh cache now with
              | true =>
                  rw [fresh] at h
                  exact .of_insert h
                    (fun same => .touched old (same ▸ held) alive rfl (congrArg some same) rfl)
                    (fun _ => nofun) fun differs same => differs (Option.some.inj same)
              | false =>
                  rw [fresh] at h
                  exact .of_insert h
                    (fun same => .kept old (same ▸ held) (fun _ => nofun) nofun rfl rfl)
                    (fun _ => nofun) fun _ => nofun
  | storeCapabilities readId report =>
      simp only [step, storeCapabilitiesForSession] at h ⊢
      cases found : (pruneExpiredSessions sessions now)[readId]? with
      | none =>
          rw [found] at h
          exact .of_prune h (fun _ => nofun) nofun
      | some old =>
          rw [found] at h
          exact .of_insert h
            (fun same => .kept old (same ▸ (of_prune found).1) (fun _ => nofun) nofun rfl rfl)
            (fun _ => nofun) fun _ => nofun
  | sessionCount => exact .of_prune h (fun _ => nofun) nofun

/-- What an answer gives back is in the store and has not expired. -/
theorem returned_alive {access : Access}
    (h : returned (access, (step sessions access).2) = some sessionId) :
    ∃ session, sessions[sessionId]? = some session ∧
      sessionIsExpired session access.nowMs = false := by
  obtain ⟨now, operation⟩ := access
  cases operation with
  | install login installedId cookie =>
      simp only [step] at h
      cases built : login.storedSession now with
      | none => rw [built] at h; cases h
      | some new => rw [built] at h; cases h
  | snapshot cookie touch =>
      simp only [step, currentSessionSnapshot] at h
      cases named : sessionCookieValue cookie with
      | none => rw [named] at h; cases h
      | some readId =>
          rw [named] at h
          dsimp only at h
          cases found : (pruneExpiredSessions sessions now)[readId]? with
          | none => rw [found] at h; cases h
          | some old =>
              rw [found] at h
              obtain rfl : readId = sessionId := Option.some.inj h
              exact ⟨old, of_prune found⟩
  | cachedCapabilities readId wikiId =>
      simp only [step, cachedCapabilitiesForSession] at h
      cases found : (pruneExpiredSessions sessions now)[readId]? with
      | none => rw [found] at h; cases h
      | some old =>
          rw [found] at h
          dsimp only at h
          have same : readId = sessionId := by
            cases cached : old.capabilityCache[wikiId]? with
            | none => rw [cached] at h; cases h
            | some cache =>
                rw [cached] at h
                dsimp only at h
                cases fresh : cacheIsFresh cache now with
                | true => rw [fresh] at h; exact Option.some.inj h
                | false => rw [fresh] at h; cases h
          subst same
          exact ⟨old, of_prune found⟩
  | storeCapabilities readId report => cases h
  | sessionCount => cases h

end Steps

section History

/-- The stored times are those of the history. -/
def Tracks (past : List Event) (sessions : Sessions) : Prop :=
  ∀ sessionId session, sessions[sessionId]? = some session →
    accountOf sessionId past = some session.account

theorem storedSession_account {login : Login} {now : I64} {session : StoredSession}
    (h : login.storedSession now = some session) :
    session.account = ⟨now, login.upstream now, now⟩ := by
  cases login with
  | oauth login =>
      obtain ⟨expires, -, rfl⟩ := Option.map_eq_some_iff.mp h
      rfl
  | bootstrap login =>
      obtain ⟨expires, -, rfl⟩ := Option.map_eq_some_iff.mp h
      rfl

theorem accountOf_append (sessionId : String) (past : List Event) (event : Event) :
    accountOf sessionId (past ++ [event]) = note sessionId (accountOf sessionId past) event := by
  rw [accountOf, List.foldl_append]
  rfl

theorem step_tracks {past : List Event} {sessions : Sessions} (access : Access)
    (h : Tracks past sessions) :
    Tracks (past ++ [(access, (step sessions access).2)]) (step sessions access).1 := by
  intro sessionId session held
  rw [accountOf_append, note]
  cases step_evolves held with
  | installed login installs stored =>
      rw [installs, storedSession_account stored]
      exact if_pos rfl
  | touched old before alive none touches same =>
      rw [none, h sessionId old before, same]
      exact if_pos touches
  | kept old before other untouched account deadline =>
      rw [account, ← h sessionId old before]
      cases installed : installs (access, (step sessions access).2) with
      | none => exact if_neg untouched
      | some named =>
          obtain ⟨installedId, login⟩ := named
          refine if_neg fun same => other login ?_
          rw [installed, same]

theorem after_tracks (accesses : List Access) : Tracks (history accesses) (after accesses) := by
  have start : Tracks [] (∅ : Sessions) := by
    intro sessionId session held
    rw [Std.ExtTreeMap.getElem?_empty] at held
    cases held
  exact Run.history_invariant (fun past sessions access h => step_tracks access h) start accesses

theorem expired_congr {a b : StoredSession} (h : a.account = b.account) (now : I64) :
    sessionIsExpired a now = sessionIsExpired b now := by
  simp only [StoredSession.account, Account.mk.injEq] at h
  rw [Bool.eq_iff_iff, ← not_iff_not, Bool.not_eq_true, Bool.not_eq_true, not_expired_iff,
    not_expired_iff, h.1, h.2.1, h.2.2]

/-- The record under the id, if any, has expired at `now`. -/
def Gone (sessionId : String) (now : I64) (sessions : Sessions) : Prop :=
  ∀ session ∈ sessions[sessionId]?, sessionIsExpired session now = true

theorem Gone.not_returned {sessionId : String} {now : I64} {sessions : Sessions}
    (h : Gone sessionId now sessions) {access : Access} (later : now.val ≤ access.nowMs.val) :
    returned (access, (step sessions access).2) ≠ some sessionId := by
  intro given
  obtain ⟨session, held, alive⟩ := returned_alive given
  rw [expired_later (h session held) later] at alive
  cases alive

theorem Gone.step {sessionId : String} {now : I64} {sessions : Sessions}
    (h : Gone sessionId now sessions) {access : Access} (later : now.val ≤ access.nowMs.val)
    (other : (installs (access, (step sessions access).2)).map Prod.fst ≠ some sessionId) :
    Gone sessionId now (step sessions access).1 := by
  intro session held
  cases step_evolves held with
  | installed login installs stored =>
      rw [installs] at other
      exact absurd rfl other
  | touched old before alive none touches same =>
      rw [expired_later (h old before) later] at alive
      cases alive
  | kept old before other untouched account deadline =>
      rw [expired_congr account]
      exact h old before

theorem Gone.run {sessionId : String} {now : I64} {sessions : Sessions}
    (h : Gone sessionId now sessions) (rest : List Access)
    (later : ∀ access ∈ rest, now.val ≤ access.nowMs.val)
    (other : ∀ event ∈ Run.trace Session.step sessions rest,
      (installs event).map Prod.fst ≠ some sessionId) :
    ∀ event ∈ Run.trace Session.step sessions rest, returned event ≠ some sessionId := by
  induction rest generalizing sessions with
  | nil => exact fun event member => by cases member
  | cons access rest ih =>
      obtain ⟨first, others⟩ := List.forall_mem_cons.mp later
      obtain ⟨own, apart⟩ := List.forall_mem_cons.mp other
      exact List.forall_mem_cons.mpr ⟨h.not_returned first, ih (h.step first own) others apart⟩

end History

section Deadline

/-- The access token of a login lives at least as long as the idle timeout. -/
def Access.Roomy (access : Access) : Prop :=
  match access.operation with
  | .install (.oauth login) _ _ =>
      access.nowMs.val + sessionIdleTimeoutMs.val ≤ i64Max →
        ∀ seconds ∈ login.expiresIn, (seconds : Int) ≤ i64Max →
          sessionIdleTimeoutMs.val ≤ seconds * 1000
  | _ => True

/-- Every stored deadline keeps the bounds of its session. -/
def Bounded (sessions : Sessions) : Prop :=
  ∀ (sessionId : String) (session : StoredSession), sessions[sessionId]? = some session →
    ∀ deadline ∈ session.expiresAtMs, session.account.Within deadline

theorem add_eq_some {a b c : I64} (h : a.add b = some c) :
    c.val = a.val + b.val ∧ a.val + b.val ≤ i64Max := by
  unfold I64.add at h
  split at h
  · next fits =>
      cases h
      exact ⟨rfl, fits.2⟩
  · cases h

theorem expiry_room {login : OAuthLogin} {now : I64} (fits : now.val + sessionIdleTimeoutMs.val ≤ i64Max) :
    (∀ upstream ∈ login.upstreamAccessExpiresAtMs now,
        now.val + sessionIdleTimeoutMs.val ≤ upstream.val) ↔
      ∀ seconds ∈ login.expiresIn, (seconds : Int) ≤ i64Max →
        sessionIdleTimeoutMs.val ≤ seconds * 1000 := by
  have bounds := now.property
  have timeout : sessionIdleTimeoutMs.val = 1800000 := rfl
  unfold OAuthLogin.upstreamAccessExpiresAtMs
  cases login.expiresIn with
  | none => simp
  | some seconds =>
      by_cases fitting : (seconds : Int) ≤ i64Max
      · simp only [Option.bind_some, fitting, if_true, Option.mem_some_iff, forall_eq',
          forall_const, I64.saturatingAdd, I64.saturate]
        unfold i64Min i64Max at *
        omega
      · simp [fitting]

/-- What a login stores keeps its bounds exactly when the access token lives long enough. -/
theorem stored_within_iff {login : Login} {sessionId : String} {cookie : Option Text} {now : I64}
    {session : StoredSession} (h : login.storedSession now = some session) :
    (∀ deadline ∈ session.expiresAtMs, session.account.Within deadline) ↔
      (Access.mk now (.install login sessionId cookie)).Roomy := by
  have timeouts : sessionIdleTimeoutMs.val ≤ sessionAbsoluteTimeoutMs.val := by decide
  rw [storedSession_account h]
  cases login with
  | oauth login =>
      obtain ⟨expires, sum, rfl⟩ := Option.map_eq_some_iff.mp h
      obtain ⟨value, fits⟩ := add_eq_some sum
      have room := @expiry_room login now fits
      constructor
      · intro within _
        exact room.mp fun upstream member => value ▸ (within expires rfl).upstream upstream member
      · intro roomy deadline written
        obtain rfl := Option.some.inj written
        refine ⟨by dsimp only; omega, fun upstream member => ?_, by dsimp only; omega⟩
        rw [value]
        exact room.mpr (roomy fits) upstream member
  | bootstrap login =>
      obtain ⟨expires, sum, rfl⟩ := Option.map_eq_some_iff.mp h
      obtain ⟨value, fits⟩ := add_eq_some sum
      refine iff_of_true (fun deadline written => ?_) trivial
      obtain rfl := Option.some.inj written
      refine ⟨by dsimp only; omega, fun upstream member => ?_, by dsimp only; omega⟩
      cases member

theorem step_bounded {sessions : Sessions} {access : Access} (roomy : access.Roomy)
    (h : Bounded sessions) : Bounded (step sessions access).1 := by
  intro sessionId session held
  cases step_evolves held with
  | installed login installed stored =>
      obtain ⟨now, operation⟩ := access
      cases operation with
      | install named installedId cookie =>
          obtain rfl : named = login := by
            revert installed
            cases (step sessions ⟨now, .install named installedId cookie⟩).2 with
            | installed => exact fun same => (Prod.mk.inj (Option.some.inj same)).2
            | _ => exact fun same => by cases same
          exact (stored_within_iff stored).mpr roomy
      | snapshot => cases installed
      | cachedCapabilities => cases installed
      | storeCapabilities => cases installed
      | sessionCount => cases installed
  | touched old before alive none touches same =>
      rw [same]
      exact touched_within alive
  | kept old before other untouched account deadline =>
      rw [account, deadline]
      exact h sessionId old before

theorem after_bounded {accesses : List Access} (roomy : ∀ access ∈ accesses, access.Roomy) :
    Bounded (after accesses) := by
  have start : Bounded (∅ : Sessions) := by
    intro sessionId session held
    rw [Std.ExtTreeMap.getElem?_empty] at held
    cases held
  exact Run.final_invariant
    (fun sessions access (allowed : access.Roomy) h => step_bounded allowed h) start accesses roomy

theorem after_append (before : List Access) (access : Access) :
    after (before ++ [access]) = (step (after before) access).1 :=
  Run.final_append ∅ before [access]

/-- A login whose token expires too early stores a deadline beyond it. -/
theorem not_bounded_of_cramped {before : List Access} {access : Access} (cramped : ¬ access.Roomy) :
    ∃ (sessionId : String) (session : StoredSession),
      (after (before ++ [access]))[sessionId]? = some session ∧
      ¬ ∀ deadline ∈ session.expiresAtMs, session.account.Within deadline := by
  obtain ⟨now, operation⟩ := access
  cases operation with
  | install login installedId cookie =>
      cases built : login.storedSession now with
      | some stored =>
          refine ⟨installedId, stored, ?_, fun within => cramped ((stored_within_iff built).mp within)⟩
          rw [after_append]
          simp only [step, built, installSession, Std.ExtTreeMap.getElem?_insert_self]
      | none =>
          refine absurd ?_ cramped
          cases login with
          | oauth login =>
              intro fits
              have bounds := now.property
              have overflow := Option.map_eq_none_iff.mp built
              have timeout : sessionIdleTimeoutMs.val = 1800000 := rfl
              rw [I64.add, dif_pos ⟨by unfold i64Min at *; omega, fits⟩] at overflow
              cases overflow
          | bootstrap login => trivial
  | snapshot => exact absurd trivial cramped
  | cachedCapabilities => exact absurd trivial cramped
  | storeCapabilities => exact absurd trivial cramped
  | sessionCount => exact absurd trivial cramped

/-- Exactly when the lifetime bounds hold along a run: what is returned keeps them always, what
is stored keeps them unless a login installs a token that expires within the idle timeout. -/
theorem lifetime_bounds_iff (accesses : List Access) :
    LifetimeBounds accesses ↔ ∀ access ∈ accesses, access.Roomy := by
  constructor
  · intro bounds access member
    obtain ⟨before, rest, rfl⟩ := List.append_of_mem member
    by_contra cramped
    obtain ⟨sessionId, session, held, exceeds⟩ := @not_bounded_of_cramped before access cramped
    obtain ⟨account, named, within⟩ := bounds.written (before ++ [access]) rest sessionId session
      (by rw [List.append_assoc]; rfl) held
    have own := after_tracks (before ++ [access]) sessionId session held
    rw [named] at own
    cases own
    exact exceeds within
  · intro roomy
    constructor
    · intro before access rest sessionId split given
      obtain ⟨session, held, alive⟩ := returned_alive given
      exact ⟨session.account, after_tracks before sessionId session held, alive_of_not_expired alive⟩
    · intro before rest sessionId session split held
      subst split
      exact ⟨session.account, after_tracks before sessionId session held,
        after_bounded (fun access member => roomy access (List.mem_append_left _ member)) sessionId
          session held⟩
    · intro before rest sessionId now split expired later other
      exact Gone.run expired rest later other

end Deadline

section ShortToken

/-- A login whose access token expires after five minutes. -/
def shortLogin : OAuthLogin where
  username := "Ada"
  grants := []
  accessToken := "token"
  refreshToken := none
  scope := none
  expiresIn := some 300
  wikiId := "testwiki"
  capabilityReport := ⟨true, "testwiki", ⟨true, true, false, false⟩, none⟩
  csrfToken := "csrf"

def shortAccess : Access := ⟨.saturate 1000000, .install (.oauth shortLogin) "session" none⟩

/-- The stored deadline is 25 minutes behind the expiry of the token. -/
theorem short_token_outlived : ¬ LifetimeBounds [shortAccess] := by
  intro bounds
  have cramped : ¬ shortAccess.Roomy := by
    intro roomy
    exact absurd (roomy (by decide) 300 rfl (by decide)) (by decide)
  obtain ⟨sessionId, session, held, exceeds⟩ := @not_bounded_of_cramped [] shortAccess cramped
  obtain ⟨account, named, within⟩ := bounds.written [shortAccess] [] sessionId session rfl held
  have own := after_tracks [shortAccess] sessionId session held
  rw [named] at own
  cases own
  exact exceeds within

end ShortToken

end SP42.Session

import Mathlib
import SP42.Live.Backlog
import SP42.Scoring.Ranking

/-!
The two ways to a live queue: from the snapshot of the supervisor's last poll, or from a
fetch of the recent changes. A query gate says which queries may take the first.
-/
namespace SP42.Live

open Scoring (PatrolEvent QueuedEdit QueueHeuristicPolicy ScoringConfig ScoringError EditorIdentity
  buildRankedQueue buildRankedQueueWithPolicy scoreOf scoredIn Scores)

/-- The payload of a resolved public document, as far as the queue policy reads it. -/
inductive PublicPayload where
  | ruleSet (trustedUsers : List Text) (duplicateClusterBoost : FlagState)
  | team (trustedUsers : List Text)
  | other

structure LiveOperatorPublicContextState where
  activeRuleSet : Option PublicPayload
  activeTeam : Option PublicPayload

/-- `sort` and then `dedup`. -/
def sortedUsernames (usernames : List Text) : List Text :=
  (usernames.insertionSort fun a b => a ≤ b).destutter (· ≠ ·)

def liveQueuePolicyFromPublicContext (context : LiveOperatorPublicContextState) :
    QueueHeuristicPolicy :=
  let (fromRules, duplicateClusterBoost) :=
    match context.activeRuleSet with
    | some (.ruleSet trustedUsers boost) => (trustedUsers, boost)
    | _ => ([], .enabled)
  let fromTeam :=
    match context.activeTeam with
    | some (.team trustedUsers) => trustedUsers
    | _ => []
  ⟨sortedUsernames (fromRules ++ fromTeam), duplicateClusterBoost⟩

namespace LiveOperatorQuery

def canUseSupervisorSnapshot (self : LiveOperatorQuery) : Bool :=
  let query := self.normalized
  query.rccontinue.isNone && !query.includeBots.isEnabled && !query.unpatrolledOnly.isEnabled &&
    query.includeMinor.isEnabled && query.includeAnonymous.isEnabled &&
    query.includeRegistered.isEnabled && query.includeTemporary.isEnabled &&
    query.includeNewPages.isEnabled && query.tagFilter.isNone && decide (query.namespaces = []) &&
    query.minScore.isNone

end LiveOperatorQuery

def liveOperatorQueryMatches (item : QueuedEdit) (query : LiveOperatorQuery) : Bool :=
  !(query.minScore.any fun minScore => decide (item.score.total.val < minScore.val)) &&
  !(!query.includeRegistered.isEnabled && item.event.performer.isRegistered) &&
  !(!query.includeTemporary.isEnabled && item.event.performer.isTemporary) &&
  !(!query.includeAnonymous.isEnabled && item.event.performer.isAnonymous) &&
  !(!query.includeBots.isEnabled && item.event.isBot.isEnabled) &&
  !(!query.includeMinor.isEnabled && item.event.isMinor.isEnabled) &&
  !(!query.includeNewPages.isEnabled && item.event.isNewPage.isEnabled) &&
  !(query.unpatrolledOnly.isEnabled && item.event.isPatrolled.isEnabled) &&
  !(decide (query.namespaces ≠ []) && decide (item.event.pageNamespace ∉ query.namespaces)) &&
  !(query.tagFilter.any fun tagFilter => decide (tagFilter ∉ item.event.tags))

def filterLiveOperatorQueue (queue : List QueuedEdit) (query : LiveOperatorQuery) :
    List QueuedEdit :=
  let query := query.normalized
  (queue.filter fun item => liveOperatorQueryMatches item query).take query.limit.val

inductive LiveQueueError where
  | initFailed (error : BacklogRuntimeError)
  | fetchFailed (error : BacklogRuntimeError)
  | buildFailed (error : ScoringError)
  deriving DecidableEq

/-- What the supervisor keeps of a poll that succeeded. -/
structure IngestionSupervisorSnapshot where
  queue : List QueuedEdit
  nextContinue : Option Text
  deriving DecidableEq

structure LiveQueueState where
  query : LiveOperatorQuery
  batch : RecentChangesBatch PatrolEvent
  selectedIndex : Option Nat
  queue : List QueuedEdit

/-- A runtime is initialized from the stored checkpoint and fetches; its writes succeed. -/
def fetchBatch (wiki : Wiki PatrolEvent) (stored : Option ByteArray) (limit : U16)
    (includeBots : Bool) (choose : BacklogRuntime → RecentChangesQuery) :
    Except LiveQueueError (RecentChangesBatch PatrolEvent) :=
  match (BacklogRuntime.new limit includeBots).initializeFrom stored with
  | .error e => .error (.initFailed e)
  | .ok runtime =>
    match executeRecentChanges wiki (choose runtime) with
    | .error e => .error (.fetchFailed e)
    | .ok batch => .ok batch

section Queues

variable (toLowercase : Char → Text)

def performSupervisorPoll (wiki : Wiki PatrolEvent) (stored : Option ByteArray)
    (config : ScoringConfig) : Option (Except LiveQueueError IngestionSupervisorSnapshot) :=
  match fetchBatch wiki stored defaultLiveOperatorLimit false BacklogRuntime.query with
  | .error e => some (.error e)
  | .ok batch => do
    match ← buildRankedQueue toLowercase batch.events config with
    | .error e => some (.error (.buildFailed e))
    | .ok queue => some (.ok ⟨queue, batch.nextContinue⟩)

/-- The snapshot's events are ranked again, under the policy of the public context. -/
def queueStateFromSupervisor (query : LiveOperatorQuery) (snapshot : IngestionSupervisorSnapshot)
    (config : ScoringConfig) (context : LiveOperatorPublicContextState) : Option LiveQueueState := do
  let events := snapshot.queue.map QueuedEdit.event
  let rebuilt ← buildRankedQueueWithPolicy toLowercase events config
    (liveQueuePolicyFromPublicContext context)
  let rebuiltQueue := match rebuilt with
    | .ok queue => queue
    | .error _ => []
  let queue := filterLiveOperatorQueue rebuiltQueue query
  return {
    query := query
    batch := ⟨queue.map QueuedEdit.event, snapshot.nextContinue⟩
    selectedIndex := if queue = [] then none else some 0
    queue := queue }

def queueStateFromRecentchanges (wiki : Wiki PatrolEvent) (stored : Option ByteArray)
    (query : LiveOperatorQuery) (config : ScoringConfig)
    (context : LiveOperatorPublicContextState) : Option (Except LiveQueueError LiveQueueState) :=
  match fetchBatch wiki stored query.limit query.includeBots.isEnabled query.fetchQuery with
  | .error e => some (.error e)
  | .ok batch => do
    match ← buildRankedQueueWithPolicy toLowercase batch.events config
        (liveQueuePolicyFromPublicContext context) with
    | .error e => some (.error (.buildFailed e))
    | .ok ranked =>
      let queue := filterLiveOperatorQueue ranked query
      some (.ok {
        query := query
        batch := batch
        selectedIndex := if queue = [] then none else some 0
        queue := queue })

end Queues

section Agreement

variable {toLowercase : Char → Text} {wiki : Wiki PatrolEvent} {changes : List PatrolEvent}
  {query : LiveOperatorQuery} {config : ScoringConfig} {context : LiveOperatorPublicContextState}

def RecentChangesQuery.initial (limit : U16) (includeBots : Bool) : RecentChangesQuery where
  limit := limit
  rccontinue := none
  includeBots := .ofBool includeBots
  unpatrolledOnly := .disabled
  includeMinor := .enabled
  includeAnonymous := .enabled
  includeNewPages := .enabled
  tagFilter := none
  namespaceOverride := none

/-- The wiki's changes without bots: a query gets as many of the first as its limit says. -/
structure Reports (wiki : Wiki PatrolEvent) (changes : List PatrolEvent) : Prop where
  answers : ∀ limit : U16, 0 < limit.val → ∃ next,
    wiki (.initial limit false) = .ok ⟨changes.take limit.val, next⟩
  bots : ∀ event ∈ changes, event.isBot = .disabled

/-- What the gate says about a normalized query. -/
structure Ungated (query : LiveOperatorQuery) : Prop where
  rccontinue : query.rccontinue = none
  includeBots : query.includeBots = .disabled
  unpatrolledOnly : query.unpatrolledOnly = .disabled
  includeMinor : query.includeMinor = .enabled
  includeAnonymous : query.includeAnonymous = .enabled
  includeRegistered : query.includeRegistered = .enabled
  includeTemporary : query.includeTemporary = .enabled
  includeNewPages : query.includeNewPages = .enabled
  tagFilter : query.tagFilter = none
  namespaces : query.namespaces = []
  minScore : query.minScore = none

theorem isEnabled_eq_true {flag : FlagState} : flag.isEnabled = true ↔ flag = .enabled := by
  cases flag <;> decide

theorem isEnabled_eq_false {flag : FlagState} : flag.isEnabled = false ↔ flag = .disabled := by
  cases flag <;> decide

theorem ungated (normal : query.normalized = query)
    (gate : query.canUseSupervisorSnapshot = true) : Ungated query := by
  rw [LiveOperatorQuery.canUseSupervisorSnapshot, normal] at gate
  simp only [Bool.and_eq_true, Bool.not_eq_true', Option.isNone_iff_eq_none, decide_eq_true_eq,
    isEnabled_eq_true, isEnabled_eq_false] at gate
  obtain ⟨⟨⟨⟨⟨⟨⟨⟨⟨⟨rccontinue, bots⟩, unpatrolled⟩, minor⟩, anonymous⟩, registered⟩, temporary⟩,
    newPages⟩, tag⟩, namespaces⟩, score⟩ := gate
  exact ⟨rccontinue, bots, unpatrolled, minor, anonymous, registered, temporary, newPages, tag,
    namespaces, score⟩

/-- An ungated query fetches the first page of the unfiltered changes. -/
theorem Ungated.fetchQuery (plain : Ungated query) (runtime : BacklogRuntime) :
    query.fetchQuery runtime = runtime.query := by
  have custom : query.usesCustomFilters = false := by
    simp [LiveOperatorQuery.usesCustomFilters, LiveOperatorQuery.namespaceOverride,
      plain.rccontinue, plain.unpatrolledOnly, plain.includeMinor, plain.includeAnonymous,
      plain.includeRegistered, plain.includeTemporary, plain.includeNewPages, plain.tagFilter,
      plain.namespaces, FlagState.isEnabled]
  rw [LiveOperatorQuery.fetchQuery, custom]
  rfl

theorem Ungated.keeps (plain : Ungated query) {item : QueuedEdit}
    (human : item.event.isBot = .disabled) : liveOperatorQueryMatches item query = true := by
  simp [liveOperatorQueryMatches, plain.unpatrolledOnly, plain.includeMinor,
    plain.includeAnonymous, plain.includeRegistered, plain.includeTemporary,
    plain.includeNewPages, plain.tagFilter, plain.namespaces, plain.minScore, human,
    FlagState.isEnabled]

theorem Ungated.filter (plain : Ungated query) (normal : query.normalized = query)
    {queue : List QueuedEdit} (humans : ∀ item ∈ queue, item.event.isBot = .disabled) :
    filterLiveOperatorQueue queue query = queue.take query.limit.val := by
  unfold filterLiveOperatorQueue
  dsimp only
  rw [normal, List.filter_eq_self.mpr fun item member => plain.keeps (humans item member)]

/-- With the cursor at the start, a fetch gets the first changes. -/
theorem Reports.fetch (reports : Reports wiki changes) {limit : U16} (positive : 0 < limit.val)
    {choose : BacklogRuntime → RecentChangesQuery} (own : ∀ runtime, choose runtime = runtime.query) :
    ∃ next, fetchBatch wiki none limit false choose = .ok ⟨changes.take limit.val, next⟩ := by
  obtain ⟨next, answered⟩ := reports.answers limit positive
  refine ⟨normalizeResponseContinue next, ?_⟩
  have start : (BacklogRuntime.new limit false).initializeFrom none =
      .ok (BacklogRuntime.new limit false) := rfl
  have first : (BacklogRuntime.new limit false).query = .initial limit false := rfl
  have nonzero : (RecentChangesQuery.initial limit false).limit.val ≠ 0 := by
    exact Nat.pos_iff_ne_zero.mp positive
  rw [fetchBatch, start]
  dsimp only
  rw [own, first, executeRecentChanges, if_neg nonzero]
  dsimp only [RecentChangesQuery.initial, normalizeContinueToken]
  dsimp only [RecentChangesQuery.initial] at answered
  rw [answered]

section Rankings

variable (toLowercase : Char → Text) (config : ScoringConfig) (policy : QueueHeuristicPolicy)
  (changes : List PatrolEvent)

/-- What the supervisor's poll gets. -/
def polled : List PatrolEvent := changes.take defaultLiveOperatorLimit.val

/-- An event's total under a policy, among the polled changes. -/
def standing (event : PatrolEvent) : Int :=
  (scoreOf toLowercase config policy (polled changes) event).total.val

/-- The supervisor's first `limit` events are the first `limit` changes, in one order: the poll
has them all, its further changes do not change their scores and do not outrank them, and where
two of them tie, the earlier was not polled below the later. -/
structure Agrees (limit : Nat) : Prop where
  enough : limit ≤ defaultLiveOperatorLimit.val ∨ changes.length ≤ defaultLiveOperatorLimit.val
  scores : ∀ event ∈ changes.take limit, scoreOf toLowercase config policy (polled changes) event =
    scoreOf toLowercase config policy (changes.take limit) event
  outranks : ∀ x ∈ (polled changes).take limit, ∀ y ∈ (polled changes).drop limit,
    standing toLowercase config policy changes y ≤ standing toLowercase config policy changes x ∧
      (standing toLowercase config policy changes x = standing toLowercase config policy changes y →
        standing toLowercase config .default changes y ≤
          standing toLowercase config .default changes x)
  ties : ((polled changes).take limit).Pairwise fun x y =>
    standing toLowercase config policy changes x = standing toLowercase config policy changes y →
      standing toLowercase config .default changes y ≤
        standing toLowercase config .default changes x

end Rankings

theorem take_polled {limit : Nat} (enough : limit ≤ defaultLiveOperatorLimit.val ∨
    changes.length ≤ defaultLiveOperatorLimit.val) :
    (polled changes).take limit = changes.take limit := by
  rw [polled, List.take_take]
  rcases enough with below | short
  · rw [Nat.min_eq_left below]
  · by_cases less : limit ≤ defaultLiveOperatorLimit.val
    · rw [Nat.min_eq_left less]
    · rw [Nat.min_eq_right (by omega), List.take_of_length_le short,
        List.take_of_length_le (by omega)]

theorem map_event {policy : QueueHeuristicPolicy} (events ranked : List PatrolEvent) :
    (ranked.map (scoredIn toLowercase config policy events)).map QueuedEdit.event = ranked := by
  rw [List.map_map]
  exact List.map_id ranked

/-- The two queues are equal exactly when the poll and the fetch agree. -/
theorem queues_agree_iff {policy : QueueHeuristicPolicy} {limit : Nat}
    {snapshot rebuilt fetched : List PatrolEvent}
    (first : Ranked.Ranks (standing toLowercase config .default changes) (polled changes) snapshot)
    (again : Ranked.Ranks (standing toLowercase config policy changes) snapshot rebuilt)
    (direct : Ranked.Ranks (fun event =>
      (scoreOf toLowercase config policy (changes.take limit) event).total.val)
      (changes.take limit) fetched) :
    (rebuilt.map (scoredIn toLowercase config policy (polled changes))).take limit =
        fetched.map (scoredIn toLowercase config policy (changes.take limit)) ↔
      Agrees toLowercase config policy changes limit := by
  have whole := first.trans again
  rw [← List.map_take]
  constructor
  · intro same
    have size : (rebuilt.take limit).length = fetched.length := by
      have lengths := congrArg List.length same
      rwa [List.length_map, List.length_map] at lengths
    have enough : limit ≤ defaultLiveOperatorLimit.val ∨
        changes.length ≤ defaultLiveOperatorLimit.val := by
      rw [List.length_take, whole.perm.length_eq, direct.perm.length_eq, polled, List.length_take,
        List.length_take] at size
      omega
    have events : rebuilt.take limit = fetched := by
      have mapped := congrArg (List.map QueuedEdit.event) same
      rwa [map_event, map_event] at mapped
    have scores : ∀ event ∈ changes.take limit,
        scoreOf toLowercase config policy (polled changes) event =
          scoreOf toLowercase config policy (changes.take limit) event := by
      intro event member
      rw [events] at same
      exact congrArg QueuedEdit.score
        (List.map_inj_left.mp same event (direct.perm.symm.subset member))
    have front : Ranked.Ranks (standing toLowercase config policy changes)
        ((polled changes).take limit) fetched := by
      rw [take_polled enough]
      exact direct.congr fun event member => by rw [standing, scores event member]
    obtain ⟨outranks, ties⟩ := (Ranked.take_eq_iff whole front).mp events
    exact ⟨enough, scores, fun x here y there => Ranked.pair_le.mp (outranks x here y there), ties⟩
  · rintro ⟨enough, scores, outranks, ties⟩
    have front : Ranked.Ranks (standing toLowercase config policy changes)
        ((polled changes).take limit) fetched := by
      rw [take_polled enough]
      exact direct.congr fun event member => by rw [standing, scores event member]
    have events := (Ranked.take_eq_iff whole front).mpr
      ⟨fun x here y there => Ranked.pair_le.mpr (outranks x here y there), ties⟩
    rw [events]
    refine List.map_congr_left fun event member => ?_
    rw [scoredIn, scoredIn, scores event (direct.perm.subset member)]

/-- The claim about one query: the snapshot of a poll that succeeds gives the fetched queue. -/
def FastPathFaithful (toLowercase : Char → Text) (config : ScoringConfig) (wiki : Wiki PatrolEvent)
    (context : LiveOperatorPublicContextState) (query : LiveOperatorQuery) : Prop :=
  ∀ snapshot, performSupervisorPoll toLowercase wiki none config = some (.ok snapshot) →
    ∃ fast slow, queueStateFromSupervisor toLowercase query snapshot config context = some fast ∧
      queueStateFromRecentchanges toLowercase wiki none query config context = some (.ok slow) ∧
      fast.queue = slow.queue

theorem positive_limit (normal : query.normalized = query) : 0 < query.limit.val := by
  have clamped := congrArg (fun query => query.limit.val) normal
  simp only [LiveOperatorQuery.normalized, LiveOperatorQuery.clampLimit] at clamped
  omega

section States

variable (reports : Reports wiki changes)

include reports

theorem poll_scores {snapshot : IngestionSupervisorSnapshot}
    (done : performSupervisorPoll toLowercase wiki none config = some (.ok snapshot)) :
    ∀ event ∈ polled changes, Scores config event.toEditEvent := by
  obtain ⟨next, fetched⟩ := @Reports.fetch _ _ reports defaultLiveOperatorLimit (by decide)
    BacklogRuntime.query fun _ => rfl
  rw [performSupervisorPoll, fetched] at done
  obtain ⟨outcome, built, rest⟩ := Option.bind_eq_some_iff.mp done
  cases outcome with
  | error e => cases rest
  | ok queue => exact Scoring.buildRankedQueueWithPolicy_scores built

/-- The poll ranks the polled changes by the default policy. -/
theorem poll_eq (scores : ∀ event ∈ polled changes, Scores config event.toEditEvent) :
    ∃ ranked next,
      Ranked.Ranks (standing toLowercase config .default changes) (polled changes) ranked ∧
      performSupervisorPoll toLowercase wiki none config = some (.ok
        ⟨ranked.map (scoredIn toLowercase config .default (polled changes)), next⟩) := by
  obtain ⟨next, fetched⟩ := @Reports.fetch _ _ reports defaultLiveOperatorLimit (by decide)
    BacklogRuntime.query fun _ => rfl
  obtain ⟨ranked, ranks, built⟩ :=
    @Scoring.buildRankedQueueWithPolicy_eq toLowercase config _ .default scores
  refine ⟨ranked, next, ranks, ?_⟩
  rw [performSupervisorPoll, fetched]
  dsimp only
  rw [buildRankedQueue, ← polled, built]
  rfl

/-- The snapshot's events are ranked again with the scores they have among the polled changes. -/
theorem queueStateFromSupervisor_eq (plain : Ungated query) (normal : query.normalized = query)
    (scores : ∀ event ∈ polled changes, Scores config event.toEditEvent)
    {ranked : List PatrolEvent} {next : Option Text}
    (ranks : Ranked.Ranks (standing toLowercase config .default changes) (polled changes) ranked) :
    ∃ rebuilt,
      Ranked.Ranks (standing toLowercase config (liveQueuePolicyFromPublicContext context) changes)
        ranked rebuilt ∧
      (queueStateFromSupervisor toLowercase query
        ⟨ranked.map (scoredIn toLowercase config .default (polled changes)), next⟩ config
          context).map LiveQueueState.queue =
        some ((rebuilt.map (scoredIn toLowercase config
          (liveQueuePolicyFromPublicContext context) (polled changes))).take query.limit.val) := by
  have again : ∀ event ∈ ranked, Scores config event.toEditEvent := fun event member =>
    scores event (ranks.perm.subset member)
  obtain ⟨rebuilt, ranks', built⟩ := @Scoring.buildRankedQueueWithPolicy_eq toLowercase config _
    (liveQueuePolicyFromPublicContext context) again
  have same := @Scoring.scoreOf_perm toLowercase config (liveQueuePolicyFromPublicContext context)
    _ _ ranks.perm
  rw [same] at ranks'
  have whole : rebuilt.map (scoredIn toLowercase config (liveQueuePolicyFromPublicContext context)
      ranked) = rebuilt.map (scoredIn toLowercase config (liveQueuePolicyFromPublicContext context)
        (polled changes)) :=
    List.map_congr_left fun event _ => by rw [scoredIn, scoredIn, same]
  refine ⟨rebuilt, ranks', ?_⟩
  rw [queueStateFromSupervisor, map_event, built, whole]
  refine congrArg some (plain.filter normal fun item member => ?_)
  obtain ⟨event, inside, rfl⟩ := List.mem_map.mp member
  exact reports.bots event (List.mem_of_mem_take (ranks.perm.subset (ranks'.perm.subset inside)))

theorem recentchanges_scores (plain : Ungated query) (normal : query.normalized = query)
    {slow : LiveQueueState}
    (done : queueStateFromRecentchanges toLowercase wiki none query config context =
      some (.ok slow)) :
    ∀ event ∈ changes.take query.limit.val, Scores config event.toEditEvent := by
  obtain ⟨next, fetched⟩ := reports.fetch (positive_limit normal) plain.fetchQuery
  rw [queueStateFromRecentchanges, plain.includeBots] at done
  rw [FlagState.isEnabled, fetched] at done
  obtain ⟨outcome, built, rest⟩ := Option.bind_eq_some_iff.mp done
  cases outcome with
  | error e => cases rest
  | ok queue => exact Scoring.buildRankedQueueWithPolicy_scores built

theorem queueStateFromRecentchanges_eq (plain : Ungated query) (normal : query.normalized = query)
    (scores : ∀ event ∈ changes.take query.limit.val, Scores config event.toEditEvent) :
    ∃ fetched,
      Ranked.Ranks (fun event => (scoreOf toLowercase config
        (liveQueuePolicyFromPublicContext context) (changes.take query.limit.val) event).total.val)
        (changes.take query.limit.val) fetched ∧
      (queueStateFromRecentchanges toLowercase wiki none query config context).map
          (Except.map LiveQueueState.queue) =
        some (.ok (fetched.map (scoredIn toLowercase config
          (liveQueuePolicyFromPublicContext context) (changes.take query.limit.val)))) := by
  obtain ⟨next, answered⟩ := reports.fetch (positive_limit normal) plain.fetchQuery
  obtain ⟨ranked, ranks, built⟩ := @Scoring.buildRankedQueueWithPolicy_eq toLowercase config _
    (liveQueuePolicyFromPublicContext context) scores
  refine ⟨ranked, ranks, ?_⟩
  have short : (ranked.map (scoredIn toLowercase config (liveQueuePolicyFromPublicContext context)
      (changes.take query.limit.val))).length ≤ query.limit.val := by
    rw [List.length_map, ranks.perm.length_eq]
    exact List.length_take_le _ _
  have humans : ∀ item ∈ ranked.map (scoredIn toLowercase config
      (liveQueuePolicyFromPublicContext context) (changes.take query.limit.val)),
      item.event.isBot = .disabled := by
    intro item member
    obtain ⟨event, inside, rfl⟩ := List.mem_map.mp member
    exact reports.bots event (List.mem_of_mem_take (ranks.perm.subset inside))
  rw [queueStateFromRecentchanges, plain.includeBots, FlagState.isEnabled, answered]
  dsimp only
  rw [built]
  refine congrArg (some ∘ Except.ok) ((plain.filter normal humans).trans ?_)
  exact List.take_of_length_le short

/-- The fast path is faithful for a query exactly when the poll fails for want of a score, or the
poll and the fetch agree. -/
theorem fastPathFaithful_iff (normal : query.normalized = query)
    (gate : query.canUseSupervisorSnapshot = true) :
    FastPathFaithful toLowercase config wiki context query ↔
      ((∀ event ∈ polled changes, Scores config event.toEditEvent) →
        Agrees toLowercase config (liveQueuePolicyFromPublicContext context) changes
          query.limit.val) := by
  have plain := ungated normal gate
  constructor
  · intro faithful scores
    obtain ⟨ranked, next, ranks, done⟩ := @poll_eq toLowercase _ _ config reports scores
    obtain ⟨fast, slow, shown, read, same⟩ := faithful _ done
    obtain ⟨rebuilt, again, queue⟩ := @queueStateFromSupervisor_eq toLowercase _ _
      query config context reports plain normal scores ranked next ranks
    obtain ⟨fetched, direct, queue'⟩ := @queueStateFromRecentchanges_eq toLowercase _ _
      query config context reports plain normal (recentchanges_scores reports plain normal read)
    rw [shown] at queue
    rw [read] at queue'
    rw [Option.some.inj queue, Except.ok.inj (Option.some.inj queue')] at same
    exact (queues_agree_iff ranks again direct).mp same
  · intro agrees snapshot done
    have scores := poll_scores reports done
    obtain ⟨ranked, next, ranks, done'⟩ := @poll_eq toLowercase _ _ config reports scores
    rw [done'] at done
    cases done
    have agrees := agrees scores
    have fetchable : ∀ event ∈ changes.take query.limit.val, Scores config event.toEditEvent := by
      rw [← take_polled agrees.enough]
      exact fun event member => scores event (List.mem_of_mem_take member)
    obtain ⟨rebuilt, again, queue⟩ := @queueStateFromSupervisor_eq toLowercase _ _
      query config context reports plain normal scores ranked next ranks
    obtain ⟨fetched, direct, queue'⟩ := @queueStateFromRecentchanges_eq toLowercase _ _
      query config context reports plain normal fetchable
    obtain ⟨fast, shown, fastQueue⟩ := Option.map_eq_some_iff.mp queue
    obtain ⟨outcome, read, slowQueue⟩ := Option.map_eq_some_iff.mp queue'
    cases outcome with
    | error e => cases slowQueue
    | ok slow =>
        refine ⟨fast, slow, shown, read, ?_⟩
        rw [fastQueue, Except.ok.inj slowQueue]
        exact (queues_agree_iff ranks again direct).mpr agrees

end States

end Agreement

section Quiet

open Scoring (asciiLower pilotPolicy)

/-- The view of everything, with room for `limit` edits. -/
def everything (limit : U16) : LiveOperatorQuery where
  __ := LiveOperatorQuery.default
  limit := limit
  unpatrolledOnly := .disabled
  includeRegistered := .enabled

theorem inRange_seven : i32Min ≤ 7 ∧ 7 ≤ i32Max := by decide

def quiet (title username : String) : PatrolEvent where
  __ := Scoring.vandal title ⟨7, inRange_seven⟩
  performer := .registered username.toList

/-- The newest change is by a registered user, the one before it is not. -/
def twoChanges : List PatrolEvent := [quiet "Paris" "Ada", Scoring.vandal "Lyon" ⟨7, inRange_seven⟩]

def answering (changes : List PatrolEvent) : Wiki PatrolEvent := fun query =>
  .ok ⟨changes.take query.limit.val, none⟩

theorem two_reports : Reports (answering twoChanges) twoChanges where
  answers := fun _ _ => ⟨none, rfl⟩
  bots := by decide +kernel

theorem fastPathFaithful_iff_two :
    FastPathFaithful asciiLower pilotPolicy.scoringConfig (answering twoChanges) ⟨none, none⟩
        (everything ⟨20, by decide⟩) ↔
      ((∀ event ∈ polled twoChanges, Scores pilotPolicy.scoringConfig event.toEditEvent) →
        Agrees asciiLower pilotPolicy.scoringConfig (liveQueuePolicyFromPublicContext ⟨none, none⟩)
          twoChanges 20) :=
  @fastPathFaithful_iff asciiLower _ _ (everything ⟨20, by decide⟩) _ _ two_reports
    (by decide +kernel) (by decide +kernel)

def pollQueue : List QueuedEdit :=
  match performSupervisorPoll asciiLower (answering twoChanges) none pilotPolicy.scoringConfig with
  | some (.ok snapshot) => snapshot.queue
  | _ => []

/-- Asked for one edit, the fast path shows the riskiest one of the poll, the fetch the newest. -/
theorem one_edit_differs : (everything ⟨1, by decide⟩).canUseSupervisorSnapshot = true ∧
    ¬ FastPathFaithful asciiLower pilotPolicy.scoringConfig (answering twoChanges) ⟨none, none⟩
      (everything ⟨1, by decide⟩) := by
  refine ⟨by decide +kernel, fun faithful => ?_⟩
  have done : performSupervisorPoll asciiLower (answering twoChanges) none
      pilotPolicy.scoringConfig = some (.ok ⟨pollQueue, none⟩) := by decide +kernel
  obtain ⟨fast, slow, shown, read, same⟩ := faithful _ done
  have first : (queueStateFromSupervisor asciiLower (everything ⟨1, by decide⟩) ⟨pollQueue, none⟩
      pilotPolicy.scoringConfig ⟨none, none⟩).map (fun state => state.queue.map fun item =>
        item.event.title) = some ["Lyon".toList] := by decide +kernel
  have second : (queueStateFromRecentchanges asciiLower (answering twoChanges) none
      (everything ⟨1, by decide⟩) pilotPolicy.scoringConfig ⟨none, none⟩).map (Except.map
        fun state => state.queue.map fun item => item.event.title) =
          some (.ok ["Paris".toList]) := by decide +kernel
  rw [shown, Option.map_some, same] at first
  rw [read, Option.map_some, Except.map] at second
  have titles := Except.ok.inj (Option.some.inj second)
  rw [Option.some.inj first] at titles
  exact absurd titles (by decide)

end Quiet

end SP42.Live

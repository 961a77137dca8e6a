import SP42.Live.Query

/-!
The backlog runtime and its two users. A supervisor poll and a live-queue request each
read the wiki's checkpoint, fetch, and write the checkpoint back; any step of one may
come between two steps of the other.
-/
namespace SP42.Live

inductive BacklogRuntimeError where
  | recentChanges (message : String)
  | storage
  deriving DecidableEq, Repr

structure RecentChangesQuery where
  limit : U16
  rccontinue : Option Text
  includeBots : FlagState
  unpatrolledOnly : FlagState
  includeMinor : FlagState
  includeAnonymous : FlagState
  includeNewPages : FlagState
  tagFilter : Option Text
  namespaceOverride : Option (List I32)
  deriving DecidableEq

structure RecentChangesBatch (Entry : Type) where
  events : List Entry
  nextContinue : Option Text

/-- What the wiki answers to each query at some moment, or why it does not. -/
abbrev Wiki (Entry : Type) := RecentChangesQuery → Except String (RecentChangesBatch Entry)

def normalizeContinueToken : Option Text → Except BacklogRuntimeError (Option Text)
  | some token =>
      if Text.trim token = [] then .error (.recentChanges "rccontinue must not be empty")
      else .ok (some token)
  | none => .ok none

def normalizeResponseContinue (token : Option Text) : Option Text :=
  token.filter fun value => Text.trim value ≠ []

/-- `execute_recent_changes`: the request is checked, sent, and its answer parsed. -/
def executeRecentChanges {Entry : Type} (wiki : Wiki Entry) (query : RecentChangesQuery) :
    Except BacklogRuntimeError (RecentChangesBatch Entry) :=
  if query.limit.val = 0 then .error (.recentChanges "limit must be non-zero")
  else
    match normalizeContinueToken query.rccontinue with
    | .error e => .error e
    | .ok _ =>
      match wiki query with
      | .error message => .error (.recentChanges message)
      | .ok batch => .ok { batch with nextContinue := normalizeResponseContinue batch.nextContinue }

structure BacklogRuntime where
  limit : U16
  includeBots : Bool
  nextContinue : Option Text
  lastBatchSize : Nat
  totalEvents : Nat
  pollCount : Nat
  deriving DecidableEq

/-- What is stored under the checkpoint key for a token; without a token the key is removed. -/
def encodeCheckpoint (token : Option Text) : Option ByteArray :=
  token.map fun token => (String.ofList token).toUTF8

def loadCheckpoint : Option ByteArray → Except BacklogRuntimeError (Option Text)
  | some bytes =>
    match String.fromUTF8? bytes with
    | some token => normalizeContinueToken (some token.toList)
    | none => .error .storage
  | none => .ok none

namespace BacklogRuntime

def new (limit : U16) (includeBots : Bool) : BacklogRuntime := ⟨limit, includeBots, none, 0, 0, 0⟩

/-- `initialize`: the stored checkpoint becomes the runtime's next token. -/
def initializeFrom (stored : Option ByteArray) (runtime : BacklogRuntime) :
    Except BacklogRuntimeError BacklogRuntime :=
  match loadCheckpoint stored with
  | .ok nextContinue => .ok { runtime with nextContinue }
  | .error e => .error e

def query (runtime : BacklogRuntime) : RecentChangesQuery where
  limit := runtime.limit
  rccontinue := runtime.nextContinue
  includeBots := .ofBool runtime.includeBots
  unpatrolledOnly := .disabled
  includeMinor := .enabled
  includeAnonymous := .enabled
  includeNewPages := .enabled
  tagFilter := none
  namespaceOverride := none

/-- `apply_batch` once its write has succeeded: the key's new value and the runtime. -/
def applyBatch {Entry : Type} (batch : RecentChangesBatch Entry) (runtime : BacklogRuntime) :
    Option ByteArray × BacklogRuntime :=
  (encodeCheckpoint batch.nextContinue, { runtime with
    lastBatchSize := batch.events.length
    totalEvents := min u64Max (runtime.totalEvents + batch.events.length)
    pollCount := saturatingSucc u64Max runtime.pollCount
    nextContinue := batch.nextContinue })

end BacklogRuntime

namespace LiveOperatorQuery

def namespaceOverride (query : LiveOperatorQuery) : Option (List I32) :=
  if query.namespaces = [] then none else some query.namespaces

def usesCustomFilters (query : LiveOperatorQuery) : Bool :=
  query.rccontinue.isSome || query.unpatrolledOnly.isEnabled || !query.includeMinor.isEnabled ||
    !query.includeAnonymous.isEnabled || !query.includeRegistered.isEnabled ||
    !query.includeTemporary.isEnabled || !query.includeNewPages.isEnabled ||
    query.tagFilter.isSome || query.namespaceOverride.isSome

/-- What a live-queue request fetches: its own filters and cursor, or the runtime's next page. -/
def fetchQuery (query : LiveOperatorQuery) (runtime : BacklogRuntime) : RecentChangesQuery :=
  if query.usesCustomFilters then
    { limit := query.limit
      rccontinue := query.rccontinue
      includeBots := query.includeBots
      unpatrolledOnly := query.unpatrolledOnly
      includeMinor := query.includeMinor
      includeAnonymous := query.includeAnonymous
      includeNewPages := query.includeNewPages
      tagFilter := query.tagFilter
      namespaceOverride := query.namespaceOverride }
  else runtime.query

end LiveOperatorQuery

/-- How far a read, fetch and write cycle has come. -/
inductive Cycle (Entry : Type) where
  | idle
  | initialized (runtime : BacklogRuntime)
  | fetched (runtime : BacklogRuntime) (batch : RecentChangesBatch Entry)
  | applied (runtime : BacklogRuntime) (batch : RecentChangesBatch Entry)

/-- A supervisor poll that returned: the token it started from and what it read. -/
structure Poll (Entry : Type) where
  token : Option Text
  batch : RecentChangesBatch Entry

/-- One wiki's checkpoint, the supervisor's poll with the token it started from, the
requests with their queries, and the polls that have returned. -/
structure Backlog (ι Entry : Type) where
  stored : Option ByteArray
  supervisor : Cycle Entry
  token : Option Text
  requests : ι → LiveOperatorQuery × Cycle Entry
  polls : List (Poll Entry)

/-- The steps of a cycle that has read the checkpoint. Each may fail. -/
inductive CycleStep (Entry : Type) where
  | fetch (wiki : Wiki Entry)
  | apply (writable : Bool)
  | finish (succeeds : Bool)

inductive BacklogStep (ι Entry : Type) where
  | pollBegins (readable : Bool)
  | poll (step : CycleStep Entry)
  | requestBegins (client : ι) (query : LiveOperatorQuery) (readable : Bool)
  | request (client : ι) (step : CycleStep Entry)

namespace Backlog

variable {ι Entry : Type} [DecidableEq ι]

def start : Backlog ι Entry := ⟨none, .idle, none, fun _ => (.default, .idle), []⟩

def pollBegins (world : Backlog ι Entry) (readable : Bool) : Backlog ι Entry :=
  match world.supervisor with
  | .idle =>
    if readable then
      match (BacklogRuntime.new defaultLiveOperatorLimit false).initializeFrom world.stored with
      | .ok runtime =>
          { world with supervisor := .initialized runtime, token := runtime.nextContinue }
      | .error _ => world
    else world
  | _ => world

/-- A step of `perform_supervisor_poll`; after the write, the stream status or the ranking may fail. -/
def pollStep (world : Backlog ι Entry) : CycleStep Entry → Backlog ι Entry
  | .fetch wiki =>
    match world.supervisor with
    | .initialized runtime =>
      match executeRecentChanges wiki runtime.query with
      | .ok batch => { world with supervisor := .fetched runtime batch }
      | .error _ => { world with supervisor := .idle }
    | _ => world
  | .apply writable =>
    match world.supervisor with
    | .fetched runtime batch =>
      if writable then
        let (stored, runtime) := runtime.applyBatch batch
        { world with stored, supervisor := .applied runtime batch }
      else { world with supervisor := .idle }
    | _ => world
  | .finish succeeds =>
    match world.supervisor with
    | .applied _ batch =>
      if succeeds then
        { world with supervisor := .idle, polls := world.polls ++ [⟨world.token, batch⟩] }
      else { world with supervisor := .idle }
    | _ => world

def setRequest (world : Backlog ι Entry) (client : ι) (query : LiveOperatorQuery)
    (cycle : Cycle Entry) : Backlog ι Entry :=
  { world with requests := Function.update world.requests client (query, cycle) }

def requestBegins (world : Backlog ι Entry) (client : ι) (query : LiveOperatorQuery)
    (readable : Bool) : Backlog ι Entry :=
  match world.requests client with
  | (_, .idle) =>
    if readable then
      match (BacklogRuntime.new query.limit query.includeBots.isEnabled).initializeFrom
        world.stored with
      | .ok runtime => world.setRequest client query (.initialized runtime)
      | .error _ => world
    else world
  | _ => world

/-- A step of `queue_state_from_recentchanges`; custom filters or not, it applies its batch. -/
def requestStep (world : Backlog ι Entry) (client : ι) : CycleStep Entry → Backlog ι Entry
  | .fetch wiki =>
    match world.requests client with
    | (query, .initialized runtime) =>
      match executeRecentChanges wiki (query.fetchQuery runtime) with
      | .ok batch => world.setRequest client query (.fetched runtime batch)
      | .error _ => world.setRequest client query .idle
    | _ => world
  | .apply writable =>
    match world.requests client with
    | (query, .fetched runtime batch) =>
      if writable then
        let (stored, runtime) := runtime.applyBatch batch
        { world with stored }.setRequest client query (.applied runtime batch)
      else world.setRequest client query .idle
    | _ => world
  | .finish _ =>
    match world.requests client with
    | (query, .applied _ _) => world.setRequest client query .idle
    | _ => world

def step (world : Backlog ι Entry) : BacklogStep ι Entry → Backlog ι Entry × Unit
  | .pollBegins readable => (world.pollBegins readable, ())
  | .poll next => (world.pollStep next, ())
  | .requestBegins client query readable => (world.requestBegins client query readable, ())
  | .request client next => (world.requestStep client next, ())

end Backlog

end SP42.Live

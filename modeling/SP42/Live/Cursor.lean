import SP42.Base.Machine
import SP42.Lib.Run

/-!
The stream runtime over a feed of server-sent events. Reading, ingesting, writing
the cursor and returning are separate steps, and each of the first three can fail.
An event is named by its position in the feed.
-/
namespace SP42.Live

structure ServerSentEvent where
  id : Option String
  data : String
  deriving DecidableEq, Repr

inductive StreamRuntimeError where
  | eventSource
  | storage
  | ingestor (message : String)
  deriving DecidableEq, Repr

structure StreamRuntime where
  lastEventId : Option String
  deliveredEvents : Nat
  filteredEvents : Nat
  reconnectAttempts : Nat
  deriving DecidableEq, Repr

def StreamRuntime.new : StreamRuntime := ⟨none, 0, 0, 0⟩

/-- The value under the checkpoint key. `origin` is the event whose write put it there;
a value that was there before the runtime started has none. -/
structure Checkpoint where
  bytes : ByteArray
  origin : Option Nat

/-- The runtime with its storage cell and how far its source has been read. -/
structure Stream where
  runtime : StreamRuntime
  checkpoint : Option Checkpoint
  position : Nat

/-- What goes wrong around one call: the source before it hands out an event, the write of
an event's id, the read of the cursor, the reconnection. A source that reconnects may go
back; it does not skip events it has not handed out. -/
structure Faults where
  source : Nat → Bool
  write : Nat → Bool
  read : Bool
  reconnect : Bool
  resumesAt : Nat

/-- No fault at all. -/
def Faults.calm : Faults := ⟨fun _ => false, fun _ => false, false, false, 0⟩

inductive StreamCall where
  | nextActionableEvent
  | drainActionableEvents (limit : Nat)
  | reconnectFromCheckpoint
  deriving DecidableEq, Repr

namespace Stream

variable {Edit : Type}

/-- `store_checkpoint`, for an event that has an id. -/
def storeCheckpoint (faults : Faults) (here : Nat) (id : Option String) (stream : Stream) :
    Except StreamRuntimeError Unit × Stream :=
  match id with
  | none => (.ok (), stream)
  | some eventId =>
      if faults.write here then (.error .storage, stream)
      else
        (.ok (), { stream with
          checkpoint := some ⟨eventId.toUTF8, some here⟩
          runtime := { stream.runtime with lastEventId := some eventId } })

/-- The loop of `next_actionable_event`, over the events the source still holds. -/
def nextOf (ingest : String → Except String (Option Edit)) (faults : Faults) :
    List ServerSentEvent → Stream → Except StreamRuntimeError (Option (Nat × Edit)) × Stream
  | [], stream =>
      if faults.source stream.position then (.error .eventSource, stream) else (.ok none, stream)
  | event :: rest, stream =>
      if faults.source stream.position then (.error .eventSource, stream)
      else
        let here := stream.position
        let taken := { stream with position := here + 1 }
        match ingest event.data with
        | .error message => (.error (.ingestor message), taken)
        | .ok (some edit) =>
          match storeCheckpoint faults here event.id taken with
          | (.error e, stored) => (.error e, stored)
          | (.ok _, stored) =>
              (.ok (some (here, edit)), { stored with
                runtime := { stored.runtime with
                  deliveredEvents := saturatingSucc u64Max stored.runtime.deliveredEvents } })
        | .ok none =>
          match storeCheckpoint faults here event.id taken with
          | (.error e, stored) => (.error e, stored)
          | (.ok _, stored) =>
              nextOf ingest faults rest { stored with
                runtime := { stored.runtime with
                  filteredEvents := saturatingSucc u64Max stored.runtime.filteredEvents } }

variable (ingest : String → Except String (Option Edit)) (feed : List ServerSentEvent)

def nextActionableEvent (faults : Faults) (stream : Stream) :
    Except StreamRuntimeError (Option (Nat × Edit)) × Stream :=
  nextOf ingest faults (feed.drop stream.position) stream

/-- The loop of `drain_actionable_events`, with the events collected so far. -/
def drainOf (faults : Faults) :
    Nat → List (Nat × Edit) → Stream → Except StreamRuntimeError (List (Nat × Edit)) × Stream
  | 0, events, stream => (.ok events, stream)
  | room + 1, events, stream =>
    match nextActionableEvent ingest feed faults stream with
    | (.error e, next) => (.error e, next)
    | (.ok none, next) => (.ok events, next)
    | (.ok (some event), next) => drainOf faults room (events ++ [event]) next

def drainActionableEvents (faults : Faults) (limit : Nat) (stream : Stream) :
    Except StreamRuntimeError (List (Nat × Edit)) × Stream :=
  drainOf ingest feed faults limit [] stream

/-- `load_checkpoint`: the cell is read and decoded. -/
def loadCheckpoint (faults : Faults) (stream : Stream) :
    Except StreamRuntimeError (Option String) :=
  if faults.read then .error .storage
  else
    match stream.checkpoint with
    | none => .ok none
    | some stored =>
      match String.fromUTF8? stored.bytes with
      | some id => .ok (some id)
      | none => .error .storage

/-- The cursor a reconnection starts from: the runtime's own, else the stored one. -/
def resumePoint (faults : Faults) (stream : Stream) : Except StreamRuntimeError (Option String) :=
  match stream.runtime.lastEventId with
  | some value => .ok (some value)
  | none => stream.loadCheckpoint faults

def reconnectFromCheckpoint (faults : Faults) (stream : Stream) :
    Except StreamRuntimeError Unit × Stream :=
  match stream.resumePoint faults with
  | .error e => (.error e, stream)
  | .ok checkpoint =>
      if faults.reconnect then (.error .eventSource, stream)
      else
        (.ok (), { stream with
          position := min faults.resumesAt stream.position
          runtime := { stream.runtime with
            reconnectAttempts := saturatingSucc u64Max stream.runtime.reconnectAttempts
            lastEventId := checkpoint } })

/-- One call, answered with the events it returns. -/
def step (stream : Stream) :
    StreamCall × Faults → Stream × Except StreamRuntimeError (List (Nat × Edit))
  | (.nextActionableEvent, faults) =>
      let (answer, next) := stream.nextActionableEvent ingest feed faults
      (next, answer.map Option.toList)
  | (.drainActionableEvents limit, faults) =>
      let (answer, next) := stream.drainActionableEvents ingest feed faults limit
      (next, answer)
  | (.reconnectFromCheckpoint, faults) =>
      let (answer, next) := stream.reconnectFromCheckpoint faults
      (next, answer.map fun _ => [])

/-- A new runtime on a fresh source, over storage that may hold an older cursor. -/
def start (stored : Option ByteArray) : Stream :=
  ⟨.new, stored.map fun bytes => ⟨bytes, none⟩, 0⟩

end Stream

end SP42.Live

/-!
When the stream's cursor stays behind what the caller has been given. An event is
lost when its own cursor write fails, and when a later error takes the events that
a drain had collected with it.
-/
namespace SP42.Live.Stream

variable {Edit : Type} (ingest : String → Except String (Option Edit)) (feed : List ServerSentEvent)

def actionable (event : ServerSentEvent) : Bool :=
  match ingest event.data with
  | .ok (some _) => true
  | _ => false

def malformed (event : ServerSentEvent) : Bool :=
  match ingest event.data with
  | .error _ => true
  | _ => false

/-- How many actionable events the feed holds before a position. -/
def rank (p : Nat) : Nat := (feed.take p).countP (actionable ingest)

/-- Reading on at this position ends the call with an error. -/
def Interrupts (faults : Faults) (p : Nat) : Prop :=
  faults.source p = true ∨ ∃ event, feed[p]? = some event ∧
    (malformed ingest event = true ∨ event.id ≠ none ∧ faults.write p = true)

/-- The source hands out an actionable event whose id cannot be written. -/
def Unwritten (faults : Faults) (p : Nat) : Prop :=
  faults.source p = false ∧ ∃ event, feed[p]? = some event ∧ actionable ingest event = true ∧
    event.id ≠ none ∧ faults.write p = true

/-- A call that starts here and returns at most `room` events comes to read at position `p`. -/
def Reached (faults : Faults) (here room p : Nat) : Prop :=
  here ≤ p ∧ rank ingest feed p < rank ingest feed here + room ∧
    ∀ q, here ≤ q → q < p → ¬ Interrupts ingest feed faults q

/-- An error at `p` costs the call an actionable event it has read. -/
def Loses (faults : Faults) (here room p : Nat) : Prop :=
  Reached ingest feed faults here room p ∧
    (Unwritten ingest feed faults p ∨
      rank ingest feed here < rank ingest feed p ∧ Interrupts ingest feed faults p)

/-- No error costs the call an actionable event. -/
def Lossless (stream : Stream) : StreamCall × Faults → Prop
  | (.nextActionableEvent, faults) => ∀ p, ¬ Loses ingest feed faults stream.position 1 p
  | (.drainActionableEvents limit, faults) =>
      ∀ p, ¬ Loses ingest feed faults stream.position limit p
  | (.reconnectFromCheckpoint, _) => True

/-- What a call returns in an `Ok` result. -/
def answered : Except StreamRuntimeError (List (Nat × Edit)) → List (Nat × Edit)
  | .ok events => events
  | .error _ => []

def returned (past : List ((StreamCall × Faults) × Except StreamRuntimeError (List (Nat × Edit)))) :
    List (Nat × Edit) :=
  past.flatMap fun entry => answered entry.2

/-- Every actionable event before position `p` is among the given ones. -/
def Covered (given : List (Nat × Edit)) (p : Nat) : Prop :=
  ∀ q event edit, q < p → feed[q]? = some event → ingest event.data = .ok (some edit) →
    (q, edit) ∈ given

/-- The persisted id is that of an event up to which every actionable event was given. -/
def CursorBehind (given : List (Nat × Edit)) (checkpoint : Option Checkpoint) : Prop :=
  ∀ stored here, checkpoint = some stored → stored.origin = some here →
    (∃ event id, feed[here]? = some event ∧ event.id = some id ∧ stored.bytes = id.toUTF8) ∧
      Covered ingest feed given (here + 1)

variable {ingest feed} {faults : Faults} {given : List (Nat × Edit)} {stream : Stream}

theorem rank_succ {p : Nat} {event : ServerSentEvent} (there : feed[p]? = some event) :
    rank ingest feed (p + 1) =
      rank ingest feed p + if actionable ingest event then 1 else 0 := by
  simp [rank, List.take_add_one, there, List.countP_append, List.countP_singleton]

theorem rank_mono {p q : Nat} (h : p ≤ q) : rank ingest feed p ≤ rank ingest feed q := by
  have shorter : (feed.take p).Sublist (feed.take q) := (List.take_prefix_take_left h).sublist
  exact shorter.countP_le

theorem Covered.mono {more : List (Nat × Edit)} {p : Nat} (sub : given ⊆ more)
    (h : Covered ingest feed given p) : Covered ingest feed more p := by
  intro q event edit hq there made
  exact sub (h q event edit hq there made)

theorem CursorBehind.mono {more : List (Nat × Edit)} {checkpoint : Option Checkpoint}
    (sub : given ⊆ more) (h : CursorBehind ingest feed given checkpoint) :
    CursorBehind ingest feed more checkpoint := by
  intro stored here holds origin
  obtain ⟨id, covered⟩ := h stored here holds origin
  exact ⟨id, covered.mono sub⟩

/-- One event further, the ones before and the one just read. -/
theorem Covered.succ {p : Nat} {event : ServerSentEvent} (h : Covered ingest feed given p)
    (there : feed[p]? = some event)
    (here : ∀ edit, ingest event.data = .ok (some edit) → (p, edit) ∈ given) :
    Covered ingest feed given (p + 1) := by
  intro q e edit hq found made
  rcases Nat.lt_succ_iff_lt_or_eq.mp hq with hq | rfl
  · exact h q e edit hq found made
  · rw [there, Option.some.injEq] at found
    subst found
    exact here edit made

/-- The write fails and changes nothing, or the cursor is the event's id, if it has one. -/
theorem storeCheckpoint_cases (faults : Faults) (stream : Stream) (here : Nat)
    (id : Option String) :
    (id ≠ none ∧ faults.write here = true ∧
      stream.storeCheckpoint faults here id = (.error .storage, stream)) ∨
    (id = none ∨ faults.write here = false) ∧
      ∃ after, stream.storeCheckpoint faults here id = (.ok (), after) ∧
        after.position = stream.position ∧
        (id = none ∧ after.checkpoint = stream.checkpoint ∨
          ∃ eventId, id = some eventId ∧
            after.checkpoint = some ⟨eventId.toUTF8, some here⟩) := by
  cases id with
  | none => exact .inr ⟨.inl rfl, stream, rfl, rfl, .inl ⟨rfl, rfl⟩⟩
  | some eventId =>
      cases failing : faults.write here with
      | true => exact .inl ⟨by simp, rfl, by simp [storeCheckpoint, failing]⟩
      | false =>
          have stored : stream.storeCheckpoint faults here (some eventId) =
              (.ok (), { stream with
                checkpoint := some ⟨eventId.toUTF8, some here⟩
                runtime := { stream.runtime with lastEventId := some eventId } }) := by
            simp [storeCheckpoint, failing]
          exact .inr ⟨.inr rfl, _, stored, rfl, .inr ⟨eventId, rfl, rfl⟩⟩

theorem CursorBehind.store {here : Nat} {event : ServerSentEvent}
    {checkpoint next : Option Checkpoint} (there : feed[here]? = some event)
    (covered : Covered ingest feed given (here + 1))
    (behind : CursorBehind ingest feed given checkpoint)
    (written : event.id = none ∧ next = checkpoint ∨
      ∃ eventId, event.id = some eventId ∧ next = some ⟨eventId.toUTF8, some here⟩) :
    CursorBehind ingest feed given next := by
  rcases written with ⟨-, rfl⟩ | ⟨eventId, named, rfl⟩
  · exact behind
  · intro stored p holds origin
    obtain rfl := Option.some.inj holds
    obtain rfl := Option.some.inj origin
    exact ⟨⟨event, eventId, there, named, rfl⟩, covered⟩

theorem Reached.first {p : Nat} {event : ServerSentEvent}
    (there : feed[stream.position]? = some event) (filtered : actionable ingest event = false)
    (quiet : ¬ Interrupts ingest feed faults stream.position)
    (h : Reached ingest feed faults (stream.position + 1) 1 p) :
    Reached ingest feed faults stream.position 1 p := by
  obtain ⟨later, few, calm⟩ := h
  have same : rank ingest feed (stream.position + 1) = rank ingest feed stream.position := by
    rw [rank_succ there, filtered]; rfl
  refine ⟨by omega, by omega, fun q from_ below => ?_⟩
  rcases Nat.eq_or_lt_of_le from_ with rfl | from_
  · exact quiet
  · exact calm q from_ below

theorem reached_here : Reached ingest feed faults stream.position 1 stream.position :=
  ⟨le_rfl, by omega, fun q from_ below => by omega⟩

/-- What the caller holds covers everything read, and the cursor is behind it. -/
structure Held (ingest : String → Except String (Option Edit)) (feed : List ServerSentEvent)
    (given : List (Nat × Edit)) (stream : Stream) : Prop where
  covered : Covered ingest feed given stream.position
  behind : CursorBehind ingest feed given stream.checkpoint

def got : Except StreamRuntimeError (Option (Nat × Edit)) → List (Nat × Edit)
  | .ok (some event) => [event]
  | _ => []

theorem drop_cons {remaining : List ServerSentEvent} {event : ServerSentEvent} {p : Nat}
    (h : feed.drop p = event :: remaining) :
    feed[p]? = some event ∧ feed.drop (p + 1) = remaining := by
  constructor
  · rw [← List.head?_drop, h]; rfl
  · rw [← List.tail_drop, h]; rfl

theorem quiet_of {p : Nat} {event : ServerSentEvent} (there : feed[p]? = some event)
    (served : faults.source p = false) (sound : malformed ingest event = false)
    (fine : event.id = none ∨ faults.write p = false) :
    ¬ Interrupts ingest feed faults p := by
  rintro (failing | ⟨e, found, broken | ⟨named, failed⟩⟩)
  · simp [served] at failing
  · obtain rfl := Option.some.inj (there.symm.trans found)
    simp [sound] at broken
  · obtain rfl := Option.some.inj (there.symm.trans found)
    rcases fine with unnamed | fine
    · exact named unnamed
    · simp [fine] at failed

/-- A call that loses nothing keeps the cursor behind what the caller holds. -/
theorem nextOf_held (remaining : List ServerSentEvent) (rest : feed.drop stream.position = remaining)
    (held : Held ingest feed given stream)
    (safe : ∀ p, Reached ingest feed faults stream.position 1 p →
      ¬ Unwritten ingest feed faults p) :
    Held ingest feed (given ++ got (nextOf ingest faults remaining stream).1)
      (nextOf ingest faults remaining stream).2 := by
  induction remaining generalizing stream with
  | nil =>
      unfold nextOf
      split <;> simpa [got] using held
  | cons event remaining ih =>
      obtain ⟨there, rest⟩ := drop_cons rest
      by_cases failing : faults.source stream.position = true
      · simpa [nextOf, failing, got] using held
      have open_ : faults.source stream.position = false := by simpa using failing
      simp only [nextOf, open_, Bool.false_eq_true, if_false]
      cases made : ingest event.data with
      | error message =>
          refine ⟨?_, ?_⟩
          · simpa [got] using held.covered.succ there (by simp [made])
          · simpa [got] using held.behind
      | ok outcome =>
          rcases storeCheckpoint_cases faults { stream with position := stream.position + 1 }
            stream.position event.id with
            ⟨named, failed, stored⟩ | ⟨fine, after, stored, moved, written⟩
          · cases outcome with
            | some edit =>
                have acts : actionable ingest event = true := by simp [actionable, made]
                exact absurd ⟨open_, event, there, acts, named, failed⟩ (safe _ reached_here)
            | none =>
                have covered := held.covered.succ there (by simp [made])
                exact ⟨by simpa [stored, got] using covered, by simpa [stored, got] using held.behind⟩
          · cases outcome with
            | some edit =>
                have more := List.subset_append_left given [(stream.position, edit)]
                have covered := (held.covered.mono more).succ there (by simp [made])
                have behind := (held.behind.mono more).store there covered written
                exact ⟨by simpa [stored, got, moved] using covered,
                  by simpa [stored, got] using behind⟩
            | none =>
                have covered := held.covered.succ there (by simp [made])
                have filtered : actionable ingest event = false := by simp [actionable, made]
                have sound : malformed ingest event = false := by simp [malformed, made]
                have quiet := quiet_of there open_ sound fine
                simp only [stored]
                refine ih (by simpa [moved] using rest) ⟨by simpa [moved] using covered,
                  held.behind.store there covered written⟩ ?_
                intro p reached
                exact safe p (Reached.first there filtered quiet (by simpa [moved] using reached))

/-- A read ends where something interrupts it, or at the first actionable event. -/
theorem nextOf_reads (remaining : List ServerSentEvent)
    (rest : feed.drop stream.position = remaining) :
    (∃ e after p, nextOf ingest faults remaining stream = (.error e, after) ∧
      Reached ingest feed faults stream.position 1 p ∧ Interrupts ingest feed faults p) ∨
    (∃ after, nextOf ingest faults remaining stream = (.ok none, after)) ∨
    ∃ p edit after, nextOf ingest faults remaining stream = (.ok (some (p, edit)), after) ∧
      after.position = p + 1 ∧ Reached ingest feed faults stream.position 1 p ∧
      ¬ Interrupts ingest feed faults p ∧
      rank ingest feed (p + 1) = rank ingest feed stream.position + 1 := by
  induction remaining generalizing stream with
  | nil =>
      by_cases failing : faults.source stream.position = true
      · exact .inl ⟨_, _, _, by simp only [nextOf, failing, if_true]; rfl, reached_here, .inl failing⟩
      · exact .inr (.inl ⟨stream, by simp [nextOf, failing]⟩)
  | cons event remaining ih =>
      obtain ⟨there, rest⟩ := drop_cons rest
      by_cases failing : faults.source stream.position = true
      · exact .inl ⟨_, _, _, by simp only [nextOf, failing, if_true]; rfl, reached_here, .inl failing⟩
      have open_ : faults.source stream.position = false := by simpa using failing
      simp only [nextOf, open_, Bool.false_eq_true, if_false]
      cases made : ingest event.data with
      | error message =>
          have broken : malformed ingest event = true := by simp [malformed, made]
          exact .inl ⟨_, _, _, rfl, reached_here, .inr ⟨event, there, .inl broken⟩⟩
      | ok outcome =>
          rcases storeCheckpoint_cases faults { stream with position := stream.position + 1 }
            stream.position event.id with
            ⟨named, failed, stored⟩ | ⟨fine, after, stored, moved, -⟩
          · have interrupted : Interrupts ingest feed faults stream.position :=
              .inr ⟨event, there, .inr ⟨named, failed⟩⟩
            cases outcome <;>
              exact .inl ⟨_, _, _, by simp only [stored]; rfl, reached_here, interrupted⟩
          · have sound : malformed ingest event = false := by simp [malformed, made]
            have quiet := quiet_of there open_ sound fine
            obtain ⟨runtime, checkpoint, position⟩ := after
            obtain rfl : position = stream.position + 1 := moved
            simp only [stored]
            cases outcome with
            | some edit =>
                have acts : actionable ingest event = true := by simp [actionable, made]
                have counted : rank ingest feed (stream.position + 1) =
                    rank ingest feed stream.position + 1 := by simp [rank_succ there, acts]
                exact .inr (.inr ⟨_, _, _, rfl, rfl, reached_here, quiet, counted⟩)
            | none =>
                have filtered : actionable ingest event = false := by simp [actionable, made]
                have same : rank ingest feed (stream.position + 1) =
                    rank ingest feed stream.position := by simp [rank_succ there, filtered]
                rcases @ih ⟨{ runtime with
                    filteredEvents := saturatingSucc u64Max runtime.filteredEvents },
                  checkpoint, stream.position + 1⟩ rest with ⟨e, last, p, eq, reached, stops⟩ | ended |
                  ⟨p, edit, last, eq, at_, reached, calm, counted⟩
                · exact .inl ⟨e, last, p, eq, Reached.first there filtered quiet reached, stops⟩
                · exact .inr (.inl ended)
                · exact .inr (.inr ⟨p, edit, last, eq, at_, Reached.first there filtered quiet reached,
                    calm, by rw [counted, same]⟩)

theorem Reached.widen {start room here p : Nat} (from_ : start ≤ here)
    (calm : ∀ q, start ≤ q → q < here → ¬ Interrupts ingest feed faults q)
    (fits : rank ingest feed here < rank ingest feed start + room)
    (h : Reached ingest feed faults here 1 p) : Reached ingest feed faults start room p := by
  obtain ⟨later, few, onward⟩ := h
  refine ⟨by omega, by omega, fun q low high => ?_⟩
  rcases Nat.lt_or_ge q here with before | after
  · exact calm q low before
  · exact onward q after high

/-- The drain has read from `start` without an error and holds what it found. -/
structure Draining (ingest : String → Except String (Option Edit)) (feed : List ServerSentEvent)
    (faults : Faults) (start : Nat) (events : List (Nat × Edit)) (stream : Stream) : Prop where
  from_ : start ≤ stream.position
  calm : ∀ q, start ≤ q → q < stream.position → ¬ Interrupts ingest feed faults q
  counted : rank ingest feed stream.position = rank ingest feed start + events.length

theorem drainOf_held {start limit : Nat} (safe : ∀ p, ¬ Loses ingest feed faults start limit p)
    (room : Nat) (events : List (Nat × Edit)) (stream : Stream)
    (full : events.length + room = limit)
    (draining : Draining ingest feed faults start events stream)
    (held : Held ingest feed (given ++ events) stream) :
    Held ingest feed (given ++ answered (drainOf ingest feed faults room events stream).1)
      (drainOf ingest feed faults room events stream).2 := by
  induction room generalizing events stream with
  | zero => simpa [drainOf, answered] using held
  | succ room ih =>
      have fits : rank ingest feed stream.position < rank ingest feed start + limit := by
        rw [draining.counted]; omega
      have widen : ∀ p, Reached ingest feed faults stream.position 1 p →
          Reached ingest feed faults start limit p :=
        fun p => Reached.widen draining.from_ draining.calm fits
      have kept := nextOf_held (feed.drop stream.position) rfl held
        (fun p reached unwritten => safe p ⟨widen p reached, .inl unwritten⟩)
      rcases @nextOf_reads _ ingest feed faults stream _ rfl with
        ⟨e, after, p, eq, reached, stops⟩ | ⟨after, eq⟩ |
        ⟨p, edit, after, eq, moved, reached, calm, counted⟩
      · simp only [drainOf, nextActionableEvent, eq]
        rw [eq] at kept
        cases events with
        | nil => simpa [got, answered] using kept
        | cons event events =>
            have ahead : rank ingest feed start < rank ingest feed p :=
              Nat.lt_of_lt_of_le (by rw [draining.counted]; simp) (rank_mono reached.1)
            exact absurd ⟨widen p reached, .inr ⟨ahead, stops⟩⟩ (safe p)
      · simp only [drainOf, nextActionableEvent, eq]
        rw [eq] at kept
        simpa [got, answered] using kept
      · simp only [drainOf, nextActionableEvent, eq]
        rw [eq] at kept
        refine ih (events ++ [(p, edit)]) after (by simp; omega) ⟨?_, ?_, ?_⟩
          (by simpa [got] using kept)
        · exact Nat.le_trans draining.from_ (by have := reached.1; omega)
        · intro q low high
          rcases Nat.lt_or_eq_of_le (Nat.lt_succ_iff.mp (moved ▸ high)) with before | rfl
          · exact (widen p reached).2.2 q low before
          · exact calm
        · rw [moved, counted, draining.counted, List.length_append]; rfl

theorem reconnectFromCheckpoint_held (held : Held ingest feed given stream) :
    Held ingest feed given (stream.reconnectFromCheckpoint faults).2 := by
  unfold reconnectFromCheckpoint
  split
  · exact held
  · split
    · exact held
    · refine ⟨fun p event edit below => ?_, held.behind⟩
      exact held.covered p event edit (Nat.lt_of_lt_of_le below (Nat.min_le_right _ _))

theorem answered_next (answer : Except StreamRuntimeError (Option (Nat × Edit))) :
    answered (answer.map Option.toList) = got answer := by
  rcases answer with _ | (_ | _) <;> rfl

theorem step_held (call : StreamCall × Faults) (lossless : Lossless ingest feed stream call)
    (held : Held ingest feed given stream) :
    Held ingest feed (given ++ answered (step ingest feed stream call).2)
      (step ingest feed stream call).1 := by
  obtain ⟨call, faults⟩ := call
  cases call with
  | nextActionableEvent =>
      have kept := nextOf_held (feed.drop stream.position) rfl held
        (fun p reached unwritten => lossless p ⟨reached, .inl unwritten⟩)
      simpa only [step, answered_next, nextActionableEvent] using kept
  | drainActionableEvents limit =>
      exact drainOf_held lossless limit [] stream (by simp)
        ⟨le_rfl, fun q low high => by omega, by simp⟩ (by simpa using held)
  | reconnectFromCheckpoint =>
      have same : answered ((stream.reconnectFromCheckpoint faults).1.map
          fun _ => ([] : List (Nat × Edit))) = [] := by
        rcases (stream.reconnectFromCheckpoint faults).1 with _ | _ <;> rfl
      simpa only [step, same, List.append_nil] using reconnectFromCheckpoint_held held

theorem start_held (stored : Option ByteArray) : Held ingest feed [] (start stored) where
  covered := by intro q _ _ below; exact absurd below (Nat.not_lt_zero q)
  behind := by
    intro cell here holds origin
    cases stored with
    | none => cases holds
    | some bytes =>
        obtain rfl := Option.some.inj holds
        cases origin

theorem step_held_past (past : List ((StreamCall × Faults) ×
      Except StreamRuntimeError (List (Nat × Edit)))) (stream : Stream)
    (call : StreamCall × Faults) (lossless : Lossless ingest feed stream call)
    (held : Held ingest feed (returned past) stream) :
    Held ingest feed (returned (past ++ [(call, (step ingest feed stream call).2)]))
      (step ingest feed stream call).1 := by
  have kept := step_held call lossless held
  simpa only [returned, List.flatMap_append, List.flatMap_singleton] using kept

/-- As long as no error costs a call an actionable event, every actionable event up to the
one whose id is persisted has been returned. -/
theorem cursor_behind_returned (ingest : String → Except String (Option Edit))
    (feed : List ServerSentEvent) (stored : Option ByteArray) (calls : List (StreamCall × Faults))
    (lossless : Run.Along (step ingest feed) (Lossless ingest feed) (start stored) calls) :
    CursorBehind ingest feed (returned (Run.trace (step ingest feed) (start stored) calls))
      (Run.final (step ingest feed) (start stored) calls).checkpoint := by
  have run : Held ingest feed (returned ([] ++ Run.trace (step ingest feed) (start stored) calls))
      (Run.final (step ingest feed) (start stored) calls) :=
    Run.history_along (step_held_past) (start_held stored) calls lossless
  exact run.behind

/-- An ingestor for payloads that say what they are. -/
def readPlain (data : String) : Except String (Option String) :=
  if data = "edit" then .ok (some data)
  else if data = "bot" then .ok none
  else .error "revision object is required"

/-- One call over one edit, without a fault. -/
theorem cursor_behind_returned_once :
    Run.Along (step readPlain [⟨some "1", "edit"⟩]) (Lossless readPlain [⟨some "1", "edit"⟩])
      (start none) [(.nextActionableEvent, .calm)] ∧
    CursorBehind readPlain [⟨some "1", "edit"⟩]
      (returned (Run.trace (step readPlain [⟨some "1", "edit"⟩]) (start none)
        [(.nextActionableEvent, .calm)]))
      (Run.final (step readPlain [⟨some "1", "edit"⟩]) (start none)
        [(.nextActionableEvent, .calm)]).checkpoint := by
  have lossless : Run.Along (step readPlain [⟨some "1", "edit"⟩])
      (Lossless readPlain [⟨some "1", "edit"⟩]) (start none) [(.nextActionableEvent, .calm)] := by
    refine ⟨fun p loses => ?_, trivial⟩
    obtain ⟨⟨-, few, -⟩, ⟨-, event, -, -, -, failed⟩ | ⟨read, -⟩⟩ := loses
    · cases failed
    · omega
  exact ⟨lossless, cursor_behind_returned _ _ _ _ lossless⟩

/-- An edit whose cursor write fails is passed by the next call, and one that a drain
holds when it meets a payload it cannot read is passed at once. -/
theorem cursor_passes_lost_edits :
    ¬ CursorBehind readPlain [⟨some "1", "edit"⟩, ⟨some "2", "edit"⟩]
      (returned (Run.trace (step readPlain [⟨some "1", "edit"⟩, ⟨some "2", "edit"⟩]) (start none)
        [(.nextActionableEvent, { Faults.calm with write := fun _ => true }),
          (.nextActionableEvent, .calm)]))
      (Run.final (step readPlain [⟨some "1", "edit"⟩, ⟨some "2", "edit"⟩]) (start none)
        [(.nextActionableEvent, { Faults.calm with write := fun _ => true }),
          (.nextActionableEvent, .calm)]).checkpoint ∧
    ¬ CursorBehind readPlain [⟨some "1", "edit"⟩, ⟨some "2", "torn"⟩]
      (returned (Run.trace (step readPlain [⟨some "1", "edit"⟩, ⟨some "2", "torn"⟩]) (start none)
        [(.drainActionableEvents 2, .calm)]))
      (Run.final (step readPlain [⟨some "1", "edit"⟩, ⟨some "2", "torn"⟩]) (start none)
        [(.drainActionableEvents 2, .calm)]).checkpoint := by
  constructor
  · intro behind
    have covered := (behind ⟨"2".toUTF8, some 1⟩ 1 rfl rfl).2
    have given : (0, "edit") ∈ [(1, "edit")] := covered 0 ⟨some "1", "edit"⟩ "edit" (by omega) rfl rfl
    revert given
    decide
  · intro behind
    have covered := (behind ⟨"1".toUTF8, some 0⟩ 0 rfl rfl).2
    have given : (0, "edit") ∈ ([] : List (Nat × String)) :=
      covered 0 ⟨some "1", "edit"⟩ "edit" (by omega) rfl rfl
    cases given

end SP42.Live.Stream

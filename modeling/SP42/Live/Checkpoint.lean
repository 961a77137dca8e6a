import SP42.Lib.Run
import SP42.Live.Backlog

/-!
When consecutive supervisor polls page through the change list. They share the
checkpoint with the live-queue requests, so no request may write it between the end
of one poll and the start of the next.
-/
namespace SP42.Live

/-- The checkpoint has been read and not yet written. -/
def Cycle.underWay {Entry : Type} : Cycle Entry → Prop
  | .initialized _ | .fetched _ _ => True
  | .idle | .applied _ _ => False

def Cycle.isIdle {Entry : Type} : Cycle Entry → Bool
  | .idle => true
  | _ => false

namespace Backlog

variable {ι Entry : Type}

/-- The token the last of these polls returned. -/
def lastToken (polls : List (Poll Entry)) : Option Text :=
  polls.getLast?.bind fun poll => poll.batch.nextContinue

/-- Each poll starts from what the one before it returned. -/
def Chained : Option Text → List (Poll Entry) → Prop
  | _, [] => True
  | token, poll :: polls => poll.token = token ∧ Chained poll.batch.nextContinue polls

/-- What the wiki lists after a token, if there is one. -/
def unreadFrom (unread : Text → List Entry) (token : Option Text) : List Entry :=
  token.elim [] unread

/-- A poll that started from a token read the entries that follow it, and its own token goes on
from there. -/
def Follows (unread : Text → List Entry) (poll : Poll Entry) : Prop :=
  ∀ token, poll.token = some token →
    unread token = poll.batch.events ++ unreadFrom unread poll.batch.nextContinue

/-- From any poll on, as long as the list does not end, the polls read what follows it, each entry
once and in order. -/
def PagesThrough (unread : Text → List Entry) (polls : List (Poll Entry)) : Prop :=
  ∀ before poll after token, polls = before ++ poll :: after →
    poll.batch.nextContinue = some token → (∀ q ∈ after.dropLast, q.batch.nextContinue ≠ none) →
    unread token =
      after.flatMap (fun q => q.batch.events) ++ unreadFrom unread (lastToken (poll :: after))

/-- This step ends the supervisor's poll without a result. -/
def PollFails (world : Backlog ι Entry) (next : CycleStep Entry) : Prop :=
  match world.supervisor, next with
  | .initialized runtime, .fetch wiki => ∃ e, executeRecentChanges wiki runtime.query = .error e
  | .fetched _ _, .apply writable => writable = false
  | .applied _ _, .finish succeeds => succeeds = false
  | _, _ => False

/-- A request writes while a poll is under way, which will overwrite it, or writes what is there;
a poll that fails leaves the checkpoint as the last poll that returned has it. -/
def Undisturbed (world : Backlog ι Entry) : BacklogStep ι Entry → Prop
  | .poll next => PollFails world next → world.stored = encodeCheckpoint (lastToken world.polls)
  | .request client (.apply true) => ∀ query runtime batch,
      world.requests client = (query, .fetched runtime batch) →
      world.supervisor.underWay ∨ encodeCheckpoint batch.nextContinue = world.stored
  | _ => True

section Tokens

/-- A token that is read back from the checkpoint. -/
def Solid (token : Option Text) : Prop := normalizeContinueToken token = .ok token

theorem solid_normalizeResponseContinue (token : Option Text) :
    Solid (normalizeResponseContinue token) := by
  cases token with
  | none => rfl
  | some text =>
      by_cases blank : Text.trim text = []
      · simp [normalizeResponseContinue, Option.filter, blank, Solid, normalizeContinueToken]
      · simp [normalizeResponseContinue, Option.filter, blank, Solid, normalizeContinueToken]

theorem loadCheckpoint_encode {token : Option Text} (solid : Solid token) :
    loadCheckpoint (encodeCheckpoint token) = .ok token := by
  cases token with
  | none => rfl
  | some text =>
      have decoded : String.fromUTF8? (String.ofList text).toUTF8 = some (String.ofList text) := by
        unfold String.fromUTF8?
        rw [String.toUTF8_eq_toByteArray, dif_pos (String.ofList text).isValidUTF8]
        rfl
      simp only [encodeCheckpoint, Option.map_some, loadCheckpoint, decoded, String.toList_ofList]
      exact solid

theorem executeRecentChanges_solid {wiki : Wiki Entry} {query : RecentChangesQuery}
    {batch : RecentChangesBatch Entry} (h : executeRecentChanges wiki query = .ok batch) :
    Solid batch.nextContinue := by
  unfold executeRecentChanges at h
  split at h
  · cases h
  · split at h
    · cases h
    · split at h
      · cases h
      · cases h
        exact solid_normalizeResponseContinue _

theorem lastToken_append (polls : List (Poll Entry)) (poll : Poll Entry) :
    lastToken (polls ++ [poll]) = poll.batch.nextContinue := by
  simp [lastToken]

end Tokens

section Chains

theorem Chained.append {token : Option Text} {polls : List (Poll Entry)} {poll : Poll Entry}
    (chained : Chained token polls) (next : poll.token = if polls = [] then token else lastToken polls) :
    Chained token (polls ++ [poll]) := by
  induction polls generalizing token with
  | nil => exact ⟨by simpa using next, trivial⟩
  | cons first polls ih =>
      refine ⟨chained.1, ih chained.2 ?_⟩
      rw [next, if_neg (List.cons_ne_nil _ _)]
      cases polls with
      | nil => rfl
      | cons second polls => simp [lastToken]

theorem Chained.suffix {token : Option Text} {before after : List (Poll Entry)} {poll : Poll Entry}
    (chained : Chained token (before ++ poll :: after)) : Chained poll.batch.nextContinue after := by
  induction before generalizing token with
  | nil => exact chained.2
  | cons first before ih => exact ih chained.2

/-- Chained polls read on without a gap or a repetition until the list ends. -/
theorem Chained.reads {unread : Text → List Entry} {token : Text} {poll : Poll Entry}
    {after : List (Poll Entry)} (ends : poll.batch.nextContinue = some token)
    (chained : Chained (some token) after) (follows : ∀ q ∈ after, Follows unread q)
    (goes_on : ∀ q ∈ after.dropLast, q.batch.nextContinue ≠ none) :
    unread token =
      after.flatMap (fun q => q.batch.events) ++ unreadFrom unread (lastToken (poll :: after)) := by
  induction after generalizing token poll with
  | nil => simp [lastToken, ends, unreadFrom]
  | cons next after ih =>
      have here := follows next List.mem_cons_self token chained.1
      rw [here, List.flatMap_cons, List.append_assoc]
      congr 1
      cases after with
      | nil => simp [lastToken]
      | cons other after =>
          obtain ⟨following, hf⟩ := Option.ne_none_iff_exists'.mp (goes_on next (by simp))
          have rest := ih hf (hf ▸ chained.2) (fun q member => follows q (List.mem_cons_of_mem _ member))
            fun q member => goes_on q (by simpa using .inr member)
          rw [hf, unreadFrom, Option.elim_some, rest]
          simp [lastToken]

theorem Chained.pagesThrough {unread : Text → List Entry} {token : Option Text}
    {polls : List (Poll Entry)} (chained : Chained token polls)
    (follows : ∀ q ∈ polls, Follows unread q) : PagesThrough unread polls := by
  rintro before poll after next rfl ends goes_on
  have tail := chained.suffix
  rw [ends] at tail
  exact Chained.reads ends tail (fun q member => follows q (by simp [member])) goes_on

end Chains

section Steps

/-- Where the supervisor's poll stands, and what the checkpoint holds there. -/
def Placed (world : Backlog ι Entry) : Prop :=
  match world.supervisor with
  | .idle => world.stored = encodeCheckpoint (lastToken world.polls)
  | .initialized _ => world.token = lastToken world.polls
  | .fetched _ batch => world.token = lastToken world.polls ∧ Solid batch.nextContinue
  | .applied _ batch => world.token = lastToken world.polls ∧ Solid batch.nextContinue ∧
      world.stored = encodeCheckpoint batch.nextContinue

structure Steady (world : Backlog ι Entry) : Prop where
  chained : Chained none world.polls
  solid : Solid (lastToken world.polls)
  placed : Placed world

variable {world : Backlog ι Entry}

theorem start_steady : Steady (start : Backlog ι Entry) := ⟨trivial, rfl, rfl⟩

theorem pollBegins_steady (readable : Bool) (steady : Steady world) :
    Steady (world.pollBegins readable) := by
  unfold pollBegins
  split
  · rename_i idle
    split
    · have stored : world.stored = encodeCheckpoint (lastToken world.polls) := by
        have placed := steady.placed
        rwa [Placed, idle] at placed
      rw [BacklogRuntime.initializeFrom, stored, loadCheckpoint_encode steady.solid]
      exact ⟨steady.chained, steady.solid, rfl⟩
    · exact steady
  · exact steady

/-- A poll that ends without a result leaves the supervisor idle over an undisturbed checkpoint. -/
theorem failed_steady (steady : Steady world)
    (stored : world.stored = encodeCheckpoint (lastToken world.polls)) :
    Steady { world with supervisor := .idle } :=
  ⟨steady.chained, steady.solid, stored⟩

theorem pollStep_steady (next : CycleStep Entry) (steady : Steady world)
    (undisturbed : PollFails world next → world.stored = encodeCheckpoint (lastToken world.polls)) :
    Steady (world.pollStep next) := by
  have placed := steady.placed
  unfold Placed at placed
  unfold PollFails at undisturbed
  cases next with
  | fetch wiki =>
      unfold pollStep
      cases at_ : world.supervisor with
      | initialized runtime =>
          simp only [at_] at placed undisturbed ⊢
          cases answer : executeRecentChanges wiki runtime.query with
          | ok batch => exact ⟨steady.chained, steady.solid, placed, executeRecentChanges_solid answer⟩
          | error e => exact failed_steady steady (undisturbed ⟨e, answer⟩)
      | _ => exact steady
  | apply writable =>
      unfold pollStep
      cases at_ : world.supervisor with
      | fetched runtime batch =>
          simp only [at_] at placed undisturbed ⊢
          cases writable with
          | true => exact ⟨steady.chained, steady.solid, placed.1, placed.2, rfl⟩
          | false => exact failed_steady steady (undisturbed rfl)
      | _ => exact steady
  | finish succeeds =>
      unfold pollStep
      cases at_ : world.supervisor with
      | applied runtime batch =>
          simp only [at_] at placed undisturbed ⊢
          obtain ⟨token, solid, stored⟩ := placed
          cases succeeds with
          | true =>
              have last := lastToken_append world.polls ⟨world.token, batch⟩
              refine ⟨steady.chained.append ?_, ?_, ?_⟩
              · rw [token]
                cases world.polls <;> rfl
              · simpa only [if_true, last] using solid
              · simpa only [if_true, Placed, last] using stored
          | false => exact failed_steady steady (undisturbed rfl)
      | _ => exact steady

/-- A request changes nothing the supervisor looks at, but for the checkpoint it writes. -/
theorem request_steady {other : Backlog ι Entry} (steady : Steady world)
    (supervisor : other.supervisor = world.supervisor) (token : other.token = world.token)
    (polls : other.polls = world.polls)
    (stored : world.supervisor.underWay ∨ other.stored = world.stored) : Steady other := by
  refine ⟨polls ▸ steady.chained, polls ▸ steady.solid, ?_⟩
  have placed := steady.placed
  unfold Placed at placed ⊢
  rw [supervisor, token, polls]
  cases at_ : world.supervisor with
  | idle =>
      simp only [at_] at placed ⊢
      rcases stored with busy | same
      · rw [at_] at busy; exact busy.elim
      · exact same.trans placed
  | initialized runtime => simpa only [at_] using placed
  | fetched runtime batch => simpa only [at_] using placed
  | applied runtime batch =>
      simp only [at_] at placed ⊢
      rcases stored with busy | same
      · rw [at_] at busy; exact busy.elim
      · exact ⟨placed.1, placed.2.1, same.trans placed.2.2⟩

end Steps

section Runs

variable [DecidableEq ι] {world : Backlog ι Entry}

theorem requestBegins_steady (client : ι) (query : LiveOperatorQuery) (readable : Bool)
    (steady : Steady world) : Steady (world.requestBegins client query readable) := by
  unfold requestBegins
  split
  · split
    · split
      · exact request_steady steady rfl rfl rfl (.inr rfl)
      · exact steady
    · exact steady
  · exact steady

theorem requestStep_steady (client : ι) (next : CycleStep Entry) (steady : Steady world)
    (undisturbed : Undisturbed world (.request client next)) :
    Steady (world.requestStep client next) := by
  cases next with
  | fetch wiki =>
      simp only [requestStep]
      split
      · split <;> exact request_steady steady rfl rfl rfl (.inr rfl)
      · exact steady
  | apply writable =>
      simp only [requestStep]
      split
      · rename_i query runtime batch at_
        cases writable with
        | true => exact request_steady steady rfl rfl rfl (undisturbed query runtime batch at_)
        | false => exact request_steady steady rfl rfl rfl (.inr rfl)
      · exact steady
  | finish succeeds =>
      simp only [requestStep]
      split
      · exact request_steady steady rfl rfl rfl (.inr rfl)
      · exact steady

theorem step_steady (world : Backlog ι Entry) (next : BacklogStep ι Entry)
    (undisturbed : Undisturbed world next) (steady : Steady world) :
    Steady (step world next).1 := by
  cases next with
  | pollBegins readable => exact pollBegins_steady readable steady
  | poll next => exact pollStep_steady next steady undisturbed
  | requestBegins client query readable => exact requestBegins_steady client query readable steady
  | request client next => exact requestStep_steady client next steady undisturbed

/-- In an undisturbed run each supervisor poll starts from the token that the one before it
returned, so the polls page through the list they read. -/
theorem supervisor_polls_chain (steps : List (BacklogStep ι Entry))
    (undisturbed : Run.Along step Undisturbed (start : Backlog ι Entry) steps) :
    ((Run.final step start steps).supervisor ≠ .idle →
      (Run.final step start steps).token = lastToken (Run.final step start steps).polls) ∧
    Chained none (Run.final step start steps).polls ∧
    ∀ unread : Text → List Entry, (∀ q ∈ (Run.final step start steps).polls, Follows unread q) →
      PagesThrough unread (Run.final step start steps).polls := by
  have steady : Steady (Run.final step start steps) :=
    Run.final_along step_steady start_steady steps undisturbed
  refine ⟨fun busy => ?_, steady.chained, fun unread follows => steady.chained.pagesThrough follows⟩
  have placed := steady.placed
  unfold Placed at placed
  split at placed
  · rename_i idle; exact absurd idle busy
  · exact placed
  · exact placed.1
  · exact placed.1

/-- A wiki with two pages of edits, and another list for a query with a tag. -/
def twoLists : Wiki String := fun query =>
  match query.tagFilter, query.rccontinue with
  | some _, _ => .ok ⟨["tagged"], some "tagged|1".toList⟩
  | none, none => .ok ⟨["newest"], some "plain|1".toList⟩
  | none, some _ => .ok ⟨["older"], none⟩

/-- One poll of a quiet wiki. -/
theorem supervisor_polls_chain_once :
    Run.Along step Undisturbed (start : Backlog Unit String)
      [.pollBegins true, .poll (.fetch twoLists), .poll (.apply true), .poll (.finish true)] ∧
    Chained none (Run.final step (start : Backlog Unit String)
      [.pollBegins true, .poll (.fetch twoLists), .poll (.apply true), .poll (.finish true)]).polls := by
  have undisturbed : Run.Along step Undisturbed (start : Backlog Unit String)
      [.pollBegins true, .poll (.fetch twoLists), .poll (.apply true), .poll (.finish true)] := by
    refine ⟨trivial, ?_, ?_, ?_, trivial⟩
    · rintro ⟨e, failed⟩; cases failed
    · intro failed; cases failed
    · intro failed; cases failed
  exact ⟨undisturbed, (supervisor_polls_chain _ undisturbed).2.1⟩

/-- A supervisor poll, a request for one tag, and the start of another supervisor poll. -/
def tagRequestBetween : List (BacklogStep Unit String) :=
  [.pollBegins true, .poll (.fetch twoLists), .poll (.apply true), .poll (.finish true),
    .requestBegins () { LiveOperatorQuery.default with tagFilter := some "tag".toList } true,
    .request () (.fetch twoLists), .request () (.apply true), .request () (.finish true),
    .pollBegins true]

/-- The request leaves its own token in the checkpoint, and the next poll starts from that. -/
theorem request_moves_supervisor :
    ¬ ((Run.final step start tagRequestBetween).supervisor ≠ .idle →
      (Run.final step start tagRequestBetween).token =
        lastToken (Run.final step start tagRequestBetween).polls) := by
  have busy : (Run.final step start tagRequestBetween).supervisor.isIdle = false := by
    decide +kernel
  have moved : (Run.final step start tagRequestBetween).token ≠
      lastToken (Run.final step start tagRequestBetween).polls := by decide +kernel
  intro same
  refine moved (same fun idle => ?_)
  rw [idle] at busy
  cases busy

end Runs

end Backlog

end SP42.Live

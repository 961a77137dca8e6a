import SP42.Diff.Recognised
import SP42.Lib.Counts
import SP42.Lib.Heap
import SP42.Lib.Ranked
import SP42.Parsoid.Anchors
import SP42.Scoring.Safety

/-!
The ranked queue: every event of a batch is scored, pushed under its total, and popped.
Events that look alike are counted by a fingerprint before the scoring begins.
-/
namespace SP42.Scoring

/-- An edit event with what the queue reads of it besides. -/
structure PatrolEvent extends EditEvent where
  pageNamespace : I32
  isMinor : FlagState
  isPatrolled : FlagState
  deriving DecidableEq

def EditorIdentity.stableLabel : EditorIdentity → Text
  | .registered username => username
  | .anonymous label => label
  | .temporary label => label

def EditorIdentity.isRegistered : EditorIdentity → Bool
  | .registered _ => true
  | _ => false

def EditorIdentity.isNewcomerLike (performer : EditorIdentity) : Bool :=
  performer.isAnonymous || performer.isTemporary

structure QueuedEdit where
  event : PatrolEvent
  score : CompositeScore
  deriving DecidableEq

section PriorityQueue

structure QueueEntry (α : Type) where
  priority : I32
  sequence : Nat
  value : α

/-- By priority, and of equals the one with the smaller sequence number is the greater. -/
def QueueEntry.cmp {α : Type} (self other : QueueEntry α) : Ordering :=
  (compare self.priority.val other.priority.val).then (compare other.sequence self.sequence)

def QueueEntry.above {α : Type} (self other : QueueEntry α) : Bool := self.cmp other == .gt

structure PriorityQueue (α : Type) where
  heap : List (QueueEntry α)
  nextSequence : Nat

theorem QueueEntry.above_iff {α : Type} (a b : QueueEntry α) : a.above b = true ↔
    b.priority.val < a.priority.val ∨
      a.priority.val = b.priority.val ∧ a.sequence < b.sequence := by
  rw [QueueEntry.above, beq_iff_eq, QueueEntry.cmp, Ordering.then_eq_gt, compare_gt_iff_gt,
    compare_eq_iff_eq, compare_gt_iff_gt]

theorem QueueEntry.ranks {α : Type} : Heap.Ranks (QueueEntry.above (α := α)) where
  asymm := by
    intro a b higher
    rw [Bool.eq_false_iff, ne_eq, above_iff]
    rw [above_iff] at higher
    omega
  split := by
    intro a b c higher
    rw [above_iff] at higher
    rw [above_iff, above_iff]
    omega

namespace PriorityQueue

variable {α : Type}

def new : PriorityQueue α := ⟨[], 0⟩

def push (queue : PriorityQueue α) (priority : I32) (value : α) : PriorityQueue α where
  heap := queue.heap ++ [⟨priority, queue.nextSequence, value⟩]
  nextSequence := queue.nextSequence + 1

/-- `while let Some(item) = queue.pop()`. -/
def drain (queue : PriorityQueue α) : List α :=
  (Heap.drain QueueEntry.above queue.heap).map QueueEntry.value

/-- Push every item under its priority. -/
def pushAll (priority : α → I32) (queue : PriorityQueue α) (items : List α) : PriorityQueue α :=
  items.foldl (fun queue item => queue.push (priority item) item) queue

/-- The entries of items that were pushed one after the other. -/
def entries (priority : α → I32) (items : List α) (first : Nat) : List (QueueEntry α) :=
  (items.zipIdx first).map fun pair => ⟨priority pair.1, pair.2, pair.1⟩

variable (priority : α → I32) (items : List α)

theorem pushAll_heap (queue : PriorityQueue α) :
    (queue.pushAll priority items).heap =
      queue.heap ++ entries priority items queue.nextSequence := by
  induction items generalizing queue with
  | nil => exact (List.append_nil _).symm
  | cons item items ih =>
      refine (ih (queue.push (priority item) item)).trans ?_
      rw [push, List.append_assoc, entries, entries, List.zipIdx_cons, List.map_cons]
      rfl

variable (first : Nat)

theorem entries_value : (entries priority items first).map QueueEntry.value = items := by
  rw [entries, List.map_map]
  exact List.zipIdx_map_fst first items

theorem entries_priority : ∀ entry ∈ entries priority items first,
    entry.priority = priority entry.value := by
  rintro entry member
  obtain ⟨pair, -, rfl⟩ := List.mem_map.mp member
  rfl

theorem entries_sequence : (entries priority items first).Pairwise fun a b =>
    a.sequence < b.sequence := by
  have numbers : ((items.zipIdx first).map Prod.snd).Pairwise (· < ·) := by
    rw [List.zipIdx_map_snd]
    exact List.pairwise_lt_range'
  exact List.pairwise_map.mpr (List.pairwise_map.mp numbers)

/-- Items pushed into an empty queue come out stably ranked. -/
theorem drain_pushAll :
    Ranked.Ranks (fun item => (priority item).val) items (new.pushAll priority items).drain := by
  have heap : (new.pushAll priority items).heap = entries priority items 0 :=
    (pushAll_heap priority items new).trans (List.nil_append _)
  have own := entries_priority priority items 0
  have drained := @Heap.drain_perm _ QueueEntry.above (entries priority items 0)
  unfold drain
  rw [heap]
  refine ⟨?_, ?_, fun value => ?_⟩
  · have mapped := drained.map QueueEntry.value
    rwa [entries_value] at mapped
  · refine List.pairwise_map.mpr ((Heap.drain_sorted QueueEntry.ranks _).imp_of_mem ?_)
    intro a b here there lower
    rw [← own a (drained.subset here), ← own b (drained.subset there)]
    rw [Bool.eq_false_iff, ne_eq, QueueEntry.above_iff] at lower
    omega
  · have ordered : ((entries priority items 0).filter fun entry =>
        decide ((priority entry.value).val = value)).Pairwise fun a b => a.above b = true := by
      refine ((entries_sequence priority items 0).sublist List.filter_sublist).imp_of_mem ?_
      intro a b here there earlier
      obtain ⟨here, first⟩ := List.mem_filter.mp here
      obtain ⟨there, second⟩ := List.mem_filter.mp there
      rw [QueueEntry.above_iff, own a here, own b there, of_decide_eq_true first,
        of_decide_eq_true second]
      exact .inr ⟨rfl, earlier⟩
    have same := Heap.drain_filter QueueEntry.ranks _ ordered
    conv_rhs => rw [← entries_value priority items 0]
    rw [List.filter_map, List.filter_map]
    exact congrArg (List.map QueueEntry.value) same

end PriorityQueue

end PriorityQueue

def normalizeIdentifier (value : Text) : Text :=
  Text.join [' '] (Parsoid.splitWhitespace (asciiLowercase (Text.trim value)))

def normalizedTrustedUsernames (policy : QueueHeuristicPolicy) : List Text :=
  policy.trustedUsernames.map normalizeIdentifier

/-- The four parts of a fingerprint. -/
structure Likeness where
  title : Text
  comment : Text
  pageNamespace : Int
  sign : Int
  deriving DecidableEq

def likeness (event : PatrolEvent) : Likeness where
  title := normalizeIdentifier event.title
  comment := normalizeIdentifier (event.comment.getD "no-comment".toList)
  pageNamespace := event.pageNamespace.val
  sign := event.byteDelta.val.sign

def Likeness.fingerprint (parts : Likeness) : Text :=
  parts.title ++ '|' :: parts.comment ++ '|' :: Text.ofInt parts.pageNamespace ++
    '|' :: Text.ofInt parts.sign

def duplicateFingerprint (event : PatrolEvent) : Option Text :=
  if !event.performer.isNewcomerLike then none else some (likeness event).fingerprint

def duplicateClusterSizes (events : List PatrolEvent) : List (Text × Nat) :=
  Counts.tally u32Max (events.filterMap duplicateFingerprint)

section Build

variable (toLowercase : Char → Text)

/-- What the queue knows about an event beyond the event itself. -/
def queueContext (policy : QueueHeuristicPolicy) (clusters : List (Text × Nat))
    (event : PatrolEvent) : ScoringContext :=
  let trustOverride := event.performer.isRegistered &&
    decide (normalizeIdentifier event.performer.stableLabel ∈ normalizedTrustedUsernames policy)
  { ScoringContext.default with
    trustOverride := .ofBool trustOverride
    duplicateClusterSize :=
      if policy.duplicateClusterBoost.isEnabled then
        (duplicateFingerprint event).bind fun fingerprint => clusters.lookup fingerprint
      else none }

def scoreQueued (config : ScoringConfig) (context : ScoringContext) (event : PatrolEvent) :
    Option (Except ScoringError CompositeScore) :=
  if context.trustOverride.isEnabled || context.duplicateClusterSize.isSome then
    scoreEditWithContext toLowercase event.toEditEvent config context
  else scoreEdit toLowercase event.toEditEvent config

/-- The score that an event of a batch is pushed with. -/
def scoreIn (config : ScoringConfig) (policy : QueueHeuristicPolicy) (events : List PatrolEvent)
    (event : PatrolEvent) : Option (Except ScoringError CompositeScore) :=
  scoreQueued toLowercase config (queueContext policy (duplicateClusterSizes events) event) event

/-- Push every event under its score, then pop them all; the first error ends the loop. -/
def pushScored (score : PatrolEvent → Option (Except ScoringError CompositeScore)) :
    List PatrolEvent → PriorityQueue QueuedEdit → Option (Except ScoringError (List QueuedEdit))
  | [], queue => some (.ok queue.drain)
  | event :: events, queue => do
      match ← score event with
      | .error e => some (.error e)
      | .ok scored => pushScored score events (queue.push scored.total ⟨event, scored⟩)

def buildRankedQueueWithPolicy (events : List PatrolEvent) (config : ScoringConfig)
    (policy : QueueHeuristicPolicy) : Option (Except ScoringError (List QueuedEdit)) :=
  pushScored (scoreIn toLowercase config policy events) events .new

def QueueHeuristicPolicy.default : QueueHeuristicPolicy := ⟨[], .enabled⟩

def buildRankedQueue (events : List PatrolEvent) (config : ScoringConfig) :
    Option (Except ScoringError (List QueuedEdit)) :=
  buildRankedQueueWithPolicy toLowercase events config .default

end Build

section Fingerprints

theorem not_mem_normalizeIdentifier {value : Text} (plain : '|' ∉ value) :
    '|' ∉ normalizeIdentifier value := by
  intro member
  rcases Text.mem_join member with space | ⟨word, listed, inside⟩
  · exact absurd space (by decide)
  · obtain ⟨c, trimmed, lowered⟩ :=
      List.mem_map.mp (Words.mem_of_mem_words (List.mem_filter.mp listed).1 inside)
    rw [Diff.eq_of_toLower_eq (by decide) lowered] at trimmed
    exact plain ((Text.trim_sublist value).subset trimmed)

theorem bar_not_mem_ofInt (z : Int) : '|' ∉ Text.ofInt z := by
  intro member
  rcases Text.mem_ofInt member with digit | minus
  · exact absurd digit (by decide)
  · exact absurd minus (by decide)

theorem ofInt_injective {z z' : Int} (same : Text.ofInt z = Text.ofInt z') : z = z' := by
  have read := Text.parseSigned_ofInt z
  rw [same, Text.parseSigned_ofInt] at read
  exact (Option.some.inj read).symm

/-- Where no title has a bar, a fingerprint can be taken apart: the title ends at the first bar,
the two numbers stand behind the last ones. -/
theorem fingerprint_injective {parts other : Likeness} (plain : '|' ∉ parts.title)
    (plain' : '|' ∉ other.title) (same : parts.fingerprint = other.fingerprint) : parts = other := by
  obtain ⟨title, comment, pageNamespace, sign⟩ := parts
  obtain ⟨title', comment', pageNamespace', sign'⟩ := other
  have whole : ((title ++ '|' :: comment) ++ '|' :: Text.ofInt pageNamespace) ++
      '|' :: Text.ofInt sign = ((title' ++ '|' :: comment') ++ '|' :: Text.ofInt pageNamespace') ++
        '|' :: Text.ofInt sign' := by
    simpa [Likeness.fingerprint] using same
  obtain ⟨front, signs⟩ :=
    Framing.last_unique (bar_not_mem_ofInt sign) (bar_not_mem_ofInt sign') whole
  obtain ⟨front, namespaces⟩ := Framing.last_unique (bar_not_mem_ofInt pageNamespace)
    (bar_not_mem_ofInt pageNamespace') front
  obtain ⟨rfl, rfl⟩ := Framing.first_unique plain plain' front
  rw [Likeness.mk.injEq]
  exact ⟨rfl, rfl, ofInt_injective namespaces, ofInt_injective signs⟩

theorem duplicateFingerprint_eq_some {event : PatrolEvent} {fingerprint : Text} :
    duplicateFingerprint event = some fingerprint ↔
      event.performer.isNewcomerLike = true ∧ (likeness event).fingerprint = fingerprint := by
  unfold duplicateFingerprint
  cases event.performer.isNewcomerLike <;> simp

/-- Two newcomers' events with plain titles have one fingerprint when they are alike. -/
theorem fingerprint_eq_iff {event other : PatrolEvent} (plain : '|' ∉ event.title)
    (plain' : '|' ∉ other.title) :
    (likeness other).fingerprint = (likeness event).fingerprint ↔
      likeness other = likeness event :=
  ⟨fingerprint_injective (not_mem_normalizeIdentifier plain') (not_mem_normalizeIdentifier plain),
    fun same => by rw [same]⟩

end Fingerprints

section Ranked

variable {toLowercase : Char → Text} {config : ScoringConfig}

/-- The scorer returns a score for every event and context. -/
def Accepted (toLowercase : Char → Text) (config : ScoringConfig) : Prop :=
  ∀ event context, ∃ score, scoreEditWithContext toLowercase event config context = some (.ok score)

/-- Of the two entry points, the plain one scores in the default context. -/
theorem scoreQueued_eq (policy : QueueHeuristicPolicy) (clusters : List (Text × Nat))
    (event : PatrolEvent) :
    scoreQueued toLowercase config (queueContext policy clusters event) event =
      scoreEditWithContext toLowercase event.toEditEvent config
        (queueContext policy clusters event) := by
  unfold scoreQueued
  split
  · rfl
  · next neither =>
      obtain ⟨untrusted, alone⟩ := not_or.mp (fun either => neither (Bool.or_eq_true _ _ ▸ either))
      have trust : (queueContext policy clusters event).trustOverride = .disabled := by
        cases flag : (queueContext policy clusters event).trustOverride with
        | disabled => rfl
        | enabled => rw [flag] at untrusted; exact absurd rfl untrusted
      have size : (queueContext policy clusters event).duplicateClusterSize = none :=
        Option.not_isSome_iff_eq_none.mp alone
      have context : queueContext policy clusters event =
          { ScoringContext.default with
            trustOverride := (queueContext policy clusters event).trustOverride
            duplicateClusterSize := (queueContext policy clusters event).duplicateClusterSize } := rfl
      rw [context, trust, size]
      rfl

theorem pushScored_eq {score : PatrolEvent → Option (Except ScoringError CompositeScore)}
    {value : PatrolEvent → CompositeScore} {events : List PatrolEvent}
    (all : ∀ event ∈ events, score event = some (.ok (value event)))
    (queue : PriorityQueue QueuedEdit) :
    pushScored score events queue = some (.ok (queue.pushAll (fun item => item.score.total)
      (events.map fun event => ⟨event, value event⟩)).drain) := by
  induction events generalizing queue with
  | nil => rfl
  | cons event events ih =>
      obtain ⟨here, there⟩ := List.forall_mem_cons.mp all
      rw [pushScored, here]
      exact ih there (queue.push (value event).total ⟨event, value event⟩)

/-- A queue is built only from events that all have scores. -/
theorem pushScored_ok {score : PatrolEvent → Option (Except ScoringError CompositeScore)}
    {events : List PatrolEvent} {queue : PriorityQueue QueuedEdit} {ranked : List QueuedEdit}
    (built : pushScored score events queue = some (.ok ranked)) :
    ∀ event ∈ events, ∃ value, score event = some (.ok value) := by
  induction events generalizing queue with
  | nil => exact fun event member => absurd member List.not_mem_nil
  | cons event events ih =>
      rw [pushScored] at built
      obtain ⟨outcome, here, rest⟩ := Option.bind_eq_some_iff.mp built
      cases outcome with
      | error e => cases rest
      | ok value => exact List.forall_mem_cons.mpr ⟨⟨value, here⟩, ih rest⟩

theorem scoreIn_ok_iff {policy : QueueHeuristicPolicy} {events : List PatrolEvent}
    {event : PatrolEvent} : (∃ score, scoreIn toLowercase config policy events event =
      some (.ok score)) ↔ Scores config event.toEditEvent := by
  rw [scoreIn, scoreQueued_eq]
  exact scoreEditWithContext_ok_iff

/-- The score of an event of a batch, where it has one. -/
def scoreOf (toLowercase : Char → Text) (config : ScoringConfig) (policy : QueueHeuristicPolicy)
    (events : List PatrolEvent) (event : PatrolEvent) : CompositeScore :=
  match scoreIn toLowercase config policy events event with
  | some (.ok score) => score
  | _ => { total := .zero, contributions := [] }

def scoredIn (toLowercase : Char → Text) (config : ScoringConfig) (policy : QueueHeuristicPolicy)
    (events : List PatrolEvent) (event : PatrolEvent) : QueuedEdit :=
  ⟨event, scoreOf toLowercase config policy events event⟩

theorem scoreIn_eq {policy : QueueHeuristicPolicy} {events : List PatrolEvent} {event : PatrolEvent}
    (scores : Scores config event.toEditEvent) :
    scoreIn toLowercase config policy events event =
      some (.ok (scoreOf toLowercase config policy events event)) := by
  obtain ⟨score, returned⟩ := scoreIn_ok_iff.mpr scores
  rw [scoreOf, returned]

theorem buildRankedQueueWithPolicy_scores {policy : QueueHeuristicPolicy} {events : List PatrolEvent}
    {ranked : List QueuedEdit}
    (built : buildRankedQueueWithPolicy toLowercase events config policy = some (.ok ranked)) :
    ∀ event ∈ events, Scores config event.toEditEvent :=
  fun event member => scoreIn_ok_iff.mp (pushScored_ok built event member)

/-- Scores depend on which events a batch has, not on their order. -/
theorem scoreOf_perm (policy : QueueHeuristicPolicy) {events others : List PatrolEvent}
    (perm : events.Perm others) :
    scoreOf toLowercase config policy events = scoreOf toLowercase config policy others := by
  have fingerprints := perm.filterMap duplicateFingerprint
  have counts : ∀ fingerprint, (duplicateClusterSizes events).lookup fingerprint =
      (duplicateClusterSizes others).lookup fingerprint := by
    intro fingerprint
    rw [duplicateClusterSizes, duplicateClusterSizes, Counts.lookup_tally, Counts.lookup_tally,
      fingerprints.count_eq]
    simp only [fingerprints.mem_iff]
  funext event
  have context : queueContext policy (duplicateClusterSizes events) event =
      queueContext policy (duplicateClusterSizes others) event := by
    simp only [queueContext, counts]
  rw [scoreOf, scoreOf, scoreIn, scoreIn, context]

/-- A batch whose events all have scores is ranked by them. -/
theorem buildRankedQueueWithPolicy_eq {events : List PatrolEvent} (policy : QueueHeuristicPolicy)
    (scores : ∀ event ∈ events, Scores config event.toEditEvent) :
    ∃ ranked, Ranked.Ranks (fun event =>
        (scoreOf toLowercase config policy events event).total.val) events ranked ∧
      buildRankedQueueWithPolicy toLowercase events config policy = some (.ok
        (ranked.map (scoredIn toLowercase config policy events))) := by
  obtain ⟨ranked, ranks⟩ := Ranked.exists_ranks
    (fun event => (scoreOf toLowercase config policy events event).total.val) events
  refine ⟨ranked, ranks, ?_⟩
  have drained := PriorityQueue.drain_pushAll (fun item : QueuedEdit => item.score.total)
    (events.map (scoredIn toLowercase config policy events))
  rw [buildRankedQueueWithPolicy, pushScored_eq fun event member => scoreIn_eq (scores event member)]
  exact congrArg (some ∘ Except.ok) (drained.unique
    (ranks.map (fun item : QueuedEdit => item.score.total.val) (scoredIn toLowercase config policy events)))

/-- Another event of the batch, a newcomer's too, is like the event at the position. -/
def HasLike (events : List PatrolEvent) (i : Nat) (event : PatrolEvent) : Prop :=
  ∃ j other, j ≠ i ∧ events[j]? = some other ∧ other.performer.isNewcomerLike = true ∧
    likeness other = likeness event

/-- A duplicate is reported where the policy looks for them and the batch has another. -/
theorem duplicate_fires_iff {policy : QueueHeuristicPolicy} {events : List PatrolEvent} {i : Nat}
    {event : PatrolEvent} (plain : ∀ event ∈ events, '|' ∉ event.title)
    (here : events[i]? = some event) (newcomer : event.performer.isNewcomerLike = true) :
    (firing toLowercase config event.toEditEvent
        (queueContext policy (duplicateClusterSizes events) event) .duplicatePattern).isSome ↔
      policy.duplicateClusterBoost.isEnabled = true ∧ HasLike events i event := by
  have own : duplicateFingerprint event = some (likeness event).fingerprint :=
    duplicateFingerprint_eq_some.mpr ⟨newcomer, rfl⟩
  have member : event ∈ events := List.mem_of_getElem? here
  have counted : (duplicateClusterSizes events).lookup (likeness event).fingerprint =
      some (min u32Max ((events.filterMap duplicateFingerprint).count (likeness event).fingerprint)) := by
    rw [duplicateClusterSizes, Counts.lookup_tally, if_pos (List.mem_filterMap.mpr ⟨_, member, own⟩)]
  have others : 2 ≤ (events.filterMap duplicateFingerprint).count (likeness event).fingerprint ↔
      HasLike events i event := by
    rw [Counts.two_le_count here own, HasLike]
    refine exists₂_congr fun j other => and_congr_right fun _ => and_congr_right fun found => ?_
    rw [duplicateFingerprint_eq_some,
      fingerprint_eq_iff (plain event member) (plain other (List.mem_of_getElem? found))]
  rw [← others, firing, queueContext]
  dsimp only
  rw [own, Option.bind_some, counted]
  cases policy.duplicateClusterBoost with
  | disabled => simp [FlagState.isEnabled]
  | enabled =>
      have limit : 2 ≤ u32Max := by decide
      simp only [FlagState.isEnabled, if_true, Option.bind_some, true_and]
      split
      · exact iff_of_false Bool.false_ne_true (by omega)
      · exact iff_of_true rfl (by omega)

/-- Every batch is ranked: nothing is lost, totals fall, equal totals keep the order of the
batch, and the duplicates are the newcomers' events that another one is like. -/
theorem buildRankedQueueWithPolicy_ranks (accepted : Accepted toLowercase config)
    (events : List PatrolEvent) (policy : QueueHeuristicPolicy)
    (plain : ∀ event ∈ events, '|' ∉ event.title) :
    ∃ scored ranked : List QueuedEdit,
      buildRankedQueueWithPolicy toLowercase events config policy = some (.ok ranked) ∧
      scored.map QueuedEdit.event = events ∧ (ranked.map QueuedEdit.event).Perm events ∧
      Ranked.Ranks (fun item => item.score.total.val) scored ranked ∧
      ∀ (i : Nat) (item : QueuedEdit), scored[i]? = some item →
        item.event.performer.isNewcomerLike = true →
        (deriveContentModelCapabilities item.event.contentModel).entityDiff = false →
        (ScoringSignal.duplicatePattern ∈ item.score.signals ↔
          policy.duplicateClusterBoost.isEnabled = true ∧ HasLike events i item.event) := by
  have scores : ∀ event ∈ events, Scores config event.toEditEvent := fun event _ =>
    scoreEditWithContext_ok_iff.mp (accepted event.toEditEvent .default)
  obtain ⟨ranked, ranks, built⟩ := @buildRankedQueueWithPolicy_eq toLowercase _ _ policy scores
  refine ⟨events.map (scoredIn toLowercase config policy events), _, built, ?_, ?_,
    ranks.map (fun item : QueuedEdit => item.score.total.val) (scoredIn toLowercase config policy events), ?_⟩
  · rw [List.map_map]
    exact List.map_id events
  · rw [List.map_map]
    exact (ranks.perm.map _).trans (.of_eq (List.map_id events))
  · intro i item found newcomer wikitext
    rw [List.getElem?_map, Option.map_eq_some_iff] at found
    obtain ⟨event, here, rfl⟩ := found
    have score := @scoreIn_eq toLowercase _ policy events event
      (scores event (List.mem_of_getElem? here))
    rw [scoreIn, scoreQueued_eq] at score
    exact (scoreEditWithContext_signals toLowercase ⟨by decide, by decide⟩ wikitext score).trans
      (duplicate_fires_iff plain here newcomer)

end Ranked

section Batch

def vandal (title : String) (byteDelta : I32) : PatrolEvent where
  title := title.toList
  performer := .anonymous "192.0.2.1".toList
  isBot := .disabled
  isNewPage := .disabled
  tags := []
  comment := some "Test  edit".toList
  byteDelta := byteDelta
  contentModel := none
  pageNamespace := .zero
  isMinor := .disabled
  isPatrolled := .disabled

/-- Two events that are alike, and one that removes text. -/
def batch : List PatrolEvent :=
  [vandal "Paris" ⟨7, by decide⟩, vandal "Paris" ⟨-900, by decide⟩, vandal " PARIS " ⟨12, by decide⟩]

theorem pilot_accepted : Accepted asciiLower pilotPolicy.scoringConfig :=
  fun _ _ => (compiledFrom pilot_compiles).accepts

theorem batch_ranked :
    ∃ scored ranked : List QueuedEdit,
      buildRankedQueueWithPolicy asciiLower batch pilotPolicy.scoringConfig ⟨[], .enabled⟩ =
        some (.ok ranked) ∧
      scored.map QueuedEdit.event = batch ∧ (ranked.map QueuedEdit.event).Perm batch ∧
      Ranked.Ranks (fun item => item.score.total.val) scored ranked ∧
      ∀ (i : Nat) (item : QueuedEdit), scored[i]? = some item →
        item.event.performer.isNewcomerLike = true →
        (deriveContentModelCapabilities item.event.contentModel).entityDiff = false →
        (ScoringSignal.duplicatePattern ∈ item.score.signals ↔
          FlagState.enabled.isEnabled = true ∧ HasLike batch i item.event) :=
  buildRankedQueueWithPolicy_ranks pilot_accepted batch ⟨[], .enabled⟩ (by decide +kernel)

end Batch

end SP42.Scoring

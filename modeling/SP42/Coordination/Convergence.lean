import SP42.Coordination.Replicas

/-!
Where the replicas of a room agree. The invariant follows each replica against
the server: what the client folded and is still to be delivered is what was
published and what it still holds back, with its own messages moved forward.
-/
namespace SP42.Coordination

open Overtaking (Ahead)

section Views

variable {ι : Type} {wikiId : String} {revId : Nat} {view : Post ι → CoordinationMessage}

/-- A way to read posts that changes at most the actor they name. -/
def Faithful (view : Post ι → CoordinationMessage) : Prop :=
  ∀ post, ∃ session, view post = sanitizeMessage session post.raw

theorem resolutionOf_sanitize (session : Option String) (message : CoordinationMessage) :
    (resolutionOf wikiId revId (sanitizeMessage session message)).isSome =
      (resolutionOf wikiId revId message).isSome := by
  cases session with
  | none => rfl
  | some actor =>
      cases message with
      | raceResolution resolution =>
          by_cases own : resolution.wikiId = wikiId ∧ resolution.revId = revId <;>
            simp [sanitizeMessage, rewriteActor, resolutionOf, own]
      | _ => rfl

theorem claimOf_sanitize (session : Option String) (message : CoordinationMessage) :
    (claimOf wikiId revId (sanitizeMessage session message)).isSome =
      (claimOf wikiId revId message).isSome := by
  cases session with
  | none => rfl
  | some actor =>
      cases message with
      | editClaim claim =>
          by_cases own : claim.wikiId = wikiId ∧ claim.revId = revId <;>
            simp [sanitizeMessage, rewriteActor, claimOf, own]
      | _ => rfl

/-- A message the post's kind picks out names an actor, whoever reads it. -/
theorem picked_actor {pick : CoordinationMessage → Option String}
    (kept : ∀ session message, (pick (sanitizeMessage session message)).isSome =
      (pick message).isSome)
    (named : ∀ message actor, pick message = some actor → messageActor message = some actor)
    (faithful : Faithful view) {post : Post ι} (picked : (pick post.raw).isSome = true) :
    ∃ actor, pick (view post) = some actor ∧ messageActor (view post) = some actor := by
  obtain ⟨session, same⟩ := faithful post
  rw [← kept session, ← same] at picked
  obtain ⟨actor, found⟩ := Option.isSome_iff_exists.mp picked
  exact ⟨actor, found, named _ actor found⟩

theorem last_picked {pick : CoordinationMessage → Option String}
    (kept : ∀ session message, (pick (sanitizeMessage session message)).isSome =
      (pick message).isSome)
    (named : ∀ message actor, pick message = some actor → messageActor message = some actor)
    (faithful : Faithful view) (posts : List (Post ι)) :
    ((posts.map view).filterMap pick).getLast? =
      (posts.filter fun post => (pick post.raw).isSome).getLast?.bind
        fun post => messageActor (view post) := by
  have kind : (fun post => ((pick ∘ view) post).isSome) = fun post => (pick post.raw).isSome := by
    funext post
    obtain ⟨session, same⟩ := faithful post
    rw [Function.comp_apply, same, kept]
  rw [List.filterMap_map, Register.last_filterMap, kind]
  cases last : (posts.filter fun post => (pick post.raw).isSome).getLast? with
  | none => rfl
  | some post =>
      have picked := (List.mem_filter.mp (List.mem_of_getLast? last)).2
      obtain ⟨actor, found, names⟩ := picked_actor kept named faithful picked
      exact found.trans names.symm

theorem last_resolution (faithful : Faithful view) (posts : List (Post ι)) :
    ((posts.map view).filterMap (resolutionOf wikiId revId)).getLast? =
      (posts.filter (resolves wikiId revId)).getLast?.bind fun post => messageActor (view post) :=
  last_picked resolutionOf_sanitize (fun _ _ => resolutionOf_actor) faithful posts

theorem last_claim (faithful : Faithful view) (posts : List (Post ι)) :
    ((posts.map view).filterMap (claimOf wikiId revId)).getLast? =
      (posts.filter (claims wikiId revId)).getLast?.bind fun post => messageActor (view post) :=
  last_picked claimOf_sanitize (fun _ _ => claimOf_actor) faithful posts

/-- The actor a decided revision shows. -/
def shownActor (wikiId : String) (revId : Nat) (view : Post ι → CoordinationMessage)
    (posts : List (Post ι)) : Option String :=
  (decidingPost wikiId revId posts).bind fun post => messageActor (view post)

variable {posts : List (Post ι)} {state : CoordinationState}

theorem shown_claim (faithful : Faithful view) (h : Folded wikiId (posts.map view) state)
    (revId : Nat) : state.claimFor revId =
      (shownActor wikiId revId view posts).map fun actor => ⟨wikiId, revId, actor⟩ := by
  rw [h.claim, last_resolution faithful, last_claim faithful, shownActor, decidingPost,
    Overtaking.decisive]
  cases last : (posts.filter (resolves wikiId revId)).getLast? with
  | none => rfl
  | some post =>
      have resolving := (List.mem_filter.mp (List.mem_of_getLast? last)).2
      obtain ⟨actor, _, names⟩ := picked_actor resolutionOf_sanitize
        (fun _ _ => resolutionOf_actor) faithful resolving
      rw [Option.bind_some, Option.some_or, Option.bind_some, names, Option.some_or]

theorem shown_resolution (faithful : Faithful view) (h : Folded wikiId (posts.map view) state)
    (revId : Nat) : state.raceResolution revId =
      if (posts.filter (resolves wikiId revId)).getLast? = none then none
      else (shownActor wikiId revId view posts).map fun actor => ⟨wikiId, revId, actor⟩ := by
  rw [h.resolution, last_resolution faithful, shownActor, decidingPost, Overtaking.decisive]
  cases last : (posts.filter (resolves wikiId revId)).getLast? with
  | none => rfl
  | some post => rfl

end Views

section Agreement

variable {ι : Type} [DecidableEq ι] {wikiId : String} {client : ι} {log folds : List (Post ι)}
  {mine room : CoordinationState}

/-- The two states show the same claim and the same resolution of the revision. -/
def Agree (revId : Nat) (mine room : CoordinationState) : Prop :=
  mine.claimFor revId = room.claimFor revId ∧ mine.raceResolution revId = room.raceResolution revId

theorem seenBy_faithful (client : ι) : Faithful (seenBy client) := by
  intro post
  unfold seenBy
  split
  · exact ⟨none, rfl⟩
  · exact ⟨post.session, rfl⟩

theorem agree_iff_shown (ahead : Ahead (ownPost client) log folds)
    (roomFolded : Folded wikiId (log.map Post.relayed) room)
    (mineFolded : Folded wikiId (folds.map (seenBy client)) mine) (revId : Nat) :
    Agree revId mine room ↔
      shownActor wikiId revId (seenBy client) folds =
        shownActor wikiId revId Post.relayed log := by
  have relayed : Faithful (@Post.relayed ι) := fun post => ⟨post.session, rfl⟩
  unfold Agree
  rw [shown_claim (seenBy_faithful client) mineFolded, shown_claim relayed roomFolded,
    shown_resolution (seenBy_faithful client) mineFolded, shown_resolution relayed roomFolded]
  simp only [ahead.getLast?_none (resolves wikiId revId)]
  constructor
  · intro agree
    refine Option.map_injective (fun a b same => ?_) agree.1
    exact congrArg EditClaim.actor same
  · intro same
    rw [same]
    exact ⟨rfl, rfl⟩

/-- The client agrees with the room where the deciding message is not its own. -/
theorem agree_of_other (ahead : Ahead (ownPost client) log folds)
    (roomFolded : Folded wikiId (log.map Post.relayed) room)
    (mineFolded : Folded wikiId (folds.map (seenBy client)) mine) {revId : Nat}
    (other : ∀ post, decidingPost wikiId revId log = some post → post.sender ≠ some client) :
    Agree revId mine room := by
  rw [agree_iff_shown ahead roomFolded mineFolded]
  unfold shownActor
  cases decides : decidingPost wikiId revId log with
  | none =>
      have undecided : decidingPost wikiId revId folds = none := ahead.decisive_none.mpr decides
      rw [undecided]
      rfl
  | some post =>
      have theirs : ownPost client post = false := decide_eq_false (other post decides)
      have same : decidingPost wikiId revId folds = some post := ahead.decisive_other decides theirs
      rw [same, Option.bind_some, Option.bind_some, seenBy, if_neg (other post decides)]

/-- Where it is its own, the client has folded a deciding message too, and the actor tells. -/
theorem agree_of_own (ahead : Ahead (ownPost client) log folds)
    (roomFolded : Folded wikiId (log.map Post.relayed) room)
    (mineFolded : Folded wikiId (folds.map (seenBy client)) mine) {revId : Nat} {post : Post ι}
    (decides : decidingPost wikiId revId log = some post) (own : post.sender = some client) :
    ∃ last, decidingPost wikiId revId folds = some last ∧
      (last.sender = some client → last = post) ∧
      (Agree revId mine room ↔
        messageActor (seenBy client last) = messageActor post.relayed) := by
  cases decides' : decidingPost wikiId revId folds with
  | none =>
      have undecided : decidingPost wikiId revId log = none := ahead.decisive_none.mp decides'
      rw [undecided] at decides
      cases decides
  | some last =>
      refine ⟨last, rfl, fun own' => ?_, ?_⟩
      · exact ahead.decisive_own decides (decide_eq_true own) decides' (decide_eq_true own')
      · rw [agree_iff_shown ahead roomFolded mineFolded, shownActor, shownActor, decides', decides]
        rfl

end Agreement

section Replica

variable {ι : Type} [DecidableEq ι] {wikiId : String} {client : ι} {log folds : List (Post ι)}
  {replica : Replica ι}

def Replica.ownPosts (client : ι) (replica : Replica ι) : List (Post ι) :=
  replica.outbox.map fun message => ⟨some client, replica.session, message⟩

/-- The replica against the server's log and its own. -/
structure Keeps (wikiId : String) (client : ι) (log folds : List (Post ι)) (replica : Replica ι) :
    Prop where
  folded : Folded wikiId (folds.map (seenBy client)) replica.runtime.state
  waiting : ∀ post ∈ replica.inbox, ownPost client post = false
  ahead : Ahead (ownPost client) (log ++ replica.ownPosts client) (folds ++ replica.inbox)

theorem Keeps.send (h : Keeps wikiId client log folds replica) (message : CoordinationMessage) :
    Keeps wikiId client log (folds ++ [⟨some client, replica.session, message⟩])
      { replica with
        runtime := (replica.runtime.send message).1
        outbox := replica.outbox ++ [message] } where
  folded := by
    rw [List.map_append]
    have seen : seenBy client ⟨some client, replica.session, message⟩ = message := if_pos rfl
    rw [List.map_singleton, seen]
    exact apply_folded h.folded message
  waiting := h.waiting
  ahead := by
    have later := h.ahead.append_right [⟨some client, replica.session, message⟩]
    have mine : ownPost client ⟨some client, replica.session, message⟩ = true := decide_eq_true rfl
    have forward := (Ahead.pass mine replica.inbox h.waiting).append_left folds
    rw [← List.append_assoc] at forward
    simpa [Replica.ownPosts] using later.trans forward

theorem Keeps.publishOwn (h : Keeps wikiId client log folds replica)
    {message : CoordinationMessage} {rest : List CoordinationMessage}
    (next : replica.outbox = message :: rest) :
    Keeps wikiId client (log ++ [⟨some client, replica.session, message⟩]) folds
      { replica with outbox := rest } where
  folded := h.folded
  waiting := h.waiting
  ahead := by
    have same := h.ahead
    rw [Replica.ownPosts, next] at same
    simpa [Replica.ownPosts] using same

theorem Keeps.publishOther (h : Keeps wikiId client log folds replica) {post : Post ι}
    (other : ownPost client post = false) :
    Keeps wikiId client (log ++ [post]) folds
      { replica with inbox := replica.inbox ++ [post] } where
  folded := h.folded
  waiting := by
    intro held member
    rcases List.mem_append.mp member with old | new
    · exact h.waiting held old
    · rw [List.mem_singleton.mp new]
      exact other
  ahead := by
    have mine : ∀ held ∈ replica.ownPosts client, ownPost client held = true := by
      intro held member
      obtain ⟨message, _, rfl⟩ := List.mem_map.mp member
      exact decide_eq_true rfl
    have others : ∀ held ∈ [post], ownPost client held = false := by
      intro held member
      rw [List.mem_singleton.mp member]
      exact other
    have back := (Ahead.pass_block [post] others (replica.ownPosts client) mine).append_left log
    have forward := h.ahead.append_right [post]
    rw [List.append_assoc] at forward
    simpa [Replica.ownPosts] using back.trans forward

theorem Keeps.deliver (h : Keeps wikiId client log folds replica) {post : Post ι}
    {rest : List (Post ι)} (next : replica.inbox = post :: rest) :
    Keeps wikiId client log (folds ++ [post])
      { replica with
        runtime := replica.runtime.receiveMessage (some post.relayed)
        inbox := rest } where
  folded := by
    have other : ownPost client post = false := h.waiting post (next ▸ List.mem_cons_self)
    have seen : seenBy client post = post.relayed := if_neg (of_decide_eq_false other)
    rw [List.map_append, List.map_singleton, seen]
    exact apply_folded h.folded post.relayed
  waiting held member := h.waiting held (next ▸ List.mem_cons_of_mem _ member)
  ahead := by
    have same := h.ahead
    rw [next] at same
    simpa [Replica.ownPosts] using same

end Replica

section Net

variable {ι : Type} [DecidableEq ι] {wikiId : String}

/-- The room folded what was published, and every replica keeps up with it. -/
structure Consistent (wikiId : String) (past : List (NetAction ι × Option (Post ι)))
    (net : Net ι) : Prop where
  room : Folded wikiId ((publishedLog past).map Post.relayed) net.room.state
  replicas : ∀ client, Keeps wikiId client (publishedLog past) (foldedLog client past)
    (net.replicas client)

omit [DecidableEq ι] in
theorem publishMessage_folded {log : List (Post ι)} {room : CoordinationRoomState}
    (h : Folded wikiId (log.map Post.relayed) room.state) (post : Post ι) (nowMs : Int) :
    Folded wikiId ((log ++ [post]).map Post.relayed)
      (publishMessage room post.relayed nowMs).state := by
  rw [List.map_append]
  have counted : Folded wikiId (log.map Post.relayed) ({ room with
      publishedMessages := saturatingSucc u64Max room.publishedMessages
      lastActivityMs := some nowMs } : CoordinationRoomState).state := h
  exact acceptMessage_folded counted post.relayed nowMs

theorem start_consistent (wikiId : String) (sessions : ι → Option String) :
    Consistent wikiId [] (Net.start wikiId sessions) := by
  refine ⟨new_folded wikiId, fun client => ⟨new_folded wikiId, ?_, .refl⟩⟩
  intro post member
  cases member

omit [DecidableEq ι] in
theorem publishedLog_append (past : List (NetAction ι × Option (Post ι)))
    (e : NetAction ι × Option (Post ι)) :
    publishedLog (past ++ [e]) = publishedLog past ++ (publishedPost e).toList := by
  rw [publishedLog, List.filterMap_append]
  cases h : publishedPost e <;> simp [h, publishedLog]

theorem foldedLog_append (client : ι) (past : List (NetAction ι × Option (Post ι)))
    (e : NetAction ι × Option (Post ι)) :
    foldedLog client (past ++ [e]) = foldedLog client past ++ (foldedPost client e).toList := by
  rw [foldedLog, List.filterMap_append]
  cases h : foldedPost client e <;> simp [h, foldedLog]

/-- A post fanned out reaches everyone it is not from. -/
theorem fanOut_keeps {log folds : List (Post ι)} {post : Post ι} {replicas : ι → Replica ι}
    {client : ι} (h : Keeps wikiId client log folds (replicas client))
    (other : post.sender ≠ some client) :
    Keeps wikiId client (log ++ [post]) folds (fanOut post replicas client) := by
  rw [fanOut, if_neg other]
  exact h.publishOther (decide_eq_false other)

theorem consistent_append {past : List (NetAction ι × Option (Post ι))} {net : Net ι}
    {e : NetAction ι × Option (Post ι)}
    (room : Folded wikiId ((publishedLog past ++ (publishedPost e).toList).map Post.relayed)
      net.room.state)
    (replicas : ∀ client, Keeps wikiId client (publishedLog past ++ (publishedPost e).toList)
      (foldedLog client past ++ (foldedPost client e).toList) (net.replicas client)) :
    Consistent wikiId (past ++ [e]) net := by
  refine ⟨?_, fun client => ?_⟩
  · rw [publishedLog_append]
    exact room
  · rw [publishedLog_append, foldedLog_append]
    exact replicas client

section Step

variable {past : List (NetAction ι × Option (Post ι))} {net : Net ι}

theorem idle_consistent (h : Consistent wikiId past net) {action : NetAction ι}
    (idle : net.step action = (net, none)) :
    Consistent wikiId (past ++ [(action, (net.step action).2)]) (net.step action).1 := by
  rw [idle]
  apply consistent_append
  · cases action <;> simpa [publishedPost] using h.room
  · intro client
    cases action <;> simpa [publishedPost, foldedPost] using h.replicas client

theorem send_consistent (h : Consistent wikiId past net) (sender : ι)
    (message : CoordinationMessage) :
    Consistent wikiId (past ++ [(.send sender message, (net.step (.send sender message)).2)])
      (net.step (.send sender message)).1 := by
  apply consistent_append
  · simpa [Net.step, publishedPost] using h.room
  · intro client
    by_cases here : client = sender
    · subst here
      simpa [Net.step, publishedPost, foldedPost, CoordinationRuntime.send] using
        (h.replicas client).send message
    · have elsewhere : ¬ sender = client := fun same => here same.symm
      simpa [Net.step, publishedPost, foldedPost, here, elsewhere] using h.replicas client

theorem publish_consistent (h : Consistent wikiId past net) (sender : ι) (nowMs : Int) :
    Consistent wikiId (past ++ [(.publish sender nowMs, (net.step (.publish sender nowMs)).2)])
      (net.step (.publish sender nowMs)).1 := by
  cases waiting : (net.replicas sender).outbox with
  | nil =>
      apply idle_consistent h
      simp [Net.step, waiting]
  | cons message rest =>
      apply consistent_append
      · simpa [Net.step, waiting, publishedPost] using publishMessage_folded h.room _ nowMs
      · intro client
        by_cases here : client = sender
        · subst here
          simpa [Net.step, waiting, publishedPost, foldedPost, fanOut] using
            (h.replicas client).publishOwn waiting
        · have elsewhere : ¬ sender = client := fun same => here same.symm
          have published := @fanOut_keeps ι _ wikiId _ _
            ⟨some sender, (net.replicas sender).session, message⟩ net.replicas client
            (h.replicas client) (by simpa using elsewhere)
          simpa [Net.step, waiting, publishedPost, foldedPost, fanOut, here, elsewhere] using
            published

theorem deliver_consistent (h : Consistent wikiId past net) (receiver : ι) :
    Consistent wikiId (past ++ [(.deliver receiver, (net.step (.deliver receiver)).2)])
      (net.step (.deliver receiver)).1 := by
  cases waiting : (net.replicas receiver).inbox with
  | nil =>
      apply idle_consistent h
      simp [Net.step, waiting]
  | cons post rest =>
      apply consistent_append
      · simpa [Net.step, waiting, publishedPost] using h.room
      · intro client
        by_cases here : client = receiver
        · subst here
          simpa [Net.step, waiting, publishedPost, foldedPost] using
            (h.replicas client).deliver waiting
        · have elsewhere : ¬ receiver = client := fun same => here same.symm
          simpa [Net.step, waiting, publishedPost, foldedPost, here, elsewhere] using
            h.replicas client

theorem reviewSignal_consistent (h : Consistent wikiId past net) (signal : ReviewSignal)
    (nowMs : Int) :
    Consistent wikiId
      (past ++ [(.reviewSignal signal nowMs, (net.step (.reviewSignal signal nowMs)).2)])
      (net.step (.reviewSignal signal nowMs)).1 := by
  apply consistent_append
  · simpa [Net.step, publishedPost] using publishMessage_folded h.room _ nowMs
  · intro client
    simpa [Net.step, publishedPost, foldedPost] using fanOut_keeps (h.replicas client) (by simp)

theorem step_consistent (h : Consistent wikiId past net) (action : NetAction ι) :
    Consistent wikiId (past ++ [(action, (net.step action).2)]) (net.step action).1 := by
  cases action with
  | send sender message => exact send_consistent h sender message
  | publish sender nowMs => exact publish_consistent h sender nowMs
  | deliver receiver => exact deliver_consistent h receiver
  | reviewSignal signal nowMs => exact reviewSignal_consistent h signal nowMs

end Step

/-- In every run of the room, a client that is sent and told everything agrees with
the room on each revision that another's message decides; where an own message
decides, exactly the actor the client last saw named tells whether they agree. -/
theorem replicas_agree_iff (wikiId : String) (sessions : ι → Option String)
    (actions : List (NetAction ι)) (client : ι) (revId : Nat) :
    let started := Net.start wikiId sessions
    let history := Run.trace Net.step started actions
    let net := Run.final Net.step started actions
    let decides := decidingPost wikiId revId (publishedLog history)
    let mine := (net.replicas client).runtime.state
    (net.replicas client).Quiet →
      ((∀ post, decides = some post → post.sender ≠ some client) →
        Agree revId mine net.room.state) ∧
      ∀ post, decides = some post → post.sender = some client →
        ∃ last, decidingPost wikiId revId (foldedLog client history) = some last ∧
          (last.sender = some client → last = post) ∧
          (Agree revId mine net.room.state ↔
            messageActor (seenBy client last) = messageActor post.relayed) := by
  intro started history net decides mine quiet
  have consistent : Consistent wikiId ([] ++ history) net :=
    @Run.history_invariant _ _ _ Net.step (Consistent wikiId)
      (fun past s action h => step_consistent h action) [] started
      (start_consistent wikiId sessions) actions
  rw [List.nil_append] at consistent
  have keeps := consistent.replicas client
  have ahead : Ahead (ownPost client) (publishedLog history) (foldedLog client history) := by
    have all := keeps.ahead
    rw [Replica.ownPosts, quiet.1, quiet.2] at all
    simpa using all
  exact ⟨fun other => agree_of_other ahead consistent.room keeps.folded other,
    fun post decided own => agree_of_own ahead consistent.room keeps.folded decided own⟩

end Net

inductive Operator where
  | alice
  | bob
  deriving DecidableEq, Repr

def Operator.session : Operator → Option String
  | .alice => some "Alice"
  | .bob => some "Bob"

/-- Alice claims a revision, and everyone is told. -/
def aliceActions : List (NetAction Operator) :=
  [.send .alice (.editClaim ⟨"frwiki", 42, "Alice"⟩), .publish .alice 1, .deliver .bob]

theorem replicas_agree_alice :
    Agree 42
      ((Run.final Net.step (Net.start "frwiki" Operator.session) aliceActions).replicas
        .bob).runtime.state
      (Run.final Net.step (Net.start "frwiki" Operator.session) aliceActions).room.state := by
  refine (replicas_agree_iff "frwiki" Operator.session aliceActions .bob 42 ⟨rfl, rfl⟩).1 ?_
  intro post decides
  cases decides
  decide

/-- Alice and Bob claim a revision at the same time: the room and Alice show Bob, Bob shows Alice. -/
theorem replicas_differ :
    let net := Run.final Net.step (Net.start "frwiki" Operator.session)
      [.send .alice (.editClaim ⟨"frwiki", 42, "Alice"⟩),
        .send .bob (.editClaim ⟨"frwiki", 42, "Bob"⟩), .publish .alice 1, .publish .bob 2,
        .deliver .alice, .deliver .bob]
    (∀ operator, (net.replicas operator).Quiet) ∧
      (net.room.state.claimFor 42).map EditClaim.actor = some "Bob" ∧
      ((net.replicas .alice).runtime.state.claimFor 42).map EditClaim.actor = some "Bob" ∧
      ((net.replicas .bob).runtime.state.claimFor 42).map EditClaim.actor = some "Alice" := by
  refine ⟨?_, ?_, ?_, ?_⟩
  · intro operator
    cases operator <;> exact ⟨rfl, rfl⟩
  · decide
  · decide
  · decide

end SP42.Coordination

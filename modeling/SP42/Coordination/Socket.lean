import SP42.Coordination.Presence

/-!
One coordination socket. The server rewrites each frame it receives to the
session's username, publishes it, and passes on what other sockets published.
The registry is shared: between two frames any call of another task may run.
-/
namespace SP42.Coordination

/-- A payload that cannot be decoded, or encoded again, stays as it came. -/
def sanitizeCoordinationPayload (codec : Codec) (payload : List UInt8) (actor : Option String) :
    List UInt8 :=
  match actor with
  | none => payload
  | some actor =>
    match codec.decodeMessage payload with
    | .error _ => payload
    | .ok message =>
      match codec.encodeMessage (rewriteActor actor message) with
      | .ok bytes => bytes
      | .error _ => payload

inductive SocketFrame where
  | binary (bytes : List UInt8)
  | text (contents : String)
  | close
  | ping
  | pong
  deriving DecidableEq, Repr

/-- What a frame brings to the relay. -/
def SocketFrame.payload : SocketFrame → Option (List UInt8)
  | .binary bytes => some bytes
  | .text contents => some contents.toUTF8.data.toList
  | _ => none

/-- A socket belongs to a room, and to the username its session had at the upgrade, if any. -/
structure CoordinationSocket where
  wikiId : String
  clientId : Nat
  actor : Option String

/-- The receiving loop of a socket beside the registry it shares. -/
structure SocketTask where
  registry : CoordinationRegistry
  closed : Bool

/-- What happens next: a frame arrives (`none` is the end of the stream), or another task calls. -/
inductive SocketInput where
  | received (frame : Option SocketFrame) (senderMs nowMs : Int)
  | elsewhere (call : RegistryCall)
  deriving DecidableEq, Repr

/-- Joining the room, before the loop. -/
def CoordinationSocket.handleSocket (socket : CoordinationSocket) (registry : CoordinationRegistry)
    (connectMs subscribeMs : Int) : SocketTask :=
  ⟨((registry.connectClient socket.wikiId connectMs).subscribe socket.wikiId subscribeMs).1, false⟩

def SocketTask.publish (codec : Codec) (socket : CoordinationSocket) (task : SocketTask)
    (bytes : List UInt8) (senderMs nowMs : Int) :
    SocketTask × Option CoordinationRegistry.Published :=
  let payload := sanitizeCoordinationPayload codec bytes socket.actor
  let (registry, published) :=
    task.registry.publish codec socket.wikiId ⟨socket.clientId, payload⟩ senderMs nowMs
  ({ task with registry := registry }, some published)

/-- One turn of the loop, answered by what it published. -/
def SocketTask.step (codec : Codec) (socket : CoordinationSocket) (task : SocketTask) :
    SocketInput → SocketTask × Option CoordinationRegistry.Published
  | .elsewhere call => ({ task with registry := (task.registry.step codec call).1 }, none)
  | .received frame senderMs nowMs =>
    if task.closed then (task, none)
    else match frame with
      | some (.binary bytes) => task.publish codec socket bytes senderMs nowMs
      | some (.text contents) =>
          task.publish codec socket contents.toUTF8.data.toList senderMs nowMs
      | some .ping | some .pong => (task, none)
      | some .close | none =>
          (⟨task.registry.disconnectClient socket.wikiId nowMs, true⟩, none)

/-- The sending loop of a subscriber: every envelope but its own goes out as it is. -/
def forwardTo (clientId : Nat) (envelope : CoordinationEnvelope) : Option (List UInt8) :=
  if envelope.senderId = clientId then none else some envelope.payload

/-- What the codec is relied on for: a decoded message, rewritten to the actor,
encodes to bytes that decode to it. -/
def RewritesRoundTrip (codec : Codec) (actor : String) : Prop :=
  ∀ bytes message, codec.decodeMessage bytes = .ok message →
    ∃ rewritten, codec.encodeMessage (rewriteActor actor message) = .ok rewritten ∧
      codec.decodeMessage rewritten = .ok (rewriteActor actor message)

/-- No message but one that speaks for the actor was folded or reaches a peer. -/
structure Attributed (codec : Codec) (actor : String) (published : CoordinationRegistry.Published) :
    Prop where
  folded : ∀ message, published.folded = some message →
    ∀ named, messageActor message = some named → named = actor
  relayed : ∀ channel envelope, published.relayed = some (channel, envelope) →
    ∀ peer payload, forwardTo peer envelope = some payload →
      ∀ message, codec.decodeMessage payload = .ok message →
        ∀ named, messageActor message = some named → named = actor

/-- The bytes were folded and relayed, if at all, as they came. -/
structure Verbatim (codec : Codec) (bytes : List UInt8)
    (published : CoordinationRegistry.Published) : Prop where
  folded : ∀ message, published.folded = some message → codec.decodeMessage bytes = .ok message
  relayed : ∀ channel envelope, published.relayed = some (channel, envelope) →
    envelope.payload = bytes

def SocketInput.payload : SocketInput → Option (List UInt8)
  | .received frame _ _ => frame.bind SocketFrame.payload
  | .elsewhere _ => none

section Publish

variable {codec : Codec} {registry : CoordinationRegistry} {wikiId : String}
  {envelope : CoordinationEnvelope} {senderMs nowMs : Int}

theorem foldPayload_folded {payload : List UInt8} {message : CoordinationMessage}
    (h : (registry.foldPayload codec wikiId payload nowMs).2 = some message) :
    codec.decodeMessage payload = .ok message := by
  unfold CoordinationRegistry.foldPayload at h
  dsimp only at h
  cases held : (pruneInactiveRooms registry.rooms nowMs)[wikiId]? with
  | none => simp [held] at h
  | some room =>
      cases decoded : codec.decodeMessage payload with
      | error reason => simp [held, decoded] at h
      | ok other =>
          simp only [held, decoded, Option.some.injEq] at h
          rw [h]

theorem publish_folded {message : CoordinationMessage}
    (h : (registry.publish codec wikiId envelope senderMs nowMs).2.folded = some message) :
    codec.decodeMessage envelope.payload = .ok message :=
  foldPayload_folded h

/-- What is relayed is the envelope itself, and only when its payload was folded. -/
theorem publish_relayed {channel : Nat} {relayed : CoordinationEnvelope}
    (h : (registry.publish codec wikiId envelope senderMs nowMs).2.relayed =
      some (channel, relayed)) :
    relayed = envelope ∧ ∃ message, codec.decodeMessage envelope.payload = .ok message := by
  unfold CoordinationRegistry.publish at h
  dsimp only at h
  split at h
  · rename_i decoded
    obtain ⟨message, folded⟩ := Option.isSome_iff_exists.mp decoded
    simp only [Option.some.injEq, Prod.mk.injEq] at h
    exact ⟨h.2.symm, message, foldPayload_folded folded⟩
  · cases h

end Publish

section Sanitize

variable {codec : Codec} {actor : String} {bytes : List UInt8}

/-- A sanitized payload decodes to the rewritten message, or to nothing at all. -/
theorem decode_sanitize (lawful : RewritesRoundTrip codec actor) {message : CoordinationMessage}
    (h : codec.decodeMessage (sanitizeCoordinationPayload codec bytes (some actor)) =
      .ok message) :
    ∃ original, codec.decodeMessage bytes = .ok original ∧
      message = rewriteActor actor original := by
  cases decoded : codec.decodeMessage bytes with
  | error reason =>
      simp only [sanitizeCoordinationPayload, decoded] at h
      cases h
  | ok original =>
      obtain ⟨rewritten, encodes, decodes⟩ := lawful bytes original decoded
      simp only [sanitizeCoordinationPayload, decoded, encodes, decodes, Except.ok.injEq] at h
      exact ⟨original, rfl, h.symm⟩

theorem sanitize_names (lawful : RewritesRoundTrip codec actor) {message : CoordinationMessage}
    (h : codec.decodeMessage (sanitizeCoordinationPayload codec bytes (some actor)) =
      .ok message) {named : String} (names : messageActor message = some named) :
    named = actor := by
  obtain ⟨original, _, rfl⟩ := decode_sanitize lawful h
  rw [messageActor_rewriteActor] at names
  obtain ⟨_, _, same⟩ := Option.map_eq_some_iff.mp names
  exact same.symm

end Sanitize

section Publications

variable {codec : Codec} {socket : CoordinationSocket}

/-- What a socket publishes under a session speaks for the session's user. -/
theorem publish_attributed {actor : String} (authenticated : socket.actor = some actor)
    (lawful : RewritesRoundTrip codec actor) (registry : CoordinationRegistry)
    (bytes : List UInt8) (senderMs nowMs : Int) :
    Attributed codec actor (registry.publish codec socket.wikiId
      ⟨socket.clientId, sanitizeCoordinationPayload codec bytes socket.actor⟩ senderMs nowMs).2 where
  folded message folded named names := by
    have decoded := publish_folded folded
    rw [authenticated] at decoded
    exact sanitize_names lawful decoded names
  relayed channel envelope relayed peer payload forwarded message decoded named names := by
    obtain ⟨rfl, _⟩ := publish_relayed relayed
    unfold forwardTo at forwarded
    split at forwarded
    · cases forwarded
    · cases forwarded
      rw [authenticated] at decoded
      exact sanitize_names lawful decoded names

theorem publish_verbatim (anonymous : socket.actor = none) (registry : CoordinationRegistry)
    (bytes : List UInt8) (senderMs nowMs : Int) :
    Verbatim codec bytes (registry.publish codec socket.wikiId
      ⟨socket.clientId, sanitizeCoordinationPayload codec bytes socket.actor⟩ senderMs nowMs).2 := by
  have same : sanitizeCoordinationPayload codec bytes socket.actor = bytes := by
    rw [anonymous]
    rfl
  rw [same]
  refine ⟨fun message folded => publish_folded folded, fun channel envelope relayed => ?_⟩
  obtain ⟨rfl, _⟩ := publish_relayed relayed
  rfl

/-- The socket publishes only what a frame brought, and through the rewrite. -/
theorem step_published {task : SocketTask} {input : SocketInput}
    {published : CoordinationRegistry.Published}
    (h : (task.step codec socket input).2 = some published) :
    ∃ bytes senderMs nowMs, input.payload = some bytes ∧
      published = (task.registry.publish codec socket.wikiId
        ⟨socket.clientId, sanitizeCoordinationPayload codec bytes socket.actor⟩
          senderMs nowMs).2 := by
  cases input with
  | elsewhere call => cases h
  | received frame senderMs nowMs =>
      by_cases closed : task.closed = true
      · simp [SocketTask.step, closed] at h
      simp only [SocketTask.step, closed] at h
      match frame with
      | some (.binary bytes) => exact ⟨bytes, senderMs, nowMs, rfl, (Option.some.inj h).symm⟩
      | some (.text contents) =>
          exact ⟨contents.toUTF8.data.toList, senderMs, nowMs, rfl, (Option.some.inj h).symm⟩
      | some .ping | some .pong | some .close | none => cases h

end Publications

/-- Whatever arrives on a socket and whatever else the server does meanwhile: under a
session every message folded or passed on to a peer speaks for its user, and
without one the bytes are folded and passed on as they came. -/
theorem relay_speaks_for_session (codec : Codec) (socket : CoordinationSocket)
    (lawful : ∀ actor, socket.actor = some actor → RewritesRoundTrip codec actor)
    (registry : CoordinationRegistry) (connectMs subscribeMs : Int) (inputs : List SocketInput) :
    ∀ e ∈ Run.trace (SocketTask.step codec socket)
        (socket.handleSocket registry connectMs subscribeMs) inputs,
      ∀ published, e.2 = some published →
        (∀ actor, socket.actor = some actor → Attributed codec actor published) ∧
        (socket.actor = none →
          ∃ bytes, e.1.payload = some bytes ∧ Verbatim codec bytes published) := by
  refine @Run.trace_invariant _ _ _ (SocketTask.step codec socket) (fun _ => True) (fun _ => True)
    _ (fun _ _ _ _ => trivial) (fun task input _ _ published sent => ?_) _ trivial inputs
    fun _ _ => trivial
  obtain ⟨bytes, senderMs, nowMs, brought, rfl⟩ := step_published sent
  constructor
  · intro actor authenticated
    exact publish_attributed authenticated (lawful actor authenticated) task.registry bytes
      senderMs nowMs
  · intro anonymous
    exact ⟨bytes, brought, publish_verbatim anonymous task.registry bytes senderMs nowMs⟩

/-- The MessagePack bytes of a claim with short texts and a revision below 128. -/
def claimBytes (claim : EditClaim) : List UInt8 :=
  [0x81] ++ fixstr "EditClaim" ++ [0x83] ++ fixstr "wiki_id" ++ fixstr claim.wikiId ++
    fixstr "rev_id" ++ [UInt8.ofNat claim.revId] ++ fixstr "actor" ++ fixstr claim.actor

def malloryClaims : EditClaim := ⟨"frwiki", 42, "Mallory"⟩
def aliceClaims : EditClaim := ⟨"frwiki", 42, "Alice"⟩

/-- What the codec does with the claims above. -/
def claimCodec : Codec where
  encodeMessage
    | .editClaim claim => .ok (claimBytes claim)
    | _ => .error "not a sampled message"
  decodeMessage bytes :=
    if bytes = claimBytes malloryClaims then .ok (.editClaim malloryClaims)
    else if bytes = claimBytes aliceClaims then .ok (.editClaim aliceClaims)
    else .error "not a sampled message"

def malloryFrame : SocketInput := .received (some (.binary (claimBytes malloryClaims))) 1 1

theorem relay_speaks_for_alice :
    ∃ published, (Run.trace (SocketTask.step claimCodec ⟨"frwiki", 1, some "Alice"⟩)
        (CoordinationSocket.handleSocket ⟨"frwiki", 1, some "Alice"⟩ .new 0 0)
        [malloryFrame]).map Prod.snd = [some published] ∧
      published.folded = some (.editClaim aliceClaims) ∧
      Attributed claimCodec "Alice" published := by
  refine ⟨_, rfl, by decide, ?_⟩
  refine (relay_speaks_for_session claimCodec ⟨"frwiki", 1, some "Alice"⟩ ?_ .new 0 0
    [malloryFrame] _ List.mem_cons_self _ rfl).1 "Alice" rfl
  intro actor authenticated bytes message decoded
  cases authenticated
  refine ⟨claimBytes aliceClaims, ?_⟩
  simp only [claimCodec] at decoded
  split at decoded
  · cases decoded
    decide
  · split at decoded
    · cases decoded
      decide
    · cases decoded

/-- Without a session the claim of a stranger is folded and passed on in the name it gives. -/
theorem anonymous_socket_names_anyone :
    (Run.trace (SocketTask.step claimCodec ⟨"frwiki", 1, none⟩)
        (CoordinationSocket.handleSocket ⟨"frwiki", 1, none⟩ .new 0 0) [malloryFrame]).map
      (fun e => e.2.map fun published => (published.folded, published.relayed.map fun (_, envelope) =>
        (forwardTo 2 envelope).map fun payload => (claimCodec.decodeMessage payload).toOption)) =
      [some (some (.editClaim malloryClaims), some (some (some (.editClaim malloryClaims))))] := by
  decide

end SP42.Coordination

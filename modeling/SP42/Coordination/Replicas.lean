import SP42.Coordination.Claims
import SP42.Coordination.Socket
import SP42.Coordination.State
import SP42.Lib.Overtaking
import Mathlib.Logic.Function.Basic

/-!
The client's runtime: every operation sends one message over the socket and
folds it into the local state at once, and every received message is folded when
it arrives. The socket is the list of messages it returns; a transport that
fails leaves the runtime as it was.
-/
namespace SP42.Coordination

structure CoordinationRuntime where
  state : CoordinationState
  outgoingMessages : Nat
  incomingMessages : Nat
  streamClosed : Bool

namespace CoordinationRuntime

def new (wikiId : String) : CoordinationRuntime := ⟨.new wikiId, 0, 0, false⟩

/-- Send a message and fold it optimistically; the second component is what was sent. -/
def send (runtime : CoordinationRuntime) (message : CoordinationMessage) :
    CoordinationRuntime × CoordinationMessage :=
  ({ runtime with
      outgoingMessages := saturatingSucc u64Max runtime.outgoingMessages
      state := (runtime.state.apply message).1 }, message)

def claimEdit (runtime : CoordinationRuntime) (wikiId : String) (revId : Nat) (actor : String) :=
  runtime.send (.editClaim ⟨wikiId, revId, actor⟩)

def broadcastAction (runtime : CoordinationRuntime) (wikiId : String) (revId : Nat)
    (action : Action) (actor : String) :=
  runtime.send (.actionBroadcast ⟨wikiId, revId, action, actor⟩)

def sendScoreDelta (runtime : CoordinationRuntime) (wikiId : String) (revId : Nat) (delta : Int)
    (reason : String) :=
  runtime.send (.scoreDelta ⟨wikiId, revId, delta, reason⟩)

def sendPresence (runtime : CoordinationRuntime) (wikiId actor : String)
    (activeEditCount : Nat) :=
  runtime.send (.presenceHeartbeat ⟨wikiId, actor, activeEditCount⟩)

def flagEdit (runtime : CoordinationRuntime) (wikiId : String) (revId : Nat) (score : Int)
    (reason : String) :=
  runtime.send (.flaggedEdit ⟨wikiId, revId, score, reason⟩)

def resolveRace (runtime : CoordinationRuntime) (wikiId : String) (revId : Nat)
    (winningActor : String) :=
  runtime.send (.raceResolution ⟨wikiId, revId, winningActor⟩)

/-- Fold a received message; `none` is the end of the stream. -/
def receiveMessage (runtime : CoordinationRuntime) :
    Option CoordinationMessage → CoordinationRuntime
  | some message =>
      { runtime with
        incomingMessages := saturatingSucc u64Max runtime.incomingMessages
        state := (runtime.state.apply message).1 }
  | none => { runtime with streamClosed := true }

end CoordinationRuntime

end SP42.Coordination

/-!
The replicas of one room. A client folds what it sends at once and the server's
relay of the others later, and it is never sent its own messages; the server
folds every message when it publishes it, rewritten to the sender's session. So
a client folds its own messages earlier than the server does, and differs from
it exactly where an own message decides a revision and was changed or overtaken.
-/
namespace SP42.Coordination

/-- What the server makes of a message that comes from a socket with that session. -/
def sanitizeMessage (session : Option String) (message : CoordinationMessage) :
    CoordinationMessage :=
  match session with
  | some actor => rewriteActor actor message
  | none => message

/-- What publishing a message does to its room. -/
def publishMessage (room : CoordinationRoomState) (message : CoordinationMessage) (nowMs : Int) :
    CoordinationRoomState :=
  acceptMessage { room with
    publishedMessages := saturatingSucc u64Max room.publishedMessages
    lastActivityMs := some nowMs } message nowMs

theorem decode_sanitized {codec : Codec} {session : Option String} {bytes : List UInt8}
    {message : CoordinationMessage}
    (lawful : ∀ actor, session = some actor → RewritesRoundTrip codec actor)
    (decoded : codec.decodeMessage bytes = .ok message) :
    codec.decodeMessage (sanitizeCoordinationPayload codec bytes session) =
      .ok (sanitizeMessage session message) := by
  cases session with
  | none => exact decoded
  | some actor =>
      obtain ⟨rewritten, encodes, decodes⟩ := lawful actor rfl bytes message decoded
      simp only [sanitizeCoordinationPayload, decoded, encodes]
      exact decodes

/-- The registry does to the room what the replicas below suppose, on the sanitized bytes. -/
theorem foldPayload_publishMessage {codec : Codec} {registry : CoordinationRegistry}
    {wikiId : String} {room : CoordinationRoomState} {session : Option String}
    {bytes : List UInt8} {message : CoordinationMessage} {nowMs : Int}
    (lawful : ∀ actor, session = some actor → RewritesRoundTrip codec actor)
    (held : (pruneInactiveRooms registry.rooms nowMs)[wikiId]? = some room)
    (decoded : codec.decodeMessage bytes = .ok message) :
    (registry.foldPayload codec wikiId (sanitizeCoordinationPayload codec bytes session)
      nowMs).1.rooms[wikiId]? =
        some (publishMessage room (sanitizeMessage session message) nowMs) := by
  unfold CoordinationRegistry.foldPayload
  dsimp only
  rw [held, decode_sanitized lawful decoded]
  exact Std.ExtTreeMap.getElem?_insert_self

/-- A message with its origin: the client and its session, or neither for the server's own. -/
structure Post (ι : Type) where
  sender : Option ι
  session : Option String
  raw : CoordinationMessage

/-- The message as it is folded into the room and relayed. -/
def Post.relayed {ι : Type} (post : Post ι) : CoordinationMessage :=
  sanitizeMessage post.session post.raw

/-- A client with what it sent and was not published yet, and what it did not receive yet. -/
structure Replica (ι : Type) where
  session : Option String
  runtime : CoordinationRuntime
  outbox : List CoordinationMessage
  inbox : List (Post ι)

structure Net (ι : Type) where
  room : CoordinationRoomState
  replicas : ι → Replica ι

inductive NetAction (ι : Type) where
  | send (client : ι) (message : CoordinationMessage)
  | publish (client : ι) (nowMs : Int)
  | deliver (client : ι)
  | reviewSignal (signal : ReviewSignal) (nowMs : Int)

section Net

variable {ι : Type} [DecidableEq ι]

def Net.start (wikiId : String) (sessions : ι → Option String) : Net ι where
  room := newRoomState wikiId 0
  replicas client := ⟨sessions client, .new wikiId, [], []⟩

/-- Everyone but the sender is sent the message. -/
def fanOut (post : Post ι) (replicas : ι → Replica ι) : ι → Replica ι := fun client =>
  if post.sender = some client then replicas client
  else { replicas client with inbox := (replicas client).inbox ++ [post] }

/-- One action, answered by the message it sent, published or delivered. -/
def Net.step (net : Net ι) : NetAction ι → Net ι × Option (Post ι)
  | .send client message =>
      let replica := net.replicas client
      let (runtime, sent) := replica.runtime.send message
      let replica := { replica with runtime := runtime, outbox := replica.outbox ++ [sent] }
      ({ net with replicas := Function.update net.replicas client replica },
        some ⟨some client, replica.session, sent⟩)
  | .publish client nowMs =>
      let replica := net.replicas client
      match replica.outbox with
      | [] => (net, none)
      | message :: rest =>
          let post : Post ι := ⟨some client, replica.session, message⟩
          let replicas := Function.update net.replicas client { replica with outbox := rest }
          (⟨publishMessage net.room post.relayed nowMs, fanOut post replicas⟩, some post)
  | .deliver client =>
      let replica := net.replicas client
      match replica.inbox with
      | [] => (net, none)
      | post :: rest =>
          let runtime := replica.runtime.receiveMessage (some post.relayed)
          let replica := { replica with runtime := runtime, inbox := rest }
          ({ net with replicas := Function.update net.replicas client replica }, some post)
  | .reviewSignal signal nowMs =>
      let post : Post ι := ⟨none, none, .reviewSignal signal⟩
      (⟨publishMessage net.room post.relayed nowMs, fanOut post net.replicas⟩, some post)

/-- Everything the client sent is published and everything published is delivered to it. -/
def Replica.Quiet (replica : Replica ι) : Prop := replica.outbox = [] ∧ replica.inbox = []

def publishedPost : NetAction ι × Option (Post ι) → Option (Post ι)
  | (.publish _ _, post) | (.reviewSignal _ _, post) => post
  | _ => none

def foldedPost (client : ι) : NetAction ι × Option (Post ι) → Option (Post ι)
  | (.send sender _, post) => if sender = client then post else none
  | (.deliver receiver, post) => if receiver = client then post else none
  | _ => none

/-- The messages in the order the server folded them. -/
def publishedLog (history : List (NetAction ι × Option (Post ι))) : List (Post ι) :=
  history.filterMap publishedPost

/-- The messages in the order the client folded them. -/
def foldedLog (client : ι) (history : List (NetAction ι × Option (Post ι))) : List (Post ι) :=
  history.filterMap (foldedPost client)

/-- A client folds its own message as it wrote it, and another's as it was relayed. -/
def seenBy (client : ι) (post : Post ι) : CoordinationMessage :=
  if post.sender = some client then post.raw else post.relayed

def ownPost (client : ι) (post : Post ι) : Bool := decide (post.sender = some client)

end Net

section Deciding

variable {ι : Type}

def resolves (wikiId : String) (revId : Nat) (post : Post ι) : Bool :=
  (resolutionOf wikiId revId post.raw).isSome

def claims (wikiId : String) (revId : Nat) (post : Post ι) : Bool :=
  (claimOf wikiId revId post.raw).isSome

/-- The message that decides a revision: its last resolution, or else its last claim. -/
def decidingPost (wikiId : String) (revId : Nat) (posts : List (Post ι)) : Option (Post ι) :=
  Overtaking.decisive (resolves wikiId revId) (claims wikiId revId) posts

end Deciding

end SP42.Coordination

import ConductorRs.Core.RpcSocket
import ConductorRs.Metatheory.JsonReadBack
import ConductorRs.Metatheory.RpcFraming

/-!
A websocket is a sequence of posts.

The server behind the socket is arbitrary. Whatever the messages are and whenever
the connection breaks, the requests that were read have been handled one after the
other, in their order, each as a POST of its body would have been, and the answers
have been sent in that order; only the answer to the last message may be missing.
-/
namespace ConductorRs.Rpc
open Concurrency

section
variable {State Choice : Type}

/-- The server, the messages that are still to be read, and those that were sent. -/
structure Line (State : Type) where
  server : State
  inbox : List Message
  sent : List Message

/-- What an operation meets: the server's own choice, a broken connection on a read,
a message that goes out. -/
structure LineChoice (Choice : Type) where
  server : Choice
  broken : Bool
  delivered : Bool

variable (serve : State → (o : Server.Op) → Choice → Option (Server.Reply o × State))

def Line.perform (c : Line State) :
    (o : Connection.Op) → LineChoice Choice → Option (Connection.Reply o × Line State)
  | .inl o, x => (serve c.server o x.server).map fun q => (q.1, { c with server := q.2 })
  | .inr .next, x =>
      if x.broken then some (some (.error ()), c)
      else
        match c.inbox with
        | [] => some (none, c)
        | message :: inbox => some (some (.ok message), { c with inbox := inbox })
  | .inr (.send message), x =>
      if x.delivered then some (true, { c with sent := c.sent ++ [message] })
      else some (false, c)

def Message.body : Message → Option (List UInt8)
  | .text t => some t.toUTF8.data.toList
  | .binary bytes => some bytes
  | _ => none

/-- A message that was read, with the answer a POST of it gets. -/
structure Turn where
  message : Message
  response : PostResponse

def PostResponse.messages (serde : Serde) : PostResponse → List Message
  | .json body => ((serde.toText body).map Message.text).toList
  | .noContent => []

def Turn.output (serde : Serde) (turn : Turn) : List Message :=
  match turn.message with
  | .text _ | .binary _ => turn.response.messages serde
  | .ping bytes => [.pong bytes]
  | .pong _ => []
  | .close frame => [.close frame]

def Turn.reply (turn : Turn) : Option PostResponse := turn.message.body.map fun _ => turn.response

variable (serde : Serde) (proxy : Bool)

/-- What a connection has come to: the turns taken, and what of their output has not
been sent. -/
structure Talk (start : Line State) (turns : List Turn) (unsent : List Message)
    (c : Line State) : Prop where
  read : start.inbox = turns.map Turn.message ++ c.inbox
  posts : RunsEach serve (handle serde proxy) (turns.filterMap fun turn => turn.message.body)
    start.server (turns.filterMap Turn.reply) c.server
  sent : start.sent ++ turns.flatMap (Turn.output serde) = c.sent ++ unsent

variable {serve serde proxy} {start : Line State} {turns : List Turn}

/-- One more turn. -/
theorem Talk.turn {c c' : Line State} (h : Talk serve serde proxy start turns [] c) (turn : Turn)
    {unsent : List Message} (hread : c.inbox = turn.message :: c'.inbox)
    (hposts : turn.message.body.elim (c'.server = c.server) fun body =>
      Runs serve (handle serde proxy body) c.server turn.response c'.server)
    (hsent : c.sent ++ turn.output serde = c'.sent ++ unsent) :
    Talk serve serde proxy start (turns ++ [turn]) unsent c' where
  read := by
    rw [h.read, hread]
    simp
  posts := by
    rw [List.filterMap_append, List.filterMap_append]
    cases hbody : turn.message.body with
    | none =>
        rw [hbody] at hposts
        have hserver : c'.server = c.server := hposts
        simpa [hbody, Turn.reply, hserver] using h.posts
    | some body =>
        rw [hbody] at hposts
        simpa [hbody, Turn.reply] using h.posts.snoc hposts
  sent := by
    have hbefore := h.sent
    rw [List.append_nil] at hbefore
    rw [List.flatMap_append, ← List.append_assoc, hbefore, ← hsent]
    simp

variable (serve serde proxy) in
/-- What a round leaves: one more turn and nothing unsent, or the connection is over
and the last message may be missing. -/
def Left (start : Line State) (n : Nat) (r : Unit ⊕ Unit) (c : Line State) : Prop :=
  ∃ turns unsent, Talk serve serde proxy start turns unsent c ∧ unsent.length ≤ 1 ∧
    (r = .inl () → unsent = [] ∧ turns.length = n + 1)

end

/-- Compact JSON in UTF-8. -/
def Serde.compact : Serde where
  fromSlice bytes :=
    match String.fromUTF8? ⟨bytes.toArray⟩ with
    | some text => Value.read text
    | none => .error "invalid unicode code point"
  toText v := some v.render

end ConductorRs.Rpc

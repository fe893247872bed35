import ConductorRs.Concurrency.Loop

/-!
The flashblocks hub and the handler of one of its clients.

The hub keeps the senders of its clients in one map under a mutex; the operations
on the map are made while the mutex is held, and so is every `try_send` of a
broadcast. A channel is known by a number. A `select!` is one operation that says
which branch has won; when the receive branch yields nothing its pattern does not
match, and the other branches are awaited without it. The first tick of the ping
interval completes at once and is left out.
-/
namespace ConductorRs.Flashblocks
open Concurrency

def sendChannelBufferSize : Nat := 256

structure WsPayload where
  bytes : List UInt8
deriving DecidableEq

/-- What is written to a client. The text of a payload is the lossy decoding of
its bytes. -/
inductive DownstreamMessage where
  | text (payload : WsPayload)
  | ping
deriving DecidableEq

/-- What `receiver.next()` yields. -/
inductive Incoming where
  | pong
  | close
  | other
  | error
  | ended
deriving DecidableEq

/-- The branch of the `select!` that has completed. -/
inductive Selected where
  | payload (payload : WsPayload)
  | closed
  | ping
  | pongDeadline
  | incoming (incoming : Incoming)
deriving DecidableEq

inductive Op where
  | fetchAddNextId
  | channel
  | lockClients
  | unlockClients
  | insertClient (clientId tx : Nat)
  | removeClient (clientId : Nat)
  | iterClients
  | clientsLen
  | trySend (tx : Nat) (payload : WsPayload)
  | recordWebsocketClientCount (count : Nat)
  | select (rx : Nat) (recv awaitingPong : Bool)
  | send (message : DownstreamMessage)
  | dropReceiver (rx : Nat)
deriving DecidableEq

/-- A channel is created with both of its ends under one number. A write that
fails or times out replies `false`. -/
@[reducible] def Op.Reply : Op → Type
  | .fetchAddNextId | .channel | .clientsLen => Nat
  | .iterClients => List (Nat × Nat)
  | .trySend _ _ | .send _ => Bool
  | .select _ _ _ => Selected
  | .lockClients | .unlockClients | .insertClient _ _ | .removeClient _
  | .recordWebsocketClientCount _ | .dropReceiver _ => Unit

@[reducible] def Downstream : Interface where
  Op := Op
  Reply := Op.Reply

def op (o : Op) : Task Downstream o.Reply := Task.call (E := Downstream) o

namespace Hub

def recordCount : Task Downstream Unit := do
  let count ← op .clientsLen
  op (.recordWebsocketClientCount count)

def register : Task Downstream (Nat × Nat) := do
  let clientId ← op .fetchAddNextId
  let tx ← op .channel
  op .lockClients
  op (.insertClient clientId tx)
  recordCount
  op .unlockClients
  return (clientId, tx)

def unregister (clientId : Nat) : Task Downstream Unit := do
  op .lockClients
  op (.removeClient clientId)
  recordCount
  op .unlockClients

/-- The clients that refuse the payload are collected. -/
def offer (payload : WsPayload) : List (Nat × Nat) → List Nat → Task Downstream (List Nat)
  | [], dropped => .done dropped
  | (clientId, tx) :: clients, dropped => do
      if ← op (.trySend tx payload) then offer payload clients dropped
      else offer payload clients (dropped ++ [clientId])

def drop : List Nat → Task Downstream Unit
  | [] => .done ()
  | clientId :: dropped => do
      op (.removeClient clientId)
      drop dropped

def broadcast (payload : WsPayload) : Task Downstream Unit := do
  op .lockClients
  let clients ← op .iterClients
  let dropped ← offer payload clients []
  drop dropped
  recordCount
  op .unlockClients

end Hub

/-- What follows the branch that has won: the next round, with whether a pong is
awaited, or the end of the loop. A `select!` without the receive branch never
yields `closed`. -/
def handleSelected (awaitingPong : Bool) : Selected → Task Downstream (Bool ⊕ Unit)
  | .payload payload => do
      if ← op (.send (.text payload)) then return .inl awaitingPong else return .inr ()
  | .closed => .done (.inl awaitingPong)
  | .ping => do
      if ← op (.send .ping) then return .inl true else return .inr ()
  | .pongDeadline => .done (.inr ())
  | .incoming .pong => .done (.inl false)
  | .incoming .other => .done (.inl awaitingPong)
  | .incoming .close | .incoming .error | .incoming .ended => .done (.inr ())

/-- One round of the loop. The receive branch that finds the channel closed is
disabled for the rest of the round. -/
def downstreamRound (rx : Nat) (awaitingPong : Bool) : Task Downstream (Bool ⊕ Unit) := do
  match ← op (.select rx true awaitingPong) with
  | .closed => handleSelected awaitingPong (← op (.select rx false awaitingPong))
  | selected => handleSelected awaitingPong selected

/-- The handler with at most `rounds` rounds of its loop. -/
def handleDownstreamWithTiming (rounds : Nat) : Task Downstream (Option Unit) := do
  let (clientId, rx) ← Hub.register
  match ← Task.loop (downstreamRound rx) rounds false with
  | none => return none
  | some _ =>
      Hub.unregister clientId
      op (.dropReceiver rx)
      return some ()

end ConductorRs.Flashblocks

import ConductorRs.Core.HubMachine
import ConductorRs.Core.UpstreamListener

/-!
The flashblocks service: the listener on the upstream websocket and the handlers of
the clients, over one hub.

`start_flashblocks` spawns one listener, on the initial connection, and the server
runs one handler for each client that connects. The listener's call of
`Hub::broadcast` is the hub's own task, so the handlers run between any two of its
operations; the operation before it is the listener letting go of the message it has
read. What a handler has written to its client is kept with the client.
-/
namespace ConductorRs.Flashblocks
open Concurrency

inductive ServiceTask where
  | listener
  | client (n : Nat)
deriving DecidableEq

@[reducible] def ServiceOps : Interface := Upstream.Listener.sum Downstream

def onHub (o : Op) : Task ServiceOps o.Reply := Task.call (E := ServiceOps) (.inr o)

def onListener : (o : Upstream.Op) → Task ServiceOps o.Reply
  | .broadcast payload => do
      Task.call (E := ServiceOps) (.inl (.broadcast payload))
      (Hub.broadcast payload).interp onHub
  | o => Task.call (E := ServiceOps) (.inl o)

structure ServiceState (H : Type) where
  upstream : Upstream.UpstreamState
  hub : HubState ServiceTask
  hist : H
  started : Bool
  wrote : Nat → List WsPayload

structure ServiceChoice where
  upstream : Upstream.Choice
  hub : Choice

inductive ServiceCall where
  | listen (url : String) (reconnectDelay rounds : Nat)
  | handleDownstream (rounds : Nat)
deriving DecidableEq

def serviceBody : ServiceCall → Task ServiceOps (Option Unit)
  | .listen url reconnectDelay rounds =>
      (Upstream.runUpstreamListener url reconnectDelay rounds (some 0)).interp onListener
  | .handleDownstream rounds => (handleDownstreamWithTiming rounds).interp onHub

/-- What a client has been sent after a write. -/
def writeTo (wrote : Nat → List WsPayload) : ServiceTask → (o : Op) → o.Reply →
    Nat → List WsPayload
  | .client n, .send (.text payload), true => Function.update wrote n (wrote n ++ [payload])
  | _, _, _ => wrote

/-- The call of the hub that an operation of the listener begins. -/
def beginOf : Upstream.Op → Option HubCall
  | .broadcast payload => some (.broadcast payload)
  | _ => none

namespace ServiceState
variable {H : Type}

/-- A service whose initial connection is stream 0. -/
def new (leader : Bool) (hist : H) : ServiceState H where
  upstream := .new leader
  hub := .new
  hist := hist
  started := false
  wrote _ := []

def performUpstream (watch : Watch ServiceTask H) (s : ServiceState H) (i : ServiceTask)
    (o : Upstream.Op) (x : Upstream.Choice) : Option (o.Reply × ServiceState H) :=
  (s.upstream.perform o x).map fun p =>
    (p.1, { s with upstream := p.2, hist := (beginOf o).elim s.hist (watch.begin s.hist i) })

def performHub (watch : Watch ServiceTask H) (s : ServiceState H) (i : ServiceTask)
    (o : Op) (x : Choice) : Option (o.Reply × ServiceState H) :=
  (s.hub.perform i o x).map fun p =>
    (p.1, { s with
      hub := p.2
      hist := watch.after s.hub p.2 s.hist i o p.1
      wrote := writeTo s.wrote i o p.1 })

def perform (watch : Watch ServiceTask H) (s : ServiceState H) (i : ServiceTask) :
    (o : ServiceOps.Op) → ServiceChoice → Option (ServiceOps.Reply o × ServiceState H)
  | .inl o, x => s.performUpstream watch i o x.upstream
  | .inr o, x => s.performHub watch i o x.hub

/-- The listener is spawned once; a client that connects has been sent nothing. -/
def enter (watch : Watch ServiceTask H) (s : ServiceState H) :
    ServiceTask → ServiceCall → Option (ServiceState H)
  | .listener, .listen _ _ _ => if s.started then none else some { s with started := true }
  | .client n, .handleDownstream rounds =>
      some { s with
        hist := watch.begin s.hist (.client n) (.handleDownstream rounds)
        wrote := Function.update s.wrote n [] }
  | _, _ => none

end ServiceState

def serviceMachine {H : Type} (watch : Watch ServiceTask H) :
    Machine ServiceTask ServiceOps (ServiceState H) ServiceCall (Option Unit) ServiceChoice
      Upstream.World where
  body := serviceBody
  enter := ServiceState.enter watch
  perform := ServiceState.perform watch
  leave s _ _ _ := s
  env s e := (s.upstream.world e).map fun upstream => { s with upstream := upstream }

end ConductorRs.Flashblocks

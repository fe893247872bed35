import ConductorRs.Concurrency.Channel
import ConductorRs.Concurrency.RelyGuarantee
import ConductorRs.Collections.BTreeMap
import ConductorRs.Core.Flashblocks

/-!
The state of one hub and the machine its calls run on.

The map of the hub holds the only sender of a client's channel, so a channel is
connected as long as it is in the map. The receiver of a call of `register`
belongs to its caller, who takes payloads at any speed and may drop it; the
receiver of a handler is used by the handler alone. A history may be kept next to
the hub; no operation reads it.
-/
namespace ConductorRs.Flashblocks
open Concurrency Collections

abbrev ClientChannel := Channel WsPayload sendChannelBufferSize

structure HubState (Tid : Type) where
  clients : BTreeMap Nat Nat
  nextId : Nat
  owner : Option Tid
  count : Nat
  channels : Nat → ClientChannel
  allocated : Nat
  handed : Nat → Bool

/-- What the code does not decide: the branch of a `select!` that wins and whether
a write succeeds. -/
inductive Choice where
  | none
  | recv
  | ping
  | deadline
  | incoming (incoming : Incoming)
  | sent (ok : Bool)
deriving DecidableEq

namespace HubState
variable {Tid : Type}

def new : HubState Tid where
  clients := .empty
  nextId := 1
  owner := none
  count := 0
  channels _ := .new
  allocated := 0
  handed _ := false

def setChannel (s : HubState Tid) (rx : Nat) (channel : ClientChannel) : HubState Tid :=
  { s with channels := Function.update s.channels rx channel }

/-- The sender of a client is in the map. -/
def connected (s : HubState Tid) (rx : Nat) : Bool := decide (rx ∈ s.clients.values)

def performSelect (s : HubState Tid) (rx : Nat) (recv awaitingPong : Bool) :
    Choice → Option (Selected × HubState Tid)
  | .recv =>
      if recv then
        match (s.channels rx).recv (s.connected rx) with
        | some (some payload, channel) => some (.payload payload, s.setChannel rx channel)
        | some (none, _) => some (.closed, s)
        | none => none
      else none
  | .ping => some (.ping, s)
  | .deadline => if awaitingPong then some (.pongDeadline, s) else none
  | .incoming incoming => some (.incoming incoming, s)
  | _ => none

variable [DecidableEq Tid]

def perform (s : HubState Tid) (i : Tid) :
    (o : Op) → Choice → Option (o.Reply × HubState Tid)
  | .fetchAddNextId, _ => some (s.nextId, { s with nextId := (s.nextId + 1) % UInt64.size })
  | .channel, _ =>
      some (s.allocated,
        { s.setChannel s.allocated .new with allocated := s.allocated + 1 })
  | .lockClients, _ =>
      match s.owner with
      | none => some ((), { s with owner := some i })
      | some _ => none
  | .unlockClients, _ =>
      if s.owner = some i then some ((), { s with owner := none }) else none
  | .insertClient clientId tx, _ =>
      some ((), { s with clients := s.clients.insert clientId tx })
  | .removeClient clientId, _ => some ((), { s with clients := s.clients.erase clientId })
  | .iterClients, _ => some (s.clients.entries, s)
  | .clientsLen, _ => some (s.clients.entries.length, s)
  | .trySend tx payload, _ =>
      let sent := (s.channels tx).trySend payload
      some (sent.1, s.setChannel tx sent.2)
  | .recordWebsocketClientCount count, _ => some ((), { s with count := count })
  | .select rx recv awaitingPong, x => s.performSelect rx recv awaitingPong x
  | .send _, x =>
      match x with
      | .sent ok => some (ok, s)
      | _ => none
  | .dropReceiver rx, _ => some ((), s.setChannel rx (s.channels rx).dropReceiver)

end HubState

inductive HubCall where
  | register
  | unregister (clientId : Nat)
  | broadcast (payload : WsPayload)
  | handleDownstream (rounds : Nat)
deriving DecidableEq

/-- A handler whose rounds are used up is still running. -/
inductive HubOut where
  | registered (clientId rx : Nat)
  | returned
  | running
deriving DecidableEq

def HubOut.ofHandler : Option Unit → HubOut
  | some _ => .returned
  | none => .running

def hubBody : HubCall → Task Downstream HubOut
  | .register => do
      let (clientId, rx) ← Hub.register
      return .registered clientId rx
  | .unregister clientId => do
      Hub.unregister clientId
      return .returned
  | .broadcast payload => do
      Hub.broadcast payload
      return .returned
  | .handleDownstream rounds => do return .ofHandler (← handleDownstreamWithTiming rounds)

/-- The client behind a receiver that was handed out. -/
inductive ClientEvent where
  | recv (rx : Nat)
  | dropReceiver (rx : Nat)
deriving DecidableEq

namespace HubState
variable {Tid : Type}

def client (s : HubState Tid) : ClientEvent → Option (HubState Tid)
  | .recv rx =>
      if s.handed rx then
        match (s.channels rx).recv (s.connected rx) with
        | some (some _, channel) => some (s.setChannel rx channel)
        | _ => none
      else none
  | .dropReceiver rx =>
      if s.handed rx then some (s.setChannel rx (s.channels rx).dropReceiver) else none

/-- The receiver goes to the caller of `register`. -/
def leave (s : HubState Tid) : HubOut → HubState Tid
  | .registered _ rx => { s with handed := Function.update s.handed rx true }
  | _ => s

end HubState

section
variable {p : Op → Prop}

/-- What holds of a `try_send` holds of all that a broadcast offers. -/
theorem Hub.offer_all {payload : WsPayload} (h : ∀ tx, p (.trySend tx payload))
    (clients : List (Nat × Nat)) (dropped : List Nat) :
    (Hub.offer payload clients dropped).All p := by
  induction clients generalizing dropped with
  | nil => trivial
  | cons e clients ih =>
      refine ⟨h e.2, fun sent => ?_⟩
      cases sent with
      | true => exact ih dropped
      | false => exact ih _

theorem Hub.drop_all (h : ∀ clientId, p (.removeClient clientId)) (dropped : List Nat) :
    (Hub.drop dropped).All p := by
  induction dropped with
  | nil => trivial
  | cons clientId dropped ih => exact ⟨h clientId, fun _ => ih⟩

end

/-- The operations of the hub's own functions; the others are the handler's. -/
def Op.internal : Op → Bool
  | .select _ _ _ | .send _ | .dropReceiver _ => false
  | _ => true

def Internal {α : Type} (t : Task Downstream α) : Prop := t.All fun o : Op => o.internal = true

theorem Hub.register_internal : Internal Hub.register :=
  ⟨rfl, fun _ => ⟨rfl, fun _ => ⟨rfl, fun _ => ⟨rfl, fun _ => ⟨rfl, fun _ => ⟨rfl, fun _ =>
    ⟨rfl, fun _ => trivial⟩⟩⟩⟩⟩⟩⟩

theorem Hub.unregister_internal (clientId : Nat) : Internal (Hub.unregister clientId) :=
  ⟨rfl, fun _ => ⟨rfl, fun _ => ⟨rfl, fun _ => ⟨rfl, fun _ => ⟨rfl, fun _ => trivial⟩⟩⟩⟩⟩

theorem Hub.broadcast_internal (payload : WsPayload) : Internal (Hub.broadcast payload) := by
  refine ⟨rfl, fun _ => ⟨rfl, fun clients => ?_⟩⟩
  refine Task.all_bind _ (Hub.offer payload clients []) _
    (Hub.offer_all (fun _ => rfl) clients []) fun dropped => ?_
  refine Task.all_bind _ (Hub.drop dropped) _ (Hub.drop_all (fun _ => rfl) dropped) fun _ => ?_
  exact ⟨rfl, fun _ => ⟨rfl, fun _ => ⟨rfl, fun _ => trivial⟩⟩⟩

structure Watch (Tid H : Type) where
  begin : H → Tid → HubCall → H
  after : HubState Tid → HubState Tid → H → Tid → (o : Op) → o.Reply → H
  client : HubState Tid → H → ClientEvent → H

structure Watched (Tid H : Type) where
  hub : HubState Tid
  hist : H

section
variable {Tid H : Type} [DecidableEq Tid]

def hubMachine (watch : Watch Tid H) :
    Machine Tid Downstream (Watched Tid H) HubCall HubOut Choice ClientEvent where
  body := hubBody
  enter s i call := some ⟨s.hub, watch.begin s.hist i call⟩
  perform s i o x := (s.hub.perform i o x).map fun p =>
    (p.1, ⟨p.2, watch.after s.hub p.2 s.hist i o p.1⟩)
  leave s _ _ out := ⟨s.hub.leave out, s.hist⟩
  env s e := (s.hub.client e).map fun hub => ⟨hub, watch.client s.hub s.hist e⟩

theorem hub_triple_op {watch : Watch Tid H}
    {π : Policy Tid Downstream (Watched Tid H) HubCall Choice ClientEvent}
    {P : Outline Tid Downstream (Watched Tid H)} {i : Tid} {o : Op}
    {A : Watched Tid H → Prop} {Q : o.Reply → Watched Tid H → Prop} (hA : P.Stable i A)
    (h : ∀ s, P.inv s → A s → P.check i s o ∧
      ∀ x r hub, s.hub.perform i o x = some (r, hub) → π.step s i o x →
        P.Grants i s ⟨hub, watch.after s.hub hub s.hist i o r⟩ ∧
          Q r ⟨hub, watch.after s.hub hub s.hist i o r⟩) :
    (hubMachine watch).Triple π P i A (op o) Q := by
  refine Machine.Triple.call hA fun s hi hs => ?_
  obtain ⟨hc, hstep⟩ := h s hi hs
  refine ⟨hc, fun x r s' hp hπ => ?_⟩
  simp only [hubMachine, Option.map_eq_some_iff, Prod.mk.injEq] at hp
  obtain ⟨⟨r', hub⟩, hperf, hr, hs'⟩ := hp
  subst hr hs'
  exact hstep x r' hub hperf hπ

end

def flashblock : WsPayload := ⟨[1]⟩

/-- The next steps of one of two threads. -/
def steps (i : Bool) (n : Nat) : List (Event Bool HubCall Choice ClientEvent) :=
  List.replicate n (.step i .none)

/-- A broadcast of the thread `true`, which takes so many steps. -/
def broadcasts (n : Nat) : List (Event Bool HubCall Choice ClientEvent) :=
  [.call true (.broadcast flashblock)] ++ steps true n ++ [.ret true]

end ConductorRs.Flashblocks

import ConductorRs.Concurrency.RelyGuarantee
import ConductorRs.Core.Flashblocks

/-!
The listener on the upstream websocket and the machine it runs on.

A websocket is known by a number. Its frames arrive at any time while the peer
keeps it open and are read in their order of arrival; leadership changes at any
time. A frame carries the leadership at its arrival, which no operation reads. A
`select!` is one operation that says which branch has won, and the call of
`Hub::broadcast` is one operation. The `changed()` of the shutdown channel may
complete at any time.
-/
namespace ConductorRs.Flashblocks.Upstream
open Concurrency

/-- Durations in milliseconds. -/
def leaderPollInterval : Nat := 500

inductive Frame where
  | text (utf8 : List UInt8)
  | binary (bytes : List UInt8)
  | close
  | other
deriving DecidableEq

/-- The payload of a frame that is passed on. -/
def Frame.payload : Frame → Option WsPayload
  | .text utf8 => some ⟨utf8⟩
  | .binary bytes => some ⟨bytes⟩
  | .close | .other => none

/-- How connecting ends within its timeout. -/
inductive Dialed where
  | connected (stream : Nat)
  | refused (error : String)
  | elapsed
deriving DecidableEq

/-- What `stream.next()` yields within its timeout. -/
inductive Read where
  | frame (frame : Frame)
  | error
  | ended
  | elapsed
deriving DecidableEq

inductive Selected where
  | shutdownChanged
  | read (read : Read)
deriving DecidableEq

inductive Op where
  | borrowShutdown
  | isLeader
  | sleepOrShutdown (duration : Nat)
  | connectAsync (url : String)
  | recordRollupBoostConnectionAttempt (success : Bool) (source : String)
  | select (stream : Nat)
  | broadcast (payload : WsPayload)
  | dropStream (stream : Nat)
deriving DecidableEq

@[reducible] def Op.Reply : Op → Type
  | .borrowShutdown | .isLeader => Bool
  | .connectAsync _ => Dialed
  | .select _ => Selected
  | .sleepOrShutdown _ | .recordRollupBoostConnectionAttempt _ _ | .broadcast _
  | .dropStream _ => Unit

@[reducible] def Listener : Interface where
  Op := Op
  Reply := Op.Reply

def op (o : Op) : Task Listener o.Reply := Task.call (E := Listener) o

def dialUpstream (url : String) : Task Listener (Except String Nat) := do
  match ← op (.connectAsync url) with
  | .connected stream => return .ok stream
  | .refused error => return .error error
  | .elapsed => return .error "timed out after 5s"

/-- The stream of this round; none where the round ends without one. A stream is
dialed by a leader only. -/
def connect (url : String) (reconnectDelay : Nat) : Option Nat → Task Listener (Option Nat)
  | some stream => .done (some stream)
  | none => do
      if ← op .isLeader then
        match ← dialUpstream url with
        | .ok stream =>
            op (.recordRollupBoostConnectionAttempt true url)
            return some stream
        | .error _ =>
            op (.recordRollupBoostConnectionAttempt false url)
            op (.sleepOrShutdown reconnectDelay)
            return none
      else
        op (.sleepOrShutdown leaderPollInterval)
        return none

/-- A payload is passed on by a leader only. -/
def forward (payload : WsPayload) : Task Listener Unit := do
  if ← op .isLeader then op (.broadcast payload) else return ()

def handleRead (stream : Nat) : Read → Task Listener (Option Nat)
  | .frame (.text utf8) => do
      forward ⟨utf8⟩
      return some stream
  | .frame (.binary bytes) => do
      forward ⟨bytes⟩
      return some stream
  | .frame .close | .ended => do
      op (.dropStream stream)
      return none
  | .frame .other => .done (some stream)
  | .error | .elapsed => do
      op (.dropStream stream)
      return none

/-- The round from the second check of the leadership on. -/
def listen (stream : Nat) : Task Listener (Option Nat ⊕ Option Nat) := do
  if ← op .isLeader then
    match ← op (.select stream) with
    | .shutdownChanged =>
        if ← op .borrowShutdown then return .inr (some stream) else return .inl (some stream)
    | .read read => return .inl (← handleRead stream read)
  else
    op (.sleepOrShutdown leaderPollInterval)
    return .inl (some stream)

def upstreamRound (url : String) (reconnectDelay : Nat) (upstream : Option Nat) :
    Task Listener (Option Nat ⊕ Option Nat) := do
  if ← op .borrowShutdown then return .inr upstream
  else
    match ← connect url reconnectDelay upstream with
    | some stream => listen stream
    | none => return .inl none

/-- The stream is dropped with the listener. -/
def dropUpstream : Option Nat → Task Listener Unit
  | some stream => op (.dropStream stream)
  | none => .done ()

/-- The listener with at most `rounds` rounds of its loop. -/
def runUpstreamListener (url : String) (reconnectDelay rounds : Nat)
    (initialUpstream : Option Nat) : Task Listener (Option Unit) := do
  match ← Task.loop (upstreamRound url reconnectDelay) rounds initialUpstream with
  | none => return none
  | some upstream =>
      dropUpstream upstream
      return some ()

/-- A frame with the leadership at its arrival. -/
structure Arrival where
  stream : Nat
  frame : Frame
  leader : Bool
deriving DecidableEq

/-- A message that arrived while the node was a follower. -/
def Arrival.stale (a : Arrival) : Bool := a.frame.payload.isSome && !a.leader

structure Connection where
  queue : List Arrival
  alive : Bool

/-- `hand` is the message a listener has read and not yet dealt with, `forwarded`
the payloads passed to `Hub::broadcast`, each with the message in hand. -/
structure UpstreamState where
  leader : Bool
  shutdown : Bool
  connections : Nat → Connection
  dialed : Nat
  arrived : List Arrival
  hand : Option Arrival
  forwarded : List (WsPayload × Option Arrival)

/-- What the code does not decide. -/
inductive Choice where
  | none
  | refused (error : String)
  | elapsed
  | changed
  | read
  | error

/-- The peer, the consensus and the owner of the shutdown channel. -/
inductive World where
  | arrive (stream : Nat) (frame : Frame)
  | disconnect (stream : Nat)
  | setLeader (leader : Bool)
  | shutdown

namespace UpstreamState

/-- A listener whose initial connection is stream 0. -/
def new (leader : Bool) : UpstreamState where
  leader := leader
  shutdown := false
  connections stream := ⟨[], stream = 0⟩
  dialed := 1
  arrived := []
  hand := none
  forwarded := []

def setConnection (s : UpstreamState) (stream : Nat) (connection : Connection) :
    UpstreamState :=
  { s with connections := Function.update s.connections stream connection }

/-- The message a listener takes into its hand. -/
def take (a : Arrival) : Option Arrival := if a.frame.payload.isSome then some a else none

/-- Reading waits for a frame as long as the peer is there. -/
def performRead (s : UpstreamState) (stream : Nat) : Option (Read × UpstreamState) :=
  match (s.connections stream).queue with
  | a :: rest =>
      some (.frame a.frame,
        { s.setConnection stream ⟨rest, (s.connections stream).alive⟩ with hand := take a })
  | [] => if (s.connections stream).alive then none else some (.ended, s)

def performSelect (s : UpstreamState) (stream : Nat) :
    Choice → Option (Selected × UpstreamState)
  | .changed => some (.shutdownChanged, s)
  | .read => (s.performRead stream).map fun p => (.read p.1, p.2)
  | .elapsed => some (.read .elapsed, s)
  | .error => some (.read .error, s)
  | .none | .refused _ => none

def performConnect (s : UpstreamState) : Choice → Option (Dialed × UpstreamState)
  | .none =>
      some (.connected s.dialed,
        { s.setConnection s.dialed ⟨[], true⟩ with dialed := s.dialed + 1 })
  | .refused error => some (.refused error, s)
  | .elapsed => some (.elapsed, s)
  | .changed | .read | .error => none

/-- A follower lets the message in its hand go. -/
def perform (s : UpstreamState) : (o : Op) → Choice → Option (o.Reply × UpstreamState)
  | .borrowShutdown, _ => some (s.shutdown, s)
  | .isLeader, _ => some (s.leader, { s with hand := if s.leader then s.hand else none })
  | .sleepOrShutdown _, _ => some ((), s)
  | .connectAsync _, x => s.performConnect x
  | .recordRollupBoostConnectionAttempt _ _, _ => some ((), s)
  | .select stream, x => s.performSelect stream x
  | .broadcast payload, _ =>
      some ((), { s with hand := none, forwarded := s.forwarded ++ [(payload, s.hand)] })
  | .dropStream stream, _ => some ((), s.setConnection stream ⟨[], false⟩)

/-- A frame arrives while its connection is open. -/
def world (s : UpstreamState) : World → Option UpstreamState
  | .arrive stream frame =>
      if (s.connections stream).alive then
        let a : Arrival := ⟨stream, frame, s.leader⟩
        some { s.setConnection stream ⟨(s.connections stream).queue ++ [a], true⟩ with
          arrived := s.arrived ++ [a] }
      else none
  | .disconnect stream => some (s.setConnection stream ⟨(s.connections stream).queue, false⟩)
  | .setLeader leader => some { s with leader := leader }
  | .shutdown => some { s with shutdown := true }

end UpstreamState

structure ListenerCall where
  url : String
  reconnectDelay : Nat
  rounds : Nat
  initialUpstream : Option Nat
deriving DecidableEq

/-- One listener at a time. -/
def upstreamMachine :
    Machine Unit Listener UpstreamState ListenerCall (Option Unit) Choice World where
  body c := runUpstreamListener c.url c.reconnectDelay c.rounds c.initialUpstream
  enter s _ _ := some s
  perform s _ := s.perform
  leave s _ _ _ := s
  env := UpstreamState.world

end ConductorRs.Flashblocks.Upstream

import ConductorRs.Core.RpcServer
import ConductorRs.Core.Runtime

/-!
The whole process: the tasks that drive the conductor and the requests of the
JSON-RPC server, over one conductor.

A request is one task, whether it came in a body or in a frame, and any number of
requests run next to each other and next to the control loop and the leader watch.
The leader override of the server lives beside the state of the runtime. Consensus
and the proxied backends answer as they like.
-/
namespace ConductorRs.Process
open Concurrency ConductorRs.Runtime

@[reducible] def ProcessOps : Interface := Supervisor.sum Rpc.ServerOps

def onServer : (o : Rpc.Server.Op) → Task ProcessOps (Rpc.Server.Reply o)
  | .inl o => Task.call (E := ProcessOps) (.inl (.inl o))
  | .inr o => Task.call (E := ProcessOps) (.inr o)

def onSupervisor (o : Supervisor.Op) : Task ProcessOps (Supervisor.Reply o) :=
  Task.call (E := ProcessOps) (.inl o)

def request {α : Type} (t : Task Rpc.Server α) : Task ProcessOps α := t.interp onServer

def driver {α : Type} (t : Task Supervisor α) : Task ProcessOps α := t.interp onSupervisor

structure ProcessState (Tid : Type) where
  runtime : RuntimeState Tid
  leaderOverride : Bool

/-- One answer for every operation of the server that leaves the process. -/
abbrev ServerOracle := (o : Rpc.ServerOp) → o.Reply

structure ProcessChoice where
  runtime : Runtime.Choice
  server : ServerOracle

namespace ProcessState
section
variable {Tid : Type}

def new (cfg : ConductorConfig) (leader : Bool) (version : Nat) : ProcessState Tid where
  runtime := RuntimeState.new cfg leader version
  leaderOverride := false

def owner (s : ProcessState Tid) : Conductor.Lock → Option Tid := s.runtime.mem.owner

def performServer (s : ProcessState Tid) (oracle : ServerOracle) :
    (o : Rpc.ServerOp) → o.Reply × ProcessState Tid
  | .loadLeaderOverride => (s.leaderOverride, s)
  | .storeLeaderOverride overrideLeader => ((), { s with leaderOverride := overrideLeader })
  | o => (oracle o, s)

variable [DecidableEq Tid]

def perform (s : ProcessState Tid) (i : Tid) :
    (o : ProcessOps.Op) → ProcessChoice → Option (ProcessOps.Reply o × ProcessState Tid)
  | .inl o, x => (s.runtime.perform i o x.runtime).map fun p => (p.1, { s with runtime := p.2 })
  | .inr o, x => some (s.performServer x.server o)

end
end ProcessState

inductive ProcessCall where
  | runtime (call : RuntimeCall)
  | rpc (payload : Value)

inductive ProcessOut where
  | runtime (out : RuntimeOut)
  | reply (reply : Option Value)

def processBody (cfg : ConductorConfig) (proxy : Bool) : ProcessCall → Task ProcessOps ProcessOut
  | .runtime call => do return .runtime (← driver (runtimeBody cfg call))
  | .rpc payload => do return .reply (← request (Rpc.handlePayload proxy payload))

def ProcessState.enter {Tid : Type} [DecidableEq Tid] (s : ProcessState Tid) (i : Tid) :
    ProcessCall → ProcessState Tid
  | .runtime call =>
      { s with runtime := s.runtime.setOwn i ((s.runtime.own i).begin call) }
  | .rpc _ =>
      { s with runtime := s.runtime.setOwn i { s.runtime.own i with
        phase := .outside, watching := false } }

def processMachine (Tid : Type) [DecidableEq Tid] (cfg : ConductorConfig) (proxy : Bool) :
    Machine Tid ProcessOps (ProcessState Tid) ProcessCall ProcessOut ProcessChoice Metrics where
  body := processBody cfg proxy
  enter s i call := some (s.enter i call)
  perform := ProcessState.perform
  leave s _ _ _ := s
  env s e := (s.runtime.env e).map fun runtime => { s with runtime := runtime }

end ConductorRs.Process

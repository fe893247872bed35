import ConductorRs.Concurrency.Loop
import ConductorRs.Core.ConductorMemory

/-!
The tasks that drive the conductor, and the machine they run on.

The leader watch waits for changes of the raft metrics and queues an action when
the leader flag differs from the one it saw last; the control loop runs an action
when one is queued and at every tick. What they do to the conductor is its own
tasks, lifted to the operations of the runtime. A receiver of the raft metrics has
seen nothing since the channel was created; a receiver of the actions has seen
what was sent before it subscribed. A `select!` is one operation that says which
branch has won, and ticks come at any time. Deadlines and elapsed times are not
modelled.
-/
namespace ConductorRs.Runtime
open Concurrency Conductor

/-- The branch of the control loop's `select!` that has completed. -/
inductive Selected where
  | changed
  | actionRetry
  | tick (now : Nat)
deriving DecidableEq

/-- A receiver belongs to the task that has asked for it. -/
inductive RuntimeOp where
  | metrics
  | metricsChanged
  | borrowWatchedLeader
  | subscribeActions
  | select (actionPending : Bool)
deriving DecidableEq

/-- The failure of `changed()` is the text its error prints. -/
@[reducible] def RuntimeOp.Reply : RuntimeOp → Type
  | .metricsChanged => Except String Unit
  | .borrowWatchedLeader => Bool
  | .select _ => Selected
  | .metrics | .subscribeActions => Unit

@[reducible] def RuntimeOps : Interface where
  Op := RuntimeOp
  Reply := RuntimeOp.Reply

@[reducible] def Supervisor : Interface := Shared.sum RuntimeOps

def lift (o : Conductor.Op) : Task Supervisor o.Reply := Task.call (E := Supervisor) (.inl o)

def conductor {α : Type} (t : Task Shared α) : Task Supervisor α := t.interp lift

def runtime (o : RuntimeOp) : Task Supervisor o.Reply := Task.call (E := Supervisor) (.inr o)

def waitRound (previous : Bool) (_ : Unit) :
    Task Supervisor (Unit ⊕ Except ConsensusError Bool) := do
  match ← runtime .metricsChanged with
  | .error err => return .inr (.error (.raft ("raft metrics watch closed: " ++ err)))
  | .ok _ =>
      let leader ← runtime .borrowWatchedLeader
      if leader = previous then return .inl () else return .inr (.ok leader)

/-- At most `waits` changes of the metrics are awaited. -/
def waitForLeaderStatusChange (waits : Nat) (previous : Bool) :
    Task Supervisor (Option (Except ConsensusError Bool)) := do
  runtime .metrics
  Task.loop (waitRound previous) waits ()

/-- An error with the context it is returned in. -/
structure ContextError where
  context : String
  source : ConsensusError

abbrev WatchOutcome := Except ContextError Unit

/-- A wait that is still going on is handed on as no result. -/
def leaderWatchRound (waits : Nat) (leader : Bool) :
    Task Supervisor (Bool ⊕ Option WatchOutcome) := do
  match ← waitForLeaderStatusChange waits leader with
  | none => return .inr none
  | some (.ok leader) =>
      if ← conductor (op (.load .stopped)) then return .inr (some (.ok ()))
      else
        conductor queueAction
        return .inl leader
  | some (.error err) =>
      if ← conductor (op (.load .stopped)) then return .inr (some (.ok ()))
      else return .inr (some (.error ⟨"watching raft leader status", err⟩))

def runLeaderWatch (rounds waits : Nat) : Task Supervisor (Option WatchOutcome) := do
  let leader ← conductor (op (.consensus .leader))
  return (← Task.loop (leaderWatchRound waits) rounds leader).join

def runControlActionOnce (cfg : ConductorConfig) : Task Supervisor Outcome := do
  let result ← conductor (action cfg)
  conductor (op (.metric .loopExecutionTime))
  return result

/-- The branch of the `select!` that has won, when the conductor is not stopped. -/
def handleSelected (cfg : ConductorConfig) (actionPending : Bool) :
    Selected → Task Supervisor Bool
  | .changed => .done true
  | .actionRetry => do return !(← runControlActionOnce cfg).isOk
  | .tick now => do
      if (← conductor (tick cfg now)).isOk then return actionPending else return true

def controlRound (cfg : ConductorConfig) (actionPending : Bool) :
    Task Supervisor (Bool ⊕ Unit) := do
  let selected ← runtime (.select actionPending)
  if ← conductor (op (.load .stopped)) then return .inr ()
  else return .inl (← handleSelected cfg actionPending selected)

def runControlLoop (cfg : ConductorConfig) (rounds : Nat) : Task Supervisor (Option Unit) := do
  runtime .subscribeActions
  Task.loop (controlRound cfg) rounds true

/-- Where a thread is in its action: outside the lock, inside, or about to read the
leader flag. -/
inductive Phase where
  | outside
  | locked
  | reading
deriving DecidableEq

/-- What belongs to one thread: its receivers, and a history no operation reads.
A watcher has `noted` the flag it saw last, at a version of the metrics, and owes
an action while it has not queued the one for it; a resume owes an action once
it has lowered the flag. -/
structure Own where
  metricsSeen : Nat
  actionSeen : Nat
  phase : Phase
  watching : Bool
  noted : Option Bool
  notedAt : Nat
  watchOwes : Bool
  resumeOwes : Bool

def Own.new : Own := ⟨0, 0, .outside, false, none, 0, false, false⟩

/-- `lastRead` is the leader flag the most recent action has read. -/
structure RuntimeState (Tid : Type) where
  mem : Memory Tid
  leader : Bool
  version : Nat
  sends : Nat
  lastRead : Option Bool
  own : Tid → Own

/-- What the code does not decide: the answers of remote calls, the branch that
wins, and whether the metrics are closed. -/
inductive Pick where
  | none
  | changed
  | retry
  | tick (now : Nat)
  | closed (err : String)

structure Choice where
  oracle : Oracle
  pick : Pick

/-- New raft metrics. -/
structure Metrics where
  leader : Bool

def isSend : Conductor.Op → Bool
  | .sendAction _ => true
  | _ => false

/-- The first flag a watcher reads is that of `consensus.leader()`. -/
def Own.note (own : Own) (leader : Bool) (version : Nat) : Own :=
  if own.watching ∧ own.noted = none then { own with noted := some leader, notedAt := version }
  else own

def Own.after (own : Own) (version : Nat) : (o : Conductor.Op) → o.Reply → Own
  | .lock .action, _ => { own with phase := .locked }
  | .unlock .action, _ => { own with phase := .outside }
  | .cloneHealthy, _ => { own with phase := if own.phase = .locked then .reading else own.phase }
  | .consensus .leader, leader =>
      { own.note leader version with
        phase := if own.phase = .reading then .locked else own.phase }
  | .store .paused false, _ => { own with resumeOwes := true }
  | .sendAction _, _ => { own with watchOwes := false, resumeOwes := false }
  | _, _ => own

/-- The flag an action reads between its guard and its reaction. -/
def readByAction (own : Own) (lastRead : Option Bool) : (o : Conductor.Op) → o.Reply → Option Bool
  | .consensus .leader, leader => if own.phase = .reading then some leader else lastRead
  | _, _ => lastRead

namespace RuntimeState
section
variable {Tid : Type}

/-- A new conductor on a node that is or is not the leader. -/
def new (cfg : ConductorConfig) (leader : Bool) (version : Nat) : RuntimeState Tid where
  mem := Memory.new cfg leader
  leader := leader
  version := version
  sends := 0
  lastRead := none
  own _ := .new

def answer (s : RuntimeState Tid) (oracle : Oracle) : (o : Conductor.Op) → o.Reply
  | .consensus .leader => s.leader
  | o => oracle o

/-- New metrics make a new version, whatever they say. -/
def env (s : RuntimeState Tid) (e : Metrics) : Option (RuntimeState Tid) :=
  some { s with leader := e.leader, version := s.version + 1 }

variable [DecidableEq Tid]

def setOwn (s : RuntimeState Tid) (i : Tid) (own : Own) : RuntimeState Tid :=
  { s with own := Function.update s.own i own }

theorem setOwn_self (s : RuntimeState Tid) (i : Tid) (own : Own) : (s.setOwn i own).own i = own :=
  Function.update_self ..

theorem setOwn_of_ne (s : RuntimeState Tid) {i j : Tid} (own : Own) (hj : j ≠ i) :
    (s.setOwn i own).own j = s.own j :=
  Function.update_of_ne hj ..

/-- What an operation of the conductor leaves behind besides its memory. -/
def after (s : RuntimeState Tid) (i : Tid) (mem : Memory Tid) (o : Conductor.Op) (r : o.Reply) :
    RuntimeState Tid where
  mem := mem
  leader := s.leader
  version := s.version
  sends := if isSend o then s.sends + 1 else s.sends
  lastRead := readByAction (s.own i) s.lastRead o r
  own := Function.update s.own i ((s.own i).after s.version o r)

def performShared (s : RuntimeState Tid) (i : Tid) (o : Conductor.Op) (x : Choice) :
    Option (o.Reply × RuntimeState Tid) :=
  if o.external then some (s.answer x.oracle o, s.after i s.mem o (s.answer x.oracle o))
  else (s.mem.perform i o).map fun p => (p.1, s.after i p.2 o p.1)

/-- `changed()` waits for a version that has not been seen. -/
def performMetricsChanged (s : RuntimeState Tid) (i : Tid) :
    Pick → Option (Except String Unit × RuntimeState Tid)
  | .closed err => some (.error err, s)
  | _ =>
      if (s.own i).metricsSeen < s.version then
        some (.ok (), s.setOwn i { s.own i with metricsSeen := s.version })
      else none

def performSelect (s : RuntimeState Tid) (i : Tid) (actionPending : Bool) :
    Pick → Option (Selected × RuntimeState Tid)
  | .changed =>
      if (s.own i).actionSeen < s.sends then
        some (.changed, s.setOwn i { s.own i with actionSeen := s.sends })
      else none
  | .retry => if actionPending then some (.actionRetry, s) else none
  | .tick now => some (.tick now, s)
  | .none | .closed _ => none

/-- The watcher looks at the flag, and owes an action if it has changed. -/
def observe (s : RuntimeState Tid) (i : Tid) : Own :=
  { s.own i with
    noted := some s.leader
    notedAt := s.version
    watchOwes := (s.own i).watchOwes || decide ((s.own i).noted ≠ some s.leader) }

def performRuntime (s : RuntimeState Tid) (i : Tid) :
    (o : RuntimeOp) → Choice → Option (o.Reply × RuntimeState Tid)
  | .metrics, _ => some ((), s.setOwn i { s.own i with metricsSeen := 0 })
  | .metricsChanged, x => s.performMetricsChanged i x.pick
  | .borrowWatchedLeader, _ => some (s.leader, s.setOwn i (s.observe i))
  | .subscribeActions, _ => some ((), s.setOwn i { s.own i with actionSeen := s.sends })
  | .select actionPending, x => s.performSelect i actionPending x.pick

def perform (s : RuntimeState Tid) (i : Tid) :
    (o : Supervisor.Op) → Choice → Option (Supervisor.Reply o × RuntimeState Tid)
  | .inl o, x => s.performShared i o x
  | .inr o, x => s.performRuntime i o x

end
end RuntimeState

inductive RuntimeCall where
  | conductor (call : Conductor.Call)
  | leaderWatch (rounds waits : Nat)
  | controlLoop (rounds : Nat)
deriving DecidableEq

/-- A task whose rounds are used up has no result. -/
inductive RuntimeOut where
  | outcome (outcome : Outcome)
  | watched (outcome : Option WatchOutcome)
  | controlled (ended : Option Unit)

def runtimeBody (cfg : ConductorConfig) : RuntimeCall → Task Supervisor RuntimeOut
  | .conductor call => do return .outcome (← conductor (body cfg call))
  | .leaderWatch rounds waits => do return .watched (← runLeaderWatch rounds waits)
  | .controlLoop rounds => do return .controlled (← runControlLoop cfg rounds)

def isWatch : RuntimeCall → Bool
  | .leaderWatch _ _ => true
  | _ => false

def Own.begin (own : Own) (call : RuntimeCall) : Own :=
  { own with phase := .outside, watching := isWatch call }

def runtimeMachine (Tid : Type) [DecidableEq Tid] (cfg : ConductorConfig) :
    Machine Tid Supervisor (RuntimeState Tid) RuntimeCall RuntimeOut Choice Metrics where
  body := runtimeBody cfg
  enter s i call := some (s.setOwn i ((s.own i).begin call))
  perform := RuntimeState.perform
  leave s _ _ _ := s
  env := RuntimeState.env

end ConductorRs.Runtime

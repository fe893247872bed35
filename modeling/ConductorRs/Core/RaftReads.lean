import ConductorRs.Concurrency.Task
import ConductorRs.Core.Errors

/-!
`RaftConsensus::latest_unsafe_payload`. The leader flag, the request for a
linearizable read, the wait for its outcome and the read of the local state
machine are operations of their own.
-/
namespace ConductorRs.RaftConsensus
open Concurrency

inductive ReadOp where
  | leader
  | requestLinearizable
  | awaitLinearizable
  | latestPayload

/-- An outcome of `ensure_linearizable` that is an error comes as its text. -/
@[reducible] def ReadOp.Reply : ReadOp → Type
  | .leader => Bool
  | .requestLinearizable => Unit
  | .awaitLinearizable => Except String Unit
  | .latestPayload => Option PayloadEnvelope

@[reducible] def ReadOps : Interface := ⟨ReadOp, ReadOp.Reply⟩

def read (o : ReadOp) : Task ReadOps o.Reply := Task.call (E := ReadOps) o

def ensureLinearizable : Task ReadOps (Except ConsensusError Unit) := do
  read .requestLinearizable
  return (← read .awaitLinearizable).mapError .raft

/-- Only a node that takes itself for the leader asks for a linearizable read. -/
def confirmLeadership (leader : Bool) : Task ReadOps (Except ConsensusError Unit) :=
  if leader then ensureLinearizable else .done (.ok ())

def latestUnsafePayload : Task ReadOps (Except ConsensusError (Option PayloadEnvelope)) :=
  ExceptT.run do
    let leader ← ExceptT.lift (read .leader)
    Task.attempt (confirmLeadership leader)
    ExceptT.lift (read .latestPayload)

end ConductorRs.RaftConsensus

import ConductorRs.Core.Conductor
import ConductorRs.Core.RaftReads

/-!
The conductor over the components it drives. A call of the conductor that a
component serves is replaced by that component's own calls; every other call of
the conductor stays one operation.
-/
namespace ConductorRs.Conductor
open Concurrency

/-- `SequencerController` serves the calls to the sequencer. -/
def throughController (startMode : SequencerStartMode) :
    (o : Op) → Task (Shared.sum RpcClients) o.Reply
  | .sequencer o => (SequencerController.handle startMode o).interp fun r =>
      Task.call (E := Shared.sum RpcClients) (.inr r)
  | o => Task.call (E := Shared.sum RpcClients) (.inl o)

/-- `RaftConsensus` serves the read of the committed payload. -/
def throughRaft : (o : Op) → Task (Shared.sum RaftConsensus.ReadOps) o.Reply
  | .consensus .latestUnsafePayload => RaftConsensus.latestUnsafePayload.interp fun r =>
      Task.call (E := Shared.sum RaftConsensus.ReadOps) (.inr r)
  | o => Task.call (E := Shared.sum RaftConsensus.ReadOps) (.inl o)

end ConductorRs.Conductor

import ConductorRs.Core.LeaderTransfer
import ConductorRs.Core.RaftStorage

/-!
The readers of the log. The two of openraft decode the entries as they find them;
an entry that does not decode is an error. A range whose start lies after its end
panics in `BTreeMap::range`, so the reader has no result for it. The trigger of
snapshots looks at the last key and at the current snapshot, one after the other.
-/
namespace ConductorRs
open Concurrency Collections
open RaftConsensus (saturatingSucc)

structure LogState (T : TypeConfig) where
  lastPurgedLogId : Option (LogId T)
  lastLogId : Option (LogId T)

namespace MemoryRaftStore
variable {T : TypeConfig} {Bytes : Type} (decode : String → Except IoError (Entry T))

def tryGetLogEntries (range : Bounds Nat) :
    Task (StoreOps T Bytes) (Option (Except IoError (List (Entry T)))) := do
  let log ← op (.read .log)
  return (range.entries log).map fun found => found.mapM fun e => decode e.2

/-- The purged id stands in for the last one of an empty log. -/
def getLogState : Task (StoreOps T Bytes) (Except IoError (LogState T)) := ExceptT.run do
  let log ← ExceptT.lift (op (.read .log))
  let last ← ExceptT.mk (.done (log.entries.getLast?.mapM fun e => decode e.2))
  let lastPurged ← ExceptT.lift (op (.read .lastPurgedLogId))
  return ⟨lastPurged, (last.map Entry.logId).or lastPurged⟩

def logsSinceSnapshot (lastLogIndex : Nat) : (snapshotLogIndex : Option Nat) → Nat
  | some snapshotLogIndex => lastLogIndex - snapshotLogIndex
  | none => saturatingSucc lastLogIndex

def shouldSnapshot (threshold : UInt64) : Task (StoreOps T Bytes) (Except IoError Bool) := do
  if threshold = 0 then
    return .ok false
  let log ← op (.read .log)
  match log.lastKey? with
  | none => return .ok false
  | some lastLogIndex =>
      let currentSnapshot ← op (.read .currentSnapshot)
      let snapshotLogIndex := currentSnapshot.bind fun snapshot =>
        snapshot.snapshotMeta.lastLogId.map fun logId => logId.index
      return .ok (decide (threshold.toNat ≤ logsSinceSnapshot lastLogIndex snapshotLogIndex))

end MemoryRaftStore
end ConductorRs

import ConductorRs.Core.Membership

/-!
`RaftConsensus::transfer_leader` and the choice of its target. The leader flag,
the replication progress, each membership snapshot and the request to the raft
core are operations of their own.
-/
namespace ConductorRs.RaftConsensus
open Concurrency Collections

/-- The log index each peer is known to match, if any. -/
abbrev MatchedIndexes := BTreeMap String (Option Nat)

/-- `u64::saturating_add(1)`. -/
def saturatingSucc (index : Nat) : Nat := min (index + 1) (UInt64.size - 1)

/-- The two variables of the loop over the servers. -/
structure TargetSearch where
  pick : Option ServerInfo
  current : Nat

def TargetSearch.start : TargetSearch := ⟨none, 0⟩

def TargetSearch.consider (localId : String) (matchedIndexes : MatchedIndexes)
    (search : TargetSearch) (server : ServerInfo) : TargetSearch :=
  if server.id = localId ∨ server.suffrage ≠ .voter then search
  else match matchedIndexes.get? server.id with
    | none => search
    | some matchedIndex =>
        let nextIndex := (matchedIndex.map saturatingSucc).getD 0
        if nextIndex > search.current then ⟨some server, nextIndex⟩ else search

def defaultTransferTarget (membership : ClusterMembership) (localId : String)
    (matchedIndexes : MatchedIndexes) : Except ConsensusError ServerInfo :=
  let search := membership.servers.foldl (TargetSearch.consider localId matchedIndexes) .start
  match search.pick with
  | some server => .ok server
  | none => .error (.raft "cannot find peer")

inductive TransferOp where
  | leader
  | replication
  | snapshot
  | triggerTransfer (id : String)

/-- A failed request comes as the text of its error. -/
@[reducible] def TransferOp.Reply : TransferOp → Type
  | .leader => Bool
  | .replication => Option MatchedIndexes
  | .snapshot => ClusterMembership
  | .triggerTransfer _ => Except String Unit

@[reducible] def TransferOps : Interface := ⟨TransferOp, TransferOp.Reply⟩

def transfer (o : TransferOp) : Task TransferOps o.Reply := Task.call (E := TransferOps) o

def transferLeaderTo (id addr : String) : Task TransferOps (Except ConsensusError Unit) := do
  let membership ← transfer .snapshot
  match membership.servers.find? fun server => server.id = id with
  | none => return .error (.serverNotFound id)
  | some target =>
      if target.addr ≠ addr then return .error (.serverAddrMismatch id addr target.addr)
      else return (← transfer (.triggerTransfer id)).mapError .raft

def transferLeader (localId : String) : Task TransferOps (Except ConsensusError Unit) := do
  if !(← transfer .leader) then return .ok ()
  let matchedIndexes := (← transfer .replication).getD .empty
  let membership ← transfer .snapshot
  match defaultTransferTarget membership localId matchedIndexes with
  | .error err => return .error err
  | .ok target => transferLeaderTo target.id target.addr

end ConductorRs.RaftConsensus

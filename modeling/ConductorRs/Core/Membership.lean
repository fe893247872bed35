import Mathlib.Data.String.Basic
import ConductorRs.Collections.BTreeMap
import ConductorRs.Concurrency.Task
import ConductorRs.Core.Errors

/-!
The membership operations of the two consensus implementations.

Every read of the published metrics, every connection test and every membership
change handed to the raft core is one operation of `RaftConsensus`. For
`LocalConsensus` the operations are the accesses to the atomic version and to
the members under their lock; a guard that lives for one statement is one
operation, the guard of `demote_voter` is taken and dropped by operations of
their own because the version changes while it is held.
-/
namespace ConductorRs
open Concurrency Collections

inductive ServerSuffrage where
  | voter
  | nonvoter
deriving DecidableEq

structure ServerInfo where
  id : String
  addr : String
  suffrage : ServerSuffrage
deriving DecidableEq

structure ClusterMembership where
  servers : List ServerInfo
  version : Nat
deriving DecidableEq

/-- The membership methods of the `Consensus` trait. -/
inductive MembershipCall where
  | addVoter (id addr : String) (version : Nat)
  | addNonVoter (id addr : String) (version : Nat)
  | demoteVoter (id : String) (version : Nat)
  | removeServer (id : String) (version : Nat)

def MembershipCall.version : MembershipCall → Nat
  | .addVoter _ _ version | .addNonVoter _ _ version | .demoteVoter _ version
  | .removeServer _ version => version

namespace RaftConsensus

structure RaftNode where
  addr : String
deriving DecidableEq

/-- The membership config of the raft metrics, with the index of its log entry. -/
structure MembershipConfig where
  logIndex : Option Nat
  voters : List String
  nodes : BTreeMap String RaftNode
deriving DecidableEq

/-- The nodes come in the order of their ids, so sorting them changes nothing. -/
def membershipSnapshot (config : MembershipConfig) : ClusterMembership where
  servers := config.nodes.entries.map fun (id, node) =>
    { id, addr := node.addr
      suffrage := if id ∈ config.voters then .voter else .nonvoter }
  version := config.logIndex.getD 0

inductive ChangeMembers where
  | addVoters (nodes : BTreeMap String RaftNode)
  | addNodes (nodes : BTreeMap String RaftNode)
  | removeVoters (ids : List String)
  | removeNodes (ids : List String)
  | batch (changes : List ChangeMembers)

inductive ConnectError where
  | timedOut
  | failed (err : String)

inductive ClientWriteError where
  | forwardToLeader
  | other (text : String)

def mapClientWriteError : ClientWriteError → ConsensusError
  | .forwardToLeader => .notLeader
  | .other text => .raft text

inductive MemberOp where
  | leader
  | connect (addr : String)
  | snapshotVersion
  | snapshotServers
  | changeMembership (change : ChangeMembers) (retain : Bool)

@[reducible] def MemberOp.Reply : MemberOp → Type
  | .leader => Bool
  | .connect _ => Except ConnectError Unit
  | .snapshotVersion => Nat
  | .snapshotServers => List ServerInfo
  | .changeMembership _ _ => Except ClientWriteError Unit

@[reducible] def MemberOps : Interface := ⟨MemberOp, MemberOp.Reply⟩

def op (o : MemberOp) : Task MemberOps o.Reply := Task.call (E := MemberOps) o

abbrev MemberTask := Task MemberOps (Except ConsensusError Unit)

def checkVersion (expected : Nat) : MemberTask :=
  if expected = 0 then .done (.ok ())
  else (op .snapshotVersion).bind fun actual =>
    .done (if actual ≠ expected then .error (.versionMismatch expected actual) else .ok ())

def checkLeader : MemberTask :=
  (op .leader).bind fun leader => .done (if leader then .ok () else .error .notLeader)

def checkMemberAddrOpen (addr : String) : MemberTask :=
  (op (.connect addr)).bind fun r => .done <| match r with
    | .error .timedOut => .error (.raft ("connection test to " ++ addr ++ " timed out"))
    | .error (.failed err) =>
        .error (.raft ("connection test to " ++ addr ++ " failed: " ++ err))
    | .ok () => .ok ()

def changeMembership (change : ChangeMembers) (retain : Bool) : MemberTask :=
  (op (.changeMembership change retain)).bind fun r => .done (r.mapError mapClientWriteError)

/-- The common course of `add_voter` and `add_non_voter`. -/
def addNode (change : BTreeMap String RaftNode → ChangeMembers) (id addr : String)
    (version : Nat) : ExceptT ConsensusError (Task MemberOps) Unit := do
  Task.attempt checkLeader
  Task.attempt (checkMemberAddrOpen addr)
  Task.attempt (checkVersion version)
  let nodes := BTreeMap.empty.insert id ⟨addr⟩
  Task.attempt (changeMembership (change nodes) true)

def addVoter := addNode .addVoters

def addNonVoter := addNode .addNodes

def demoteVoter (id : String) (version : Nat) :
    ExceptT ConsensusError (Task MemberOps) Unit := do
  Task.attempt checkLeader
  Task.attempt (checkVersion version)
  Task.attempt (changeMembership (.removeVoters [id]) true)

def removalOf (id : String) : Option ServerSuffrage → ChangeMembers
  | some .nonvoter => .removeNodes [id]
  | _ => .batch [.removeVoters [id], .removeNodes [id]]

def removeServer (id : String) (version : Nat) :
    ExceptT ConsensusError (Task MemberOps) Unit := do
  Task.attempt checkLeader
  Task.attempt (checkVersion version)
  let servers ← ExceptT.lift (op .snapshotServers)
  let suffrage := (servers.find? fun server => server.id == id).map (·.suffrage)
  Task.attempt (changeMembership (removalOf id suffrage) false)

def memberBody : MembershipCall → MemberTask
  | .addVoter id addr version => (addVoter id addr version).run
  | .addNonVoter id addr version => (addNonVoter id addr version).run
  | .demoteVoter id version => (demoteVoter id version).run
  | .removeServer id version => (removeServer id version).run

end RaftConsensus

namespace LocalConsensus

inductive MemberOp where
  | loadVersion
  | fetchAddVersion
  | insertMember (id : String) (info : ServerInfo)
  | removeMember (id : String)
  | lockMembers
  | demoteMember (id : String)
  | unlockMembers

/-- `demoteMember` replies whether `get_mut` found the server. -/
@[reducible] def MemberOp.Reply : MemberOp → Type
  | .loadVersion => Nat
  | .demoteMember _ => Bool
  | .fetchAddVersion | .insertMember _ _ | .removeMember _ | .lockMembers
  | .unlockMembers => Unit

@[reducible] def MemberOps : Interface := ⟨MemberOp, MemberOp.Reply⟩

def op (o : MemberOp) : Task MemberOps o.Reply := Task.call (E := MemberOps) o

abbrev MemberTask := Task MemberOps (Except ConsensusError Unit)

def checkVersion (expected : Nat) : MemberTask :=
  if expected = 0 then .done (.ok ())
  else (op .loadVersion).bind fun actual =>
    .done (if actual ≠ expected then .error (.versionMismatch expected actual) else .ok ())

/-- The common course of `add_voter` and `add_non_voter`. -/
def addMember (suffrage : ServerSuffrage) (id addr : String) (version : Nat) :
    ExceptT ConsensusError (Task MemberOps) Unit := do
  Task.attempt (checkVersion version)
  ExceptT.lift (op (.insertMember id ⟨id, addr, suffrage⟩))
  ExceptT.lift (op .fetchAddVersion)

def addVoter := addMember .voter

def addNonVoter := addMember .nonvoter

def demoteVoter (id : String) (version : Nat) :
    ExceptT ConsensusError (Task MemberOps) Unit := do
  Task.attempt (checkVersion version)
  ExceptT.lift (op .lockMembers)
  let found ← ExceptT.lift (op (.demoteMember id))
  if found then
    ExceptT.lift (op .fetchAddVersion)
    ExceptT.lift (op .unlockMembers)
  else
    ExceptT.lift (op .unlockMembers)
    throw (.serverNotFound id)

def removeServer (id : String) (version : Nat) :
    ExceptT ConsensusError (Task MemberOps) Unit := do
  Task.attempt (checkVersion version)
  ExceptT.lift (op (.removeMember id))
  ExceptT.lift (op .fetchAddVersion)

def memberBody : MembershipCall → MemberTask
  | .addVoter id addr version => (addVoter id addr version).run
  | .addNonVoter id addr version => (addNonVoter id addr version).run
  | .demoteVoter id version => (demoteVoter id version).run
  | .removeServer id version => (removeServer id version).run

end LocalConsensus
end ConductorRs

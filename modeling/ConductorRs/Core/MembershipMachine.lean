import ConductorRs.Concurrency.CompareAndSwap
import ConductorRs.Concurrency.Machine
import ConductorRs.Core.Membership

/-!
Concurrent membership calls on one `RaftConsensus` and on one `LocalConsensus`.

The raft core runs membership changes one after another; a change that succeeds
puts a membership with a larger version in place, and the metrics the calls read
are published later. Both states carry a ledger of the checks and changes, which
no operation reads.
-/
namespace ConductorRs
open Concurrency Collections

namespace RaftConsensus

def MembershipConfig.version (config : MembershipConfig) : Nat :=
  (membershipSnapshot config).version

structure Members (Tid : Type) where
  core : MembershipConfig
  metrics : MembershipConfig
  leading : Bool
  ledger : Ledger Tid MembershipConfig

/-- Before the first call; the metrics may still be behind the core. -/
def Members.initial {Tid : Type} (core metrics : MembershipConfig) (leading : Bool) :
    Members Tid :=
  ⟨core, metrics, leading, .start core.version core⟩

/-- How the network and the raft core answer. -/
inductive MemberChoice where
  | none
  | connected (r : Except ConnectError Unit)
  | changed (r : Except ClientWriteError MembershipConfig)

inductive MemberEnv where
  | publish
  | lead (leading : Bool)

namespace Members
variable {Tid : Type} [DecidableEq Tid]

def perform (s : Members Tid) (i : Tid) :
    (o : MemberOp) → MemberChoice → Option (o.Reply × Members Tid)
  | .leader, _ => some (s.leading, s)
  | .connect _, .connected r => some (r, s)
  | .snapshotVersion, _ =>
      some (s.metrics.version, { s with ledger := s.ledger.compare i s.metrics.version })
  | .snapshotServers, _ => some ((membershipSnapshot s.metrics).servers, s)
  | .changeMembership _ _, .changed (.error e) => some (.error e, s)
  | .changeMembership _ _, .changed (.ok config) =>
      if s.leading && s.core.version < config.version then
        some (.ok (), { s with
          core := config
          ledger := (s.ledger.change i s.core).release i config.version config })
      else none
  | _, _ => none

def env (s : Members Tid) : MemberEnv → Option (Members Tid)
  | .publish => some { s with metrics := s.core }
  | .lead leading => some { s with leading }

end Members

variable (Tid : Type) [DecidableEq Tid]

def memberMachine : Machine Tid MemberOps (Members Tid) MembershipCall
    (Except ConsensusError Unit) MemberChoice MemberEnv where
  body := memberBody
  enter s i call := some { s with ledger := s.ledger.begin i call.version }
  perform := Members.perform
  leave s i _ out := { s with ledger := s.ledger.finish i out }
  env := Members.env

end RaftConsensus

namespace LocalConsensus

structure Members (Tid : Type) where
  members : BTreeMap String ServerInfo
  version : Nat
  owner : Option Tid
  ledger : Ledger Tid (BTreeMap String ServerInfo)

def Members.new {Tid : Type} (serverId addr : String) : Members Tid :=
  let members := BTreeMap.empty.insert serverId ⟨serverId, addr, .voter⟩
  ⟨members, 1, none, .start 1 members⟩

namespace Members
variable {Tid : Type} [DecidableEq Tid]

/-- The members are written by thread `i`, which is about to raise the version. -/
def write (s : Members Tid) (i : Tid) (members : BTreeMap String ServerInfo) : Members Tid :=
  { s with members, ledger := s.ledger.change i s.members }

def perform (s : Members Tid) (i : Tid) : (o : MemberOp) → Option (o.Reply × Members Tid)
  | .loadVersion => some (s.version, { s with ledger := s.ledger.compare i s.version })
  | .fetchAddVersion =>
      let version := (s.version + 1) % 2 ^ 64
      some ((), { s with version, ledger := s.ledger.release i version s.members })
  | .insertMember id info =>
      if s.owner.isNone then some ((), s.write i (s.members.insert id info)) else none
  | .removeMember id =>
      if s.owner.isNone then some ((), s.write i (s.members.erase id)) else none
  | .lockMembers => if s.owner.isNone then some ((), { s with owner := some i }) else none
  | .demoteMember id =>
      match s.members.get? id with
      | none => some (false, s)
      | some member =>
          some (true, s.write i (s.members.insert id { member with suffrage := .nonvoter }))
  | .unlockMembers => some ((), { s with owner := none })

end Members

variable (Tid : Type) [DecidableEq Tid]

def memberMachine : Machine Tid MemberOps (Members Tid) MembershipCall
    (Except ConsensusError Unit) Unit Empty where
  body := memberBody
  enter s i call := some { s with ledger := s.ledger.begin i call.version }
  perform s i o _ := s.perform i o
  leave s i _ out := { s with ledger := s.ledger.finish i out }
  env _ e := nomatch e

end LocalConsensus
end ConductorRs

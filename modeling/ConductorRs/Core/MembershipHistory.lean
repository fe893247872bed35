import Mathlib.Logic.Relation
import ConductorRs.Concurrency.Sequential
import ConductorRs.Core.MembershipMachine

/-!
Membership operations one after another.

A call runs to its end before the next operation starts. Changes that other nodes
commit, and changes of leadership, come in between, and so does the publication of
metrics: what a call of this node or of another has committed is in this node's
metrics only later, and a node that has lost touch with the cluster may believe for
a while that it leads.
-/
namespace ConductorRs.RaftConsensus
open Concurrency Collections

/-- The membership after `initialize`: the first entry of the log, with every
member a voter. -/
def initializeMembers (members : List (String × String)) : MembershipConfig :=
  let nodes := members.foldl (fun nodes (id, addr) => nodes.insert id ⟨addr⟩) BTreeMap.empty
  ⟨some 0, nodes.keys, nodes⟩

abbrev Node := Members Unit

def Node.start (members : List (String × String)) (leading : Bool) : Node :=
  .initial (initializeMembers members) (initializeMembers members) leading

/-- What the connection tests meet; the rest of the answer is open. -/
def answer (net : String → Except ConnectError Unit) : MemberOp → MemberChoice → MemberChoice
  | .connect addr, _ => .connected (net addr)
  | _, x => x

def Node.perform (net : String → Except ConnectError Unit) (s : Node) (o : MemberOp)
    (x : MemberChoice) : Option (o.Reply × Node) :=
  Members.perform s () o (answer net o x)

/-- The cluster's membership is `core`, what this node has published of it `metrics`.
A node publishes a later membership than before, and none that is not in force yet. -/
inductive Node.Step : Node → Node → Prop where
  | call (net : String → Except ConnectError Unit) (call : MembershipCall) {s s' : Node}
      {r : Except ConsensusError Unit} :
      Runs (Node.perform net) (memberBody call) s r s' → Step s s'
  | commit {s : Node} (config : MembershipConfig) : s.core.version < config.version →
      Step s { s with core := config }
  | publish {s : Node} (config : MembershipConfig) : s.metrics.version < config.version →
      config.version ≤ s.core.version → Step s { s with metrics := config }
  | lead {s : Node} (leading : Bool) : Step s { s with leading }

abbrev Node.History := Relation.ReflTransGen Node.Step

/-- A history in which the membership has changed. -/
def Node.Changed (s s' : Node) : Prop :=
  ∃ a b, Node.History s a ∧ Node.Step a b ∧ a.core ≠ b.core ∧ Node.History b s'

/-- `membership()`. -/
def Node.membership (s : Node) : ClusterMembership := membershipSnapshot s.metrics

/-- The member address accepts the connection test, where the call makes one. -/
def Reachable (net : String → Except ConnectError Unit) : MembershipCall → Prop
  | .addVoter _ addr _ | .addNonVoter _ addr _ => net addr = .ok ()
  | .demoteVoter _ _ | .removeServer _ _ => True

end ConductorRs.RaftConsensus

import Mathlib.Logic.Relation
import ConductorRs.Concurrency.Sequential
import ConductorRs.Core.StoreMachine

/-!
The stores of a cluster that share one committed log.

A node runs its store calls one after another. A call runs to its end, or it is
cut somewhere, or it fails; after a cut or a failure the node restarts from what
its file holds then. Snapshots travel between nodes: whatever `build_snapshot`
has returned on one node may be installed on any other.
-/
namespace ConductorRs
open Concurrency

section
variable {T : TypeConfig}

def Entry.payload? (entry : Entry T) : Option PayloadEnvelope :=
  match entry.payload with
  | .normal (.commitUnsafePayload payload) => some payload
  | .blank | .membership _ => none

def Entry.Valid (entry : Entry T) : Prop := ∀ payload, entry.payload? = some payload → payload.Valid

instance (payload : PayloadEnvelope) : Decidable payload.Valid :=
  inferInstanceAs (Decidable (_ ∧ _))

instance (entry : Entry T) : Decidable entry.Valid :=
  match h : entry.payload? with
  | none => .isTrue fun payload hp => by simp [h] at hp
  | some payload => decidable_of_iff payload.Valid (by simp [Entry.Valid, h])

end

structure CommittedLog (T : TypeConfig) where
  entries : List (Entry T)
  indexed : ∀ (k : Nat) (entry : Entry T), entries[k]? = some entry → entry.logId.index = k
  valid : ∀ entry ∈ entries, entry.Valid

namespace CommittedLog
variable {T : TypeConfig} (log : CommittedLog T)

def empty : CommittedLog T := ⟨[], fun k entry h => by simp at h, fun entry h => by simp at h⟩

/-- One more entry is committed. -/
def push (leaderId : T.LeaderId) (payload : EntryPayload T)
    (hvalid : Entry.Valid ⟨⟨leaderId, log.entries.length⟩, payload⟩) : CommittedLog T where
  entries := log.entries ++ [⟨⟨leaderId, log.entries.length⟩, payload⟩]
  indexed k entry h := by
    rcases Nat.lt_or_ge k log.entries.length with hk | hk
    · rw [List.getElem?_append_left hk] at h
      exact log.indexed k entry h
    · rw [List.getElem?_append_right hk] at h
      obtain ⟨hlt, rfl⟩ := List.getElem?_eq_some_iff.mp h
      simp at hlt
      simp
      omega
  valid entry h := by
    rcases List.mem_append.mp h with h | h
    · exact log.valid entry h
    · rw [List.mem_singleton.mp h]
      exact hvalid

/-- The committed payloads among the first `k` entries, in log order. -/
def payloads (k : Nat) : List PayloadEnvelope := (log.entries.take k).filterMap Entry.payload?

/-- The state machine after the first `k` entries. -/
def state (k : Nat) : UnsafeHeadStateMachine T :=
  (UnsafeHeadStateMachine.default T).applyAll (log.entries.take k)

end CommittedLog

structure Cluster (T : TypeConfig) (Bytes Node : Type) where
  nodes : Node → StoreState T Bytes Unit
  built : List (UnsafeHeadSnapshot T Bytes)

namespace Cluster
variable {T : TypeConfig} {Bytes Node : Type}

def sm (c : Cluster T Bytes Node) (n : Node) : UnsafeHeadStateMachine T := (c.nodes n).fields .sm

/-- Stores that have just been opened on an empty path each. -/
def fresh (codec : Codec T Bytes) : Cluster T Bytes Node where
  nodes _ := .opened codec (.default T Bytes)
  built := []

/-- A node is given the next committed entries, in batches of any size, and
snapshots that were built somewhere and are not older than its own state. -/
def Rules (log : CommittedLog T) (c : Cluster T Bytes Node) (n : Node) :
    StoreCall T Bytes → Prop
  | .apply items => UnsafeHeadStateMachine.streamEntries items <+:
      log.entries.drop (LogId.nextIndex T (c.sm n).lastAppliedLog)
  | .installSnapshot snapshotMeta data => ⟨snapshotMeta, data⟩ ∈ c.built ∧
      LogId.nextIndex T (c.sm n).lastAppliedLog ≤ LogId.nextIndex T snapshotMeta.lastLogId
  | _ => True

/-- What a store does when it runs alone. -/
def perform (s : StoreState T Bytes Unit) (op : (StoreOps T Bytes).Op) (x : FileChoice Bytes) :
    Option ((StoreOps T Bytes).Reply op × StoreState T Bytes Unit) :=
  s.perform () op x

/-- The store of node `n` is in state `s` at some moment of a call. -/
def Visits (log : CommittedLog T) (codec : Codec T Bytes) (path : StorePath)
    (c : Cluster T Bytes Node) (n : Node) (s : StoreState T Bytes Unit) : Prop :=
  ∃ call, c.Rules log n call ∧
    Cut perform (MemoryRaftStore.body codec (some path) call) (c.nodes n) s

def builtBy : StoreCall T Bytes → Option (UnsafeHeadSnapshot T Bytes) →
    List (UnsafeHeadSnapshot T Bytes)
  | .buildSnapshot, some snapshot => [snapshot]
  | _, _ => []

variable [DecidableEq Node]

def setNode (c : Cluster T Bytes Node) (n : Node) (s : StoreState T Bytes Unit) :
    Cluster T Bytes Node :=
  { c with nodes := Function.update c.nodes n s }

inductive Step (log : CommittedLog T) (codec : Codec T Bytes) (path : StorePath) :
    Cluster T Bytes Node → Cluster T Bytes Node → Prop where
  | finish {c : Cluster T Bytes Node} (n : Node) (call : StoreCall T Bytes)
      (out : Option (UnsafeHeadSnapshot T Bytes)) (s : StoreState T Bytes Unit) :
      c.Rules log n call →
      Runs perform (MemoryRaftStore.body codec (some path) call) (c.nodes n) (.ok out) s →
      Step log codec path c { c.setNode n s with built := builtBy call out ++ c.built }
  | restart {c : Cluster T Bytes Node} (n : Node) (call : StoreCall T Bytes)
      (s : StoreState T Bytes Unit) (image : PersistedRaftStore T Bytes) :
      c.Rules log n call →
      Cut perform (MemoryRaftStore.body codec (some path) call) (c.nodes n) s →
      MemoryRaftStore.load codec s.file = .ok image →
      Step log codec path c (c.setNode n (.opened codec image))

/-- Any number of steps. -/
def Steps (log : CommittedLog T) (codec : Codec T Bytes) (path : StorePath) :
    Cluster T Bytes Node → Cluster T Bytes Node → Prop :=
  Relation.ReflTransGen (Step log codec path)

end Cluster
end ConductorRs

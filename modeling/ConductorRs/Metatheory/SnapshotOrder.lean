import ConductorRs.Metatheory.Persisting

/-!
The snapshot in place, while snapshots are built and installed.

`build_snapshot` copies the state machine in one step and puts its snapshot in
place in another. The history of a run says whether an install has put a
snapshot in place since the copy, and keeps the index that completed snapshots
cover. Nothing in the code reads it. A copy that has been overtaken by an install
puts an older snapshot back; the results here are about builds that are not.
-/
namespace ConductorRs.MemoryRaftStore.SnapshotOrder
open Concurrency

section
variable {T : TypeConfig} {Bytes : Type}

structure Snapshots where
  overtaken : Bool
  completed : Nat

abbrev Store (T : TypeConfig) (Bytes : Type) := StoreState T Bytes StoreTask

/-- The first index that the snapshot in place does not cover. -/
def snapshotIndex (store : Store T Bytes) : Nat := LogId.nextIndex T store.snapshotLogId

def appliedIndex (store : Store T Bytes) : Nat :=
  LogId.nextIndex T (store.fields .sm).lastAppliedLog

def purgedIndex (store : Store T Bytes) : Nat :=
  LogId.nextIndex T (store.fields .lastPurgedLogId)

namespace Snapshots

def after (h : Snapshots) (i : StoreTask) : StoreOp T Bytes → Snapshots
  | .read .sm => if i = .snapshot then { h with overtaken := false } else h
  | .write .currentSnapshot _ => { h with overtaken := h.overtaken || decide (i ≠ .snapshot) }
  | _ => h

/-- The index covered by the snapshot of a call that has succeeded. -/
def covered : StoreCall T Bytes → StoreOut T Bytes → Nat
  | .buildSnapshot, .ok (some snapshot) => LogId.nextIndex T snapshot.snapshotMeta.lastLogId
  | .installSnapshot snapshotMeta _, .ok _ => LogId.nextIndex T snapshotMeta.lastLogId
  | _, _ => 0

end Snapshots

def watch : Watch T Bytes StoreTask Snapshots where
  begin _ h _ _ := h
  after _ _ h i op _ := h.after i op
  finish _ h _ call out := { h with completed := max h.completed (Snapshots.covered call out) }

abbrev Sys (T : TypeConfig) (Bytes : Type) := Watched T Bytes StoreTask Snapshots

/-- openraft's calling rules: what is applied lies beyond the applied state, a
snapshot that is installed was built somewhere and is newer than the applied
state, and purges stay within a completed snapshot. -/
def Rules (codec : Codec T Bytes) (s : Sys T Bytes) : StoreCall T Bytes → Prop
  | .apply items => ∀ entry ∈ UnsafeHeadStateMachine.streamEntries items,
      appliedIndex s.store ≤ entry.logId.index
  | .installSnapshot snapshotMeta data =>
      appliedIndex s.store < LogId.nextIndex T snapshotMeta.lastLogId ∧
      ∀ sm, codec.decodeSm data = .ok sm → sm.lastAppliedLog = snapshotMeta.lastLogId
  | .purge logId => logId.index + 1 ≤ s.hist.completed
  | _ => True

def rules (codec : Codec T Bytes) :
    Policy StoreTask (StoreOps T Bytes) (Sys T Bytes) (StoreCall T Bytes)
      (FileChoice Bytes) Empty where
  call s i call := call.task = i ∧ Rules codec s call
  step _ _ _ _ := True
  env _ _ := True

/-- No install puts its snapshot in place between the copy of a build and its
snapshot. -/
def policy (codec : Codec T Bytes) :
    Policy StoreTask (StoreOps T Bytes) (Sys T Bytes) (StoreCall T Bytes)
      (FileChoice Bytes) Empty where
  call := (rules codec).call
  step s i op _ := match op with
    | .write .currentSnapshot _ => i = .snapshot → s.hist.overtaken = false
    | _ => True
  env _ _ := True

structure Sound (s : Sys T Bytes) : Prop where
  purged : purgedIndex s.store ≤ snapshotIndex s.store
  applied : snapshotIndex s.store ≤ appliedIndex s.store
  completed : s.hist.completed ≤ snapshotIndex s.store

structure Rely (i : StoreTask) (s s' : Sys T Bytes) : Prop where
  snapshot : snapshotIndex s.store ≤ snapshotIndex s'.store
  applied : appliedIndex s.store ≤ appliedIndex s'.store
  completed : s.hist.completed ≤ s'.hist.completed
  sm : i = .sm → s'.store.fields .sm = s.store.fields .sm
  overtaken : i = .snapshot → s'.hist.overtaken = false →
    s.hist.overtaken = false ∧ snapshotIndex s'.store = snapshotIndex s.store

def outline : Outline StoreTask (StoreOps T Bytes) (Sys T Bytes) where
  inv := Sound
  rely := Rely
  idle _ _ := True
  check _ _ _ := True

theorem coherent : (outline : Outline StoreTask (StoreOps T Bytes) _).Coherent where
  refl _ _ := ⟨Nat.le_refl _, Nat.le_refl _, Nat.le_refl _, fun _ => rfl, fun _ h => ⟨h, rfl⟩⟩
  trans i {s s' s''} h h' := by
    constructor
    · exact h.snapshot.trans h'.snapshot
    · exact h.applied.trans h'.applied
    · exact h.completed.trans h'.completed
    · exact fun hi => (h'.sm hi).trans (h.sm hi)
    · intro hi ho
      obtain ⟨ho', hs'⟩ := h'.overtaken hi ho
      obtain ⟨hos, hs⟩ := h.overtaken hi ho'
      exact ⟨hos, hs'.trans hs⟩
  idle _ {_ _} _ _ _ := trivial

/-- The build has copied a state machine that has applied up to `n`. -/
def Copied (n : Nat) (s : Sys T Bytes) : Prop :=
  n ≤ appliedIndex s.store ∧ (s.hist.overtaken = false → snapshotIndex s.store ≤ n)

def Placed (n : Nat) (s : Sys T Bytes) : Prop := n ≤ snapshotIndex s.store

theorem copied_stable (n : Nat) :
    (outline : Outline StoreTask (StoreOps T Bytes) _).Stable .snapshot (Copied n) := by
  intro s s' h hr _
  refine ⟨h.1.trans hr.applied, fun ho => ?_⟩
  obtain ⟨ho', hs⟩ := hr.overtaken rfl ho
  rw [hs]
  exact h.2 ho'

theorem placed_stable (i : StoreTask) (n : Nat) :
    (outline : Outline StoreTask (StoreOps T Bytes) _).Stable i (Placed n) :=
  fun _ _ h hr _ => Nat.le_trans h hr.snapshot

/-- Only the state-machine task changes the state machine. -/
theorem sm_stable (A : UnsafeHeadStateMachine T → Prop) :
    (outline : Outline StoreTask (StoreOps T Bytes) _).Stable .sm
      fun s => A (s.store.fields .sm) := by
  intro s s' h hr _
  rw [hr.sm rfl]
  exact h

end
end ConductorRs.MemoryRaftStore.SnapshotOrder

import ConductorRs.Core.Cluster
import ConductorRs.Metatheory.Persisting

/-!
What the calls do to the memory of a store.

Every call works on the memory first and writes all of it out then, so the memory
after a call is the same however the call ends, and with or without a file.
-/
namespace ConductorRs
open Concurrency Collections

section
variable {T : TypeConfig} {Bytes : Type}

abbrev StoreFields (T : TypeConfig) (Bytes : Type) := (field : StoreField) → field.Val T Bytes

/-- A snapshot that does not decode is not installed. -/
def StoreFields.install (codec : Codec T Bytes) (f : StoreFields T Bytes)
    (snapshotMeta : SnapshotMeta T) (data : Bytes) : StoreFields T Bytes :=
  match codec.decodeSm data with
  | .error _ => f
  | .ok sm => Function.update (Function.update f .sm sm) .currentSnapshot
      (some ⟨snapshotMeta, data⟩)

/-- The memory after a call, however it ends. -/
def StoreCall.memory (codec : Codec T Bytes) (f : StoreFields T Bytes) :
    StoreCall T Bytes → StoreFields T Bytes
  | .saveVote vote => Function.update f .vote (some vote)
  | .saveCommitted committed => Function.update f .committed committed
  | .append entries => Function.update f .log
      ((entries.map fun entry => (entry.logId.index, codec.entry entry)).foldl
        (fun log e => log.insert e.1 e.2) (f .log))
  | .truncateAfter lastLogId => Function.update f .log
      (BTreeMap.retain (f .log) fun index => index < LogId.nextIndex T lastLogId)
  | .purge logId => Function.update (Function.update f .lastPurgedLogId (some logId)) .log
      (BTreeMap.retain (f .log) fun index => logId.index < index)
  | .buildSnapshot =>
      let snapshotIdx : Nat := f .snapshotIdx + 1
      Function.update (Function.update f .snapshotIdx snapshotIdx) .currentSnapshot
        (some ⟨⟨(f .sm).lastAppliedLog, (f .sm).lastMembership,
          MemoryRaftStore.snapshotId (f .sm).lastAppliedLog snapshotIdx⟩, codec.sm (f .sm)⟩)
  | .apply entries => Function.update f .sm (UnsafeHeadStateMachine.applyStream (f .sm) entries).2
  | .installSnapshot snapshotMeta data => f.install codec snapshotMeta data

/-- The operations that leave the persist lock and the files alone. -/
def StoreOp.OnMemory : StoreOp T Bytes → Prop
  | .lockPersist | .unlockPersist | .file _ => False
  | _ => True

def StoreOp.memory (f : StoreFields T Bytes) : StoreOp T Bytes → StoreFields T Bytes
  | .write field value => Function.update f field value
  | .insertLog entries => Function.update f .log
      (entries.foldl (fun log e => log.insert e.1 e.2) (f .log))
  | .removeLogFrom start => Function.update f .log
      (BTreeMap.retain (f .log) fun index => index < start)
  | .removeLogUpTo index => Function.update f .log
      (BTreeMap.retain (f .log) fun index' => index < index')
  | .applySm entries => Function.update f .sm
      (UnsafeHeadStateMachine.applyStream (f .sm) entries).2
  | .nextSnapshotIdx =>
      let snapshotIdx : Nat := f .snapshotIdx + 1
      Function.update f .snapshotIdx snapshotIdx
  | _ => f

/-- What an operation replies from the memory. -/
def StoreOp.Answers (f : StoreFields T Bytes) : (o : StoreOp T Bytes) → o.Reply → Prop
  | .read field, value => value = f field
  | .nextSnapshotIdx, snapshotIdx => snapshotIdx = f .snapshotIdx + 1
  | _, _ => True

theorem StoreState.perform_onMemory {s s' : StoreState T Bytes Unit} {o : StoreOp T Bytes}
    {x : FileChoice Bytes} {r : o.Reply} (ho : o.OnMemory)
    (h : s.perform () o x = some (r, s')) :
    s'.fields = o.memory s.fields ∧ o.Answers s.fields r ∧
      s'.persistOwner = s.persistOwner ∧ s'.file = s.file := by
  cases o with
  | lockPersist | unlockPersist | file _ => cases ho
  | read _ | nextSnapshotIdx =>
      cases h
      exact ⟨rfl, rfl, rfl, rfl⟩
  | write _ _ | insertLog _ | removeLogFrom _ | removeLogUpTo _ | applySm _ | ioCompleted _
  | respond _ _ =>
      cases h
      exact ⟨rfl, trivial, rfl, rfl⟩

/-- A field is read in one way. -/
theorem runs_read {α : Type} {field : StoreField}
    {next : field.Val T Bytes → Task (StoreOps T Bytes) α} {s t : StoreState T Bytes Unit} {a : α} :
    Runs Cluster.perform ((MemoryRaftStore.op (.read field)).bind next) s a t ↔
      Runs Cluster.perform (next (s.fields field)) s a t := by
  constructor
  · intro h
    obtain ⟨value, s₁, hread, hnext⟩ := h.of_bind
    obtain ⟨x, hp⟩ := hread.of_call
    cases hp
    exact hnext
  · intro h
    exact .perform (.smooth Bytes) rfl h

end

namespace MemoryRaftStore

section
variable {T : TypeConfig} {Bytes : Type}

/-- Assertions that name the memory, and otherwise depend on what operations on the
memory leave alone. -/
structure Remembers (inv : StoreState T Bytes Unit → Prop)
    (At : StoreFields T Bytes → StoreState T Bytes Unit → Prop) : Prop where
  fields : ∀ g s, At g s → s.fields = g
  move : ∀ g s s', At g s → s'.persistOwner = s.persistOwner → s'.file = s.file →
    At s'.fields s'
  inv : ∀ s s', inv s → s'.file = s.file → inv s'

variable {inv : StoreState T Bytes Unit → Prop}
variable {At : StoreFields T Bytes → StoreState T Bytes Unit → Prop}
variable {codec : Codec T Bytes} {path : Option StorePath} {g : StoreFields T Bytes}
variable {done : StoreState T Bytes Unit → Prop}

namespace Remembers
variable (R : Remembers inv At)
include R

theorem op_holds {o : StoreOp T Bytes} (ho : o.OnMemory) :
    (crashLogic Cluster.perform inv).Holds (At g) (op o) fun r s =>
      o.Answers g r ∧ At (o.memory g) s := by
  refine crashLogic_call fun s x r s' hi hs hp => ?_
  obtain ⟨hfields, hanswers, howner, hfile⟩ := StoreState.perform_onMemory ho hp
  have hmove := R.move g s s' hs howner hfile
  rw [hfields, R.fields g s hs] at hmove
  rw [R.fields g s hs] at hanswers
  exact ⟨R.inv s s' hi hfile, hanswers, hmove⟩

theorem change_holds {o : StoreOp T Bytes} (ho : o.OnMemory) :
    (crashLogic Cluster.perform inv).Holds (At g) (op o) fun _ => At (o.memory g) :=
  (crashLogic _ _).post (R.op_holds ho) fun _ _ h => h.2

theorem buildSnapshot_holds
    (hpersist : (crashLogic Cluster.perform inv).Holds
      (At (StoreCall.memory codec g .buildSnapshot)) (persistToDisk codec path)
      (Persisted (At (StoreCall.memory codec g .buildSnapshot)) done)) :
    (crashLogic Cluster.perform inv).Holds (At g) (buildSnapshot codec path)
      (Persisted (At (StoreCall.memory codec g .buildSnapshot)) done) := by
  refine (crashLogic _ _).bind (R.op_holds trivial) fun sm => crashLogic_fact ?_
  rintro rfl
  refine (crashLogic _ _).bind (R.op_holds trivial) fun snapshotIdx => crashLogic_fact ?_
  rintro rfl
  refine (crashLogic _ _).bind (R.change_holds trivial) fun _ => ?_
  refine (crashLogic _ _).bind hpersist fun r => ?_
  cases r <;> exact (crashLogic _ _).done fun _ _ h => h

theorem append_holds {entries : List (Entry T)}
    (hpersist : (crashLogic Cluster.perform inv).Holds
      (At (StoreCall.memory codec g (.append entries))) (persistToDisk codec path)
      (Persisted (At (StoreCall.memory codec g (.append entries))) done)) :
    (crashLogic Cluster.perform inv).Holds (At g) (append codec path entries)
      (Persisted (At (StoreCall.memory codec g (.append entries))) done) := by
  refine append_persisted (R.change_holds trivial) hpersist
    (crashLogic_skip fun s x r s' hp => ?_) fun err => crashLogic_skip fun s x r s' hp => ?_
  · cases hp
    rfl
  · cases hp
    rfl

theorem installSnapshot_holds {snapshotMeta : SnapshotMeta T} {data : Bytes}
    (hpersist : (crashLogic Cluster.perform inv).Holds
      (At (g.install codec snapshotMeta data)) (persistToDisk codec path)
      (Persisted (At (g.install codec snapshotMeta data)) done)) :
    (crashLogic Cluster.perform inv).Holds (At g)
      (installSnapshot codec path snapshotMeta data)
      (Persisted (At (g.install codec snapshotMeta data)) done) := by
  unfold installSnapshot StoreFields.install at *
  cases hdecode : codec.decodeSm data with
  | error err => exact (crashLogic _ _).done fun _ _ h => h
  | ok sm =>
      rw [hdecode] at hpersist
      refine (crashLogic _ _).bind (R.change_holds trivial) fun _ => ?_
      exact (crashLogic _ _).bind (R.change_holds trivial) fun _ => hpersist

/-- If persisting leads from the new memory to `done`, then so does the call from
the old one. -/
theorem body_holds {call : StoreCall T Bytes}
    (hpersist : (crashLogic Cluster.perform inv).Holds (At (call.memory codec g))
      (persistToDisk codec path) (Persisted (At (call.memory codec g)) done)) :
    (crashLogic Cluster.perform inv).Holds (At g) (body codec path call)
      (Persisted (At (call.memory codec g)) done) := by
  cases call with
  | saveVote _ | saveCommitted _ =>
      exact noSnapshot_persisted ((crashLogic _ _).bind (R.change_holds trivial) fun _ => hpersist)
  | append entries => exact noSnapshot_persisted (R.append_holds hpersist)
  | truncateAfter lastLogId =>
      refine noSnapshot_persisted ((crashLogic _ _).bind (R.change_holds trivial) fun _ => ?_)
      cases lastLogId <;> exact hpersist
  | purge logId =>
      refine noSnapshot_persisted ((crashLogic _ _).bind (R.change_holds trivial) fun _ => ?_)
      exact (crashLogic _ _).bind (R.change_holds trivial) fun _ => hpersist
  | buildSnapshot =>
      refine (crashLogic _ _).bind (R.buildSnapshot_holds hpersist) fun r =>
        (crashLogic _ _).done fun s _ h => ?_
      cases r <;> exact h
  | apply items =>
      refine noSnapshot_persisted (apply_persisted (R.change_holds trivial) hpersist
        fun responder response => crashLogic_skip fun s x r s' hp => ?_)
      cases hp
      rfl
  | installSnapshot snapshotMeta data =>
      exact noSnapshot_persisted (R.installSnapshot_holds hpersist)

end Remembers

theorem remembers_fields :
    Remembers (fun _ => True) fun (g : StoreFields T Bytes) s => s.fields = g where
  fields _ _ h := h
  move _ _ _ _ _ _ := rfl
  inv _ _ _ _ := trivial

variable (codec path) in
theorem persistToDisk_fields (f : StoreFields T Bytes) :
    (crashLogic Cluster.perform fun _ => True).Holds (fun s => s.fields = f)
      (persistToDisk codec path) (Persisted (fun s => s.fields = f) fun s => s.fields = f) := by
  have hkeeps : (crashLogic Cluster.perform fun _ => True).Holds (fun s => s.fields = f)
      (persistToDisk codec path) fun _ s => s.fields = f := by
    refine (crashLogic _ _).all (fun o ho => ?_) (persistToDisk_keepsFields codec path)
    refine crashLogic_call fun s x r s' _ hs hp => ⟨trivial, ?_⟩
    exact (StoreState.perform_fields ho hp).trans hs
  refine (crashLogic _ _).post hkeeps fun r s h => ?_
  cases r <;> exact h

/-- The memory after a call depends on the memory before it only. -/
theorem runs_fields {call : StoreCall T Bytes} {s t : StoreState T Bytes Unit}
    {out : StoreOut T Bytes} (h : Runs Cluster.perform (body codec path call) s out t) :
    t.fields = call.memory codec s.fields := by
  have hpersist := persistToDisk_fields codec path (call.memory codec s.fields)
  have hout := (remembers_fields.body_holds hpersist s trivial rfl).2 out t h
  cases out <;> exact hout

end
end MemoryRaftStore
end ConductorRs

import Mathlib.Logic.Function.Basic
import Mathlib.Logic.Nontrivial.Defs
import ConductorRs.Concurrency.RelyGuarantee
import ConductorRs.Core.RaftStorage

/-!
The memory and the directory of one store, and the machine its calls run on.

A file system call may fail. Whatever happens to the temporary file before it is
written, its contents are unknown; a rename that succeeds puts it in place of the
store's file, and one that fails changes nothing. A history may be kept next to
the store; no operation reads it.
-/
namespace ConductorRs
open Concurrency Collections

structure StoreState (T : TypeConfig) (Bytes Tid : Type) where
  fields : (field : StoreField) → field.Val T Bytes
  persistOwner : Option Tid
  file : Option Bytes
  tmp : Option Bytes

structure FileChoice (Bytes : Type) where
  error : Option IoError
  junk : Option Bytes

def FileChoice.smooth (Bytes : Type) : FileChoice Bytes := ⟨none, none⟩

namespace StoreState
variable {T : TypeConfig} {Bytes Tid : Type}

def image (s : StoreState T Bytes Tid) : PersistedRaftStore T Bytes :=
  ⟨s.fields .lastPurgedLogId, s.fields .committed, s.fields .log, s.fields .vote, s.fields .sm,
    s.fields .currentSnapshot, s.fields .snapshotIdx⟩

/-- The last log id of the snapshot that is in place. -/
def snapshotLogId (s : StoreState T Bytes Tid) : Option (LogId T) :=
  (s.fields .currentSnapshot).bind fun snapshot => snapshot.snapshotMeta.lastLogId

/-- A store that has just been opened from an image. -/
def opened (codec : Codec T Bytes) (image : PersistedRaftStore T Bytes) :
    StoreState T Bytes Tid where
  fields := image.get
  persistOwner := none
  file := some (codec.store image)
  tmp := none

def set (s : StoreState T Bytes Tid) (field : StoreField) (value : field.Val T Bytes) :
    StoreState T Bytes Tid :=
  { s with fields := Function.update s.fields field value }

@[simp] theorem set_same (s : StoreState T Bytes Tid) (field : StoreField)
    (value : field.Val T Bytes) : (s.set field value).fields field = value := by
  simp [set]

theorem set_of_ne (s : StoreState T Bytes Tid) {field field' : StoreField}
    (value : field.Val T Bytes) (h : field' ≠ field) :
    (s.set field value).fields field' = s.fields field' := by
  simp [set, h]

def performFile (s : StoreState T Bytes Tid) (x : FileChoice Bytes) :
    FileOp Bytes → Option (Except IoError Unit × StoreState T Bytes Tid)
  | .createTmp | .setLen =>
      some (x.error.elim (.ok ()) .error, { s with tmp := x.junk })
  | .writeTmp data =>
      match x.error with
      | none => some (.ok (), { s with tmp := some data })
      | some err => some (.error err, { s with tmp := x.junk })
  | .rename =>
      match x.error, s.tmp with
      | none, some data => some (.ok (), { s with file := some data, tmp := none })
      | none, none => none
      | some err, _ => some (.error err, s)
  | .createDirAll | .openTmp | .syncTmp | .openParent | .syncParent =>
      some (x.error.elim (.ok ()) .error, s)

theorem performFile_frame {s s' : StoreState T Bytes Tid} {o : FileOp Bytes}
    {x : FileChoice Bytes} {r : Except IoError Unit}
    (h : s.performFile x o = some (r, s')) :
    s'.fields = s.fields ∧ s'.persistOwner = s.persistOwner := by
  cases o with
  | writeTmp data =>
      simp only [performFile] at h
      split at h <;> cases h <;> exact ⟨rfl, rfl⟩
  | rename =>
      simp only [performFile] at h
      split at h <;> cases h <;> exact ⟨rfl, rfl⟩
  | _ => cases h; exact ⟨rfl, rfl⟩

theorem performFile_file {s s' : StoreState T Bytes Tid} {o : FileOp Bytes}
    {x : FileChoice Bytes} {r : Except IoError Unit} (ho : o ≠ .rename)
    (h : s.performFile x o = some (r, s')) : s'.file = s.file := by
  cases o with
  | writeTmp data =>
      simp only [performFile] at h
      split at h <;> cases h <;> rfl
  | rename => exact absurd rfl ho
  | _ => cases h; rfl

variable [DecidableEq Tid]

def perform (s : StoreState T Bytes Tid) (i : Tid) :
    (op : StoreOp T Bytes) → FileChoice Bytes → Option (op.Reply × StoreState T Bytes Tid)
  | .read field, _ => some (s.fields field, s)
  | .write field value, _ => some ((), s.set field value)
  | .insertLog entries, _ =>
      some ((), s.set .log (entries.foldl (fun log e => log.insert e.1 e.2) (s.fields .log)))
  | .removeLogFrom start, _ =>
      some ((), s.set .log (BTreeMap.retain (s.fields .log) fun index => index < start))
  | .removeLogUpTo index, _ =>
      some ((), s.set .log (BTreeMap.retain (s.fields .log) fun index' => index < index'))
  | .applySm entries, _ =>
      let applied := UnsafeHeadStateMachine.applyStream (s.fields .sm) entries
      some (applied.1, s.set .sm applied.2)
  | .nextSnapshotIdx, _ =>
      let next : Nat := s.fields .snapshotIdx + 1
      some (next, s.set .snapshotIdx next)
  | .lockPersist, _ =>
      match s.persistOwner with
      | none => some ((), { s with persistOwner := some i })
      | some _ => none
  | .unlockPersist, _ =>
      if s.persistOwner = some i then some ((), { s with persistOwner := none }) else none
  | .file op, x => s.performFile x op
  | .ioCompleted _, _ | .respond _ _, _ => some ((), s)

end StoreState

/-- The field an operation changes. -/
def StoreOp.target {T : TypeConfig} {Bytes : Type} : StoreOp T Bytes → Option StoreField
  | .write field _ => some field
  | .insertLog _ | .removeLogFrom _ | .removeLogUpTo _ => some .log
  | .applySm _ => some .sm
  | .nextSnapshotIdx => some .snapshotIdx
  | _ => none

namespace StoreState
variable {T : TypeConfig} {Bytes Tid : Type} [DecidableEq Tid]
variable {s s' : StoreState T Bytes Tid} {i : Tid} {o : StoreOp T Bytes}
variable {x : FileChoice Bytes} {r : o.Reply}

theorem perform_target {field : StoreField} (ht : o.target = some field)
    (h : s.perform i o x = some (r, s')) :
    s' = s.set field (s'.fields field) := by
  cases o with
  | write f v | insertLog es | removeLogFrom n | removeLogUpTo n | applySm es
  | nextSnapshotIdx =>
      cases ht
      cases h
      simp [set]
  | _ => cases ht

theorem perform_fields (ht : o.target = none) (h : s.perform i o x = some (r, s')) :
    s'.fields = s.fields := by
  cases o with
  | read f => cases h; rfl
  | lockPersist | unlockPersist =>
      simp only [perform] at h
      split at h <;> cases h
      rfl
  | file o => exact (performFile_frame h).1
  | ioCompleted r | respond j r => cases h; rfl
  | _ => cases ht

end StoreState

inductive StoreCall (T : TypeConfig) (Bytes : Type) where
  | saveVote (vote : T.Vote)
  | saveCommitted (committed : Option (LogId T))
  | append (entries : List (Entry T))
  | truncateAfter (lastLogId : Option (LogId T))
  | purge (logId : LogId T)
  | buildSnapshot
  | apply (entries : List (Except IoError (Entry T × Option UnsafeHeadStateMachine.Responder)))
  | installSnapshot (snapshotMeta : SnapshotMeta T) (data : Bytes)

/-- openraft runs the calls of one store in three tasks. -/
inductive StoreTask where
  | log
  | sm
  | snapshot
deriving DecidableEq

instance : Nontrivial StoreTask := ⟨.log, .sm, by decide⟩

def StoreCall.task {T : TypeConfig} {Bytes : Type} : StoreCall T Bytes → StoreTask
  | .saveVote _ | .saveCommitted _ | .append _ | .truncateAfter _ | .purge _ => .log
  | .apply _ | .installSnapshot _ _ => .sm
  | .buildSnapshot => .snapshot

abbrev StoreOut (T : TypeConfig) (Bytes : Type) :=
  Except IoError (Option (UnsafeHeadSnapshot T Bytes))

namespace MemoryRaftStore
variable {T : TypeConfig} {Bytes Tid : Type}

def noSnapshot (t : Task (StoreOps T Bytes) (Except IoError Unit)) :
    Task (StoreOps T Bytes) (StoreOut T Bytes) := do
  return (← t).map fun _ => none

def body (codec : Codec T Bytes) (path : Option StorePath) :
    StoreCall T Bytes → Task (StoreOps T Bytes) (StoreOut T Bytes)
  | .saveVote vote => noSnapshot (saveVote codec path vote)
  | .saveCommitted committed => noSnapshot (saveCommitted codec path committed)
  | .append entries => noSnapshot (append codec path entries)
  | .truncateAfter lastLogId => noSnapshot (truncateAfter codec path lastLogId)
  | .purge logId => noSnapshot (purge codec path logId)
  | .buildSnapshot => do return (← buildSnapshot codec path).map some
  | .apply entries => noSnapshot (apply codec path entries)
  | .installSnapshot snapshotMeta data =>
      noSnapshot (installSnapshot codec path snapshotMeta data)

/-- A history of the run, told of every call, of every operation with the store
before and after it, and of every return. -/
structure Watch (T : TypeConfig) (Bytes Tid H : Type) where
  begin : StoreState T Bytes Tid → H → Tid → StoreCall T Bytes → H
  after : StoreState T Bytes Tid → StoreState T Bytes Tid → H → Tid →
    (op : StoreOp T Bytes) → op.Reply → H
  finish : StoreState T Bytes Tid → H → Tid → StoreCall T Bytes → StoreOut T Bytes → H

structure Watched (T : TypeConfig) (Bytes Tid H : Type) where
  store : StoreState T Bytes Tid
  hist : H

variable {H : Type} [DecidableEq Tid]

def machine (codec : Codec T Bytes) (path : Option StorePath) (watch : Watch T Bytes Tid H) :
    Machine Tid (StoreOps T Bytes) (Watched T Bytes Tid H) (StoreCall T Bytes)
      (StoreOut T Bytes) (FileChoice Bytes) Empty where
  body := body codec path
  enter s i call := some ⟨s.store, watch.begin s.store s.hist i call⟩
  perform s i op x := (s.store.perform i op x).map fun p =>
    (p.1, ⟨p.2, watch.after s.store p.2 s.hist i op p.1⟩)
  leave s i call out := ⟨s.store, watch.finish s.store s.hist i call out⟩
  env _ e := e.elim

theorem triple_op {codec : Codec T Bytes} {path : Option StorePath}
    {watch : Watch T Bytes Tid H}
    {π : Policy Tid (StoreOps T Bytes) (Watched T Bytes Tid H) (StoreCall T Bytes)
      (FileChoice Bytes) Empty}
    {P : Outline Tid (StoreOps T Bytes) (Watched T Bytes Tid H)} {i : Tid}
    {o : StoreOp T Bytes} {A : Watched T Bytes Tid H → Prop}
    {Q : o.Reply → Watched T Bytes Tid H → Prop} (hA : P.Stable i A)
    (h : ∀ s, P.inv s → A s → P.check i s o ∧
      ∀ x r store, s.store.perform i o x = some (r, store) → π.step s i o x →
        P.Grants i s ⟨store, watch.after s.store store s.hist i o r⟩ ∧
          Q r ⟨store, watch.after s.store store s.hist i o r⟩) :
    (machine codec path watch).Triple π P i A (op o) Q := by
  refine Machine.Triple.call hA fun s hi hs => ?_
  obtain ⟨hc, hstep⟩ := h s hi hs
  refine ⟨hc, fun x r s' hp hπ => ?_⟩
  simp only [machine, Option.map_eq_some_iff, Prod.mk.injEq] at hp
  obtain ⟨⟨r', store⟩, hperf, hr, hs'⟩ := hp
  subst hr hs'
  exact hstep x r' store hperf hπ

abbrev Trace := Event StoreTask (StoreCall .single (Document .single))
  (FileChoice (Document .single)) Empty

abbrev Running (H : Type) := Config StoreTask (StoreOps .single (Document .single))
  (Watched .single (Document .single) StoreTask H) (StoreCall .single (Document .single))
  (StoreOut .single (Document .single))

/-- Steps of one task in which nothing fails. -/
def run (i : StoreTask) (steps : Nat) : List Trace := List.replicate steps (.step i (.smooth _))

end MemoryRaftStore
end ConductorRs

import ConductorRs.Core.LogReader
import ConductorRs.Metatheory.LogImage
import ConductorRs.Metatheory.StoreAlone

/-!
When a snapshot is due.

The trigger infers from the last key of the log and the index of the snapshot how
many entries the snapshot does not cover. The number is right because the log has
no gap above the snapshot: its keys are consecutive and the first one lies at most
one beyond what the snapshot covers. Every call keeps that under openraft's rules,
in the memory and in the file.
-/
namespace ConductorRs.MemoryRaftStore
open Concurrency Collections
open LogImage (GapFree gapFree_empty nextLogIndex)
open RaftConsensus (saturatingSucc)

section
variable {T : TypeConfig} {Bytes : Type}

/-- The last log id of the snapshot that is in place. -/
def coveredLogId (f : StoreFields T Bytes) : Option (LogId T) :=
  (f .currentSnapshot).bind fun snapshot => snapshot.snapshotMeta.lastLogId

def covers : Option (LogId T) → Nat → Bool
  | none, _ => false
  | some logId, index => index ≤ logId.index

/-- The indexes of the log that the snapshot in place does not cover. -/
def uncovered (f : StoreFields T Bytes) : List Nat :=
  (BTreeMap.keys (f .log)).filter fun index => !covers (coveredLogId f) index

/-- openraft's rules: entries are appended one after another, from index 0 on; a purge
reaches no further than the snapshot in place; what is applied lies beyond what has
been applied; a snapshot that is installed is not older than that, and it holds the
state that it is named after. -/
def Permits (codec : Codec T Bytes) (f : StoreFields T Bytes) : StoreCall T Bytes → Prop
  | .append entries => entries.map (fun entry => entry.logId.index) =
      List.range' (nextLogIndex (f .lastPurgedLogId) (f .log)) entries.length
  | .purge logId => covers (coveredLogId f) logId.index = true
  | .apply items => ∀ entry ∈ UnsafeHeadStateMachine.streamEntries items,
      LogId.nextIndex T (f .sm).lastAppliedLog ≤ entry.logId.index
  | .installSnapshot snapshotMeta data =>
      LogId.nextIndex T (f .sm).lastAppliedLog ≤ LogId.nextIndex T snapshotMeta.lastLogId ∧
      ∀ sm, codec.decodeSm data = .ok sm → sm.lastAppliedLog = snapshotMeta.lastLogId
  | .saveVote _ | .saveCommitted _ | .truncateAfter _ | .buildSnapshot => True

/-- The log has no gap above the snapshot, which has not been purged beyond and does
not lie ahead of the state machine. -/
structure Aligned (f : StoreFields T Bytes) : Prop where
  gapFree : GapFree (coveredLogId f) (f .log)
  purged : LogId.nextIndex T (f .lastPurgedLogId) ≤ LogId.nextIndex T (coveredLogId f)
  applied : LogId.nextIndex T (coveredLogId f) ≤ LogId.nextIndex T (f .sm).lastAppliedLog

theorem covers_iff {logId : Option (LogId T)} {index : Nat} :
    covers logId index = true ↔ index + 1 ≤ LogId.nextIndex T logId := by
  cases logId with
  | none =>
      refine ⟨nofun, fun h => ?_⟩
      simp only [LogId.nextIndex] at h
      omega
  | some logId =>
      simp only [covers, LogId.nextIndex, decide_eq_true_eq]
      omega

theorem aligned_default : Aligned (PersistedRaftStore.default T Bytes).get :=
  ⟨gapFree_empty _, Nat.le_refl _, Nat.le_refl _⟩

variable {codec : Codec T Bytes} {f : StoreFields T Bytes}

/-- A newer snapshot is put in place. -/
theorem Aligned.cover (h : Aligned f) {g : StoreFields T Bytes} (hlog : g .log = f .log)
    (hpurged : g .lastPurgedLogId = f .lastPurgedLogId)
    (hnewer : LogId.nextIndex T (coveredLogId f) ≤ LogId.nextIndex T (coveredLogId g))
    (happlied : LogId.nextIndex T (coveredLogId g) ≤ LogId.nextIndex T (g .sm).lastAppliedLog) :
    Aligned g where
  gapFree := by
    rw [hlog]
    exact h.gapFree.record hnewer
  purged := by
    rw [hpurged]
    exact h.purged.trans hnewer
  applied := happlied

/-- Every call keeps the log and the snapshot aligned. -/
theorem Aligned.memory (h : Aligned f) {call : StoreCall T Bytes} (hcall : Permits codec f call) :
    Aligned (call.memory codec f) := by
  cases call with
  | saveVote _ | saveCommitted _ => exact ⟨h.gapFree, h.purged, h.applied⟩
  | append entries =>
      refine ⟨h.gapFree.append h.purged ?_, h.purged, h.applied⟩
      rw [List.map_map, List.length_map]
      exact hcall
  | truncateAfter lastLogId => exact ⟨h.gapFree.truncate _, h.purged, h.applied⟩
  | purge logId =>
      have hcovered := covers_iff.mp hcall
      exact ⟨h.gapFree.remove hcovered, hcovered, h.applied⟩
  | buildSnapshot => exact h.cover rfl rfl h.applied (Nat.le_refl _)
  | apply items =>
      exact h.cover rfl rfl (Nat.le_refl _)
        (h.applied.trans (UnsafeHeadStateMachine.applyStream_applied _ items hcall))
  | installSnapshot snapshotMeta data =>
      obtain ⟨hnewer, hstate⟩ := hcall
      simp only [StoreCall.memory, StoreFields.install]
      cases hdecode : codec.decodeSm data with
      | error err => exact h
      | ok sm =>
          refine h.cover rfl rfl (h.applied.trans hnewer) ?_
          change _ ≤ LogId.nextIndex T sm.lastAppliedLog
          rw [hstate sm hdecode]
          exact Nat.le_refl _

theorem Aligned.uncovered_empty (h : Aligned f) (hlast : BTreeMap.lastKey? (f .log) = none) :
    uncovered f = [] := by
  obtain ⟨first, n, hkeys, -⟩ := h.gapFree
  cases n with
  | zero =>
      have hempty : BTreeMap.keys (f .log) = [] := hkeys
      rw [uncovered, hempty, List.filter_nil]
  | succ n =>
      rw [hkeys.lastKey?_succ] at hlast
      cases hlast

/-- The last key and the index of the snapshot tell how many keys lie above it. -/
theorem Aligned.length_uncovered (h : Aligned f) {index : Nat}
    (hlast : BTreeMap.lastKey? (f .log) = some index) :
    (uncovered f).length = index + 1 - LogId.nextIndex T (coveredLogId f) := by
  obtain ⟨first, n, hkeys, hfirst⟩ := h.gapFree
  cases n with
  | zero =>
      rw [hkeys.lastKey?_zero] at hlast
      cases hlast
  | succ n =>
      rw [hkeys.lastKey?_succ] at hlast
      cases hlast
      have hbound := hfirst (Nat.succ_pos n)
      rw [uncovered, show BTreeMap.keys (f .log) = _ from hkeys]
      cases hcovered : coveredLogId f with
      | none =>
          rw [hcovered] at hbound
          simp only [LogId.nextIndex] at hbound
          simp only [covers, LogId.nextIndex, Bool.not_false, List.filter_true,
            List.length_range']
          omega
      | some logId =>
          rw [hcovered] at hbound
          have habove : (fun i => !covers (some logId) i) = fun i => decide (logId.index < i) := by
            funext i
            simp only [covers, ← decide_not, Nat.not_le]
          rw [habove, filter_gt_range', List.length_range']
          simp only [LogId.nextIndex] at hbound ⊢
          omega

variable {s t : StoreState T Bytes Unit} {threshold : UInt64}

theorem snapshotLogIndex_eq (f : StoreFields T Bytes) :
    ((f .currentSnapshot).bind fun snapshot =>
      snapshot.snapshotMeta.lastLogId.map fun logId => logId.index) =
      (coveredLogId f).map fun logId => logId.index :=
  Option.map_bind.symm

/-- Either formula of the trigger compares like the number of keys above the snapshot.
A sum that saturates is beyond any threshold. -/
theorem Aligned.due_iff (h : Aligned f) {index : Nat}
    (hlast : BTreeMap.lastKey? (f .log) = some index) :
    threshold.toNat ≤ logsSinceSnapshot index ((coveredLogId f).map fun logId => logId.index) ↔
      threshold.toNat ≤ (uncovered f).length := by
  rw [h.length_uncovered hlast]
  cases coveredLogId f with
  | none =>
      have hsize : threshold.toNat < UInt64.size := threshold.toNat_lt
      simp only [Option.map_none, logsSinceSnapshot, saturatingSucc, LogId.nextIndex]
      omega
  | some logId =>
      simp only [Option.map_some, logsSinceSnapshot, LogId.nextIndex]
      omega

theorem Aligned.shouldSnapshot (h : Aligned s.fields) (hpos : threshold ≠ 0)
    {r : Except IoError Bool} :
    Runs Cluster.perform (shouldSnapshot threshold) s r t ↔
      r = .ok (decide (threshold.toNat ≤ (uncovered s.fields).length)) ∧ t = s := by
  have hthreshold : 0 < threshold.toNat := Nat.pos_of_ne_zero fun hzero =>
    hpos (UInt64.toNat_inj.mp hzero)
  unfold MemoryRaftStore.shouldSnapshot
  rw [if_neg hpos]
  refine runs_read.trans ?_
  cases hlast : BTreeMap.lastKey? (s.fields .log) with
  | none =>
      have hnone : decide (threshold.toNat ≤ (uncovered s.fields).length) = false := by
        rw [h.uncovered_empty hlast]
        exact decide_eq_false (Nat.not_le_of_lt hthreshold)
      rw [hnone]
      exact runs_done
  | some index =>
      have hdue : decide (threshold.toNat ≤ (uncovered s.fields).length) =
          decide (threshold.toNat ≤
            logsSinceSnapshot index ((coveredLogId s.fields).map fun logId => logId.index)) :=
        decide_eq_decide.mpr (h.due_iff hlast).symm
      rw [hdue, ← snapshotLogIndex_eq]
      exact runs_read.trans runs_done

/-- A store from an empty path on. Calls follow one another, whatever they return. A
store with a path may be opened again, between two calls or after one that was cut. -/
inductive SnapshotHistory (codec : Codec T Bytes) (path : Option StorePath) :
    StoreState T Bytes Unit → Prop where
  | fresh : SnapshotHistory codec path (.opened codec (.default T Bytes))
  | call {s t : StoreState T Bytes Unit} {out : StoreOut T Bytes} (call : StoreCall T Bytes) :
      SnapshotHistory codec path s → Permits codec s.fields call →
      Runs Cluster.perform (body codec path call) s out t → SnapshotHistory codec path t
  | reopen {s t : StoreState T Bytes Unit} {image : PersistedRaftStore T Bytes}
      (call : StoreCall T Bytes) : path.isSome → SnapshotHistory codec path s →
      Permits codec s.fields call → Cut Cluster.perform (body codec path call) s t →
      load codec t.file = .ok image → SnapshotHistory codec path (.opened codec image)

/-- Between calls: the memory is aligned, and so is one that the file holds. -/
structure KeepsAligned (codec : Codec T Bytes) (path : Option StorePath)
    (s : StoreState T Bytes Unit) : Prop where
  memory : Aligned s.fields
  stored : path.isSome → s.persistOwner = none ∧ ∃ f, Aligned f ∧ s.file = Alone.saved codec f

variable {path : Option StorePath}

theorem KeepsAligned.call (h : KeepsAligned codec path s) {call : StoreCall T Bytes}
    (hcall : Permits codec s.fields call) {out : StoreOut T Bytes}
    (hrun : Runs Cluster.perform (body codec path call) s out t) : KeepsAligned codec path t := by
  have hmemory := h.memory.memory hcall
  refine ⟨?_, fun hpath => ?_⟩
  · rw [runs_fields hrun]
    exact hmemory
  · obtain ⟨howner, f, hf, hfile⟩ := h.stored hpath
    obtain ⟨path, rfl⟩ := Option.isSome_iff_exists.mp hpath
    cases out with
    | ok out =>
        obtain ⟨-, howner', hfile'⟩ := Alone.runs_ok howner hrun
        exact ⟨howner', _, hmemory, hfile'⟩
    | error err =>
        obtain ⟨-, howner', hfile'⟩ := Alone.runs_error howner hrun
        exact ⟨howner', f, hf, hfile'.trans hfile⟩

theorem KeepsAligned.reopen (hc : codec.Lawful) (hpath : path.isSome)
    (h : KeepsAligned codec path s) {call : StoreCall T Bytes}
    (hcall : Permits codec s.fields call)
    (hcut : Cut Cluster.perform (body codec path call) s t) {image : PersistedRaftStore T Bytes}
    (hload : load codec t.file = .ok image) : KeepsAligned codec path (.opened codec image) := by
  obtain ⟨howner, f, hf, hfile⟩ := h.stored hpath
  obtain ⟨path, rfl⟩ := Option.isSome_iff_exists.mp hpath
  obtain ⟨g, hmemory, hfields, howner', hopened⟩ :=
    Alone.reopened_at hc howner hfile hcut hload
  have hg : Aligned g := by
    rcases hmemory with rfl | rfl
    · exact hf
    · exact h.memory.memory hcall
  refine ⟨?_, fun _ => ⟨howner', g, hg, hopened⟩⟩
  rw [hfields]
  exact hg

theorem SnapshotHistory.keepsAligned (hc : codec.Lawful) (h : SnapshotHistory codec path s) :
    KeepsAligned codec path s := by
  induction h with
  | fresh => exact ⟨aligned_default, fun _ => ⟨rfl, _, aligned_default, rfl⟩⟩
  | call _ _ hcall hrun ih => exact ih.call hcall hrun
  | reopen _ hpath _ hcall hcut hload ih => exact ih.reopen hc hpath hcall hcut hload

/-- After every history the trigger says whether the log holds at least as many entries
that the snapshot does not cover as the threshold asks for. -/
theorem snapshot_due (codec : Codec T Bytes) (hc : codec.Lawful) (path : Option StorePath)
    (s : StoreState T Bytes Unit) (h : SnapshotHistory codec path s) (threshold : UInt64)
    (hpos : 0 < threshold) (r : Except IoError Bool) (t : StoreState T Bytes Unit) :
    Runs Cluster.perform (shouldSnapshot threshold) s r t ↔
      r = .ok (decide (threshold.toNat ≤ (uncovered s.fields).length)) ∧ t = s :=
  (h.keepsAligned hc).memory.shouldSnapshot (UInt64.pos_iff_ne_zero.mp hpos)

end

def idle (index : Nat) : Entry .single := ⟨⟨(), index⟩, .blank⟩

/-- Of three entries the first is applied and covered by a snapshot. -/
theorem two_of_three_uncovered :
    ∃ s, SnapshotHistory (Codec.document .single) none s ∧ uncovered s.fields = [1, 2] ∧
      (∀ r t, Runs Cluster.perform (shouldSnapshot 2) s r t ↔ r = .ok true ∧ t = s) ∧
      ∀ r t, Runs Cluster.perform (shouldSnapshot 3) s r t ↔ r = .ok false ∧ t = s := by
  have hlogged : SnapshotHistory (Codec.document .single) none _ :=
    .call (.append [idle 0, idle 1, idle 2]) .fresh rfl (runs_of_execute_eq (x := .smooth _) rfl)
  have happlied : SnapshotHistory (Codec.document .single) none _ :=
    .call (.apply [.ok (idle 0, none)]) hlogged (fun _ _ => Nat.zero_le _)
      (runs_of_execute_eq (x := .smooth _) rfl)
  have hbuilt : SnapshotHistory (Codec.document .single) none _ :=
    .call .buildSnapshot happlied trivial (runs_of_execute_eq (x := .smooth _) rfl)
  have hdue := snapshot_due (Codec.document .single) (Codec.document_lawful _) none _ hbuilt
  exact ⟨_, hbuilt, rfl, hdue 2 (by decide), hdue 3 (by decide)⟩

end ConductorRs.MemoryRaftStore

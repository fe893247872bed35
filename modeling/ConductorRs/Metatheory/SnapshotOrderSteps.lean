import ConductorRs.Metatheory.SnapshotOrder

/-!
What the tasks do to the snapshot in place, step by step.

The snapshot in place never covers more than the state machine has applied. A
copy is therefore at least as new as the snapshot in place, and stays so unless
an install replaces that snapshot.
-/
namespace ConductorRs.MemoryRaftStore.SnapshotOrder
open Concurrency

section
variable {T : TypeConfig} {Bytes : Type} {codec : Codec T Bytes} {path : Option StorePath}
variable {i : StoreTask}

def logic (codec : Codec T Bytes) (path : Option StorePath) (i : StoreTask) :
    Logic (StoreOps T Bytes) (Sys T Bytes) :=
  (machine codec path watch).logic (policy codec) outline i

def Quiet (o : StoreOp T Bytes) : Prop :=
  o.target ≠ some .sm ∧ o.target ≠ some .currentSnapshot ∧ o.target ≠ some .lastPurgedLogId

theorem quiet_frame {o : StoreOp T Bytes} (ho : Quiet o) {store store' : Store T Bytes}
    {x : FileChoice Bytes} {r : o.Reply} (hp : store.perform i o x = some (r, store')) :
    store'.fields .sm = store.fields .sm ∧
      store'.fields .currentSnapshot = store.fields .currentSnapshot ∧
      store'.fields .lastPurgedLogId = store.fields .lastPurgedLogId := by
  cases ht : o.target with
  | none =>
      rw [StoreState.perform_fields ht hp]
      exact ⟨rfl, rfl, rfl⟩
  | some field =>
      rw [StoreState.perform_target ht hp]
      refine ⟨?_, ?_, ?_⟩
      · exact store.set_of_ne _ fun h => ho.1 (by rw [ht, h])
      · exact store.set_of_ne _ fun h => ho.2.1 (by rw [ht, h])
      · exact store.set_of_ne _ fun h => ho.2.2 (by rw [ht, h])

theorem quiet_after {o : StoreOp T Bytes} (ho : Quiet o) (hread : o ≠ .read .sm)
    (h : Snapshots) : h.after i o = h := by
  cases o with
  | read field =>
      cases field with
      | sm => exact absurd rfl hread
      | _ => rfl
  | write field value =>
      cases field with
      | currentSnapshot => exact absurd rfl ho.2.1
      | _ => rfl
  | _ => rfl

theorem snapshotIndex_congr {store store' : Store T Bytes}
    (h : store'.fields .currentSnapshot = store.fields .currentSnapshot) :
    snapshotIndex store' = snapshotIndex store := by
  simp only [snapshotIndex, StoreState.snapshotLogId, h]

/-- A step that leaves the snapshot in place. -/
theorem Sound.move {s : Sys T Bytes} (hi : Sound s) {store : Store T Bytes} {b : Bool}
    (hindex : snapshotIndex store = snapshotIndex s.store)
    (happlied : appliedIndex s.store ≤ appliedIndex store)
    (hpurged : purgedIndex store ≤ snapshotIndex s.store) :
    Sound ⟨store, { s.hist with overtaken := b }⟩ := by
  constructor
  · rw [hindex]
    exact hpurged
  · rw [hindex]
    exact hi.applied.trans happlied
  · rw [hindex]
    exact hi.completed

theorem quiet_holds {o : StoreOp T Bytes} (ho : Quiet o) (hread : o ≠ .read .sm)
    {A : Sys T Bytes → Prop} (hA : outline.Stable i A) :
    (logic codec path i).Holds A (op o) fun _ => A := by
  refine triple_op hA fun s hi hs => ⟨trivial, fun x r store hp _ => ?_⟩
  obtain ⟨hsm, hsnapshot, hpurged⟩ := quiet_frame ho hp
  have hafter : watch.after s.store store s.hist i o r = s.hist := quiet_after ho hread _
  rw [hafter]
  have hindex := snapshotIndex_congr hsnapshot
  have happlied : appliedIndex s.store ≤ appliedIndex store := by
    simp only [appliedIndex, hsm, Nat.le_refl]
  have hsound : Sound ⟨store, s.hist⟩ := by
    refine hi.move hindex happlied ?_
    simp only [purgedIndex, hpurged]
    exact hi.purged
  have hrely : ∀ j, Rely j s ⟨store, s.hist⟩ := fun j =>
    ⟨hindex.ge, happlied, Nat.le_refl _, fun _ => hsm, fun _ h => ⟨h, hindex⟩⟩
  exact ⟨⟨hsound, fun j _ => hrely j⟩, hA s _ hs (hrely i) hsound⟩

/-- Reading the state machine starts a copy, wherever it happens. -/
theorem read_sm {A : Sys T Bytes → Prop} (hA : outline.Stable i A)
    {Q : UnsafeHeadStateMachine T → Sys T Bytes → Prop}
    (hQ : ∀ s, Sound s → A s →
      Q (s.store.fields .sm) ⟨s.store, s.hist.after i (.read .sm : StoreOp T Bytes)⟩) :
    (logic codec path i).Holds A (op (.read .sm)) Q := by
  refine triple_op hA fun s hi hs => ⟨trivial, fun x r store hp _ => ?_⟩
  cases hp
  refine ⟨?_, hQ s hi hs⟩
  by_cases hsnap : i = .snapshot
  · have hafter : s.hist.after i (.read .sm : StoreOp T Bytes) =
        { s.hist with overtaken := false } := if_pos hsnap
    change outline.Grants i s ⟨s.store, s.hist.after i (.read .sm : StoreOp T Bytes)⟩
    rw [hafter]
    refine ⟨hi.move rfl (Nat.le_refl _) hi.purged, fun j hj => ?_⟩
    exact ⟨Nat.le_refl _, Nat.le_refl _, Nat.le_refl _, fun _ => rfl,
      fun h => absurd (h.trans hsnap.symm) hj⟩
  · have hafter : s.hist.after i (.read .sm : StoreOp T Bytes) = s.hist := if_neg hsnap
    change outline.Grants i s ⟨s.store, s.hist.after i (.read .sm : StoreOp T Bytes)⟩
    rw [hafter]
    exact ⟨hi, fun j _ => coherent.refl j s⟩

theorem placed_quiet {o : StoreOp T Bytes} (ho : Quiet o) (n : Nat) :
    (logic codec path i).Holds (Placed n) (op o) fun _ => Placed n := by
  by_cases hread : o = .read .sm
  · subst hread
    exact read_sm (placed_stable i n) fun s _ hs => hs
  · exact quiet_holds ho hread (placed_stable i n)

theorem quiet_of_keepsFields {o : StoreOp T Bytes} (h : KeepsFields o) : Quiet o := by
  rw [KeepsFields] at h
  simp [Quiet, h]

theorem placed_all {α : Type} {t : Task (StoreOps T Bytes) α} (ht : t.All Quiet) (n : Nat) :
    (logic codec path i).Holds (Placed n) t fun _ => Placed n :=
  (logic codec path i).all (fun _ ho => placed_quiet ho n) ht

theorem persistToDisk_quiet : (persistToDisk codec path).All Quiet :=
  Task.all_mono (fun _ => quiet_of_keepsFields) _ (persistToDisk_keepsFields codec path)

theorem place_snapshot {A : Sys T Bytes → Prop} (hA : outline.Stable i A)
    (snapshot : UnsafeHeadSnapshot T Bytes)
    (h : ∀ s, Sound s → A s → (i = .snapshot → s.hist.overtaken = false) →
      snapshotIndex s.store ≤ LogId.nextIndex T snapshot.snapshotMeta.lastLogId ∧
        LogId.nextIndex T snapshot.snapshotMeta.lastLogId ≤ appliedIndex s.store) :
    (logic codec path i).Holds A (op (.write .currentSnapshot (some snapshot))) fun _ =>
      Placed (LogId.nextIndex T snapshot.snapshotMeta.lastLogId) := by
  refine triple_op hA fun s hi hs => ⟨trivial, fun x r store hp hπ => ?_⟩
  obtain ⟨hle, happlied⟩ := h s hi hs hπ
  cases hp
  have hindex : snapshotIndex (s.store.set .currentSnapshot (some snapshot)) =
      LogId.nextIndex T snapshot.snapshotMeta.lastLogId := by
    simp [snapshotIndex, StoreState.snapshotLogId]
  have hsm : (s.store.set .currentSnapshot (some snapshot)).fields .sm = s.store.fields .sm :=
    s.store.set_of_ne _ (by decide)
  have hpurged : (s.store.set .currentSnapshot (some snapshot)).fields .lastPurgedLogId =
      s.store.fields .lastPurgedLogId := s.store.set_of_ne _ (by decide)
  have hgrow : snapshotIndex s.store ≤
      snapshotIndex (s.store.set .currentSnapshot (some snapshot)) := by omega
  refine ⟨⟨?_, fun j hj => ?_⟩, hindex.ge⟩
  · constructor
    · simp only [purgedIndex, hpurged]
      exact hi.purged.trans hgrow
    · simp only [appliedIndex, hsm, hindex]
      exact happlied
    · exact hi.completed.trans hgrow
  · refine ⟨hgrow, ?_, Nat.le_refl _, fun _ => hsm, fun hsnap ho => ?_⟩
    · simp only [appliedIndex, hsm, Nat.le_refl]
    · have hne : i ≠ .snapshot := fun h => hj (hsnap.trans h.symm)
      simp [watch, Snapshots.after, hne] at ho

/-- The state-machine task moves the state machine forward. -/
theorem advance_sm {o : StoreOp T Bytes} (ho : o.target = some .sm)
    {A : Sys T Bytes → Prop} (hA : outline.Stable .sm A) {B : o.Reply → Sys T Bytes → Prop}
    (h : ∀ (s : Sys T Bytes) x r store, A s → s.store.perform .sm o x = some (r, store) →
      appliedIndex s.store ≤ appliedIndex store ∧ B r ⟨store, s.hist⟩) :
    (logic codec path .sm).Holds A (op o) B := by
  refine triple_op hA fun s hi hs => ⟨trivial, fun x r store hp _ => ?_⟩
  obtain ⟨hle, hB⟩ := h s x r store hs hp
  have hafter : watch.after s.store store s.hist .sm o r = s.hist := by
    cases o with
    | write field value =>
        cases ho
        rfl
    | applySm items => rfl
    | _ => cases ho
  rw [hafter]
  have hstore := StoreState.perform_target ho hp
  have hsnapshot : store.fields .currentSnapshot = s.store.fields .currentSnapshot := by
    rw [hstore]
    exact s.store.set_of_ne _ (by decide)
  have hpurged : store.fields .lastPurgedLogId = s.store.fields .lastPurgedLogId := by
    rw [hstore]
    exact s.store.set_of_ne _ (by decide)
  have hindex := snapshotIndex_congr hsnapshot
  refine ⟨⟨hi.move hindex hle ?_, fun j hj => ?_⟩, hB⟩
  · simp only [purgedIndex, hpurged]
    exact hi.purged
  · exact ⟨hindex.ge, hle, Nat.le_refl _, fun h => absurd h hj, fun _ h => ⟨h, hindex⟩⟩

theorem record_purged (logId : LogId T) :
    (logic codec path i).Holds (fun s => logId.index + 1 ≤ s.hist.completed)
      (op (.write .lastPurgedLogId (some logId))) fun _ => Placed 0 := by
  refine triple_op (fun s s' h hr _ => Nat.le_trans h hr.completed)
    fun s hi hs => ⟨trivial, fun x r store hp _ => ?_⟩
  cases hp
  have hsm : (s.store.set .lastPurgedLogId (some logId)).fields .sm = s.store.fields .sm :=
    s.store.set_of_ne _ (by decide)
  have hsnapshot : (s.store.set .lastPurgedLogId (some logId)).fields .currentSnapshot =
      s.store.fields .currentSnapshot := s.store.set_of_ne _ (by decide)
  have hindex := snapshotIndex_congr hsnapshot
  have happlied : appliedIndex s.store ≤
      appliedIndex (s.store.set .lastPurgedLogId (some logId)) := by
    simp only [appliedIndex, hsm, Nat.le_refl]
  refine ⟨⟨hi.move hindex happlied ?_, fun j _ => ?_⟩, Nat.zero_le _⟩
  · simp only [purgedIndex, StoreState.set_same, LogId.nextIndex]
    exact hs.trans hi.completed
  · exact ⟨hindex.ge, happlied, Nat.le_refl _, fun _ => hsm, fun _ h => ⟨h, hindex⟩⟩

end
end ConductorRs.MemoryRaftStore.SnapshotOrder

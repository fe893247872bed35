import ConductorRs.Metatheory.CommittedStates
import ConductorRs.Metatheory.Persisting

/-!
One node on the committed log, call by call.

Between its calls the memory and the file of a node hold the state machine after
the same prefix. Inside a call the memory may run ahead; at every moment of it, both
hold the state machine after a prefix that is not shorter than the one the call
began with.
-/
namespace ConductorRs.Replica
open Concurrency MemoryRaftStore

section
variable {T : TypeConfig} {Bytes : Type} (log : CommittedLog T) (codec : Codec T Bytes)

/-- The snapshot holds the state machine after some prefix, and says after which. -/
def Sourced (snapshot : UnsafeHeadSnapshot T Bytes) : Prop :=
  ∃ j, j ≤ log.entries.length ∧ snapshot.data = codec.sm (log.state j) ∧
    snapshot.snapshotMeta.lastLogId = (log.state j).lastAppliedLog

structure ImageAt (k : Nat) (image : PersistedRaftStore T Bytes) : Prop where
  sm : image.sm = log.state k
  snapshot : ∀ snapshot, image.currentSnapshot = some snapshot → Sourced log codec snapshot

structure MemoryAt (k : Nat) (s : StoreState T Bytes Unit) : Prop where
  bound : k ≤ log.entries.length
  sm : s.fields .sm = log.state k
  snapshot : ∀ snapshot, s.fields .currentSnapshot = some snapshot → Sourced log codec snapshot

def FileAt (k : Nat) (s : StoreState T Bytes Unit) : Prop :=
  ∃ image, s.file = some (codec.store image) ∧ ImageAt log codec k image

/-- At every moment of a call that began with prefix `k`, the memory and the file
hold state machines of prefixes that are not shorter. -/
structure Recoverable (k : Nat) (s : StoreState T Bytes Unit) : Prop where
  memory : ∃ j, k ≤ j ∧ MemoryAt log codec j s
  file : ∃ j, k ≤ j ∧ j ≤ log.entries.length ∧ FileAt log codec j s

def Free (k : Nat) (s : StoreState T Bytes Unit) : Prop :=
  MemoryAt log codec k s ∧ s.persistOwner = none

def Locked (k : Nat) (s : StoreState T Bytes Unit) : Prop :=
  MemoryAt log codec k s ∧ s.persistOwner = some ()

def Known (k : Nat) (image : PersistedRaftStore T Bytes) (s : StoreState T Bytes Unit) : Prop :=
  Locked log codec k s ∧ ImageAt log codec k image

def Written (k : Nat) (image : PersistedRaftStore T Bytes) (s : StoreState T Bytes Unit) : Prop :=
  Known log codec k image s ∧ s.tmp = some (codec.store image)

def Renamed (k : Nat) (s : StoreState T Bytes Unit) : Prop :=
  Locked log codec k s ∧ FileAt log codec k s

/-- Between calls. -/
def Settled (k : Nat) (s : StoreState T Bytes Unit) : Prop :=
  Free log codec k s ∧ FileAt log codec k s

def logic (base : Nat) : Logic (StoreOps T Bytes) (StoreState T Bytes Unit) :=
  crashLogic Cluster.perform (Recoverable log codec base)

variable {log codec} {base k : Nat} {s s' : StoreState T Bytes Unit}

theorem MemoryAt.same (h : MemoryAt log codec k s) (hfields : s'.fields = s.fields) :
    MemoryAt log codec k s' := by
  refine ⟨h.bound, ?_, ?_⟩
  · rw [hfields]
    exact h.sm
  · rw [hfields]
    exact h.snapshot

theorem FileAt.same (h : FileAt log codec k s) (hfile : s'.file = s.file) :
    FileAt log codec k s' := by
  obtain ⟨image, hencoded, hat⟩ := h
  exact ⟨image, hfile.trans hencoded, hat⟩

/-- A step that keeps the file, and the fields or the memory's place in the log. -/
theorem op_holds {o : StoreOp T Bytes} {A : StoreState T Bytes Unit → Prop}
    {Q : o.Reply → StoreState T Bytes Unit → Prop}
    (h : ∀ s x r s', A s → s.perform () o x = some (r, s') → s'.file = s.file ∧
      (s'.fields = s.fields ∨ ∃ j, base ≤ j ∧ MemoryAt log codec j s') ∧ Q r s') :
    (logic log codec base).Holds A (op o) Q := by
  refine crashLogic_call fun s x r s' hi hs hp => ?_
  obtain ⟨hfile, hmemory, hQ⟩ := h s x r s' hs hp
  refine ⟨⟨?_, ?_⟩, hQ⟩
  · rcases hmemory with hfields | hmoved
    · obtain ⟨j, hle, hat⟩ := hi.memory
      exact ⟨j, hle, hat.same hfields⟩
    · exact hmoved
  · obtain ⟨j, hle, hbound, hat⟩ := hi.file
    exact ⟨j, hle, hbound, hat.same hfile⟩

theorem read_holds (field : StoreField) {A : StoreState T Bytes Unit → Prop} :
    (logic log codec base).Holds A (op (.read field)) fun v s => A s ∧ v = s.fields field := by
  refine op_holds fun s x r s' hs hp => ?_
  cases hp
  exact ⟨rfl, .inl rfl, hs, rfl⟩

theorem readImage_holds :
    (logic log codec base).Holds (Locked log codec k) readImage (Known log codec k) := by
  have hread : ∀ (field : StoreField) {A : StoreState T Bytes Unit → Prop},
      (logic log codec base).Holds A (op (.read field)) fun _ => A :=
    fun field {A} => (logic log codec base).post (read_holds field) fun _ _ h => h.1
  have hsm : (logic log codec base).Holds (Locked log codec k) (op (.read .sm)) fun sm s =>
      Locked log codec k s ∧ sm = log.state k :=
    (logic log codec base).post (read_holds .sm) fun _ _ h => ⟨h.1, h.2.trans h.1.1.sm⟩
  refine (logic log codec base).bind (hread .lastPurgedLogId) fun lastPurgedLogId => ?_
  refine (logic log codec base).bind (hread .committed) fun committed => ?_
  refine (logic log codec base).bind (hread .log) fun entries => ?_
  refine (logic log codec base).bind (hread .vote) fun vote => ?_
  refine (logic log codec base).bind hsm fun sm => ?_
  refine (logic log codec base).bind (read_holds .currentSnapshot) fun currentSnapshot => ?_
  refine (logic log codec base).bind (hread .snapshotIdx) fun snapshotIdx => ?_
  refine (logic log codec base).done fun s _ h => ?_
  obtain ⟨⟨hlocked, hstate⟩, hcurrent⟩ := h
  refine ⟨hlocked, hstate, fun snapshot hsnapshot => ?_⟩
  exact hlocked.1.snapshot snapshot (hcurrent.symm.trans hsnapshot)

theorem file_holds {o : FileOp Bytes} (ho : o ≠ .rename) {A : StoreState T Bytes Unit → Prop}
    {Q : Except IoError Unit → StoreState T Bytes Unit → Prop}
    (h : ∀ s x r s', A s → s.performFile x o = some (r, s') → s'.fields = s.fields →
      s'.persistOwner = s.persistOwner → s'.file = s.file → Q r s') :
    (logic log codec base).Holds A (op (.file o)) Q := by
  refine op_holds fun s x r s' hs hp => ?_
  obtain ⟨hfields, howner⟩ := StoreState.performFile_frame hp
  have hfile := StoreState.performFile_file ho hp
  exact ⟨hfile, .inl hfields, h s x r s' hs hp hfields howner hfile⟩

theorem rename_holds (hbase : base ≤ k) (image : PersistedRaftStore T Bytes) :
    (logic log codec base).Holds (Written log codec k image) (op (.file .rename)) fun r s =>
      match r with
      | .ok _ => Renamed log codec k s
      | .error _ => Locked log codec k s := by
  refine crashLogic_call fun s x r s' hi hs hp => ?_
  obtain ⟨⟨hlocked, himage⟩, htmp⟩ := hs
  simp only [Cluster.perform, StoreState.perform, StoreState.performFile, htmp] at hp
  split at hp
  · next data _ hdata =>
      cases hdata
      cases hp
      have hmemory : MemoryAt log codec k
          { s with file := some (codec.store image), tmp := none } := hlocked.1.same rfl
      exact ⟨⟨⟨k, hbase, hmemory⟩, k, hbase, hlocked.1.bound, image, rfl, himage⟩,
        ⟨hmemory, hlocked.2⟩, image, rfl, himage⟩
  · next hnone => cases hnone
  · cases hp
    exact ⟨hi, hlocked⟩

theorem persisting (hbase : base ≤ k) :
    Persisting (logic log codec base) codec (Free log codec k) (Locked log codec k)
      (Known log codec k) (Written log codec k) (Renamed log codec k)
      (Settled log codec k) where
  lock := by
    refine op_holds fun s x r s' hs hp => ?_
    simp only [StoreState.perform, hs.2] at hp
    cases hp
    exact ⟨rfl, .inl rfl, hs.1.same rfl, rfl⟩
  read := readImage_holds
  prepare image o ho := by
    refine file_holds (by rcases ho with rfl | rfl | rfl <;> simp) ?_
    intro s x r s' hs _ hfields howner _
    exact ⟨⟨hs.1.1.same hfields, howner.trans hs.1.2⟩, hs.2⟩
  write image := by
    refine file_holds (by simp) fun s x r s' hs hp hfields howner _ => ?_
    have hlocked : Locked log codec k s' := ⟨hs.1.1.same hfields, howner.trans hs.1.2⟩
    simp only [StoreState.performFile] at hp
    split at hp
    · cases hp
      exact ⟨⟨hlocked, hs.2⟩, rfl⟩
    · cases hp
      exact hlocked
  flush image o ho := by
    refine file_holds (by rcases ho with rfl | rfl <;> simp) fun s x r s' hs hp _ _ _ => ?_
    rcases ho with rfl | rfl <;> cases hp <;> exact hs
  rename := rename_holds hbase
  sync o ho := by
    refine file_holds (by rcases ho with rfl | rfl <;> simp) fun s x r s' hs hp _ _ _ => ?_
    rcases ho with rfl | rfl <;> cases hp <;> exact hs
  unlock := by
    refine op_holds fun s x r s' hs hp => ?_
    simp only [StoreState.perform, hs.1.2, if_true] at hp
    cases hp
    exact ⟨rfl, .inl rfl, ⟨hs.1.1.same rfl, rfl⟩, hs.2.same rfl⟩
  abandon := by
    refine op_holds fun s x r s' hs hp => ?_
    simp only [StoreState.perform, hs.2, if_true] at hp
    cases hp
    exact ⟨rfl, .inl rfl, hs.1.same rfl, rfl⟩
  known_locked _ _ h := h.1
  written_locked _ _ h := h.1.1

theorem persistToDisk_holds (path : StorePath) (hbase : base ≤ k) :
    (logic log codec base).Holds (Free log codec k) (persistToDisk codec (some path))
      (Persisted (Free log codec k) (Settled log codec k)) :=
  (persisting hbase).persistToDisk_holds path

/-- A step after which the memory is at prefix `k'`. -/
theorem move_holds {k' : Nat} (hbase : base ≤ k') {o : StoreOp T Bytes}
    (h : ∀ s x r s', Free log codec k s → s.perform () o x = some (r, s') →
      s'.file = s.file ∧ s'.persistOwner = s.persistOwner ∧ MemoryAt log codec k' s') :
    (logic log codec base).Holds (Free log codec k) (op o) fun _ => Free log codec k' := by
  refine op_holds fun s x r s' hs hp => ?_
  obtain ⟨hfile, howner, hmemory⟩ := h s x r s' hs hp
  exact ⟨hfile, .inr ⟨k', hbase, hmemory⟩, hmemory, howner.trans hs.2⟩

/-- A step that changes a field other than the state machine and the snapshot. -/
theorem write_other (hbase : base ≤ k) {o : StoreOp T Bytes} {field : StoreField}
    (ho : o.target = some field) (hsm : field ≠ .sm) (hsnapshot : field ≠ .currentSnapshot) :
    (logic log codec base).Holds (Free log codec k) (op o) fun _ => Free log codec k := by
  refine move_holds hbase fun s x r s' hs hp => ?_
  rw [StoreState.perform_target ho hp]
  refine ⟨rfl, rfl, hs.1.bound, ?_, ?_⟩
  · rw [StoreState.set_of_ne _ _ hsm.symm]
    exact hs.1.sm
  · rw [StoreState.set_of_ne _ _ hsnapshot.symm]
    exact hs.1.snapshot

theorem write_snapshot (hbase : base ≤ k) {snapshot : UnsafeHeadSnapshot T Bytes}
    (h : Sourced log codec snapshot) :
    (logic log codec base).Holds (Free log codec k)
      (op (.write .currentSnapshot (some snapshot))) fun _ => Free log codec k := by
  refine move_holds hbase fun s x r s' hs hp => ?_
  cases hp
  refine ⟨rfl, rfl, hs.1.bound, ?_, ?_⟩
  · rw [StoreState.set_of_ne _ _ (by decide)]
    exact hs.1.sm
  · rw [StoreState.set_same]
    intro snapshot' hsnapshot
    cases hsnapshot
    exact h

end
end ConductorRs.Replica

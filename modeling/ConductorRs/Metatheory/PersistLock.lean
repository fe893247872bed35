import ConductorRs.Metatheory.Persisting

/-!
The persist lock, for outlines that see nothing of it but its owner.

`PersistLock` says that an outline protects the temporary file of the lock's
owner, and that taking and releasing the lock and preparing the temporary file
change nothing it speaks of. A task then persists under it as soon as it can
read an image and rename it into place.
-/
namespace ConductorRs.MemoryRaftStore
open Concurrency

section
variable {T : TypeConfig} {Bytes Tid H : Type}

/-- The steps of `persist_to_disk` that change neither a field nor the file. -/
def Preparing : StoreOp T Bytes → Prop
  | .lockPersist | .unlockPersist => True
  | .file o => o ≠ .rename
  | _ => False

structure PersistLock (watch : Watch T Bytes Tid H)
    (P : Outline Tid (StoreOps T Bytes) (Watched T Bytes Tid H)) : Prop where
  owner : ∀ {i s s'}, P.rely i s s' →
    (s'.store.persistOwner = some i ↔ s.store.persistOwner = some i)
  tmp : ∀ {i s s'}, P.rely i s s' → s.store.persistOwner = some i → s'.store.tmp = s.store.tmp
  inv : ∀ {s : Watched T Bytes Tid H} {store : StoreState T Bytes Tid}, P.inv s →
    store.fields = s.store.fields → store.file = s.store.file → P.inv ⟨store, s.hist⟩
  rely : ∀ {j} {s : Watched T Bytes Tid H} {store : StoreState T Bytes Tid},
    store.fields = s.store.fields →
    (store.persistOwner = some j ↔ s.store.persistOwner = some j) →
    (s.store.persistOwner = some j → store.tmp = s.store.tmp) → P.rely j s ⟨store, s.hist⟩
  quiet : ∀ {before after h i} (o : StoreOp T Bytes) {r : o.Reply}, Preparing o →
    watch.after before after h i o r = h
  failed : ∀ {before after h i err}, watch.after before after h i (.file .rename) (.error err) = h
  check : ∀ i s o, P.check i s o

def Unlocked (i : Tid) (s : Watched T Bytes Tid H) : Prop := s.store.persistOwner ≠ some i

def Locked (i : Tid) (s : Watched T Bytes Tid H) : Prop := s.store.persistOwner = some i

/-- The owner of the lock has read `image`; `facts` says what it knows of it. -/
def Known (facts : PersistedRaftStore T Bytes → H → Prop) (i : Tid)
    (image : PersistedRaftStore T Bytes) (s : Watched T Bytes Tid H) : Prop :=
  Locked i s ∧ facts image s.hist

def Written (codec : Codec T Bytes) (facts : PersistedRaftStore T Bytes → H → Prop) (i : Tid)
    (image : PersistedRaftStore T Bytes) (s : Watched T Bytes Tid H) : Prop :=
  Known facts i image s ∧ s.store.tmp = some (codec.store image)

def Renamed (saved : H → Prop) (i : Tid) (s : Watched T Bytes Tid H) : Prop :=
  Locked i s ∧ saved s.hist

def Done (saved : H → Prop) (i : Tid) (s : Watched T Bytes Tid H) : Prop :=
  Unlocked i s ∧ saved s.hist

namespace PersistLock
variable {watch : Watch T Bytes Tid H}
variable {P : Outline Tid (StoreOps T Bytes) (Watched T Bytes Tid H)}
variable (D : PersistLock watch P) {i : Tid}
include D

theorem unlocked_stable : P.Stable i (Unlocked i) := fun _ _ h hr _ hi => h ((D.owner hr).mp hi)

theorem locked_stable : P.Stable i (Locked i) := fun _ _ h hr _ => (D.owner hr).mpr h

variable {codec : Codec T Bytes} {facts : PersistedRaftStore T Bytes → H → Prop}
variable {saved : H → Prop}

theorem written_stable (hfacts : ∀ image, P.Stable i (Known facts i image))
    (image : PersistedRaftStore T Bytes) : P.Stable i (Written codec facts i image) :=
  fun s s' h hr hi => ⟨hfacts image s s' h.1 hr hi, (D.tmp hr h.1.1).trans h.2⟩

theorem renamed_stable (hsaved : P.Stable i fun s => saved s.hist) :
    P.Stable i (Renamed saved i) :=
  fun s s' h hr hi => ⟨D.locked_stable s s' h.1 hr hi, hsaved s s' h.2 hr hi⟩

theorem done_stable (hsaved : P.Stable i fun s => saved s.hist) : P.Stable i (Done saved i) :=
  fun s s' h hr hi => ⟨D.unlocked_stable s s' h.1 hr hi, hsaved s s' h.2 hr hi⟩

variable [DecidableEq Tid] {path : Option StorePath}
variable {π : Policy Tid (StoreOps T Bytes) (Watched T Bytes Tid H) (StoreCall T Bytes)
  (FileChoice Bytes) Empty}

theorem lock_holds :
    (machine codec path watch).Triple π P i (Unlocked i) (op .lockPersist)
      fun _ => Locked i := by
  refine triple_op D.unlocked_stable fun s hi _ => ⟨D.check _ _ _, fun x r store hp _ => ?_⟩
  rw [D.quiet .lockPersist trivial]
  simp only [StoreState.perform] at hp
  split at hp
  · next hnone =>
      cases hp
      refine ⟨⟨D.inv hi rfl rfl, fun j hj => D.rely rfl ?_ fun _ => rfl⟩, rfl⟩
      simp [hnone, hj.symm]
  · cases hp

theorem unlock_holds {A B : Watched T Bytes Tid H → Prop} (hA : P.Stable i A)
    (hlocked : ∀ s, A s → Locked i s)
    (hB : ∀ s, A s → B ⟨{ s.store with persistOwner := none }, s.hist⟩) :
    (machine codec path watch).Triple π P i A (op .unlockPersist) fun _ => B := by
  refine triple_op hA fun s hi hs => ⟨D.check _ _ _, fun x r store hp _ => ?_⟩
  have howner : s.store.persistOwner = some i := hlocked s hs
  rw [D.quiet .unlockPersist trivial]
  simp only [StoreState.perform, howner, if_true] at hp
  cases hp
  refine ⟨⟨D.inv hi rfl rfl, fun j hj => D.rely rfl ?_ fun _ => rfl⟩, hB s hs⟩
  simp [howner, hj.symm]

/-- The owner of the lock does as it likes with the temporary file. -/
theorem file_holds {o : FileOp Bytes} (ho : o ≠ .rename) {A : Watched T Bytes Tid H → Prop}
    (hA : P.Stable i A) (hlocked : ∀ s, A s → Locked i s)
    {Q : Except IoError Unit → Watched T Bytes Tid H → Prop}
    (hQ : ∀ s x r store, A s → s.store.performFile x o = some (r, store) →
      store.persistOwner = some i → Q r ⟨store, s.hist⟩) :
    (machine codec path watch).Triple π P i A (op (.file o)) Q := by
  refine triple_op hA fun s hi hs => ⟨D.check _ _ _, fun x r store hp _ => ?_⟩
  obtain ⟨hfields, howner⟩ := StoreState.performFile_frame hp
  have hlock : s.store.persistOwner = some i := hlocked s hs
  rw [D.quiet (.file o) ho]
  refine ⟨⟨D.inv hi hfields (StoreState.performFile_file ho hp), fun j hj => ?_⟩,
    hQ s x r store hs hp (howner.trans hlock)⟩
  refine D.rely hfields (by rw [howner]) fun h => ?_
  rw [hlock] at h
  exact absurd (Option.some.inj h).symm hj

theorem rename_holds (hfacts : ∀ image, P.Stable i (Known facts i image))
    (hrename : ∀ (s : Watched T Bytes Tid H) image store, P.inv s → Known facts i image s →
      store = { s.store with file := some (codec.store image), tmp := none } →
      P.Grants i s ⟨store, watch.after s.store store s.hist i (.file .rename) (.ok ())⟩ ∧
        saved (watch.after s.store store s.hist i (.file .rename) (.ok ())))
    (image : PersistedRaftStore T Bytes) :
    (machine codec path watch).Triple π P i (Written codec facts i image)
      (op (.file .rename)) fun r s => match r with
        | .ok _ => Renamed saved i s
        | .error _ => Locked i s := by
  refine triple_op (D.written_stable hfacts image) fun s hi hs =>
    ⟨D.check _ _ _, fun x r store hp _ => ?_⟩
  obtain ⟨hk, htmp⟩ := hs
  simp only [StoreState.perform, StoreState.performFile, htmp] at hp
  split at hp
  · next data _ hdata =>
      cases hdata
      cases hp
      obtain ⟨hgrants, hsaved⟩ := hrename s image _ hi hk rfl
      exact ⟨hgrants, hk.1, hsaved⟩
  · next hnone => cases hnone
  · cases hp
    rw [D.failed]
    exact ⟨⟨hi, fun j _ => D.rely rfl Iff.rfl fun _ => rfl⟩, hk.1⟩

/-- A task that reads images with `facts` and whose rename establishes `saved`
persists. -/
theorem persisting (hfacts : ∀ image, P.Stable i (Known facts i image))
    (hsaved : P.Stable i fun s => saved s.hist)
    (hread : (machine codec path watch).Triple π P i (Locked i) readImage (Known facts i))
    (hrename : ∀ (s : Watched T Bytes Tid H) image store, P.inv s → Known facts i image s →
      store = { s.store with file := some (codec.store image), tmp := none } →
      P.Grants i s ⟨store, watch.after s.store store s.hist i (.file .rename) (.ok ())⟩ ∧
        saved (watch.after s.store store s.hist i (.file .rename) (.ok ()))) :
    Persisting ((machine codec path watch).logic π P i) codec (Unlocked i) (Locked i)
      (Known facts i) (Written codec facts i) (Renamed saved i) (Done saved i) where
  lock := D.lock_holds
  read := hread
  prepare image o ho := by
    refine D.file_holds (by rcases ho with rfl | rfl | rfl <;> simp) (hfacts image)
      (fun s h => h.1) fun s x r store hs _ howner => ⟨howner, hs.2⟩
  write image := by
    refine D.file_holds (by simp) (hfacts image) (fun s h => h.1) ?_
    intro s x r store hs hp howner
    simp only [StoreState.performFile] at hp
    split at hp
    · cases hp
      exact ⟨hs, rfl⟩
    · cases hp
      exact hs.1
  flush image o ho := by
    refine D.file_holds (by rcases ho with rfl | rfl <;> simp) (D.written_stable hfacts image)
      (fun s h => h.1.1) fun s x r store hs hp _ => ?_
    rcases ho with rfl | rfl <;> cases hp <;> exact hs
  rename := D.rename_holds hfacts hrename
  sync o ho := by
    refine D.file_holds (by rcases ho with rfl | rfl <;> simp) (D.renamed_stable hsaved)
      (fun s h => h.1) fun s x r store hs hp _ => ?_
    rcases ho with rfl | rfl <;> cases hp <;> exact hs
  unlock := D.unlock_holds (D.renamed_stable hsaved) (fun s h => h.1)
    fun s h => ⟨by simp [Unlocked], h.2⟩
  abandon := D.unlock_holds D.locked_stable (fun s h => h) fun s _ => by simp [Unlocked]
  known_locked image s h := h.1
  written_locked image s h := h.1.1

end PersistLock
end
end ConductorRs.MemoryRaftStore

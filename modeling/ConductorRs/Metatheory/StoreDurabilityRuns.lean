import ConductorRs.Concurrency.Compose
import ConductorRs.Metatheory.StoreEffects

/-!
What is reported as durable is in the file: the programs and their runs.

Every call changes its fields first and persists afterwards, so the image that a
successful persist renames into place has the versions the call has written. A
persist that fails leaves the file as it was. Any number of tasks take part, and
any step of the file system may fail.
-/
namespace ConductorRs.MemoryRaftStore.Durable
open Concurrency Collections

section
variable {T : TypeConfig} {Bytes Tid : Type} [DecidableEq Tid]
variable {codec : Codec T Bytes} {path : StorePath} {i : Tid}

def logic (codec : Codec T Bytes) (path : StorePath) (i : Tid) :
    Logic (StoreOps T Bytes) (Sys T Bytes Tid) :=
  (machine codec (some path) watch).logic .any (outline codec) i

theorem rely_look {s : Sys T Bytes Tid} {field : StoreField} {j : Tid} (hj : j ≠ i) :
    Rely j s ⟨s.store, s.hist.look i field⟩ :=
  { Rely.refl j s with seen := by simp [Durability.look, hj] }

theorem sound_look {s : Sys T Bytes Tid} (hi : Sound codec s) (field : StoreField) :
    Sound codec ⟨s.store, s.hist.look i field⟩ :=
  hi.of_same ⟨rfl, rfl⟩ rfl rfl rfl (fun _ hp => .inl hp) fun _ _ hp => hp

theorem read_field (known : (field : StoreField) → Option (field.Val T Bytes))
    (field : StoreField) :
    (logic codec path i).Holds (Reading i known) (op (.read field)) fun v =>
      Reading i (Function.update known field (some v)) := by
  refine triple_op (reading_stable known) fun s hi hs => ⟨trivial, fun x r store hp _ => ?_⟩
  cases hp
  refine ⟨⟨sound_look hi field, fun j hj => rely_look hj⟩, hs.1, fun f v hv => ?_⟩
  by_cases hf : f = field
  · subst hf
    rw [Function.update_self] at hv
    cases hv
    have hseen : (s.hist.look i f).seen i f = (s.hist.values f).length - 1 := by
      simp [Durability.look]
    have hfile := version_lt hi f
    constructor
    · exact hseen ▸ latest_value hi.current f
    · exact hseen ▸ Nat.le_sub_one_of_lt hfile
    · intro n hn
      exact hseen ▸ Nat.le_sub_one_of_lt (hi.touched i (f, n) hn)
  · rw [Function.update_of_ne hf] at hv
    have hseen : (s.hist.look i field).seen i f = s.hist.seen i f := by
      simp [Durability.look, hf]
    obtain ⟨hvalue, hfile, hown⟩ := hs.2 f v hv
    exact ⟨hseen ▸ hvalue, hseen ▸ hfile, hseen ▸ hown⟩

theorem readImage_holds :
    (logic codec path i).Holds (Locked i) readImage (Known (Facts i) i) := by
  refine (logic codec path i).pre (B := Reading i fun _ => none)
    (fun s h => ⟨h, fun _ _ hv => by cases hv⟩) ?_
  refine (logic codec path i).bind (read_field _ .lastPurgedLogId) fun lastPurgedLogId => ?_
  refine (logic codec path i).bind (read_field _ .committed) fun committed => ?_
  refine (logic codec path i).bind (read_field _ .log) fun log => ?_
  refine (logic codec path i).bind (read_field _ .vote) fun vote => ?_
  refine (logic codec path i).bind (read_field _ .sm) fun sm => ?_
  refine (logic codec path i).bind (read_field _ .currentSnapshot) fun currentSnapshot => ?_
  refine (logic codec path i).bind (read_field _ .snapshotIdx) fun snapshotIdx => ?_
  refine (logic codec path i).done fun s _ h => ⟨h.1, fun field => h.2 field _ ?_⟩
  cases field <;> simp [PersistedRaftStore.get]

theorem persistToDisk_holds :
    (logic codec path i).Holds (Unlocked i) (persistToDisk codec (some path))
      (Persisted (Unlocked i) (Done (Saved i) i)) :=
  (persistLock.persisting known_stable saved_stable readImage_holds
    rename_image).persistToDisk_holds path

theorem change_field {o : StoreOp T Bytes} {field : StoreField} (ho : o.target = some field) :
    (logic codec path i).Holds (Unlocked i) (op o) fun _ => Unlocked i := by
  refine triple_op persistLock.unlocked_stable fun s hi hs => ⟨trivial, fun x r store hp _ => ?_⟩
  have hstore := StoreState.perform_target ho hp
  have hhist : watch.after s.store store s.hist i o r =
      s.hist.write i field (store.fields field) := after_target ho r
  rw [hhist, hstore, StoreState.set_same]
  refine ⟨⟨hi.write field _, fun j hj => ?_⟩, hs⟩
  refine { Rely.refl j s with touched := ?_, values := fun f => ?_ }
  · simp [Durability.write, hj]
  · exact s.hist.values_write i field _ f

theorem respond (responder : UnsafeHeadStateMachine.Responder)
    (response : RaftCommandResponse) :
    (logic codec path i).Holds (Done (Saved i) i) (op (.respond responder response))
      fun _ => Done (Saved i) i := by
  refine triple_op (persistLock.done_stable saved_stable) fun s hi hs => ⟨trivial, ?_⟩
  intro x r store hp _
  cases hp
  exact ⟨⟨sound_acknowledge hi hs.2 _, fun j _ => rely_acknowledge j s _⟩, hs⟩

theorem io_completed :
    (logic codec path i).Holds (Done (Saved i) i) (op (.ioCompleted (.ok ())))
      fun _ => Done (Saved i) i := by
  refine triple_op (persistLock.done_stable saved_stable) fun s hi hs => ⟨trivial, ?_⟩
  intro x r store hp _
  cases hp
  exact ⟨⟨sound_acknowledge hi hs.2 _, fun j _ => rely_acknowledge j s _⟩, hs⟩

theorem io_failed (err : IoError) :
    (logic codec path i).Holds (Unlocked i) (op (.ioCompleted (.error err)))
      fun _ => Unlocked i := by
  refine triple_op persistLock.unlocked_stable fun s hi hs => ⟨trivial, fun x r store hp _ => ?_⟩
  cases hp
  exact ⟨⟨hi, fun j _ => Rely.refl j s⟩, hs⟩

theorem read_free (field : StoreField) :
    (logic codec path i).Holds (Unlocked i) (op (.read field)) fun _ => Unlocked i := by
  refine triple_op persistLock.unlocked_stable fun s hi hs => ⟨trivial, fun x r store hp _ => ?_⟩
  cases hp
  exact ⟨⟨sound_look hi field, fun j hj => rely_look hj⟩, hs⟩

theorem buildSnapshot_holds :
    (logic codec path i).Holds (Unlocked i) (buildSnapshot codec (some path))
      (Persisted (Unlocked i) (Done (Saved i) i)) := by
  refine (logic codec path i).bind (read_free .sm) fun sm => ?_
  refine (logic codec path i).bind (change_field rfl) fun idx => ?_
  refine (logic codec path i).bind (change_field rfl) fun _ => ?_
  refine (logic codec path i).bind persistToDisk_holds fun r => ?_
  cases r with
  | ok u => exact (logic codec path i).done fun _ _ h => h
  | error err => exact (logic codec path i).done fun _ _ h => h

theorem installSnapshot_holds (snapshotMeta : SnapshotMeta T) (data : Bytes) :
    (logic codec path i).Holds (Unlocked i)
      (installSnapshot codec (some path) snapshotMeta data)
      (Persisted (Unlocked i) (Done (Saved i) i)) := by
  unfold installSnapshot
  split
  · exact (logic codec path i).done fun _ _ h => h
  · refine (logic codec path i).bind (change_field rfl) fun _ => ?_
    exact (logic codec path i).bind (change_field rfl) fun _ => persistToDisk_holds

theorem body_holds (call : StoreCall T Bytes) :
    (logic codec path i).Holds (Unlocked i) (body codec (some path) call)
      (Persisted (Unlocked i) (Done (Saved i) i)) := by
  have hwrite : ∀ {o : StoreOp T Bytes} {field : StoreField}, o.target = some field →
      (logic codec path i).Holds (Unlocked i)
        ((op o).bind fun _ => persistToDisk codec (some path))
        (Persisted (Unlocked i) (Done (Saved i) i)) :=
    fun ho => (logic codec path i).bind (change_field ho) fun _ => persistToDisk_holds
  cases call with
  | saveVote vote => exact noSnapshot_persisted (hwrite rfl)
  | saveCommitted committed => exact noSnapshot_persisted (hwrite rfl)
  | append entries =>
      exact noSnapshot_persisted
        (append_persisted (change_field rfl) persistToDisk_holds io_completed io_failed)
  | truncateAfter lastLogId => exact noSnapshot_persisted (hwrite rfl)
  | purge logId =>
      exact noSnapshot_persisted ((logic codec path i).bind (change_field rfl) fun _ => hwrite rfl)
  | buildSnapshot =>
      refine (logic codec path i).bind buildSnapshot_holds fun r => ?_
      cases r <;> exact (logic codec path i).done fun _ _ h => h
  | apply entries =>
      exact noSnapshot_persisted
        (apply_persisted (change_field rfl) persistToDisk_holds respond)
  | installSnapshot snapshotMeta data =>
      exact noSnapshot_persisted (installSnapshot_holds snapshotMeta data)

theorem verified (codec : Codec T Bytes) (path : StorePath) :
    (machine codec (some path) (watch : Watch T Bytes Tid _)).Verified .any
      ((outline codec).and (effects codec)) := by
  refine Machine.verified_of_calls (coherent.and effects_coherent)
    (A := fun i call s => Unlocked i s ∧ Told i call s)
    (Q := fun i call out s => Persisted (Unlocked i) (Done (Saved i) i) out s ∧
      Fulfilled codec i call out s) ?_ ?_
    (fun i call => (body_holds call).and (body_fulfils call)) ?_ fun s e => e.elim
  · intro i call out s s' hs hr hi
    refine ⟨?_, fulfilled_stable call out s s' hs.2 hr.2 hi.2⟩
    cases out with
    | ok r => exact persistLock.done_stable saved_stable s s' hs.1 hr.1 hi.1
    | error err => exact persistLock.unlocked_stable s s' hs.1 hr.1 hi.1
  · intro s i call s' hi hidle he _
    cases he
    refine ⟨Outline.Grants.and ⟨hi.1.of_same ⟨rfl, rfl⟩ rfl rfl rfl (fun _ hp => .inl hp) ?_,
      fun j hj => ?_⟩ ⟨⟨hi.2.current, hi.2.shown⟩, fun j hj => ?_⟩, hidle.1, ?_⟩
    · intro j p hp
      by_cases hj : j = i
      · subst hj
        simp [watch] at hp
      · simpa [watch, hj] using hp
    · exact { Rely.refl j s with touched := by simp [watch, hj] }
    · exact { Undisturbed.refl j s with
        call := by simp [watch, hj]
        touched := by simp [watch, hj] }
    · simp [Told, watch]
  · intro s i call out hi hs
    cases out with
    | ok r =>
        exact ⟨Outline.Grants.and
          ⟨sound_acknowledge hi.1 hs.1.2 _, fun j _ => rely_acknowledge j s _⟩
          (grants_acknowledge hi.2 hs.2), hs.1.1, trivial⟩
    | error err =>
        exact ⟨Outline.Grants.and ⟨hi.1, fun j _ => Rely.refl j s⟩
          ⟨hi.2, fun j _ => Undisturbed.refl j s⟩, hs.1, trivial⟩

end

end ConductorRs.MemoryRaftStore.Durable

import Mathlib.Order.Basic
import ConductorRs.Metatheory.PersistLock

/-!
What the file of a store holds, while any number of tasks use it.

The history of a run numbers the values of each field. It records which version
of each field a task has read last, which versions a call has written, what has
been reported as durable and with which versions, and which versions the file
holds and has held. Nothing in the code reads it. The persist lock is held from
the first read of an image to the rename, so an image is at least as new as the
file it replaces.
-/
namespace ConductorRs.MemoryRaftStore.Durable
open Concurrency

/-- A call is reported as done by its return, by the completed callback of an
append, or by a response to the client of an applied entry. -/
inductive Notice (T : TypeConfig) (Bytes : Type) where
  | returned (snapshot : Option (UnsafeHeadSnapshot T Bytes))
  | completed
  | answered (responder : UnsafeHeadStateMachine.Responder) (response : RaftCommandResponse)

structure Durability (T : TypeConfig) (Bytes Tid : Type) where
  values : (field : StoreField) → List (field.Val T Bytes)
  seen : Tid → StoreField → Nat
  call : Tid → Option (StoreCall T Bytes)
  touched : Tid → List (StoreField × Nat)
  reports : List (StoreCall T Bytes × Notice T Bytes)
  acked : List (StoreField × Nat)
  fileVersion : StoreField → Nat
  replaced : List (StoreField → Nat)

namespace Durability
variable {T : TypeConfig} {Bytes Tid : Type} [DecidableEq Tid]

def write (h : Durability T Bytes Tid) (i : Tid) (field : StoreField)
    (value : field.Val T Bytes) : Durability T Bytes Tid :=
  { h with
    values := Function.update h.values field (h.values field ++ [value])
    touched := Function.update h.touched i
      ((field, (h.values field).length) :: h.touched i) }

def look (h : Durability T Bytes Tid) (i : Tid) (field : StoreField) :
    Durability T Bytes Tid :=
  { h with
    seen := Function.update h.seen i
      (Function.update (h.seen i) field ((h.values field).length - 1)) }

def replace (h : Durability T Bytes Tid) (i : Tid) : Durability T Bytes Tid :=
  { h with fileVersion := h.seen i, replaced := h.fileVersion :: h.replaced }

def acknowledge (h : Durability T Bytes Tid) (i : Tid) (notice : Notice T Bytes) :
    Durability T Bytes Tid :=
  { h with
    reports := (h.call i).toList.map (fun call => (call, notice)) ++ h.reports
    acked := h.touched i ++ h.acked }

def after (h : Durability T Bytes Tid) (i : Tid) (store : StoreState T Bytes Tid) :
    (op : StoreOp T Bytes) → op.Reply → Durability T Bytes Tid
  | .read field, _ => h.look i field
  | .file .rename, .ok _ => h.replace i
  | .respond responder response, _ => h.acknowledge i (.answered responder response)
  | .ioCompleted (.ok _), _ => h.acknowledge i .completed
  | op, _ =>
      match op.target with
      | some field => h.write i field (store.fields field)
      | none => h

end Durability

def watch {T : TypeConfig} {Bytes Tid : Type} [DecidableEq Tid] :
    Watch T Bytes Tid (Durability T Bytes Tid) where
  begin _ h i call :=
    { h with
      call := Function.update h.call i (some call)
      touched := Function.update h.touched i [] }
  after _ store h i op reply := h.after i store op reply
  finish _ h i _ out :=
    match out with
    | .ok snapshot => h.acknowledge i (.returned snapshot)
    | .error _ => h

abbrev Sys (T : TypeConfig) (Bytes Tid : Type) :=
  Watched T Bytes Tid (Durability T Bytes Tid)

/-- A store that has just been opened from an image. -/
def initial {T : TypeConfig} {Bytes Tid : Type} (codec : Codec T Bytes)
    (image : PersistedRaftStore T Bytes) : Sys T Bytes Tid where
  store := .opened codec image
  hist := ⟨fun field => [image.get field], fun _ _ => 0, fun _ => none, fun _ => [], [], [],
    fun _ => 0, []⟩

section
variable {T : TypeConfig} {Bytes Tid : Type}

/-- The file holds `image`, which consists of the recorded versions. -/
structure Holds (codec : Codec T Bytes) (s : Sys T Bytes Tid)
    (image : PersistedRaftStore T Bytes) : Prop where
  encoded : s.store.file = some (codec.store image)
  versions : ∀ field, (s.hist.values field)[s.hist.fileVersion field]? = some (image.get field)

/-- The last version of a field is its value. -/
def Current (s : Sys T Bytes Tid) : Prop :=
  ∀ field, (s.hist.values field).getLast? = some (s.store.fields field)

structure Sound (codec : Codec T Bytes) (s : Sys T Bytes Tid) : Prop where
  current : Current s
  file : ∃ image, Holds codec s image
  acked : ∀ p ∈ s.hist.acked, p.2 ≤ s.hist.fileVersion p.1
  ordered : (s.hist.fileVersion :: s.hist.replaced).Pairwise fun newer older => older ≤ newer
  touched : ∀ i, ∀ p ∈ s.hist.touched i, p.2 < (s.hist.values p.1).length

structure Rely (i : Tid) (s s' : Sys T Bytes Tid) : Prop where
  owner : s'.store.persistOwner = some i ↔ s.store.persistOwner = some i
  seen : s'.hist.seen i = s.hist.seen i
  touched : s'.hist.touched i = s.hist.touched i
  values : ∀ field, s.hist.values field <+: s'.hist.values field
  file : s.hist.fileVersion ≤ s'.hist.fileVersion
  locked : s.store.persistOwner = some i →
    s'.store.tmp = s.store.tmp ∧ s'.hist.fileVersion = s.hist.fileVersion

def outline (codec : Codec T Bytes) : Outline Tid (StoreOps T Bytes) (Sys T Bytes Tid) where
  inv := Sound codec
  rely := Rely
  idle i s := s.store.persistOwner ≠ some i
  check _ _ _ := True

variable {codec : Codec T Bytes}

theorem Rely.refl (i : Tid) (s : Sys T Bytes Tid) : Rely i s s where
  owner := Iff.rfl
  seen := rfl
  touched := rfl
  values _ := List.prefix_refl _
  file := le_refl _
  locked _ := ⟨rfl, rfl⟩

theorem Rely.trans {i : Tid} {s s' s'' : Sys T Bytes Tid} (h : Rely i s s')
    (h' : Rely i s' s'') : Rely i s s'' where
  owner := h'.owner.trans h.owner
  seen := h'.seen.trans h.seen
  touched := h'.touched.trans h.touched
  values field := (h.values field).trans (h'.values field)
  file := h.file.trans h'.file
  locked hi := by
    obtain ⟨ht, hf⟩ := h.locked hi
    obtain ⟨ht', hf'⟩ := h'.locked (h.owner.mpr hi)
    exact ⟨ht'.trans ht, hf'.trans hf⟩

theorem coherent : (outline codec : Outline Tid _ _).Coherent where
  refl := Rely.refl
  trans _ {_ _ _} h h' := h.trans h'
  idle _ {_ _} h hr _ := fun hi => h (hr.owner.mp hi)

/-- The task has read version `seen` of a field, with value `v`. It is at least as
new as the file and as the task's own writes. -/
structure Seen (i : Tid) (field : StoreField) (v : field.Val T Bytes)
    (h : Durability T Bytes Tid) : Prop where
  value : (h.values field)[h.seen i field]? = some v
  file : h.fileVersion field ≤ h.seen i field
  own : ∀ n, (field, n) ∈ h.touched i → n ≤ h.seen i field

/-- The fields read so far. -/
def Reading (i : Tid) (known : (field : StoreField) → Option (field.Val T Bytes))
    (s : Sys T Bytes Tid) : Prop :=
  Locked i s ∧ ∀ field v, known field = some v → Seen i field v s.hist

def Facts (i : Tid) (image : PersistedRaftStore T Bytes) (h : Durability T Bytes Tid) : Prop :=
  ∀ field, Seen i field (image.get field) h

/-- The file has everything the call has written. -/
def Saved (i : Tid) (h : Durability T Bytes Tid) : Prop :=
  ∀ p ∈ h.touched i, p.2 ≤ h.fileVersion p.1

variable {i : Tid}

theorem getElem?_of_prefix {α : Type} {l l' : List α} (h : l <+: l') {n : Nat} {v : α}
    (hv : l[n]? = some v) : l'[n]? = some v := by
  obtain ⟨t, rfl⟩ := h
  obtain ⟨hn, -⟩ := List.getElem?_eq_some_iff.mp hv
  rw [List.getElem?_append_left hn]
  exact hv

theorem Seen.stable {s s' : Sys T Bytes Tid} {field : StoreField} {v : field.Val T Bytes}
    (h : Seen i field v s.hist) (hl : Locked i s) (hr : Rely i s s') :
    Seen i field v s'.hist := by
  obtain ⟨-, hfile⟩ := hr.locked hl
  constructor
  · rw [hr.seen]
    exact getElem?_of_prefix (hr.values field) h.value
  · rw [hfile, hr.seen]
    exact h.file
  · rw [hr.touched, hr.seen]
    exact h.own

theorem reading_stable (known : (field : StoreField) → Option (field.Val T Bytes)) :
    (outline codec).Stable i (Reading i known) :=
  fun _ _ h hr _ => ⟨hr.owner.mpr h.1, fun field v hv => (h.2 field v hv).stable h.1 hr⟩

theorem known_stable (image : PersistedRaftStore T Bytes) :
    (outline codec).Stable i (Known (Facts i) i image) :=
  fun _ _ h hr _ => ⟨hr.owner.mpr h.1, fun field => (h.2 field).stable h.1 hr⟩

theorem saved_stable : (outline codec).Stable i fun s => Saved i s.hist := by
  intro s s' h hr _ p hp
  rw [hr.touched] at hp
  exact (h p hp).trans (hr.file p.1)

/-- Sound states differ freely in what the file does not depend on. -/
theorem Sound.of_same {s s' : Sys T Bytes Tid} (hi : Sound codec s)
    (hstore : s'.store.fields = s.store.fields ∧ s'.store.file = s.store.file)
    (hvalues : s'.hist.values = s.hist.values)
    (hversion : s'.hist.fileVersion = s.hist.fileVersion)
    (hreplaced : s'.hist.replaced = s.hist.replaced)
    (hacked : ∀ p ∈ s'.hist.acked, p ∈ s.hist.acked ∨ p.2 ≤ s.hist.fileVersion p.1)
    (htouched : ∀ j, ∀ p ∈ s'.hist.touched j, p ∈ s.hist.touched j) : Sound codec s' := by
  obtain ⟨image, himage⟩ := hi.file
  constructor
  · intro field
    rw [hvalues, hstore.1]
    exact hi.current field
  · refine ⟨image, hstore.2.trans himage.encoded, fun field => ?_⟩
    rw [hvalues, hversion]
    exact himage.versions field
  · intro p hp
    rw [hversion]
    exact (hacked p hp).elim (hi.acked p) id
  · rw [hversion, hreplaced]
    exact hi.ordered
  · intro j p hp
    rw [hvalues]
    exact hi.touched j p (htouched j p hp)

theorem version_lt {s : Sys T Bytes Tid} (hi : Sound codec s) (field : StoreField) :
    s.hist.fileVersion field < (s.hist.values field).length := by
  obtain ⟨image, himage⟩ := hi.file
  exact (List.getElem?_eq_some_iff.mp (himage.versions field)).1

theorem latest_value {s : Sys T Bytes Tid} (h : Current s) (field : StoreField) :
    (s.hist.values field)[(s.hist.values field).length - 1]? = some (s.store.fields field) := by
  rw [← List.getLast?_eq_getElem?]
  exact h field

theorem Sound.replace {s : Sys T Bytes Tid} (hi : Sound codec s)
    {image : PersistedRaftStore T Bytes} (hk : Facts i image s.hist) :
    Sound codec
      ⟨{ s.store with file := some (codec.store image), tmp := none }, s.hist.replace i⟩ := by
  have hle : s.hist.fileVersion ≤ s.hist.seen i := fun field => (hk field).file
  constructor
  · exact hi.current
  · exact ⟨image, rfl, fun field => (hk field).value⟩
  · exact fun p hp => (hi.acked p hp).trans (hle p.1)
  · refine List.pairwise_cons.mpr ⟨fun older h => ?_, hi.ordered⟩
    obtain rfl | h := List.mem_cons.mp h
    · exact hle
    · exact ((List.pairwise_cons.mp hi.ordered).1 older h).trans hle
  · exact hi.touched

theorem rely_acknowledge (j : Tid) (s : Sys T Bytes Tid) (notice : Notice T Bytes) :
    Rely j s ⟨s.store, s.hist.acknowledge i notice⟩ :=
  { Rely.refl j s with }

theorem sound_acknowledge {s : Sys T Bytes Tid} (hi : Sound codec s) (h : Saved i s.hist)
    (notice : Notice T Bytes) : Sound codec ⟨s.store, s.hist.acknowledge i notice⟩ := by
  refine hi.of_same ⟨rfl, rfl⟩ rfl rfl rfl (fun p hp => ?_) fun _ _ hp => hp
  obtain hp | hp := List.mem_append.mp hp
  · exact .inr (h p hp)
  · exact .inl hp

theorem rename_image (s : Sys T Bytes Tid) (image : PersistedRaftStore T Bytes)
    (store : StoreState T Bytes Tid) (hi : Sound codec s) (hk : Known (Facts i) i image s)
    (hstore : store = { s.store with file := some (codec.store image), tmp := none }) :
    (outline codec).Grants i s ⟨store, s.hist.replace i⟩ ∧ Saved i (s.hist.replace i) := by
  subst hstore
  have hlock : s.store.persistOwner = some i := hk.1
  refine ⟨⟨hi.replace hk.2, fun j hj => ?_⟩, fun p hp => (hk.2 p.1).own p.2 hp⟩
  exact { Rely.refl j s with
    file := fun field => (hk.2 field).file
    locked := fun h => absurd (hlock.symm.trans h) (by simp [hj.symm]) }

variable [DecidableEq Tid]

theorem after_target {h : Durability T Bytes Tid} {store : StoreState T Bytes Tid}
    {o : StoreOp T Bytes} {field : StoreField} (ht : o.target = some field) (r : o.Reply) :
    h.after i store o r = h.write i field (store.fields field) := by
  cases o with
  | write _ _ | insertLog _ | removeLogFrom _ | removeLogUpTo _ | applySm _
  | nextSnapshotIdx => cases ht; rfl
  | _ => cases ht

theorem Durability.values_write (h : Durability T Bytes Tid) (i : Tid) (field : StoreField)
    (v : field.Val T Bytes) (f : StoreField) : h.values f <+: (h.write i field v).values f := by
  by_cases hf : f = field
  · subst hf
    simp [Durability.write]
  · simp [Durability.write, hf]

theorem persistLock : PersistLock (watch : Watch T Bytes Tid _) (outline codec) where
  owner hr := hr.owner
  tmp hr hl := (hr.locked hl).1
  inv hi hfields hfile :=
    hi.of_same ⟨hfields, hfile⟩ rfl rfl rfl (fun _ hp => .inl hp) fun _ _ hp => hp
  rely {j s _} _ howner htmp :=
    { Rely.refl j s with owner := howner, locked := fun hl => ⟨htmp hl, rfl⟩ }
  quiet o r ho := by
    cases o with
    | lockPersist | unlockPersist => rfl
    | file o =>
        cases o with
        | rename => exact absurd rfl ho
        | _ => rfl
    | _ => cases ho
  failed := rfl
  check _ _ _ := trivial

theorem Current.write {s : Sys T Bytes Tid} (h : Current s) (field : StoreField)
    (v : field.Val T Bytes) : Current ⟨s.store.set field v, s.hist.write i field v⟩ := by
  intro f
  by_cases hf : f = field
  · subst hf
    simp [Durability.write]
  · rw [StoreState.set_of_ne _ _ hf]
    simpa [Durability.write, hf] using h f

theorem Sound.write {s : Sys T Bytes Tid} (hi : Sound codec s) (field : StoreField)
    (v : field.Val T Bytes) :
    Sound codec ⟨s.store.set field v, s.hist.write i field v⟩ := by
  obtain ⟨image, himage⟩ := hi.file
  have hgrow := s.hist.values_write i field v
  constructor
  · exact hi.current.write field v
  · exact ⟨image, himage.encoded, fun f => getElem?_of_prefix (hgrow f) (himage.versions f)⟩
  · exact hi.acked
  · exact hi.ordered
  · intro j p hp
    have hold : ∀ p ∈ s.hist.touched j, p.2 < ((s.hist.write i field v).values p.1).length :=
      fun p hp => (hi.touched j p hp).trans_le (hgrow p.1).length_le
    by_cases hj : j = i
    · subst hj
      simp only [Durability.write, Function.update_self, List.mem_cons] at hp
      obtain rfl | hp := hp
      · simp [Durability.write]
      · exact hold p hp
    · simp only [Durability.write, Function.update_of_ne hj] at hp
      exact hold p hp

end
end ConductorRs.MemoryRaftStore.Durable

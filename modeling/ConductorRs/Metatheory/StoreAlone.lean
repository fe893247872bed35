import ConductorRs.Metatheory.StoreMemory

/-!
A store that runs alone.

Every call changes the memory first and then writes all of it out. So a call that
succeeds leaves a file that holds the memory, one that fails leaves the file as it
was, and wherever a call is cut the file is one of the two.
-/
namespace ConductorRs
open Concurrency Collections

section
variable {T : TypeConfig} {Bytes : Type}

def StoreFields.image (f : StoreFields T Bytes) : PersistedRaftStore T Bytes :=
  ⟨f .lastPurgedLogId, f .committed, f .log, f .vote, f .sm, f .currentSnapshot,
    f .snapshotIdx⟩

theorem StoreFields.get_image (f : StoreFields T Bytes) : f.image.get = f := by
  funext field
  cases field <;> rfl

end

namespace MemoryRaftStore.Alone

section
variable {T : TypeConfig} {Bytes : Type}

def At (f : StoreFields T Bytes) (owner : Option Unit) (file : Option Bytes)
    (s : StoreState T Bytes Unit) : Prop :=
  s.fields = f ∧ s.persistOwner = owner ∧ s.file = file

variable (codec : Codec T Bytes) (f : StoreFields T Bytes) (file : Option Bytes)

/-- A file that holds the memory. -/
def saved : Option Bytes := some (codec.store f.image)

/-- A call that began with this file and ends with this memory. -/
def logic : Logic (StoreOps T Bytes) (StoreState T Bytes Unit) :=
  crashLogic Cluster.perform fun s => s.file = file ∨ s.file = saved codec f

def Known (image : PersistedRaftStore T Bytes) (s : StoreState T Bytes Unit) : Prop :=
  At f (some ()) file s ∧ image = f.image

def Written (image : PersistedRaftStore T Bytes) (s : StoreState T Bytes Unit) : Prop :=
  Known f file image s ∧ s.tmp = some (codec.store image)

variable {codec f file} {g g' : StoreFields T Bytes} {owner owner' : Option Unit}

/-- A step that leaves the file alone. -/
theorem op_holds {o : StoreOp T Bytes} {A : StoreState T Bytes Unit → Prop}
    {Q : o.Reply → StoreState T Bytes Unit → Prop}
    (h : ∀ s x r s', A s → s.perform () o x = some (r, s') → s'.file = s.file ∧ Q r s') :
    (logic codec f file).Holds A (op o) Q := by
  refine crashLogic_call fun s x r s' hi hs hp => ?_
  obtain ⟨hfile, hQ⟩ := h s x r s' hs hp
  refine ⟨?_, hQ⟩
  rw [hfile]
  exact hi

theorem read_holds (field : StoreField) {A : StoreState T Bytes Unit → Prop}
    (hA : ∀ s, A s → s.fields = g) :
    (logic codec f file).Holds A (op (.read field)) fun v s => v = g field ∧ A s := by
  refine op_holds fun s x r s' hs hp => ?_
  cases hp
  refine ⟨rfl, ?_, hs⟩
  rw [hA s hs]

theorem readImage_holds :
    (logic codec f file).Holds (At f (some ()) file) readImage (Known f file) := by
  have hread : ∀ field, (logic codec f file).Holds (At f (some ()) file) (op (.read field))
      fun v s => v = f field ∧ At f (some ()) file s := fun field => read_holds field fun _ h => h.1
  refine (logic codec f file).bind (hread .lastPurgedLogId) fun lastPurgedLogId =>
    crashLogic_fact fun h₁ => ?_
  refine (logic codec f file).bind (hread .committed) fun committed => crashLogic_fact fun h₂ => ?_
  refine (logic codec f file).bind (hread .log) fun log => crashLogic_fact fun h₃ => ?_
  refine (logic codec f file).bind (hread .vote) fun vote => crashLogic_fact fun h₄ => ?_
  refine (logic codec f file).bind (hread .sm) fun sm => crashLogic_fact fun h₅ => ?_
  refine (logic codec f file).bind (hread .currentSnapshot) fun currentSnapshot =>
    crashLogic_fact fun h₆ => ?_
  refine (logic codec f file).bind (hread .snapshotIdx) fun snapshotIdx =>
    crashLogic_fact fun h₇ => ?_
  refine (logic codec f file).done fun s _ h => ⟨h, ?_⟩
  rw [h₁, h₂, h₃, h₄, h₅, h₆, h₇]
  rfl

theorem file_holds {o : FileOp Bytes} (ho : o ≠ .rename) {A : StoreState T Bytes Unit → Prop}
    {Q : Except IoError Unit → StoreState T Bytes Unit → Prop}
    (h : ∀ s x r s', A s → s.performFile x o = some (r, s') → s'.fields = s.fields →
      s'.persistOwner = s.persistOwner → s'.file = s.file → Q r s') :
    (logic codec f file).Holds A (op (.file o)) Q := by
  refine op_holds fun s x r s' hs hp => ?_
  obtain ⟨hfields, howner⟩ := StoreState.performFile_frame hp
  have hfile := StoreState.performFile_file ho hp
  exact ⟨hfile, h s x r s' hs hp hfields howner hfile⟩

theorem At.same {s s' : StoreState T Bytes Unit} (h : At g owner file s)
    (hfields : s'.fields = s.fields) (howner : s'.persistOwner = s.persistOwner)
    (hfile : s'.file = s.file) : At g owner file s' :=
  ⟨hfields.trans h.1, howner.trans h.2.1, hfile.trans h.2.2⟩

theorem rename_holds (image : PersistedRaftStore T Bytes) :
    (logic codec f file).Holds (Written codec f file image) (op (.file .rename)) fun r s =>
      match r with
      | .ok _ => At f (some ()) (saved codec f) s
      | .error _ => At f (some ()) file s := by
  refine crashLogic_call fun s x r s' hi hs hp => ?_
  obtain ⟨⟨hat, rfl⟩, htmp⟩ := hs
  simp only [Cluster.perform, StoreState.perform, StoreState.performFile, htmp] at hp
  split at hp
  · next data _ hdata =>
      cases hdata
      cases hp
      exact ⟨.inr rfl, hat.1, hat.2.1, rfl⟩
  · next hnone => cases hnone
  · cases hp
    exact ⟨hi, hat⟩

theorem persisting :
    Persisting (logic codec f file) codec (At f none file) (At f (some ()) file)
      (Known f file) (Written codec f file) (At f (some ()) (saved codec f))
      (At f none (saved codec f)) where
  lock := by
    refine op_holds fun s x r s' hs hp => ?_
    simp only [StoreState.perform, hs.2.1] at hp
    cases hp
    exact ⟨rfl, hs.1, rfl, hs.2.2⟩
  read := readImage_holds
  prepare image o ho := by
    refine file_holds (by rcases ho with rfl | rfl | rfl <;> simp) ?_
    intro s x r s' hs _ hfields howner hfile
    exact ⟨hs.1.same hfields howner hfile, hs.2⟩
  write image := by
    refine file_holds (by simp) fun s x r s' hs hp hfields howner hfile => ?_
    have hat := hs.1.same hfields howner hfile
    simp only [StoreState.performFile] at hp
    split at hp
    · cases hp
      exact ⟨⟨hat, hs.2⟩, rfl⟩
    · cases hp
      exact hat
  flush image o ho := by
    refine file_holds (by rcases ho with rfl | rfl <;> simp) fun s x r s' hs hp _ _ _ => ?_
    rcases ho with rfl | rfl <;> cases hp <;> exact hs
  rename := rename_holds
  sync o ho := by
    refine file_holds (by rcases ho with rfl | rfl <;> simp) fun s x r s' hs hp _ _ _ => ?_
    rcases ho with rfl | rfl <;> cases hp <;> exact hs
  unlock := by
    refine op_holds fun s x r s' hs hp => ?_
    simp only [StoreState.perform, hs.2.1, if_true] at hp
    cases hp
    exact ⟨rfl, hs.1, rfl, hs.2.2⟩
  abandon := by
    refine op_holds fun s x r s' hs hp => ?_
    simp only [StoreState.perform, hs.2.1, if_true] at hp
    cases hp
    exact ⟨rfl, hs.1, rfl, hs.2.2⟩
  known_locked _ _ h := h.1
  written_locked _ _ h := h.1.1

variable {path : StorePath}

/-- From the memory `g` and the file, the task leads to the memory `f`: with a file
that holds it if the task succeeds, and with the old file if it fails. -/
def Leads (codec : Codec T Bytes) (file : Option Bytes) (g f : StoreFields T Bytes) {α : Type}
    (t : Task (StoreOps T Bytes) (Except IoError α)) : Prop :=
  (logic codec f file).Holds (At g none file) t
    (Persisted (At f none file) (At f none (saved codec f)))

theorem persistToDisk_leads : Leads codec file f f (persistToDisk codec (some path)) :=
  persisting.persistToDisk_holds path

theorem remembers : Remembers (fun s => s.file = file ∨ s.file = saved codec f)
    fun g : StoreFields T Bytes => At g none file where
  fields _ _ h := h.1
  move _ _ _ h howner hfile := ⟨rfl, howner.trans h.2.1, hfile.trans h.2.2⟩
  inv _ _ h hfile := by
    rw [hfile]
    exact h

theorem body_leads (call : StoreCall T Bytes) :
    Leads codec file g (call.memory codec g) (body codec (some path) call) :=
  remembers.body_holds persistToDisk_leads

variable {s t : StoreState T Bytes Unit} {call : StoreCall T Bytes}

theorem runs_ok (hs : s.persistOwner = none) {out : Option (UnsafeHeadSnapshot T Bytes)}
    (h : Runs Cluster.perform (body codec (some path) call) s (.ok out) t) :
    At (call.memory codec s.fields) none (saved codec (call.memory codec s.fields)) t :=
  (body_leads call s (.inl rfl) ⟨rfl, hs, rfl⟩).2 _ t h

theorem runs_error (hs : s.persistOwner = none) {err : IoError}
    (h : Runs Cluster.perform (body codec (some path) call) s (.error err) t) :
    At (call.memory codec s.fields) none s.file t :=
  (body_leads call s (.inl rfl) ⟨rfl, hs, rfl⟩).2 _ t h

theorem cut_file (hs : s.persistOwner = none)
    (h : Cut Cluster.perform (body codec (some path) call) s t) :
    t.file = s.file ∨ t.file = saved codec (call.memory codec s.fields) :=
  (body_leads call s (.inl rfl) ⟨rfl, hs, rfl⟩).1 t h

/-- A store that is opened on what a memory was saved to has that memory. -/
theorem opened_at (hc : codec.Lawful) {image : PersistedRaftStore T Bytes}
    (hload : load codec (saved codec f) = .ok image) :
    At f none (saved codec f) (.opened codec image) := by
  rw [saved, load_store hc] at hload
  cases hload
  exact ⟨f.get_image, rfl, rfl⟩

/-- A store that is opened after a call was cut has the memory that was saved before
the call, or the one the call leads to. -/
theorem reopened_at (hc : codec.Lawful) (hs : s.persistOwner = none)
    (hfile : s.file = saved codec f)
    (hcut : Cut Cluster.perform (body codec (some path) call) s t)
    {image : PersistedRaftStore T Bytes} (hload : load codec t.file = .ok image) :
    ∃ g, (g = f ∨ g = call.memory codec s.fields) ∧
      At g none (saved codec g) (.opened codec image) := by
  rcases cut_file hs hcut with hsame | hnew
  · rw [hsame, hfile] at hload
    exact ⟨f, .inl rfl, opened_at hc hload⟩
  · rw [hnew] at hload
    exact ⟨_, .inr rfl, opened_at hc hload⟩

end
end MemoryRaftStore.Alone
end ConductorRs

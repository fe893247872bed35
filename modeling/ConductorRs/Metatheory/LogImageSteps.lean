import ConductorRs.Metatheory.LogImage

/-!
What the tasks may assume of the log, step by step.

Only the log task changes the recorded id and the log, and it keeps the log in
memory free of gaps at every single step. A task that persists knows that the
log fits the id it has read, until the log is changed after a purge has recorded
another one.
-/
namespace ConductorRs.MemoryRaftStore.LogImage
open Concurrency Collections

section
variable {T : TypeConfig} {Bytes : Type}

structure Sound (codec : Codec T Bytes) (s : Sys T Bytes) : Prop where
  memory : GapFree (lastPurged s) (currentLog s)
  file : ∃ image, s.store.file = some (codec.store image) ∧
    GapFree image.lastPurgedLogId image.log

structure Rely (i : StoreTask) (s s' : Sys T Bytes) : Prop where
  owner : s'.store.persistOwner = some i ↔ s.store.persistOwner = some i
  tmp : s.store.persistOwner = some i → s'.store.tmp = s.store.tmp
  recorded : s'.hist.recorded i = false → s.hist.recorded i = false
  torn : s'.hist.torn i = false → s.hist.torn i = false
  purged : s'.hist.recorded i = false → lastPurged s' = lastPurged s
  log : s'.hist.torn i = false → s.hist.recorded i = true → currentLog s' = currentLog s
  fits : s'.hist.torn i = false → s.hist.recorded i = false →
    GapFree (lastPurged s) (currentLog s) → GapFree (lastPurged s) (currentLog s')
  own : i = .log → lastPurged s' = lastPurged s ∧ currentLog s' = currentLog s

def outline (codec : Codec T Bytes) : Outline StoreTask (StoreOps T Bytes) (Sys T Bytes) where
  inv := Sound codec
  rely := Rely
  idle := Unlocked
  check _ _ _ := True

/-- A step that changes neither the log nor what is recorded about it. -/
theorem rely_of_same {i : StoreTask} {s s' : Sys T Bytes}
    (hrecorded : s'.hist.recorded i = s.hist.recorded i)
    (htorn : s'.hist.torn i = s.hist.torn i)
    (hpurged : lastPurged s' = lastPurged s) (hlog : currentLog s' = currentLog s)
    (howner : s'.store.persistOwner = some i ↔ s.store.persistOwner = some i)
    (htmp : s.store.persistOwner = some i → s'.store.tmp = s.store.tmp) : Rely i s s' := by
  constructor
  · exact howner
  · exact htmp
  · rw [hrecorded]
    exact id
  · rw [htorn]
    exact id
  · exact fun _ => hpurged
  · exact fun _ _ => hlog
  · rw [hlog]
    exact fun _ _ => id
  · exact fun _ => ⟨hpurged, hlog⟩

theorem Rely.refl (i : StoreTask) (s : Sys T Bytes) : Rely i s s :=
  rely_of_same rfl rfl rfl rfl Iff.rfl fun _ => rfl

theorem Rely.trans {i : StoreTask} {s s' s'' : Sys T Bytes} (h : Rely i s s')
    (h' : Rely i s' s'') : Rely i s s'' := by
  have hrecorded : s.hist.recorded i = true → s'.hist.recorded i = true := by
    intro hr
    cases hr' : s'.hist.recorded i with
    | true => rfl
    | false => simp [h.recorded hr'] at hr
  constructor
  · exact h'.owner.trans h.owner
  · exact fun hi => (h'.tmp (h.owner.mpr hi)).trans (h.tmp hi)
  · exact fun hr => h.recorded (h'.recorded hr)
  · exact fun ht => h.torn (h'.torn ht)
  · exact fun hr => (h'.purged hr).trans (h.purged (h'.recorded hr))
  · exact fun ht hr => (h'.log ht (hrecorded hr)).trans (h.log (h'.torn ht) hr)
  · intro ht hr hfit
    have hfit' := h.fits (h'.torn ht) hr hfit
    cases hr' : s'.hist.recorded i with
    | true =>
        rw [h'.log ht hr']
        exact hfit'
    | false =>
        have hpurged := h.purged hr'
        rw [← hpurged] at hfit' ⊢
        exact h'.fits ht hr' hfit'
  · intro hi
    obtain ⟨hp, hl⟩ := h.own hi
    obtain ⟨hp', hl'⟩ := h'.own hi
    exact ⟨hp'.trans hp, hl'.trans hl⟩

variable {codec : Codec T Bytes} {i : StoreTask}

theorem coherent : (outline codec).Coherent where
  refl := Rely.refl
  trans _ {_ _ _} h h' := h.trans h'
  idle _ {_ _} h hr _ := fun hi => h (hr.owner.mp hi)

theorem persistLock : PersistLock (watch : Watch T Bytes StoreTask _) (outline codec) where
  owner hr := hr.owner
  tmp hr hl := hr.tmp hl
  inv {s store} hi hfields hfile := by
    refine ⟨?_, ?_⟩
    · simpa only [lastPurged, currentLog, hfields] using hi.memory
    · rw [hfile]
      exact hi.file
  rely hfields howner htmp :=
    rely_of_same rfl rfl (congrFun hfields _) (congrFun hfields _) howner htmp
  quiet o r ho := by
    cases o with
    | lockPersist | unlockPersist | file _ => rfl
    | _ => cases ho
  failed := rfl
  check _ _ _ := trivial

/-- What a task that persists knows of the log once it has read the recorded id. -/
def PurgedRead (i : StoreTask) (purged : Option (LogId T)) (s : Sys T Bytes) : Prop :=
  Locked i s ∧ (s.hist.torn i = false → GapFree purged (currentLog s)) ∧
    (s.hist.recorded i = false → lastPurged s = purged)

theorem purgedRead_stable (purged : Option (LogId T)) :
    (outline codec).Stable i (PurgedRead i purged) := by
  intro s s' h hr _
  obtain ⟨hlock, hfit, hsame⟩ := h
  refine ⟨hr.owner.mpr hlock, fun ht => ?_, fun hrec => ?_⟩
  · have hfit' := hfit (hr.torn ht)
    cases hrec : s.hist.recorded i with
    | true =>
        rw [hr.log ht hrec]
        exact hfit'
    | false =>
        rw [← hsame hrec] at hfit' ⊢
        exact hr.fits ht hrec hfit'
  · exact (hr.purged hrec).trans (hsame (hr.recorded hrec))

def Facts (image : PersistedRaftStore T Bytes) (_ : Purges) : Prop :=
  GapFree image.lastPurgedLogId image.log

theorem locked_stable : (outline codec).Stable i (Locked i) := persistLock.locked_stable

theorem known_stable (image : PersistedRaftStore T Bytes) :
    (outline codec).Stable i (Known Facts i image) :=
  fun s s' h hr hi => ⟨locked_stable s s' h.1 hr hi, h.2⟩

def logic (codec : Codec T Bytes) (path : StorePath) (i : StoreTask) :
    Logic (StoreOps T Bytes) (Sys T Bytes) :=
  (machine codec (some path) watch).logic policy (outline codec) i

variable {path : StorePath}

def Inert : StoreOp T Bytes → Prop
  | .read field => field ≠ .lastPurgedLogId
  | .write field _ => field ≠ .lastPurgedLogId ∧ field ≠ .log
  | .applySm _ | .nextSnapshotIdx | .ioCompleted _ | .respond _ _ => True
  | _ => False

theorem inert_after {o : StoreOp T Bytes} (ho : Inert o) (h : Purges) : h.after i o = h := by
  cases o with
  | read field =>
      cases field with
      | lastPurgedLogId => exact absurd rfl ho
      | _ => rfl
  | write field value =>
      cases field with
      | lastPurgedLogId => exact absurd rfl ho.1
      | log => exact absurd rfl ho.2
      | _ => rfl
  | applySm _ | nextSnapshotIdx | ioCompleted _ | respond _ _ => rfl
  | _ => cases ho

theorem inert_frame {o : StoreOp T Bytes} (ho : Inert o)
    {store store' : StoreState T Bytes StoreTask}
    {x : FileChoice Bytes} {r : o.Reply} (hp : store.perform i o x = some (r, store')) :
    store'.fields .lastPurgedLogId = store.fields .lastPurgedLogId ∧
      store'.fields .log = store.fields .log ∧ store'.persistOwner = store.persistOwner ∧
      store'.tmp = store.tmp ∧ store'.file = store.file := by
  cases o with
  | read _ | ioCompleted _ | respond _ _ =>
      cases hp
      exact ⟨rfl, rfl, rfl, rfl, rfl⟩
  | write field value =>
      cases hp
      exact ⟨store.set_of_ne value ho.1.symm, store.set_of_ne value ho.2.symm, rfl, rfl, rfl⟩
  | applySm _ | nextSnapshotIdx =>
      cases hp
      exact ⟨store.set_of_ne _ (by decide), store.set_of_ne _ (by decide), rfl, rfl, rfl⟩
  | _ => cases ho

theorem inert_holds {o : StoreOp T Bytes} (ho : Inert o) {A : Sys T Bytes → Prop}
    (hA : (outline codec).Stable i A) : (logic codec path i).Holds A (op o) fun _ => A := by
  refine triple_op hA fun s hi hs => ⟨trivial, fun x r store hp _ => ?_⟩
  obtain ⟨hpurged, hlog, howner, htmp, hfile⟩ := inert_frame ho hp
  have hafter : watch.after s.store store s.hist i o r = s.hist := inert_after ho s.hist
  rw [hafter]
  have hrely : ∀ j, Rely j s ⟨store, s.hist⟩ := fun j =>
    rely_of_same rfl rfl hpurged hlog (by rw [howner]) fun _ => htmp
  have hsound : Sound codec ⟨store, s.hist⟩ := by
    refine ⟨?_, ?_⟩
    · simpa only [lastPurged, currentLog, hpurged, hlog] using hi.memory
    · rw [hfile]
      exact hi.file
  exact ⟨⟨hsound, fun j _ => hrely j⟩, hA s _ hs (hrely i) hsound⟩

theorem read_purged :
    (logic codec path i).Holds (Locked i) (op (.read .lastPurgedLogId)) (PurgedRead i) := by
  refine triple_op locked_stable fun s hi hs => ⟨trivial, fun x r store hp _ => ?_⟩
  cases hp
  refine ⟨⟨⟨hi.memory, hi.file⟩, fun j hj => ?_⟩, hs, fun _ => hi.memory, fun _ => rfl⟩
  refine rely_of_same ?_ ?_ rfl rfl Iff.rfl fun _ => rfl
  · simp [watch, Purges.after, Purges.reopen, hj]
  · simp [watch, Purges.after, Purges.reopen, hj]

theorem read_log (purged : Option (LogId T)) :
    (logic codec path i).Holds (PurgedRead i purged) (op (.read .log)) fun log s =>
      Locked i s ∧ GapFree purged log := by
  refine triple_op (purgedRead_stable purged) fun s hi hs =>
    ⟨trivial, fun x r store hp hπ => ?_⟩
  cases hp
  exact ⟨⟨hi, fun j _ => Rely.refl j s⟩, hs.1, hs.2.1 hπ⟩

theorem readImage_holds : (logic codec path i).Holds (Locked i) readImage (Known Facts i) := by
  have hread : ∀ (field : StoreField) (φ : Prop), field ≠ .lastPurgedLogId →
      (logic codec path i).Holds (fun s => Locked i s ∧ φ) (op (.read field))
        fun _ s => Locked i s ∧ φ :=
    fun field φ hf => inert_holds (o := .read field) hf
      fun s s' h hr hi => ⟨locked_stable s s' h.1 hr hi, h.2⟩
  refine (logic codec path i).bind read_purged fun lastPurgedLogId => ?_
  refine (logic codec path i).bind (inert_holds (by simp [Inert])
    (purgedRead_stable lastPurgedLogId)) fun committed => ?_
  refine (logic codec path i).bind (read_log lastPurgedLogId) fun log => ?_
  refine (logic codec path i).bind (hread .vote _ (by simp)) fun vote => ?_
  refine (logic codec path i).bind (hread .sm _ (by simp)) fun sm => ?_
  refine (logic codec path i).bind (hread .currentSnapshot _ (by simp)) fun snapshot => ?_
  refine (logic codec path i).bind (hread .snapshotIdx _ (by simp)) fun snapshotIdx => ?_
  exact (logic codec path i).done fun s _ h => h

theorem rename_image (s : Sys T Bytes) (image : PersistedRaftStore T Bytes)
    (store : StoreState T Bytes StoreTask) (hi : Sound codec s) (hk : Known Facts i image s)
    (hstore : store = { s.store with file := some (codec.store image), tmp := none }) :
    (outline codec).Grants i s ⟨store, s.hist⟩ ∧ True := by
  subst hstore
  have hlock : s.store.persistOwner = some i := hk.1
  refine ⟨⟨⟨hi.memory, image, rfl, hk.2⟩, fun j hj => ?_⟩, trivial⟩
  refine rely_of_same rfl rfl rfl rfl Iff.rfl fun h => ?_
  rw [hlock] at h
  exact absurd (Option.some.inj h).symm hj

theorem persistToDisk_holds :
    (logic codec path i).Holds (Unlocked i) (persistToDisk codec (some path))
      fun _ => Unlocked i := by
  have hpersist : (logic codec path i).Holds (Unlocked i) (persistToDisk codec (some path))
      (Persisted (Unlocked i) (Done (fun _ => True) i)) :=
    (persistLock.persisting known_stable (fun _ _ _ _ _ => trivial) readImage_holds
      rename_image).persistToDisk_holds path
  refine (logic codec path i).post hpersist fun r s h => ?_
  cases r with
  | ok u => exact h.1
  | error err => exact h

theorem log_after {o : StoreOp T Bytes} (ho : o.target = some .log) (h : Purges) :
    h.after i o = h.change := by
  cases o with
  | write field value =>
      cases ho
      rfl
  | insertLog _ | removeLogFrom _ | removeLogUpTo _ => rfl
  | _ => cases ho

theorem change_log {o : StoreOp T Bytes} (ho : o.target = some .log) {A : Sys T Bytes → Prop}
    (hA : (outline codec).Stable .log A) (hfree : ∀ s, A s → Unlocked .log s)
    (hgap : ∀ s x r store, Sound codec s → A s → s.store.perform .log o x = some (r, store) →
      GapFree (lastPurged s) (store.fields .log)) :
    (logic codec path .log).Holds A (op o) fun _ => Unlocked .log := by
  refine triple_op hA fun s hi hs => ⟨trivial, fun x r store hp _ => ?_⟩
  have hfit := hgap s x r store hi hs hp
  have hstore := StoreState.perform_target ho hp
  have hafter : watch.after s.store store s.hist .log o r = s.hist.change :=
    log_after ho s.hist
  have hpurged : store.fields .lastPurgedLogId = s.store.fields .lastPurgedLogId := by
    rw [hstore]
    exact s.store.set_of_ne _ (by decide)
  have howner : store.persistOwner = s.store.persistOwner := by rw [hstore]; rfl
  have htmp : store.tmp = s.store.tmp := by rw [hstore]; rfl
  have hfile : store.file = s.store.file := by rw [hstore]; rfl
  rw [hafter]
  refine ⟨⟨⟨?_, ?_⟩, fun j hj => ?_⟩, ?_⟩
  · simpa only [lastPurged, currentLog, hpurged] using hfit
  · rw [hfile]
    exact hi.file
  · have htorn : s.hist.change.torn j = false →
        s.hist.torn j = false ∧ s.hist.recorded j = false := by
      simp [Purges.change]
    constructor
    · rw [howner]
    · exact fun _ => htmp
    · exact id
    · exact fun ht => (htorn ht).1
    · exact fun _ => hpurged
    · intro ht hr
      simp [(htorn ht).2] at hr
    · exact fun _ _ _ => hfit
    · exact fun h => absurd h hj
  · rw [Unlocked, howner]
    exact hfree s hs

/-- Only the log task itself moves the recorded id and the log. -/
theorem own_stable {A : Option (LogId T) → BTreeMap Nat String → Prop} :
    (outline codec).Stable .log fun s =>
      Unlocked .log s ∧ A (lastPurged s) (currentLog s) := by
  intro s s' h hr hi
  obtain ⟨hp, hl⟩ := hr.own rfl
  rw [hp, hl]
  exact ⟨coherent.idle .log h.1 hr hi, h.2⟩

def Recorded (logId : LogId T) (s : Sys T Bytes) : Prop :=
  Unlocked .log s ∧ lastPurged s = some logId

theorem record_purged (logId : LogId T) :
    (logic codec path .log).Holds
      (fun s => Unlocked .log s ∧ LogId.nextIndex T (lastPurged s) ≤ logId.index + 1)
      (op (.write .lastPurgedLogId (some logId))) fun _ => Recorded logId := by
  refine triple_op (own_stable (A := fun purged _ => LogId.nextIndex T purged ≤ logId.index + 1))
    fun s hi hs => ⟨trivial, fun x r store hp _ => ?_⟩
  cases hp
  have hlog : (s.store.set .lastPurgedLogId (some logId)).fields .log = s.store.fields .log :=
    s.store.set_of_ne _ (by decide)
  have hpurged : (s.store.set .lastPurgedLogId (some logId)).fields .lastPurgedLogId =
      some logId := s.store.set_same _ _
  refine ⟨⟨⟨?_, hi.file⟩, fun j hj => ?_⟩, hs.1, hpurged⟩
  · simp only [lastPurged, currentLog, hlog, hpurged]
    exact hi.memory.record hs.2
  · constructor
    · exact Iff.rfl
    · exact fun _ => rfl
    · intro h
      cases h
    · exact id
    · intro h
      cases h
    · exact fun _ _ => hlog
    · intro _ _ hfit
      simpa only [currentLog, hlog] using hfit
    · exact fun h => absurd h hj

theorem remove_purged (logId : LogId T) :
    (logic codec path .log).Holds (Recorded logId) (op (.removeLogUpTo logId.index))
      fun _ => Unlocked .log := by
  refine change_log rfl (own_stable (A := fun purged _ => purged = some logId))
    (fun s h => h.1) fun s x r store hi hs hp => ?_
  cases hp
  have hfit := hi.memory
  rw [hs.2] at hfit ⊢
  rw [StoreState.set_same]
  exact hfit.remove (Nat.le_refl _)

theorem truncate_log (start : Nat) :
    (logic codec path .log).Holds (Unlocked .log) (op (.removeLogFrom start))
      fun _ => Unlocked .log := by
  refine change_log rfl persistLock.unlocked_stable (fun s h => h) fun s x r store hi _ hp => ?_
  cases hp
  rw [StoreState.set_same]
  exact hi.memory.truncate start

theorem append_log (entries : List (Nat × String)) :
    (logic codec path .log).Holds
      (fun s => Unlocked .log s ∧ entries.map Prod.fst =
        List.range' (nextLogIndex (lastPurged s) (currentLog s)) entries.length)
      (op (.insertLog entries)) fun _ => Unlocked .log := by
  refine change_log rfl (own_stable (A := fun purged log => entries.map Prod.fst =
    List.range' (nextLogIndex purged log) entries.length)) (fun s h => h.1)
    fun s x r store hi hs hp => ?_
  cases hp
  rw [StoreState.set_same]
  exact hi.memory.append (Nat.le_refl _) hs.2

end
end ConductorRs.MemoryRaftStore.LogImage

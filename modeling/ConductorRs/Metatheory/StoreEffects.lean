import ConductorRs.Metatheory.StoreDurability

/-!
What a store reports as done has been done.

`Effect` says what a call is for: how it changes each of its fields. Before a call
is reported it has given each of these fields a version that shows the effect, and
that version is among those the report acknowledges.
-/
namespace ConductorRs.MemoryRaftStore.Durable
open Concurrency Collections

section
variable {T : TypeConfig} {Bytes Tid : Type}

/-- The fields a call is to change. -/
def fields : StoreCall T Bytes → List StoreField
  | .saveVote _ => [.vote]
  | .saveCommitted _ => [.committed]
  | .append _ | .truncateAfter _ => [.log]
  | .purge _ => [.lastPurgedLogId, .log]
  | .buildSnapshot => [.snapshotIdx, .currentSnapshot]
  | .apply _ => [.sm]
  | .installSnapshot _ _ => [.sm, .currentSnapshot]

/-- A response that is sent is one of those the entries called for. -/
def Notice.Fits
    (responses : List (Option UnsafeHeadStateMachine.Responder × RaftCommandResponse)) :
    Notice T Bytes → Prop
  | .answered responder response => (some responder, response) ∈ responses
  | .returned _ | .completed => True

def Answering
    (applied : Except IoError
      (List (Option UnsafeHeadStateMachine.Responder × RaftCommandResponse)))
    (notice : Notice T Bytes) : Prop :=
  ∃ responses, applied = .ok responses ∧ notice.Fits responses

/-- How a call that is reported with a notice changes a field. -/
inductive Effect (codec : Codec T Bytes) : StoreCall T Bytes → Notice T Bytes →
    (field : StoreField) → field.Val T Bytes → field.Val T Bytes → Prop where
  | saveVote (vote notice before) :
      Effect codec (.saveVote vote) notice .vote before (some vote)
  | saveCommitted (committed notice before) :
      Effect codec (.saveCommitted committed) notice .committed before committed
  | append (entries notice) (before : BTreeMap Nat String) :
      Effect codec (.append entries) notice .log before
        (entries.foldl (fun log entry => log.insert entry.logId.index (codec.entry entry)) before)
  | truncateAfter (lastLogId notice) (before : BTreeMap Nat String) :
      Effect codec (.truncateAfter lastLogId) notice .log before
        (before.retain fun index => lastLogId.any fun logId => index ≤ logId.index)
  | purged (logId notice before) :
      Effect codec (.purge logId) notice .lastPurgedLogId before (some logId)
  | purge (logId notice) (before : BTreeMap Nat String) :
      Effect codec (.purge logId) notice .log before
        (before.retain fun index => logId.index < index)
  | nextSnapshotIdx (notice) (before : Nat) :
      Effect codec .buildSnapshot notice .snapshotIdx before (before + 1)
  | buildSnapshot (snapshot before) :
      Effect codec .buildSnapshot (.returned (some snapshot)) .currentSnapshot before
        (some snapshot)
  | apply (entries notice) (before after : UnsafeHeadStateMachine T) (responses)
      (happly : before.applyStream entries = (.ok responses, after))
      (hfits : notice.Fits responses) :
      Effect codec (.apply entries) notice .sm before after
  | installSm (snapshotMeta data notice before) (after : UnsafeHeadStateMachine T)
      (hdecode : codec.decodeSm data = .ok after) :
      Effect codec (.installSnapshot snapshotMeta data) notice .sm before after
  | installSnapshot (snapshotMeta data notice before) :
      Effect codec (.installSnapshot snapshotMeta data) notice .currentSnapshot before
        (some ⟨snapshotMeta, data⟩)

/-- One of the versions came about in the way `E` describes. -/
def Shows (h : Durability T Bytes Tid) (versions : List (StoreField × Nat)) (field : StoreField)
    (E : field.Val T Bytes → field.Val T Bytes → Prop) : Prop :=
  ∃ n before after, (field, n + 1) ∈ versions ∧ (h.values field)[n]? = some before ∧
    (h.values field)[n + 1]? = some after ∧ E before after

structure Reported (codec : Codec T Bytes) (s : Sys T Bytes Tid) : Prop where
  current : Current s
  shown : ∀ report ∈ s.hist.reports, ∀ field ∈ fields report.1,
    Shows s.hist s.hist.acked field (Effect codec report.1 report.2 field)

structure Undisturbed (i : Tid) (s s' : Sys T Bytes Tid) : Prop where
  call : s'.hist.call i = s.hist.call i
  touched : s'.hist.touched i = s.hist.touched i
  values : ∀ field, s.hist.values field <+: s'.hist.values field

def effects (codec : Codec T Bytes) : Outline Tid (StoreOps T Bytes) (Sys T Bytes Tid) where
  inv := Reported codec
  rely := Undisturbed
  idle _ _ := True
  check _ _ _ := True

variable {codec : Codec T Bytes} {i : Tid}

theorem Undisturbed.refl (i : Tid) (s : Sys T Bytes Tid) : Undisturbed i s s :=
  ⟨rfl, rfl, fun _ => List.prefix_refl _⟩

theorem effects_coherent : (effects codec : Outline Tid _ _).Coherent where
  refl := Undisturbed.refl
  trans _ {_ _ _} h h' := ⟨h'.call.trans h.call, h'.touched.trans h.touched,
    fun field => (h.values field).trans (h'.values field)⟩
  idle _ {_ _} _ _ _ := trivial

theorem Shows.mono {h h' : Durability T Bytes Tid} {versions versions' : List (StoreField × Nat)}
    {field : StoreField} {E E' : field.Val T Bytes → field.Val T Bytes → Prop}
    (hs : Shows h versions field E) (hvalues : h.values field <+: h'.values field)
    (hversions : versions ⊆ versions') (hE : ∀ before after, E before after → E' before after) :
    Shows h' versions' field E' := by
  obtain ⟨n, before, after, hn, hbefore, hafter, heff⟩ := hs
  exact ⟨n, before, after, hversions hn, getElem?_of_prefix hvalues hbefore,
    getElem?_of_prefix hvalues hafter, hE before after heff⟩

/-- What stays true of a task while its call and its own versions are kept. -/
def Lasting (i : Tid) (A : Durability T Bytes Tid → Prop) : Prop :=
  ∀ h h', h'.call i = h.call i → h.touched i ⊆ h'.touched i →
    (∀ field, h.values field <+: h'.values field) → A h → A h'

/-- The call may be reported with the notice. -/
structure Ready (codec : Codec T Bytes) (i : Tid) (call : StoreCall T Bytes)
    (notice : Notice T Bytes) (h : Durability T Bytes Tid) : Prop where
  told : h.call i = some call
  shown : ∀ field ∈ fields call, Shows h (h.touched i) field (Effect codec call notice field)

/-- Each of the notices would be a true report. -/
def Due (codec : Codec T Bytes) (i : Tid) (call : StoreCall T Bytes)
    (N : Notice T Bytes → Prop) (h : Durability T Bytes Tid) : Prop :=
  ∀ notice, N notice → Ready codec i call notice h

theorem due_of_shows {call : StoreCall T Bytes} {N : Notice T Bytes → Prop}
    {h : Durability T Bytes Tid} (htold : h.call i = some call)
    (hshown : ∀ field ∈ fields call, Shows h (h.touched i) field fun before after =>
      ∀ notice, N notice → Effect codec call notice field before after) :
    Due codec i call N h :=
  fun notice hn => ⟨htold, fun field hf =>
    (hshown field hf).mono (List.prefix_refl _) (List.Subset.refl _) fun _ _ hE => hE notice hn⟩

theorem lasting_told (call : StoreCall T Bytes) :
    Lasting i fun h => h.call i = some call :=
  fun _ _ hcall _ _ h => hcall.trans h

theorem lasting_shows (field : StoreField)
    (E : field.Val T Bytes → field.Val T Bytes → Prop) :
    Lasting i fun h => Shows h (h.touched i) field E :=
  fun _ _ _ htouched hvalues h => h.mono (hvalues field) htouched fun _ _ hE => hE

theorem Lasting.and {A B : Durability T Bytes Tid → Prop} (hA : Lasting i A)
    (hB : Lasting i B) : Lasting i fun h => A h ∧ B h :=
  fun h h' hcall htouched hvalues hs =>
    ⟨hA h h' hcall htouched hvalues hs.1, hB h h' hcall htouched hvalues hs.2⟩

theorem lasting_ready (codec : Codec T Bytes) (call : StoreCall T Bytes)
    (notice : Notice T Bytes) : Lasting i (Ready codec i call notice) :=
  fun _ _ hcall htouched hvalues h => ⟨hcall.trans h.told, fun field hf =>
    (h.shown field hf).mono (hvalues field) htouched fun _ _ hE => hE⟩

theorem lasting_due (codec : Codec T Bytes) (call : StoreCall T Bytes)
    (N : Notice T Bytes → Prop) : Lasting i (Due codec i call N) :=
  fun h h' hcall htouched hvalues hs notice hn =>
    lasting_ready codec call notice h h' hcall htouched hvalues (hs notice hn)

theorem Lasting.stable {A : Durability T Bytes Tid → Prop} (hA : Lasting i A) :
    (effects codec).Stable i fun s => A s.hist :=
  fun s s' h hr _ =>
    hA s.hist s'.hist hr.call (hr.touched ▸ List.Subset.refl _) hr.values h

theorem Reported.acknowledge {s : Sys T Bytes Tid} (hi : Reported codec s)
    {call : StoreCall T Bytes} {notice : Notice T Bytes}
    (h : Ready codec i call notice s.hist) :
    Reported codec ⟨s.store, s.hist.acknowledge i notice⟩ := by
  refine ⟨hi.current, fun report hreport field hf => ?_⟩
  have hnew : (s.hist.acknowledge i notice).reports = (call, notice) :: s.hist.reports := by
    simp [Durability.acknowledge, h.told]
  rw [hnew] at hreport
  obtain rfl | hreport := List.mem_cons.mp hreport
  · exact (h.shown field hf).mono (List.prefix_refl _) (List.subset_append_left _ _)
      fun _ _ hE => hE
  · exact (hi.shown report hreport field hf).mono (List.prefix_refl _)
      (List.subset_append_right _ _) fun _ _ hE => hE

def Told (i : Tid) (call : StoreCall T Bytes) (s : Sys T Bytes Tid) : Prop :=
  s.hist.call i = some call

/-- A call that returns `Ok` has done what it was called for. -/
def Fulfilled (codec : Codec T Bytes) (i : Tid) (call : StoreCall T Bytes) :
    StoreOut T Bytes → Sys T Bytes Tid → Prop
  | .ok snapshot, s => Ready codec i call (.returned snapshot) s.hist
  | .error _, _ => True

theorem fulfilled_stable (call : StoreCall T Bytes) (out : StoreOut T Bytes) :
    (effects codec).Stable i (Fulfilled codec i call out) := by
  cases out with
  | ok snapshot => exact (lasting_ready codec call (.returned snapshot)).stable
  | error err => exact fun _ _ _ _ _ => trivial

theorem fulfilled_of_due {call : StoreCall T Bytes} {N : Notice T Bytes → Prop}
    (hN : N (.returned none)) {s : Sys T Bytes Tid}
    (h : Due codec i call N s.hist) (r : Except IoError Unit) :
    Fulfilled codec i call (r.map fun _ => none) s := by
  cases r with
  | ok _ => exact h _ hN
  | error _ => trivial

theorem grants_acknowledge {s : Sys T Bytes Tid} (hi : Reported codec s)
    {call : StoreCall T Bytes} {notice : Notice T Bytes}
    (h : Ready codec i call notice s.hist) :
    (effects codec).Grants i s ⟨s.store, s.hist.acknowledge i notice⟩ :=
  ⟨hi.acknowledge h, fun _ _ => ⟨rfl, rfl, fun _ => List.prefix_refl _⟩⟩

variable [DecidableEq Tid]

theorem Reported.write {s : Sys T Bytes Tid} (hi : Reported codec s) (field : StoreField)
    (v : field.Val T Bytes) :
    Reported codec ⟨s.store.set field v, s.hist.write i field v⟩ :=
  ⟨hi.current.write field v, fun report hreport f hf =>
    (hi.shown report hreport f hf).mono (s.hist.values_write i field v f) (List.Subset.refl _)
      fun _ _ hE => hE⟩

/-- A write makes a version of its field, next to the last one. -/
theorem shows_write {s : Sys T Bytes Tid} (h : Current s) (field : StoreField)
    (v : field.Val T Bytes) {E : field.Val T Bytes → field.Val T Bytes → Prop}
    (hE : E (s.store.fields field) v) :
    Shows (s.hist.write i field v) ((s.hist.write i field v).touched i) field E := by
  have hlast := latest_value h field
  have hpos : 0 < (s.hist.values field).length := by
    have := (List.getElem?_eq_some_iff.mp hlast).1
    omega
  have hlen : (s.hist.values field).length - 1 + 1 = (s.hist.values field).length := by omega
  refine ⟨(s.hist.values field).length - 1, s.store.fields field, v, ?_, ?_, ?_, hE⟩
  · simp [Durability.write, hlen]
  · exact getElem?_of_prefix (s.hist.values_write i field v field) hlast
  · simp [Durability.write, hlen]

/-- Operations the histories of the fields and of the reports do not hear of. -/
def Silent : StoreOp T Bytes → Prop
  | .read _ | .lockPersist | .unlockPersist | .file _ | .ioCompleted (.error _) => True
  | _ => False

theorem Silent.target {o : StoreOp T Bytes} (ho : Silent o) : o.target = none := by
  cases o with
  | read _ | lockPersist | unlockPersist | file _ | ioCompleted _ => rfl
  | _ => exact ho.elim

theorem Silent.after {o : StoreOp T Bytes} (ho : Silent o) (h : Durability T Bytes Tid)
    (store : StoreState T Bytes Tid) (r : o.Reply) :
    (h.after i store o r).values = h.values ∧ (h.after i store o r).call = h.call ∧
      (h.after i store o r).touched = h.touched ∧ (h.after i store o r).reports = h.reports ∧
      (h.after i store o r).acked = h.acked := by
  cases o with
  | read field => exact ⟨rfl, rfl, rfl, rfl, rfl⟩
  | lockPersist | unlockPersist => exact ⟨rfl, rfl, rfl, rfl, rfl⟩
  | file o =>
      cases o with
      | rename => cases r <;> exact ⟨rfl, rfl, rfl, rfl, rfl⟩
      | _ => exact ⟨rfl, rfl, rfl, rfl, rfl⟩
  | ioCompleted result =>
      cases result with
      | ok _ => exact ho.elim
      | error _ => exact ⟨rfl, rfl, rfl, rfl, rfl⟩
  | _ => exact ho.elim

variable {path : StorePath}

def effectsLogic (codec : Codec T Bytes) (path : StorePath) (i : Tid) :
    Logic (StoreOps T Bytes) (Sys T Bytes Tid) :=
  (machine codec (some path) watch).logic .any (effects codec) i

theorem silent_holds {A : Durability T Bytes Tid → Prop} (hA : Lasting i A)
    {o : StoreOp T Bytes} (ho : Silent o) :
    (effectsLogic codec path i).Holds (fun s => A s.hist) (op o) fun _ s => A s.hist := by
  refine triple_op hA.stable fun s hi hs => ⟨trivial, fun x r store hp _ => ?_⟩
  have hfields := StoreState.perform_fields ho.target hp
  obtain ⟨hvalues, hcall, htouched, hreports, hacked⟩ := ho.after (i := i) s.hist store r
  have hpre : ∀ field, s.hist.values field <+: (s.hist.after i store o r).values field :=
    fun field => hvalues ▸ List.prefix_refl _
  refine ⟨⟨⟨fun field => ?_, fun report hreport field hf => ?_⟩, fun j _ => ⟨?_, ?_, hpre⟩⟩, ?_⟩
  · change ((s.hist.after i store o r).values field).getLast? = some (store.fields field)
    rw [hvalues, hfields]
    exact hi.current field
  · exact (hi.shown report (hreports ▸ hreport) field hf).mono (hpre field)
      (hacked ▸ List.Subset.refl _) fun _ _ hE => hE
  · exact congrFun hcall j
  · exact congrFun htouched j
  · exact hA _ _ (congrFun hcall i) (htouched ▸ List.Subset.refl _) hpre hs

theorem persist_keeps {A : Durability T Bytes Tid → Prop} (hA : Lasting i A) :
    (effectsLogic codec path i).Holds (fun s => A s.hist) (persistToDisk codec (some path))
      fun _ s => A s.hist :=
  (effectsLogic codec path i).all (fun _ ho => silent_holds hA ho)
    (persistToDisk_all codec (p := Silent) (fun _ => trivial) (fun _ => trivial) trivial trivial _)

theorem change_shows {A : Durability T Bytes Tid → Prop} (hA : Lasting i A)
    {o : StoreOp T Bytes} {field : StoreField} (ho : o.target = some field)
    {E : o.Reply → field.Val T Bytes → field.Val T Bytes → Prop}
    (hE : ∀ (store store' : StoreState T Bytes Tid) x r,
      store.perform i o x = some (r, store') → E r (store.fields field) (store'.fields field)) :
    (effectsLogic codec path i).Holds (fun s => A s.hist) (op o) fun r s =>
      A s.hist ∧ Shows s.hist (s.hist.touched i) field (E r) := by
  refine triple_op hA.stable fun s hi hs => ⟨trivial, fun x r store hp _ => ?_⟩
  have hhist : watch.after s.store store s.hist i o r =
      s.hist.write i field (store.fields field) := after_target ho r
  have hpre := s.hist.values_write i field (store.fields field)
  have heff := hE s.store store x r hp
  rw [hhist, StoreState.perform_target ho hp, StoreState.set_same]
  refine ⟨⟨hi.write field _, fun j hj => ⟨rfl, ?_, hpre⟩⟩, ?_, shows_write hi.current field _ heff⟩
  · simp [Durability.write, hj]
  · exact hA s.hist _ rfl (by simp [Durability.write]) hpre hs

/-- An operation that reports its call. -/
theorem report_holds {A : Durability T Bytes Tid → Prop} (hA : Lasting i A)
    {call : StoreCall T Bytes} (notice : Notice T Bytes) {o : StoreOp T Bytes}
    (ho : ∀ (s s' : StoreState T Bytes Tid) x r, s.perform i o x = some (r, s') →
      s' = s ∧ ∀ h : Durability T Bytes Tid, h.after i s' o r = h.acknowledge i notice)
    (hready : ∀ h, A h → Ready codec i call notice h) :
    (effectsLogic codec path i).Holds (fun s => A s.hist) (op o) fun _ s => A s.hist := by
  refine triple_op hA.stable fun s hi hs => ⟨trivial, fun x r store hp _ => ?_⟩
  obtain ⟨rfl, hafter⟩ := ho s.store store x r hp
  have hhist : watch.after s.store s.store s.hist i o r = s.hist.acknowledge i notice :=
    hafter s.hist
  rw [hhist]
  exact ⟨grants_acknowledge hi (hready _ hs),
    hA s.hist _ rfl (List.Subset.refl _) (fun _ => List.prefix_refl _) hs⟩

theorem persist_fulfils {call : StoreCall T Bytes} {A : Sys T Bytes Tid → Prop}
    {t : Task (StoreOps T Bytes) Unit}
    (h : (effectsLogic codec path i).Holds A t fun _ s =>
      Due codec i call (fun _ => True) s.hist) :
    (effectsLogic codec path i).Holds A
      (noSnapshot (t.bind fun _ => persistToDisk codec (some path))) (Fulfilled codec i call) :=
  noSnapshot_triple ((effectsLogic codec path i).bind h fun _ =>
    (effectsLogic codec path i).post (persist_keeps (lasting_due codec call _)) fun r _ hs =>
      fulfilled_of_due trivial hs r)

/-- A call with one field changes it in one operation. -/
theorem change_due {call : StoreCall T Bytes} {o : StoreOp T Bytes} {field : StoreField}
    (hfields : fields call = [field]) (ho : o.target = some field)
    {N : o.Reply → Notice T Bytes → Prop}
    (hE : ∀ (store store' : StoreState T Bytes Tid) x r,
      store.perform i o x = some (r, store') → ∀ notice, N r notice →
        Effect codec call notice field (store.fields field) (store'.fields field)) :
    (effectsLogic codec path i).Holds (Told i call) (op o) fun r s =>
      Due codec i call (N r) s.hist := by
  refine (effectsLogic codec path i).post (change_shows (lasting_told call) ho
    (E := fun r before after => ∀ notice, N r notice →
      Effect codec call notice field before after) hE) ?_
  rintro r s ⟨htold, hshown⟩
  refine due_of_shows htold ?_
  rw [hfields, List.forall_mem_singleton]
  exact hshown

theorem append_fulfils (entries : List (Entry T)) :
    (effectsLogic codec path i).Holds (Told i (.append entries))
      (noSnapshot (append codec (some path) entries))
      (Fulfilled codec i (.append entries)) := by
  have hlasting := lasting_due (i := i) codec (.append entries) fun _ => True
  have hpersisted : (effectsLogic codec path i).Holds (Told i (.append entries))
      (append codec (some path) entries)
      (Persisted (fun s => Due codec i (.append entries) (fun _ => True) s.hist)
        fun s => Due codec i (.append entries) (fun _ => True) s.hist) := by
    refine append_persisted ?_ ?_ ?_ ?_
    · refine change_due rfl rfl fun store store' x r hp notice _ => ?_
      cases hp
      rw [StoreState.set_same, List.foldl_map]
      exact .append entries notice (store.fields .log)
    · refine (effectsLogic codec path i).post (persist_keeps hlasting) fun r s hs => ?_
      cases r <;> exact hs
    · refine report_holds hlasting .completed (fun s s' x r hp => ?_)
        fun h hs => hs _ trivial
      cases hp
      exact ⟨rfl, fun _ => rfl⟩
    · exact fun err => silent_holds hlasting trivial
  refine noSnapshot_triple ((effectsLogic codec path i).post hpersisted fun r s hs => ?_)
  cases r with
  | ok _ => exact hs _ trivial
  | error _ => trivial

theorem apply_fulfils
    (entries : List (Except IoError (Entry T × Option UnsafeHeadStateMachine.Responder))) :
    (effectsLogic codec path i).Holds (Told i (.apply entries))
      (noSnapshot (apply codec (some path) entries)) (Fulfilled codec i (.apply entries)) := by
  refine noSnapshot_triple ((effectsLogic codec path i).bind
    (change_due (N := Answering) rfl rfl ?_) fun applied => ?_)
  · rintro store store' x r hp notice ⟨responses, hr, hfits⟩
    cases hp
    rw [StoreState.set_same]
    exact .apply entries notice _ _ responses (Prod.ext hr rfl) hfits
  cases applied with
  | error err => exact (effectsLogic codec path i).done fun _ _ _ => trivial
  | ok responses =>
      have hlasting := lasting_due (i := i) codec (.apply entries) (Answering (.ok responses))
      refine (effectsLogic codec path i).bind (persist_keeps hlasting) fun r => ?_
      cases r with
      | error err => exact (effectsLogic codec path i).done fun _ _ _ => trivial
      | ok u =>
          refine (effectsLogic codec path i).bind
            ((effectsLogic codec path i).all (p := fun o => ∃ responder response,
              (some responder, response) ∈ responses ∧ o = .respond responder response) ?_
              (respondAll_all responses fun responder response h => ⟨_, _, h, rfl⟩))
            fun _ => (effectsLogic codec path i).done fun _ _ hs => hs _ ⟨_, rfl, trivial⟩
          rintro o ⟨responder, response, hmem, rfl⟩
          refine report_holds hlasting (.answered responder response)
            (fun s s' x r hp => ?_) fun h hs => hs _ ⟨responses, rfl, hmem⟩
          cases hp
          exact ⟨rfl, fun _ => rfl⟩

/-- The second of two fields is changed. -/
theorem second_due (call : StoreCall T Bytes) {o : StoreOp T Bytes} {first second : StoreField}
    {N : Notice T Bytes → Prop} (hfields : fields call = [first, second])
    (ho : o.target = some second)
    (hE : ∀ (store store' : StoreState T Bytes Tid) x r,
      store.perform i o x = some (r, store') → ∀ notice, N notice →
        Effect codec call notice second (store.fields second) (store'.fields second)) :
    (effectsLogic codec path i).Holds
      (fun s => Told i call s ∧ Shows s.hist (s.hist.touched i) first fun before after =>
        ∀ notice, N notice → Effect codec call notice first before after)
      (op o) fun _ s => Due codec i call N s.hist := by
  refine (effectsLogic codec path i).post
    (change_shows ((lasting_told call).and (lasting_shows first _)) ho
      (E := fun _ before after => ∀ notice, N notice →
        Effect codec call notice second before after) hE) ?_
  rintro r s ⟨⟨htold, hfirst⟩, hsecond⟩
  refine due_of_shows htold ?_
  rw [hfields, List.forall_mem_cons, List.forall_mem_singleton]
  exact ⟨hfirst, hsecond⟩

theorem purge_fulfils (logId : LogId T) :
    (effectsLogic codec path i).Holds (Told i (.purge logId))
      (noSnapshot (purge codec (some path) logId)) (Fulfilled codec i (.purge logId)) := by
  refine persist_fulfils (t := (op (.write .lastPurgedLogId (some logId))).bind fun _ =>
    op (.removeLogUpTo logId.index)) ((effectsLogic codec path i).bind
      (change_shows (lasting_told _) rfl ?_) fun _ => second_due _ rfl rfl ?_)
  · intro store store' x r hp notice _
    cases hp
    rw [StoreState.set_same]
    exact .purged logId notice _
  · intro store store' x r hp notice _
    cases hp
    rw [StoreState.set_same]
    exact .purge logId notice (store.fields .log)

/-- The index is the same whichever snapshot is made with it. -/
theorem nextSnapshotIdx_shows :
    (effectsLogic codec path i).Holds (Told i .buildSnapshot) (op .nextSnapshotIdx) fun _ s =>
      Told i .buildSnapshot s ∧ Shows s.hist (s.hist.touched i) .snapshotIdx fun before after =>
        ∀ notice, Effect codec .buildSnapshot notice .snapshotIdx before after := by
  refine change_shows (lasting_told .buildSnapshot) rfl fun store store' x r hp notice => ?_
  cases hp
  rw [StoreState.set_same]
  exact .nextSnapshotIdx notice (store.fields .snapshotIdx)

theorem buildSnapshot_fulfils :
    (effectsLogic codec path i).Holds (Told i .buildSnapshot)
      (body codec (some path) .buildSnapshot) (Fulfilled codec i .buildSnapshot) := by
  have hbuild : (effectsLogic codec path i).Holds (Told i .buildSnapshot)
      (buildSnapshot codec (some path))
      fun r => Fulfilled codec i .buildSnapshot (r.map some) := by
    refine (effectsLogic codec path i).bind
      (silent_holds (lasting_told .buildSnapshot) trivial) fun sm => ?_
    refine (effectsLogic codec path i).bind nextSnapshotIdx_shows fun idx => ?_
    let snapshot : UnsafeHeadSnapshot T Bytes :=
      ⟨⟨sm.lastAppliedLog, sm.lastMembership, snapshotId sm.lastAppliedLog idx⟩, codec.sm sm⟩
    refine (effectsLogic codec path i).bind ((effectsLogic codec path i).pre ?_
      (second_due .buildSnapshot (N := fun notice => notice = .returned (some snapshot))
        rfl rfl ?_))
      fun _ => ?_
    · rintro s ⟨htold, hfirst⟩
      exact ⟨htold, hfirst.mono (List.prefix_refl _) (List.Subset.refl _)
        fun _ _ hE notice _ => hE notice⟩
    · rintro store store' x r hp notice rfl
      cases hp
      rw [StoreState.set_same]
      exact .buildSnapshot snapshot _
    · refine (effectsLogic codec path i).bind (persist_keeps (lasting_due codec _ _)) fun r => ?_
      cases r with
      | ok _ => exact (effectsLogic codec path i).done fun _ _ hs => hs _ rfl
      | error _ => exact (effectsLogic codec path i).done fun _ _ _ => trivial
  exact (effectsLogic codec path i).bind hbuild fun _ =>
    (effectsLogic codec path i).done fun _ _ hs => hs

theorem installSnapshot_fulfils (snapshotMeta : SnapshotMeta T) (data : Bytes) :
    (effectsLogic codec path i).Holds (Told i (.installSnapshot snapshotMeta data))
      (noSnapshot (installSnapshot codec (some path) snapshotMeta data))
      (Fulfilled codec i (.installSnapshot snapshotMeta data)) := by
  unfold installSnapshot
  cases hdecode : codec.decodeSm data with
  | error err =>
      exact noSnapshot_triple ((effectsLogic codec path i).done fun _ _ _ => trivial)
  | ok sm =>
      refine persist_fulfils (t := (op (.write .sm sm)).bind fun _ =>
        op (.write .currentSnapshot (some ⟨snapshotMeta, data⟩)))
        ((effectsLogic codec path i).bind (change_shows (lasting_told _) rfl ?_)
          fun _ => second_due _ rfl rfl ?_)
      · intro store store' x r hp notice _
        cases hp
        rw [StoreState.set_same]
        exact .installSm snapshotMeta data notice _ sm hdecode
      · intro store store' x r hp notice _
        cases hp
        rw [StoreState.set_same]
        exact .installSnapshot snapshotMeta data notice _

/-- `truncate_after` keeps the entries up to the given one. -/
theorem truncated_index (lastLogId : Option (LogId T)) (index : Nat) :
    decide (index < (lastLogId.map fun logId => logId.index + 1).getD 0) =
      lastLogId.any fun logId => index ≤ logId.index := by
  cases lastLogId with
  | none => simp
  | some logId => exact decide_eq_decide.mpr Nat.lt_succ_iff

theorem body_fulfils (call : StoreCall T Bytes) :
    (effectsLogic codec path i).Holds (Told i call) (body codec (some path) call)
      (Fulfilled codec i call) := by
  cases call with
  | saveVote vote =>
      refine persist_fulfils (change_due rfl rfl fun store store' x r hp notice _ => ?_)
      cases hp
      rw [StoreState.set_same]
      exact .saveVote vote notice _
  | saveCommitted committed =>
      refine persist_fulfils (change_due rfl rfl fun store store' x r hp notice _ => ?_)
      cases hp
      rw [StoreState.set_same]
      exact .saveCommitted committed notice _
  | append entries => exact append_fulfils entries
  | truncateAfter lastLogId =>
      refine persist_fulfils (change_due rfl rfl fun store store' x r hp notice _ => ?_)
      cases hp
      rw [StoreState.set_same, funext (truncated_index lastLogId)]
      exact .truncateAfter lastLogId notice (store.fields .log)
  | purge logId => exact purge_fulfils logId
  | buildSnapshot => exact buildSnapshot_fulfils
  | apply entries => exact apply_fulfils entries
  | installSnapshot snapshotMeta data => exact installSnapshot_fulfils snapshotMeta data

end
end ConductorRs.MemoryRaftStore.Durable

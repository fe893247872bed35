import ConductorRs.Collections.Segment
import ConductorRs.Metatheory.CommittedStates
import ConductorRs.Metatheory.StoreAlone

/-!
What an `apply` that fails has recorded as applied.

The loop stops at an error of the stream, at an entry whose payload does not
parse, or not at all; then persisting may fail. In all cases but the second the
last applied log id is that of the last entry that was processed completely, and
an image that another call writes out later says so too.
-/
namespace ConductorRs
open Concurrency Collections MemoryRaftStore

namespace UnsafeHeadStateMachine
variable {T : TypeConfig}

/-- The entries whose commands are processed completely. -/
def completed : List (Except IoError (Entry T × Option Responder)) → List (Entry T)
  | [] | .error _ :: _ => []
  | .ok (entry, _) :: rest => if entry.Valid then entry :: completed rest else []

/-- The entry whose payload stops the loop. -/
def rejected : List (Except IoError (Entry T × Option Responder)) → Option (Entry T)
  | [] | .error _ :: _ => none
  | .ok (entry, _) :: rest => if entry.Valid then rejected rest else some entry

theorem completed_isPrefix (items : List (Except IoError (Entry T × Option Responder))) :
    completed items <+: streamEntries items := by
  induction items with
  | nil => exact List.nil_prefix
  | cons item rest ih =>
      cases item with
      | error err => exact List.nil_prefix
      | ok p =>
          obtain ⟨entry, responder⟩ := p
          simp only [completed]
          split
          · exact List.cons_prefix_cons.mpr ⟨rfl, ih⟩
          · exact List.nil_prefix

/-- The entry that stops the loop comes right after the completed ones. -/
theorem rejected_isPrefix {items : List (Except IoError (Entry T × Option Responder))}
    {entry : Entry T} (h : rejected items = some entry) :
    completed items ++ [entry] <+: streamEntries items := by
  induction items with
  | nil => cases h
  | cons item rest ih =>
      cases item with
      | error err => cases h
      | ok p =>
          obtain ⟨first, responder⟩ := p
          have hitems : streamEntries (.ok (first, responder) :: rest) =
              first :: streamEntries rest := rfl
          by_cases hvalid : first.Valid
          · rw [rejected, if_pos hvalid] at h
            rw [completed, if_pos hvalid, hitems]
            exact List.cons_prefix_cons.mpr ⟨rfl, ih h⟩
          · rw [rejected, if_neg hvalid] at h
            cases h
            rw [completed, if_neg hvalid, hitems]
            exact List.cons_prefix_cons.mpr ⟨rfl, List.nil_prefix⟩

theorem applyStream_valid (sm : UnsafeHeadStateMachine T) {entry : Entry T}
    (h : entry.Valid) (responder : Option Responder)
    (rest : List (Except IoError (Entry T × Option Responder))) :
    (sm.applyStream (.ok (entry, responder) :: rest)).2 =
      ((sm.applyEntry entry).2.applyStream rest).2 := by
  obtain ⟨response, hok⟩ := sm.applyEntry_of_valid h
  simp only [applyStream]
  rw [hok]
  dsimp only
  cases (sm.applyEntry entry).2.applyStream rest with
  | mk r sm' => cases r <;> rfl

theorem applyStream_not_valid (sm : UnsafeHeadStateMachine T) {entry : Entry T}
    (h : ¬entry.Valid) (responder : Option Responder)
    (rest : List (Except IoError (Entry T × Option Responder))) :
    (sm.applyStream (.ok (entry, responder) :: rest)).2 =
      { sm with lastAppliedLog := some entry.logId } := by
  obtain ⟨err, herr⟩ := sm.applyEntry_of_not_valid h
  simp only [applyStream]
  rw [herr]

/-- The state machine after the loop, if no payload stopped it. -/
theorem applyStream_completed (sm : UnsafeHeadStateMachine T)
    (items : List (Except IoError (Entry T × Option Responder))) (h : rejected items = none) :
    (sm.applyStream items).2 = sm.applyAll (completed items) := by
  induction items generalizing sm with
  | nil => rfl
  | cons item rest ih =>
      cases item with
      | error err => rfl
      | ok p =>
          obtain ⟨entry, responder⟩ := p
          by_cases hvalid : entry.Valid
          · rw [rejected, if_pos hvalid] at h
            rw [sm.applyStream_valid hvalid, completed, if_pos hvalid]
            exact ih (sm.applyEntry entry).2 h
          · rw [rejected, if_neg hvalid] at h
            cases h

/-- A payload that stops the loop leaves its entry's log id. -/
theorem applyStream_rejected (sm : UnsafeHeadStateMachine T)
    (items : List (Except IoError (Entry T × Option Responder))) {entry : Entry T}
    (h : rejected items = some entry) :
    (sm.applyStream items).2 =
      { sm.applyAll (completed items) with lastAppliedLog := some entry.logId } := by
  induction items generalizing sm with
  | nil => cases h
  | cons item rest ih =>
      cases item with
      | error err => cases h
      | ok p =>
          obtain ⟨first, responder⟩ := p
          by_cases hvalid : first.Valid
          · rw [rejected, if_pos hvalid] at h
            rw [sm.applyStream_valid hvalid, completed, if_pos hvalid]
            exact ih (sm.applyEntry first).2 h
          · rw [rejected, if_neg hvalid] at h
            cases h
            rw [sm.applyStream_not_valid hvalid, completed, if_neg hvalid]
            rfl

end UnsafeHeadStateMachine

namespace MemoryRaftStore
open UnsafeHeadStateMachine
variable {T : TypeConfig} {Bytes : Type}

/-- The index after the last of some first entries of the stream. -/
theorem nextIndex_of_isPrefix {last : Option (LogId T)}
    {items : List (Except IoError (Entry T × Option Responder))} {first : List (Entry T)}
    (hfirst : first <+: streamEntries items)
    (h : (streamEntries items).map (fun entry => entry.logId.index) =
      List.range' (LogId.nextIndex T last) (streamEntries items).length) :
    LogId.nextIndex T ((first.getLast?.map Entry.logId).or last) =
      LogId.nextIndex T last + first.length := by
  obtain ⟨rest, hrest⟩ := hfirst
  rw [← hrest, List.map_append, List.length_append, ← List.range'_append_1] at h
  have hindexes := List.append_inj_left h (by simp)
  cases hlast : first.getLast? with
  | none =>
      rw [List.getLast?_eq_none_iff.mp hlast]
      rfl
  | some entry => exact (Segment.next_of_getLast? ⟨_, first, hindexes⟩ hlast).symm

/-- The calls that do not touch the state machine. -/
def OtherCall : StoreCall T Bytes → Prop
  | .apply _ | .installSnapshot _ _ => False
  | .saveVote _ | .saveCommitted _ | .append _ | .truncateAfter _ | .purge _
  | .buildSnapshot => True

/-- Any number of other calls, whatever they return. -/
def Others (codec : Codec T Bytes) (path : StorePath) :
    StoreState T Bytes Unit → StoreState T Bytes Unit → Prop :=
  Relation.ReflTransGen fun s t => ∃ call out, OtherCall call ∧
    Runs Cluster.perform (body codec (some path) call) s out t

/-- The call has written out an image: it returned `Ok`, or it was stopped after it
had replaced the file. -/
def WritesOut (codec : Codec T Bytes) (path : StorePath) (call : StoreCall T Bytes)
    (s t : StoreState T Bytes Unit) : Prop :=
  (∃ out, Runs Cluster.perform (body codec (some path) call) s (.ok out) t) ∨
    (Cut Cluster.perform (body codec (some path) call) s t ∧ t.file ≠ s.file)

variable {codec : Codec T Bytes} {path : StorePath} {s t : StoreState T Bytes Unit}

theorem OtherCall.memory {call : StoreCall T Bytes} (h : OtherCall call)
    (f : StoreFields T Bytes) : call.memory codec f .sm = f .sm := by
  cases call with
  | apply _ | installSnapshot _ _ => cases h
  | _ => rfl

theorem runs_memory {call : StoreCall T Bytes} {out : StoreOut T Bytes}
    (hs : s.persistOwner = none)
    (h : Runs Cluster.perform (body codec (some path) call) s out t) :
    t.fields = call.memory codec s.fields ∧ t.persistOwner = none := by
  refine ⟨runs_fields h, ?_⟩
  cases out with
  | ok out => exact (Alone.runs_ok hs h).2.1
  | error err => exact (Alone.runs_error hs h).2.1

theorem Others.sm (h : Others codec path s t) (hs : s.persistOwner = none) :
    t.fields .sm = s.fields .sm ∧ t.persistOwner = none := by
  induction h with
  | refl => exact ⟨rfl, hs⟩
  | tail _ hstep ih =>
      obtain ⟨call, out, hother, hrun⟩ := hstep
      obtain ⟨hfields, howner⟩ := runs_memory ih.2 hrun
      rw [hfields, hother.memory]
      exact ⟨ih.1, howner⟩

theorem WritesOut.file {call : StoreCall T Bytes} (h : WritesOut codec path call s t)
    (hs : s.persistOwner = none) : t.file = Alone.saved codec (call.memory codec s.fields) := by
  rcases h with ⟨out, hrun⟩ | ⟨hcut, hnew⟩
  · exact (Alone.runs_ok hs hrun).2.2
  · exact (Alone.cut_file hs hcut).resolve_left hnew

/-- Images that others write out hold the state machine as it is in memory. -/
theorem image_sm (hc : codec.Lawful) {u v : StoreState T Bytes Unit}
    {call : StoreCall T Bytes} {image : PersistedRaftStore T Bytes} (hs : s.persistOwner = none)
    (hothers : Others codec path s u) (hother : OtherCall call)
    (hwrites : WritesOut codec path call u v) (hload : load codec v.file = .ok image) :
    image.sm = s.fields .sm := by
  obtain ⟨hsm, howner⟩ := hothers.sm hs
  rw [hwrites.file howner, Alone.saved, load_store hc] at hload
  cases hload
  exact (hother.memory u.fields).trans hsm

theorem runs_apply_sm {path : Option StorePath}
    {items : List (Except IoError (Entry T × Option UnsafeHeadStateMachine.Responder))}
    {out : StoreOut T Bytes}
    (h : Runs Cluster.perform (body codec path (.apply items)) s out t) :
    t.fields .sm = (applyStream (s.fields .sm) items).2 := by
  rw [runs_fields h]
  rfl

/-- The entries of the stream follow on what has been applied. -/
def Consecutive (last : Option (LogId T))
    (items : List (Except IoError (Entry T × Option UnsafeHeadStateMachine.Responder))) : Prop :=
  (streamEntries items).map (fun entry => entry.logId.index) =
    List.range' (LogId.nextIndex T last) (streamEntries items).length

/-- An `apply` that fails has recorded the log id of the last entry it processed
completely, unless an invalid payload stopped it. What others write out later, read
back, goes on with the entry after that one. An invalid payload leaves the log id of
its own entry, so that this entry is not applied again. -/
theorem failed_apply_resumes (codec : Codec T Bytes) (hc : codec.Lawful)
    (path : Option StorePath) (s t : StoreState T Bytes Unit) (hs : s.persistOwner = none)
    (items : List (Except IoError (Entry T × Option UnsafeHeadStateMachine.Responder)))
    (err : IoError)
    (hrun : Runs Cluster.perform (body codec path (.apply items)) s (.error err) t) :
    (rejected items = none →
      (t.fields .sm).lastAppliedLog =
        ((completed items).getLast?.map Entry.logId).or (s.fields .sm).lastAppliedLog ∧
      ∀ p, path = some p → ∀ u, Others codec p t u →
        ∀ call v, OtherCall call → WritesOut codec p call u v →
        ∀ image, load codec v.file = .ok image →
          image.sm = t.fields .sm ∧
          (Consecutive (s.fields .sm).lastAppliedLog items →
            LogId.nextIndex T image.sm.lastAppliedLog =
              LogId.nextIndex T (s.fields .sm).lastAppliedLog + (completed items).length)) ∧
    ∀ entry, rejected items = some entry →
      (t.fields .sm).lastAppliedLog = some entry.logId ∧
      (Consecutive (s.fields .sm).lastAppliedLog items →
        LogId.nextIndex T (t.fields .sm).lastAppliedLog =
          LogId.nextIndex T (s.fields .sm).lastAppliedLog + (completed items).length + 1) := by
  have hsm := runs_apply_sm hrun
  refine ⟨fun haccepted => ?_, fun entry hrejected => ?_⟩
  · rw [applyStream_completed _ _ haccepted] at hsm
    have hlast : (t.fields .sm).lastAppliedLog =
        ((completed items).getLast?.map Entry.logId).or (s.fields .sm).lastAppliedLog := by
      rw [hsm, applyAll_lastAppliedLog]
    refine ⟨hlast, fun p hp u hothers call v hother hwrites image hload => ?_⟩
    subst hp
    have howner := (Alone.runs_error hs hrun).2.1
    have himage := image_sm hc howner hothers hother hwrites hload
    refine ⟨himage, fun hindexes => ?_⟩
    rw [himage, hlast]
    exact nextIndex_of_isPrefix (completed_isPrefix items) hindexes
  · rw [applyStream_rejected _ _ hrejected] at hsm
    have hlast : (t.fields .sm).lastAppliedLog = some entry.logId := by rw [hsm]
    refine ⟨hlast, fun hindexes => ?_⟩
    have hnext := nextIndex_of_isPrefix (rejected_isPrefix hrejected) hindexes
    rw [List.getLast?_concat, List.length_append] at hnext
    rw [hlast]
    exact hnext

def unreadable : Entry .single := ⟨⟨(), 0⟩, .normal (.commitUnsafePayload ⟨.null⟩)⟩

def readable : Entry .single := ⟨⟨(), 0⟩, .blank⟩

def opened : StoreState .single (Document .single) Unit :=
  .opened (Codec.document .single) (.default .single _)

def ballot : StoreCall .single (Document .single) := .saveVote (1 : Nat)

/-- A vote can always be written out. -/
theorem writesOut_ballot (s : StoreState .single (Document .single) Unit)
    (hs : s.persistOwner = none) :
    ∃ t, WritesOut (Codec.document .single) ⟨false⟩ ballot s t := by
  obtain ⟨fields, owner, file, tmp⟩ := s
  cases hs
  exact ⟨_, .inl ⟨none, runs_of_execute_eq (x := .smooth _) rfl⟩⟩

/-- The stream breaks off after one entry, a vote is written out, and the next
index to apply is the one after that entry. -/
theorem broken_stream_resumes :
    ∃ t v, Runs Cluster.perform
        (body (Codec.document .single) (some ⟨false⟩)
          (.apply [.ok (readable, none), .error ⟨.other, "closed"⟩])) opened
        (.error ⟨.other, "closed"⟩) t ∧
      WritesOut (Codec.document .single) ⟨false⟩ ballot t v ∧
      ∀ image, load (Codec.document .single) v.file = .ok image →
        LogId.nextIndex .single image.sm.lastAppliedLog = 1 := by
  have hrun : ∃ t, Runs Cluster.perform
      (body (Codec.document .single) (some ⟨false⟩)
        (.apply [.ok (readable, none), .error ⟨.other, "closed"⟩])) opened
      (.error ⟨.other, "closed"⟩) t := ⟨_, runs_of_execute_eq (x := .smooth _) rfl⟩
  obtain ⟨t, hrun⟩ := hrun
  obtain ⟨v, hwrites⟩ := writesOut_ballot t (Alone.runs_error rfl hrun).2.1
  obtain ⟨-, hresumes⟩ := (failed_apply_resumes _ (Codec.document_lawful .single)
    (some ⟨false⟩) opened t rfl _ _ hrun).1 rfl
  refine ⟨t, v, hrun, hwrites, fun image hload => ?_⟩
  exact (hresumes _ rfl t .refl ballot v trivial hwrites image hload).2 rfl

/-- One entry, which cannot be applied, is recorded as applied; a vote is written
out, and the store that is opened on it goes on after the entry. -/
theorem failed_apply_skips :
    ∃ t v err, Runs Cluster.perform
        (body (Codec.document .single) (some ⟨false⟩) (.apply [.ok (unreadable, none)])) opened
        (.error err) t ∧
      WritesOut (Codec.document .single) ⟨false⟩ ballot t v ∧
      (opened.fields .sm).lastAppliedLog = none ∧ completed [.ok (unreadable, none)] = [] ∧
      (t.fields .sm).lastAppliedLog = some unreadable.logId ∧
      ∃ image, load (Codec.document .single) v.file = .ok image ∧
        image.sm.lastAppliedLog = some unreadable.logId := by
  have hrun : ∃ err t, Runs Cluster.perform
      (body (Codec.document .single) (some ⟨false⟩) (.apply [.ok (unreadable, none)])) opened
      (.error err) t := ⟨_, _, runs_of_execute_eq (x := .smooth _) rfl⟩
  obtain ⟨err, t, hrun⟩ := hrun
  have howner := (Alone.runs_error rfl hrun).2.1
  have hclaimed : (t.fields .sm).lastAppliedLog = some unreadable.logId := by
    rw [runs_apply_sm hrun, applyStream_rejected _ _ rfl]
  obtain ⟨v, hwrites⟩ := writesOut_ballot t howner
  have hload : load (Codec.document .single) v.file =
      .ok (StoreFields.image (ballot.memory (Codec.document .single) t.fields)) := by
    rw [hwrites.file howner]
    rfl
  have hother : OtherCall ballot := trivial
  refine ⟨t, v, err, hrun, hwrites, rfl, rfl, hclaimed, _, hload, ?_⟩
  rw [image_sm (Codec.document_lawful .single) howner .refl hother hwrites hload]
  exact hclaimed

end MemoryRaftStore
end ConductorRs

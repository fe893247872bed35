import ConductorRs.Metatheory.SnapshotOrderSteps

/-!
The snapshot in place never goes backwards: the calls and their runs.

The last section leaves the policy: a build that an install overtakes puts back
a snapshot that is older than the purged log.
-/
namespace ConductorRs.MemoryRaftStore.SnapshotOrder
open Concurrency

section
variable {T : TypeConfig} {Bytes : Type} {codec : Codec T Bytes} {path : Option StorePath}
variable {i : StoreTask}

/-- What a call has put in place when it returns. -/
def Returned (call : StoreCall T Bytes) (out : StoreOut T Bytes) : Sys T Bytes → Prop :=
  Placed (Snapshots.covered call out)

theorem noSnapshot_quiet {t : Task (StoreOps T Bytes) (Except IoError Unit)}
    (ht : t.All Quiet) : (noSnapshot t).All Quiet :=
  Task.all_bind _ t _ ht fun _ => trivial

theorem persist_after {A : Sys T Bytes → Prop} {o : StoreOp T Bytes} (ho : Quiet o)
    (h : ∀ s, A s → Placed 0 s) :
    (logic codec path i).Holds A
      (noSnapshot ((op o).bind fun _ => persistToDisk codec path)) fun _ => Placed 0 := by
  have hquiet : ((op o).bind fun _ => persistToDisk codec path).All Quiet :=
    ⟨ho, fun _ => persistToDisk_quiet⟩
  exact (logic codec path i).pre h (placed_all (noSnapshot_quiet hquiet) 0)

theorem append_quiet (entries : List (Entry T)) : (append codec path entries).All Quiet := by
  refine Task.all_bind _ (op _) _ ⟨by simp [Quiet, StoreOp.target], fun _ => trivial⟩ fun _ => ?_
  refine Task.all_bind _ _ _ persistToDisk_quiet fun r => ?_
  cases r <;> exact ⟨quiet_of_keepsFields rfl, fun _ => trivial⟩

theorem buildSnapshot_holds :
    (logic codec path .snapshot).Holds (fun _ => True) (buildSnapshot codec path) fun r =>
      Returned .buildSnapshot (r.map some) := by
  refine (logic codec path _).bind
    (R := fun (sm : UnsafeHeadStateMachine T) => Copied (LogId.nextIndex T sm.lastAppliedLog))
    (read_sm (fun _ _ _ _ _ => trivial) fun s hi _ => ⟨Nat.le_refl _, fun _ => hi.applied⟩)
    fun sm => ?_
  refine (logic codec path _).bind (quiet_holds (by simp [Quiet, StoreOp.target]) (by simp)
    (copied_stable _)) fun idx => ?_
  refine (logic codec path _).bind (place_snapshot (copied_stable _) _
    fun s _ hs ho => ⟨hs.2 (ho rfl), hs.1⟩) fun _ => ?_
  refine (logic codec path _).bind (placed_all persistToDisk_quiet _) fun r => ?_
  cases r with
  | ok u => exact (logic codec path _).done fun _ _ h => h
  | error err => exact (logic codec path _).done fun _ _ _ => Nat.zero_le _

theorem apply_holds
    (items : List (Except IoError (Entry T × Option UnsafeHeadStateMachine.Responder))) :
    (logic codec path .sm).Holds (fun s => Rules codec s (.apply items))
      (apply codec path items) fun _ => Placed 0 := by
  have hstable : outline.Stable .sm fun s : Sys T Bytes => Rules codec s (.apply items) :=
    sm_stable fun sm => ∀ entry ∈ UnsafeHeadStateMachine.streamEntries items,
      LogId.nextIndex T sm.lastAppliedLog ≤ entry.logId.index
  refine (logic codec path _).bind (R := fun _ => Placed 0) (advance_sm rfl hstable ?_)
    fun applied => placed_all ?_ 0
  · intro s x r store hrule hp
    cases hp
    refine ⟨?_, Nat.zero_le _⟩
    simp only [appliedIndex, StoreState.set_same]
    exact UnsafeHeadStateMachine.applyStream_applied _ items hrule
  · cases applied with
    | error err => trivial
    | ok responses =>
        refine Task.all_bind _ _ _ persistToDisk_quiet fun r => ?_
        cases r with
        | error err => trivial
        | ok u =>
            exact Task.all_bind _ _ _
              (respondAll_all responses fun _ _ _ => quiet_of_keepsFields rfl) fun _ => trivial

theorem installSnapshot_holds (snapshotMeta : SnapshotMeta T) (data : Bytes) :
    (logic codec path .sm).Holds (fun s => Rules codec s (.installSnapshot snapshotMeta data))
      (installSnapshot codec path snapshotMeta data) fun r =>
        Returned (.installSnapshot snapshotMeta data) (r.map fun _ => none) := by
  unfold installSnapshot
  cases hdecode : codec.decodeSm data with
  | error err => exact (logic codec path _).done fun _ _ _ => Nat.zero_le _
  | ok sm =>
      intro s₀ hi₀ hrule₀
      have hlast : sm.lastAppliedLog = snapshotMeta.lastLogId := hrule₀.2 sm hdecode
      suffices h : (logic codec path .sm).Holds
          (fun s => appliedIndex s.store < LogId.nextIndex T snapshotMeta.lastLogId)
          (do
            op (.write .sm sm)
            op (.write .currentSnapshot (some ⟨snapshotMeta, data⟩))
            persistToDisk codec path)
          fun r => Returned (.installSnapshot snapshotMeta data) (r.map fun _ => none) from
        h s₀ hi₀ hrule₀.1
      refine (logic codec path _).bind (R := fun _ s => s.store.fields .sm = sm)
        (advance_sm rfl (sm_stable fun sm => LogId.nextIndex T sm.lastAppliedLog <
          LogId.nextIndex T snapshotMeta.lastLogId) ?_) fun _ => ?_
      · intro s x r store hlt hp
        cases hp
        refine ⟨?_, s.store.set_same .sm sm⟩
        simp only [appliedIndex, StoreState.set_same, hlast]
        exact Nat.le_of_lt hlt
      · refine (logic codec path _).bind (place_snapshot (sm_stable fun sm' => sm' = sm) _ ?_)
          fun _ => ?_
        · intro s hi hsm _
          have happlied : appliedIndex s.store = LogId.nextIndex T snapshotMeta.lastLogId := by
            rw [appliedIndex, hsm, hlast]
          exact ⟨happlied ▸ hi.applied, happlied.ge⟩
        · refine (logic codec path _).post (placed_all persistToDisk_quiet _) fun r s h => ?_
          cases r with
          | ok u => exact h
          | error err => exact Nat.zero_le _

theorem purge_holds (logId : LogId T) :
    (logic codec path i).Holds (fun s => Rules codec s (.purge logId))
      (purge codec path logId) fun _ => Placed 0 := by
  refine (logic codec path _).bind (record_purged logId) fun _ => placed_all ?_ 0
  exact ⟨by simp [Quiet, StoreOp.target], fun _ => persistToDisk_quiet⟩

theorem body_holds (call : StoreCall T Bytes) :
    (logic codec path call.task).Holds (fun s => Rules codec s call) (body codec path call)
      (Returned call) := by
  have hzero : ∀ s : Sys T Bytes, Rules codec s call → Placed 0 s := fun _ _ => Nat.zero_le _
  cases call with
  | saveVote vote => exact persist_after (by simp [Quiet, StoreOp.target]) hzero
  | saveCommitted committed => exact persist_after (by simp [Quiet, StoreOp.target]) hzero
  | append entries =>
      exact (logic codec path _).pre hzero (placed_all (noSnapshot_quiet (append_quiet entries)) 0)
  | truncateAfter lastLogId => exact persist_after (by simp [Quiet, StoreOp.target]) hzero
  | purge logId => exact noSnapshot_triple (purge_holds logId)
  | buildSnapshot =>
      refine (logic codec path _).bind ((logic codec path _).pre (fun _ _ => trivial)
        buildSnapshot_holds) fun r => ?_
      exact (logic codec path _).done fun _ _ h => h
  | apply items => exact noSnapshot_triple (apply_holds items)
  | installSnapshot snapshotMeta data =>
      exact noSnapshot_triple (installSnapshot_holds snapshotMeta data)

theorem verified (codec : Codec T Bytes) (path : Option StorePath) :
    (machine codec path watch).Verified (policy codec) outline := by
  refine Machine.verified_of_calls coherent
    (A := fun i call s => call.task = i ∧ Rules codec s call)
    (Q := fun _ call out => Returned call out) (fun i _ _ => placed_stable i _) ?_ ?_ ?_
    fun s e => e.elim
  · intro s i call s' hi _ he hrule
    cases he
    exact ⟨⟨hi, fun j _ => coherent.refl j s⟩, hrule⟩
  · rintro i call s hi ⟨rfl, hs⟩
    exact body_holds call s hi hs
  · intro s i call out hi hs
    have hcovered : Snapshots.covered call out ≤ snapshotIndex s.store := hs
    refine ⟨⟨⟨hi.purged, hi.applied, ?_⟩, fun j _ => ?_⟩, trivial⟩
    · exact Nat.max_le.mpr ⟨hi.completed, hcovered⟩
    · exact ⟨Nat.le_refl _, Nat.le_refl _, Nat.le_max_left _ _, fun _ => rfl, fun _ h => ⟨h, rfl⟩⟩

/-- The snapshot of an image covers what has been purged and nothing that has not
been applied. -/
def InOrder (store : Store T Bytes) : Prop :=
  purgedIndex store ≤ snapshotIndex store ∧ snapshotIndex store ≤ appliedIndex store

/-- A store that has just been opened from an image; its snapshot is complete. -/
def initial (codec : Codec T Bytes) (image : PersistedRaftStore T Bytes) : Sys T Bytes where
  store := .opened codec image
  hist := ⟨false, snapshotIndex (.opened codec image)⟩

/-- In every run under the policy, the snapshot in place moves forward only and
covers what has been purged. -/
theorem snapshot_never_backwards (codec : Codec T Bytes) (path : Option StorePath)
    (image : PersistedRaftStore T Bytes) (himage : InOrder (.opened codec image : Store T Bytes))
    (c c' : Config StoreTask (StoreOps T Bytes) (Sys T Bytes) (StoreCall T Bytes)
      (StoreOut T Bytes))
    (hr : (machine codec path watch).Reaches (policy codec)
      (Config.quiet (initial codec image)) c)
    (hr' : (machine codec path watch).Reaches (policy codec) c c') :
    snapshotIndex c.state.store ≤ snapshotIndex c'.state.store ∧
      purgedIndex c'.state.store ≤ snapshotIndex c'.state.store := by
  have hquiet : (machine codec path watch).Conforms (policy codec) outline
      (Config.quiet (initial codec image)) :=
    Machine.conforms_quiet _ ⟨himage.1, himage.2, Nat.le_refl _⟩ fun _ => trivial
  have hc := (verified codec path).reaches hquiet hr
  have hi : Sound c'.state := ((verified codec path).reaches hc hr').1
  refine ⟨?_, hi.purged⟩
  exact (verified codec path).relates
    (R := fun s s' => snapshotIndex s.store ≤ snapshotIndex s'.store)
    (fun _ => Nat.le_refl _) Nat.le_trans (fun _ _ _ h => h.snapshot) hc hr'

end

section
/-- One node leads every term, so an index is a log id. -/
def logIdAt (index : Nat) : Option (LogId .single) := some ⟨(), index⟩

def built (index : Nat) : SnapshotMeta .single × Document .single :=
  (⟨logIdAt index, ⟨none, ()⟩, "built elsewhere"⟩, .sm ⟨logIdAt index, ⟨none, ()⟩, none⟩)

def followsRules (c : Running Snapshots) : Trace → Bool
  | .call i call => decide (call.task = i) && match call with
      | .apply [.ok (entry, _)] => decide (appliedIndex c.state.store ≤ entry.logId.index)
      | .installSnapshot ⟨some logId, _, _⟩ (.sm ⟨some applied, _, _⟩) =>
          decide (appliedIndex c.state.store < logId.index + 1 ∧ applied.index = logId.index)
      | .purge logId => decide (logId.index + 1 ≤ c.state.hist.completed)
      | .buildSnapshot => true
      | _ => false
  | _ => true

def keepsPolicy (c : Running Snapshots) : Trace → Bool
  | .step i _ => match c.pending i with
      | some (.write .currentSnapshot _) => !c.state.hist.overtaken
      | _ => true
  | e => followsRules c e

theorem permits_of_followsRules (c : Running Snapshots) (e : Trace) (h : followsRules c e = true) :
    (rules (Codec.document .single)).Permits c e := by
  cases e with
  | ret i => trivial
  | env e => exact e.elim
  | step i x =>
      simp only [Policy.Permits]
      split <;> trivial
  | call i call =>
      simp only [followsRules, Bool.and_eq_true, decide_eq_true_eq] at h
      refine ⟨h.1, ?_⟩
      have hrule := h.2
      split at hrule
      · next first _ =>
          have hone : ∀ entry ∈ [first], appliedIndex c.state.store ≤ entry.logId.index := by
            simpa using hrule
          exact hone
      · next logId _ _ applied _ _ =>
          obtain ⟨hlt, hindex⟩ := of_decide_eq_true hrule
          refine ⟨hlt, fun sm hsm => ?_⟩
          cases hsm
          obtain ⟨⟨⟩, index⟩ := applied
          obtain ⟨⟨⟩, index'⟩ := logId
          simp only at hindex
          rw [hindex]
      · simp only [decide_eq_true_eq] at hrule
        exact hrule
      · trivial
      · cases hrule

theorem permits_of_keepsPolicy (c : Running Snapshots) (e : Trace) (h : keepsPolicy c e = true) :
    (policy (Codec.document .single)).Permits c e := by
  cases e with
  | call i call => exact permits_of_followsRules c (.call i call) h
  | ret i => trivial
  | env e => exact e.elim
  | step i x =>
      simp only [Policy.Permits]
      split
      · next call o next ht =>
          simp only [policy]
          split
          · intro _
            simpa [keepsPolicy, Config.pending, ht] using h
          · trivial
      · trivial

def fresh : Sys .single (Document .single) := initial (Codec.document .single) (.default .single _)

/-- The first entry is applied. -/
def applied : List Trace :=
  [.call .sm (.apply [.ok (⟨⟨(), 0⟩, .blank⟩, none)])] ++ run .sm 16 ++ [.ret .sm]

/-- A snapshot of the applied entry is put in place. -/
def firstBuild : List Trace :=
  applied ++ [.call .snapshot .buildSnapshot] ++ run .snapshot 18 ++ [.ret .snapshot]

/-- A newer snapshot is installed, and while the next build is going on the log is
purged up to it. -/
def secondBuild : List Trace :=
  [.call .sm (.installSnapshot (built 4).1 (built 4).2)] ++ run .sm 17 ++ [.ret .sm] ++
  [.call .snapshot .buildSnapshot] ++ run .snapshot 1 ++
  [.call .log (.purge ⟨(), 4⟩)] ++ run .log 17 ++ [.ret .log] ++
  run .snapshot 17 ++ [.ret .snapshot]

theorem builds_move_forward :
    ∃ c c', (machine (Codec.document .single) (some ⟨false⟩) watch).Reaches
        (policy (Codec.document .single)) (Config.quiet fresh) c ∧
      (machine (Codec.document .single) (some ⟨false⟩) watch).Reaches
        (policy (Codec.document .single)) c c' ∧
      snapshotIndex c.state.store = 1 ∧ purgedIndex c'.state.store = 5 ∧
      snapshotIndex c.state.store ≤ snapshotIndex c'.state.store ∧
      purgedIndex c'.state.store ≤ snapshotIndex c'.state.store := by
  have hfirst : ∃ c, (machine (Codec.document .single) (some ⟨false⟩) watch).Reaches
      (policy (Codec.document .single)) (Config.quiet fresh) c ∧
      (decide (snapshotIndex c.state.store = 1) &&
        ((machine (Codec.document .single) (some ⟨false⟩) watch).replay keepsPolicy c
          secondBuild).any fun c' => decide (purgedIndex c'.state.store = 5)) = true :=
    Machine.reaches_of_replay keepsPolicy firstBuild
      (fun e _ c h => permits_of_keepsPolicy c e h) (by decide +kernel)
  obtain ⟨c, hr, hrest⟩ := hfirst
  obtain ⟨hbuilt, hsecond⟩ := Bool.and_eq_true_iff.mp hrest
  obtain ⟨c', hr', hpurged⟩ := Machine.reaches_of_replay keepsPolicy secondBuild
    (fun e _ c h => permits_of_keepsPolicy c e h) hsecond
  have horder : InOrder (.opened (Codec.document .single) (.default .single _) :
      Store .single (Document .single)) := ⟨Nat.le_refl _, Nat.le_refl _⟩
  exact ⟨c, c', hr, hr', of_decide_eq_true hbuilt, of_decide_eq_true hpurged,
    snapshot_never_backwards _ (some ⟨false⟩) _ horder c c' hr hr'⟩

/-- A build copies the state machine, and a newer snapshot is installed. -/
def overtaken : List Trace :=
  applied ++ [.call .snapshot .buildSnapshot] ++ run .snapshot 1 ++
  [.call .sm (.installSnapshot (built 4).1 (built 4).2)] ++ run .sm 17 ++ [.ret .sm]

/-- The log is purged up to the installed snapshot before the build goes on. -/
def putBack : List Trace := [.call .log (.purge ⟨(), 4⟩)] ++ run .log 1 ++ run .snapshot 2

theorem overtaken_build :
    ∃ c c', (machine (Codec.document .single) (some ⟨false⟩) watch).Reaches
        (rules (Codec.document .single)) (Config.quiet fresh) c ∧
      (machine (Codec.document .single) (some ⟨false⟩) watch).Reaches
        (rules (Codec.document .single)) c c' ∧
      snapshotIndex c'.state.store < snapshotIndex c.state.store ∧
      snapshotIndex c'.state.store < purgedIndex c'.state.store := by
  have hrun : ∃ c, (machine (Codec.document .single) (some ⟨false⟩) watch).Reaches
      (rules (Codec.document .single)) (Config.quiet fresh) c ∧
      (((machine (Codec.document .single) (some ⟨false⟩) watch).replay followsRules c
        putBack).any fun c' => decide (snapshotIndex c'.state.store < snapshotIndex c.state.store ∧
          snapshotIndex c'.state.store < purgedIndex c'.state.store)) = true :=
    Machine.reaches_of_replay followsRules overtaken
      (fun e _ c h => permits_of_followsRules c e h) (by decide +kernel)
  obtain ⟨c, hr, hrest⟩ := hrun
  obtain ⟨c', hr', hback⟩ := Machine.reaches_of_replay followsRules putBack
    (fun e _ c h => permits_of_followsRules c e h) hrest
  exact ⟨c, c', hr, hr', of_decide_eq_true hback⟩

end
end ConductorRs.MemoryRaftStore.SnapshotOrder

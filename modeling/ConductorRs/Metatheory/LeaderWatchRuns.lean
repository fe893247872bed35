import ConductorRs.Metatheory.LeaderWatch

/-!
The leader watch, the control loop and the calls of the conductor keep every loop
settled: one triple for each of their pieces, and what follows of every run.
-/
namespace ConductorRs.Runtime
open Concurrency Conductor

section
variable {Tid : Type} {w i : Tid}

/-- The thread owes no action for a resume. -/
def Free (i : Tid) (s : RuntimeState Tid) : Prop := (s.own i).resumeOwes = false

/-- A control loop that runs the next action itself, or is settled. -/
def Looping (w i : Tid) (actionPending : Bool) (s : RuntimeState Tid) : Prop :=
  Free i s ∧ (actionPending = false → Settled w i s)

theorem looping_stable {actionPending : Bool} :
    (outline w).Stable i (Looping w i actionPending) := by
  intro s s' h hr hi
  exact ⟨own_stable (fun own => own.resumeOwes = false) s s' h.1 hr hi,
    fun hp => hr.2 (h.2 hp)⟩

theorem Looping.any {s : RuntimeState Tid} (h : Looping w i false s) (actionPending : Bool) :
    Looping w i actionPending s :=
  ⟨h.1, fun _ => h.2 rfl⟩

theorem Free.looping {s : RuntimeState Tid} (h : Free i s) : Looping w i true s :=
  ⟨h, fun hp => by cases hp⟩

/-- A thread inside the action lock. -/
def InAction (i : Tid) (phase : Phase) (s : RuntimeState Tid) : Prop :=
  (s.own i).resumeOwes = false ∧ (s.own i).phase = phase

theorem inAction_stable {phase : Phase} : (outline w).Stable i (InAction i phase) :=
  own_stable fun own => own.resumeOwes = false ∧ own.phase = phase

/-- A watcher that has noted the flag and queued its action. -/
def Noted (i : Tid) (leader : Bool) (s : RuntimeState Tid) : Prop :=
  (s.own i).resumeOwes = false ∧ (s.own i).noted = some leader ∧ (s.own i).watchOwes = false

theorem noted_stable {leader : Bool} : (outline w).Stable i (Noted i leader) :=
  own_stable fun own => own.resumeOwes = false ∧ own.noted = some leader ∧ own.watchOwes = false

/-- A watcher that has also looked at all the metrics it has seen. -/
def Watches (i : Tid) (leader : Bool) (s : RuntimeState Tid) : Prop :=
  Noted i leader s ∧ (s.own i).metricsSeen ≤ (s.own i).notedAt

theorem watches_stable {leader : Bool} : (outline w).Stable i (Watches i leader) :=
  own_stable fun own => (own.resumeOwes = false ∧ own.noted = some leader ∧
    own.watchOwes = false) ∧ own.metricsSeen ≤ own.notedAt

/-- A watcher that has noted a flag and may not have queued its action yet. -/
def Owing (i : Tid) (leader : Bool) (s : RuntimeState Tid) : Prop :=
  (s.own i).resumeOwes = false ∧ (s.own i).noted = some leader

theorem owing_stable {leader : Bool} : (outline w).Stable i (Owing i leader) :=
  own_stable fun own => own.resumeOwes = false ∧ own.noted = some leader

/-- A watcher that has read nothing yet. -/
def Fresh (i : Tid) (s : RuntimeState Tid) : Prop :=
  (s.own i).resumeOwes = false ∧ (s.own i).watching = true ∧ (s.own i).noted = none ∧
    (s.own i).watchOwes = false

theorem fresh_stable : (outline w).Stable i (Fresh i) :=
  own_stable fun own => own.resumeOwes = false ∧ own.watching = true ∧ own.noted = none ∧
    own.watchOwes = false

theorem free_stable : (outline w).Stable i (Free i) :=
  own_stable fun own => own.resumeOwes = false

theorem new_sound (cfg : ConductorConfig) (leader : Bool) (version : Nat) :
    Sound (.new cfg leader version : RuntimeState Tid) :=
  fun _ => ⟨Nat.le_refl _, Nat.zero_le _, fun _ => rfl, fun h => absurd rfl h⟩

end

section
variable {Tid : Type} [DecidableEq Tid] {cfg : ConductorConfig} {w i : Tid}

abbrev logic (cfg : ConductorConfig) (w i : Tid) : Logic Supervisor (RuntimeState Tid) :=
  (runtimeMachine Tid cfg).logic (changesSeen w) (outline w) i

/-- The logic of the conductor's own tasks. -/
abbrev inner (cfg : ConductorConfig) (w i : Tid) : Logic Shared (RuntimeState Tid) :=
  (logic cfg w i).via lift

theorem shared_triple {o : Conductor.Op} {A : RuntimeState Tid → Prop}
    {Q : o.Reply → RuntimeState Tid → Prop} (hA : (outline w).Stable i A)
    (hlow : lowers o = false)
    (h : ∀ s x r s', A s → s.performShared i o x = some (r, s') → Q r s') :
    (inner cfg w i).Holds A (op o) Q := by
  apply Logic.via_call
  apply Machine.Triple.call hA
  intro s hi hs
  refine ⟨trivial, fun x r s' hp _ => ?_⟩
  have hp : s.performShared i o x = some (r, s') := hp
  exact ⟨grants_shared hi hp hlow, h s x r s' hs hp⟩

theorem free_shared {s s' : RuntimeState Tid} {o : Conductor.Op} {x : Choice} {r : o.Reply}
    (h : s.performShared i o x = some (r, s')) (ho : unpauses o = false) (hs : Free i s) :
    Free i s' := by
  have hs : (s.own i).resumeOwes = false := hs
  rw [Free, shared_own h]
  cases hsend : isSend o with
  | false => rw [(after_debts _ _ o r hsend).2, hs, ho, Bool.or_false]
  | true =>
      cases o with
      | sendAction seq => rfl
      | _ => cases hsend

theorem looping_op {o : Conductor.Op} {actionPending : Bool} (ho : Steady o) :
    (inner cfg w i).Holds (Looping w i actionPending) (op o)
      fun _ => Looping w i actionPending := by
  apply Logic.via_call
  apply Machine.Triple.call looping_stable
  intro s hi hs
  refine ⟨trivial, fun x r s' hp _ => ?_⟩
  have hp : s.performShared i o x = some (r, s') := hp
  exact ⟨grants_shared hi hp ho.1, free_shared hp ho.2 hs.1,
    fun hpending => (hs.2 hpending).shared hi hp ho.1⟩

theorem looping_all {α : Type} {t : Task Shared α} {actionPending : Bool} (ht : t.All Steady) :
    (inner cfg w i).Holds (Looping w i actionPending) t fun _ => Looping w i actionPending :=
  (inner cfg w i).all (fun _ ho => looping_op ho) ht

/-- A guard that stops the action leaves the loop settled: no action would read
the flag now. -/
def Guarded (w i : Tid) (up : Bool) (s : RuntimeState Tid) : Prop :=
  if up = true then Looping w i false s else InAction i .locked s

theorem guard_holds {flag : Flag}
    (hflag : ∀ s : RuntimeState Tid, s.mem.flags flag = true → Covered w i s) :
    (inner cfg w i).Holds (InAction i .locked) (op (.load flag)) (Guarded w i) := by
  apply shared_triple inAction_stable rfl
  intro s x up s' hs hp
  have hown : s'.own i = s.own i := by rw [shared_own hp]; rfl
  have hup : up = s'.mem.flags flag := by
    simp only [RuntimeState.performShared] at hp
    cases hp
    rfl
  rw [Guarded]
  split
  · next htrue =>
      refine ⟨by rw [Free, hown]; exact hs.1, fun _ _ => .inr (hflag s' ?_)⟩
      rw [← hup, htrue]
  · rw [InAction, hown]
    exact hs

theorem stoppingOrStopped_holds :
    (inner cfg w i).Holds (InAction i .locked) stoppingOrStopped (Guarded w i) := by
  apply (inner cfg w i).bind (guard_holds fun s h => .inr (.inr (.inr (.inl h))))
  intro stopping
  cases stopping with
  | true => exact (inner cfg w i).done fun _ _ h => h
  | false =>
      exact (inner cfg w i).pre (fun _ h => h)
        (guard_holds fun s h => .inr (.inr (.inr (.inr (.inl h)))))

theorem cloneHealthy_holds :
    (inner cfg w i).Holds (InAction i .locked) (op .cloneHealthy)
      fun _ => InAction i .reading := by
  apply shared_triple inAction_stable rfl
  intro s x r s' hs hp
  obtain ⟨hfree, hphase⟩ := hs
  rw [InAction, shared_own hp]
  simp [Own.after, hfree, hphase]

/-- The action reads the flag. -/
theorem readLeader_holds :
    (inner cfg w i).Holds (InAction i .reading) (op (.consensus .leader))
      fun _ => Looping w i false := by
  apply shared_triple inAction_stable rfl
  intro s x r s' hs hp
  refine ⟨free_shared hp rfl hs.1, fun _ _ => .inl ?_⟩
  cases hp
  simp [RuntimeState.after, readByAction, hs.2, RuntimeState.answer]

theorem actionLocked_settles :
    (inner cfg w i).Holds (InAction i .locked) (actionLocked cfg) fun _ => Looping w i false := by
  apply (inner cfg w i).bind (guard_holds fun s h => .inr (.inr (.inl h)))
  intro paused
  cases paused with
  | true => exact (inner cfg w i).done fun _ _ h => h
  | false =>
      apply (inner cfg w i).bind ((inner cfg w i).pre (fun _ h => h) stoppingOrStopped_holds)
      intro stopped
      cases stopped with
      | true => exact (inner cfg w i).done fun _ _ h => h
      | false =>
          apply (inner cfg w i).bind ((inner cfg w i).pre (fun _ h => h) cloneHealthy_holds)
          intro health
          apply (inner cfg w i).bind readLeader_holds
          intro leader
          apply (inner cfg w i).bind (looping_op ⟨rfl, rfl⟩)
          intro active
          exact looping_all (Task.all_mono (fun _ => inner_steady) _ (react_inner health _))

theorem action_settles :
    (inner cfg w i).Holds (Free i) (action cfg) fun _ => Looping w i false := by
  apply (inner cfg w i).bind (R := fun _ => InAction i .locked)
  · apply shared_triple free_stable rfl
    intro s x r s' hs hp
    have hs : (s.own i).resumeOwes = false := hs
    rw [InAction, shared_own hp]
    exact ⟨hs, rfl⟩
  · intro _
    apply (inner cfg w i).bind actionLocked_settles
    intro result
    exact (inner cfg w i).bind (looping_op ⟨rfl, rfl⟩) fun _ =>
      (inner cfg w i).done fun _ _ h => h

theorem subscribe_holds :
    (logic cfg w i).Holds (Free i) (runtime .subscribeActions) fun _ => Looping w i true := by
  apply Machine.Triple.call free_stable
  intro s hi hs
  refine ⟨trivial, fun x r s' hp _ => ?_⟩
  cases hp
  refine ⟨grants_setOwn hi (Nat.le_refl _) (hi i).metrics rfl rfl rfl rfl, ?_⟩
  apply Free.looping
  rw [Free, RuntimeState.setOwn_self]
  exact hs

/-- What a loop knows of the branch that has won. -/
def Chosen (w i : Tid) (actionPending : Bool) : Selected → RuntimeState Tid → Prop
  | .changed => Looping w i true
  | _ => Looping w i actionPending

theorem select_holds {actionPending : Bool} :
    (logic cfg w i).Holds (Looping w i actionPending) (runtime (.select actionPending))
      (Chosen w i actionPending) := by
  apply Machine.Triple.call looping_stable
  intro s hi hs
  constructor
  · cases actionPending with
    | true => trivial
    | false => exact hs.2 rfl
  · intro x r s' hp _
    have hp : s.performSelect i actionPending x.pick = some (r, s') := hp
    have hsame : (outline w).Grants i s s := ⟨hi, fun j _ => (coherent w).refl j s⟩
    cases hpick : x.pick with
    | changed =>
        simp only [RuntimeState.performSelect, hpick] at hp
        split at hp
        · cases hp
          refine ⟨grants_setOwn hi (Nat.le_refl _) (hi i).metrics rfl rfl rfl rfl, ?_⟩
          apply Free.looping
          rw [Free, RuntimeState.setOwn_self]
          exact hs.1
        · cases hp
    | retry =>
        simp only [RuntimeState.performSelect, hpick] at hp
        split at hp <;> cases hp
        exact ⟨hsame, hs⟩
    | tick now =>
        simp only [RuntimeState.performSelect, hpick] at hp
        cases hp
        exact ⟨hsame, hs⟩
    | none | closed err =>
        simp only [RuntimeState.performSelect, hpick] at hp
        cases hp

theorem runControlActionOnce_settles :
    (logic cfg w i).Holds (Free i) (runControlActionOnce cfg) fun _ => Looping w i false := by
  apply (logic cfg w i).bind (t := conductor (action cfg)) action_settles
  intro result
  apply (logic cfg w i).bind (t := conductor (op (.metric .loopExecutionTime)))
    (R := fun _ => Looping w i false)
  · exact looping_all ⟨⟨rfl, rfl⟩, fun _ => trivial⟩
  · exact fun _ => (logic cfg w i).done fun _ _ h => h

theorem handleSelected_holds {actionPending : Bool} (selected : Selected) :
    (logic cfg w i).Holds (Chosen w i actionPending selected)
      (handleSelected cfg actionPending selected) (Looping w i) := by
  cases selected with
  | changed => exact (logic cfg w i).done fun _ _ h => h
  | actionRetry =>
      apply (logic cfg w i).bind
        ((logic cfg w i).pre (fun _ h => h.1) runControlActionOnce_settles)
      exact fun result => (logic cfg w i).done fun _ _ h => h.any _
  | tick now =>
      apply (logic cfg w i).bind (t := conductor (tick cfg now))
        (R := fun _ => Looping w i actionPending)
      · exact looping_all (tick_steady now)
      · intro result
        cases result with
        | ok u => exact (logic cfg w i).done fun _ _ h => h
        | error err => exact (logic cfg w i).done fun _ _ h => h.1.looping

theorem controlRound_holds (actionPending : Bool) :
    (logic cfg w i).Holds (Looping w i actionPending) (controlRound cfg actionPending)
      (Sum.elim (Looping w i) fun _ => Free i) := by
  apply (logic cfg w i).bind select_holds
  intro selected
  apply (logic cfg w i).bind (t := conductor (op (.load .stopped)))
    (R := fun _ => Chosen w i actionPending selected)
  · cases selected with
    | changed => exact looping_all ⟨⟨rfl, rfl⟩, fun _ => trivial⟩
    | actionRetry => exact looping_all ⟨⟨rfl, rfl⟩, fun _ => trivial⟩
    | tick now => exact looping_all ⟨⟨rfl, rfl⟩, fun _ => trivial⟩
  · intro stopped
    cases stopped with
    | true =>
        refine (logic cfg w i).done fun s _ h => ?_
        cases selected <;> exact h.1
    | false =>
        apply (logic cfg w i).bind (handleSelected_holds selected)
        exact fun next => (logic cfg w i).done fun _ _ h => h

theorem runControlLoop_holds (rounds : Nat) :
    (logic cfg w i).Holds (Free i) (runControlLoop cfg rounds) fun _ => Free i := by
  apply (logic cfg w i).bind subscribe_holds
  intro _
  exact (logic cfg w i).loop (I := Looping w i) controlRound_holds (fun _ _ _ h => h.1) rounds true

theorem firstRead_holds :
    (inner cfg w i).Holds (Fresh i) (op (.consensus .leader)) (Noted i) := by
  apply shared_triple fresh_stable rfl
  intro s x r s' hs hp
  obtain ⟨hfree, hwatching, hnone, hpaid⟩ := hs
  rw [Noted, shared_own hp]
  simp [Own.after, Own.note, hfree, hwatching, hnone, hpaid]

theorem metrics_holds {leader : Bool} :
    (logic cfg w i).Holds (Noted i leader) (runtime .metrics) fun _ => Watches i leader := by
  apply Machine.Triple.call noted_stable
  intro s hi hs
  refine ⟨trivial, fun x r s' hp _ => ?_⟩
  cases hp
  refine ⟨grants_setOwn hi (hi i).actions (Nat.zero_le _) rfl rfl rfl rfl, ?_⟩
  rw [Watches, Noted, RuntimeState.setOwn_self]
  exact ⟨hs, Nat.zero_le _⟩

theorem metricsChanged_holds {leader : Bool} :
    (logic cfg w i).Holds (Watches i leader) (runtime .metricsChanged)
      fun _ => Noted i leader := by
  apply Machine.Triple.call watches_stable
  intro s hi hs
  obtain ⟨hnoted, hlooked⟩ := hs
  refine ⟨⟨by simp [hnoted.2.1], hnoted.2.2, hlooked⟩, fun x r s' hp _ => ?_⟩
  have hp : s.performMetricsChanged i x.pick = some (r, s') := hp
  simp only [RuntimeState.performMetricsChanged] at hp
  split at hp
  · cases hp
    exact ⟨⟨hi, fun j _ => (coherent w).refl j s⟩, hnoted⟩
  · split at hp <;> cases hp
    refine ⟨grants_setOwn hi (hi i).actions (Nat.le_refl _) rfl rfl rfl rfl, ?_⟩
    rw [Noted, RuntimeState.setOwn_self]
    exact hnoted

/-- What a watcher knows when it has looked at the flag. -/
def Looked (i : Tid) (previous leader : Bool) (s : RuntimeState Tid) : Prop :=
  if leader = previous then Watches i previous s else Owing i leader s

theorem borrow_holds {previous : Bool} :
    (logic cfg w i).Holds (Noted i previous) (runtime .borrowWatchedLeader)
      (Looked i previous) := by
  apply Machine.Triple.call noted_stable
  intro s hi hs
  refine ⟨trivial, fun x leader s' hp _ => ?_⟩
  cases hp
  refine ⟨grants_observe hi, ?_⟩
  obtain ⟨hfree, hnoted, hpaid⟩ := hs
  rw [Looked]
  split
  · next heq =>
      rw [Watches, Noted, RuntimeState.setOwn_self]
      have hmetrics : (s.own i).metricsSeen ≤ s.version := (hi i).metrics
      simp [RuntimeState.observe, hfree, hnoted, hpaid, heq, hmetrics]
  · rw [Owing, RuntimeState.setOwn_self]
    exact ⟨hfree, rfl⟩

/-- Where a watcher stands when its wait has ended. -/
def Ended (i : Tid) : Option (Except ConsensusError Bool) → RuntimeState Tid → Prop
  | some (.ok leader) => Owing i leader
  | some (.error _) | none => Free i

theorem waitRound_holds {previous : Bool} (u : Unit) :
    (logic cfg w i).Holds (Watches i previous) (waitRound previous u)
      (Sum.elim (fun _ => Watches i previous) fun r => Ended i (some r)) := by
  apply (logic cfg w i).bind metricsChanged_holds
  intro changed
  cases changed with
  | error err => exact (logic cfg w i).done fun _ _ h => h.1
  | ok u =>
      apply (logic cfg w i).bind borrow_holds
      intro leader
      by_cases heq : leader = previous
      · simp only [heq, if_true]
        refine (logic cfg w i).done fun s _ h => ?_
        rw [Looked, if_pos rfl] at h
        exact h
      · simp only [heq, if_false]
        refine (logic cfg w i).done fun s _ h => ?_
        rw [Looked, if_neg heq] at h
        exact h

theorem waitForLeaderStatusChange_holds (waits : Nat) (previous : Bool) :
    (logic cfg w i).Holds (Noted i previous) (waitForLeaderStatusChange waits previous)
      (Ended i) := by
  apply (logic cfg w i).bind metrics_holds
  intro _
  exact (logic cfg w i).loop (I := fun _ => Watches i previous) waitRound_holds
    (fun _ _ _ h => h.1.1) waits ()

theorem queueAction_holds {leader : Bool} :
    (inner cfg w i).Holds (Owing i leader) queueAction fun _ => Noted i leader := by
  apply (inner cfg w i).bind (t := op .nextActionSeq) (R := fun _ => Owing i leader)
  · apply shared_triple owing_stable rfl
    intro s x r s' hs hp
    rw [Owing, shared_own hp]
    exact hs
  intro next
  apply shared_triple owing_stable rfl
  intro s x r s' hs hp
  rw [Noted, shared_own hp]
  exact ⟨rfl, hs.2, rfl⟩

/-- The check whether the conductor is stopped. -/
theorem loadStopped_holds {ψ : Own → Prop} :
    (logic cfg w i).Holds (fun s => ψ (s.own i)) (conductor (op (.load .stopped)))
      fun _ s => ψ (s.own i) := by
  have hload : (inner cfg w i).Holds (fun s => ψ (s.own i)) (op (.load .stopped))
      fun _ s => ψ (s.own i) := by
    apply shared_triple (own_stable ψ) rfl
    intro s x r s' hs hp
    rw [shared_own hp]
    exact hs
  exact hload

theorem leaderWatchRound_holds (waits : Nat) (leader : Bool) :
    (logic cfg w i).Holds (Noted i leader) (leaderWatchRound waits leader)
      (Sum.elim (Noted i) fun _ => Free i) := by
  apply (logic cfg w i).bind (waitForLeaderStatusChange_holds waits leader)
  intro ended
  cases ended with
  | none => exact (logic cfg w i).done fun _ _ h => h
  | some result =>
      cases result with
      | error err =>
          apply (logic cfg w i).bind (loadStopped_holds (ψ := fun own => own.resumeOwes = false))
          intro stopped
          cases stopped <;> exact (logic cfg w i).done fun _ _ h => h
      | ok leader =>
          apply (logic cfg w i).bind (loadStopped_holds
            (ψ := fun own => own.resumeOwes = false ∧ own.noted = some leader))
          intro stopped
          cases stopped with
          | true => exact (logic cfg w i).done fun _ _ h => h.1
          | false =>
              apply (logic cfg w i).bind (t := conductor queueAction)
                (R := fun _ => Noted i leader)
              · exact queueAction_holds
              · exact fun _ => (logic cfg w i).done fun _ _ h => h

theorem runLeaderWatch_holds (rounds waits : Nat) :
    (logic cfg w i).Holds (Fresh i) (runLeaderWatch rounds waits) fun _ => Free i := by
  apply (logic cfg w i).bind (t := conductor (op (.consensus .leader))) firstRead_holds
  intro leader
  apply (logic cfg w i).bind (R := fun _ => Free i)
  · exact (logic cfg w i).loop (I := Noted i) (leaderWatchRound_holds waits)
      (fun _ _ _ h => h.1) rounds leader
  · exact fun _ => (logic cfg w i).done fun _ _ h => h

theorem free_op {o : Conductor.Op} (ho : Steady o) :
    (inner cfg w i).Holds (Free i) (op o) fun _ => Free i := by
  apply shared_triple free_stable ho.1
  intro s x r s' hs hp
  exact free_shared hp ho.2 hs

/-- A resume owes an action from the moment it lowers the flag until it queues it. -/
theorem resume_holds : (inner cfg w i).Holds (Free i) resume fun _ => Free i := by
  apply (inner cfg w i).bind (t := op (.load .stopped)) (free_op ⟨rfl, rfl⟩)
  intro stopped
  cases stopped with
  | true => exact (inner cfg w i).done fun _ _ h => h
  | false =>
      apply (inner cfg w i).bind (t := op (.sequencer .sequencerActive)) (free_op ⟨rfl, rfl⟩)
      intro r
      cases r with
      | error err => exact (inner cfg w i).done fun _ _ h => h
      | ok active =>
          have htrue : (outline w).Stable i fun _ => True := fun _ _ _ _ _ => trivial
          apply (inner cfg w i).bind (t := op (.store .seqActive active)) (free_op ⟨rfl, rfl⟩)
          intro _
          apply (inner cfg w i).bind (t := op (.store .paused false)) (R := fun _ _ => True)
          · exact shared_triple free_stable rfl fun _ _ _ _ _ _ => trivial
          · intro _
            apply (inner cfg w i).bind (t := op .nextActionSeq) (R := fun _ _ => True)
            · exact shared_triple htrue rfl fun _ _ _ _ _ _ => trivial
            · intro next
              apply (inner cfg w i).bind (t := op (.sendAction next)) (R := fun _ => Free i)
              · apply shared_triple htrue rfl
                intro s x r s' _ hp
                rw [Free, shared_own hp]
                rfl
              · exact fun _ => (inner cfg w i).done fun _ _ h => h

theorem call_holds (call : Conductor.Call) :
    (inner cfg w i).Holds (Free i) (body cfg call) fun _ => Free i := by
  by_cases hcall : call = .resume
  · subst hcall
    exact resume_holds
  · exact (inner cfg w i).all (fun _ ho => free_op ho) (body_steady call hcall)

/-- What entering a call establishes. -/
def Entered (i : Tid) (call : RuntimeCall) (s : RuntimeState Tid) : Prop :=
  Free i s ∧ (isWatch call = true → Fresh i s)

theorem body_holds (i : Tid) (call : RuntimeCall) :
    (logic cfg w i).Holds (Entered i call) (runtimeBody cfg call) fun _ => Free i := by
  cases call with
  | conductor call =>
      apply (logic cfg w i).bind (t := conductor (body cfg call)) (R := fun _ => Free i)
      · exact (inner cfg w i).pre (fun _ h => h.1) (call_holds call)
      · exact fun _ => (logic cfg w i).done fun _ _ h => h
  | leaderWatch rounds waits =>
      apply (logic cfg w i).bind
        ((logic cfg w i).pre (fun _ h => h.2 rfl) (runLeaderWatch_holds rounds waits))
      exact fun _ => (logic cfg w i).done fun _ _ h => h
  | controlLoop rounds =>
      apply (logic cfg w i).bind
        ((logic cfg w i).pre (fun _ h => h.1) (runControlLoop_holds rounds))
      exact fun _ => (logic cfg w i).done fun _ _ h => h

theorem enter_holds {s : RuntimeState Tid} {call : RuntimeCall} (hi : Sound s) (hidle : Free i s)
    (hcall : firstWatch s i call = true) :
    (outline w).Grants i s (s.setOwn i ((s.own i).begin call)) ∧
      Entered i call (s.setOwn i ((s.own i).begin call)) := by
  refine ⟨grants_setOwn hi (hi i).actions (hi i).metrics rfl rfl rfl rfl, ?_, fun hwatch => ?_⟩
  · rw [Free, RuntimeState.setOwn_self]
    exact hidle
  · have hnone : (s.own i).noted = none := by simpa [firstWatch, hwatch] using hcall
    rw [Fresh, RuntimeState.setOwn_self]
    exact ⟨hidle, hwatch, hnone, (hi i).unwatched hnone⟩

theorem meets (cfg : ConductorConfig) (w : Tid) :
    (runtimeMachine Tid cfg).Meets (changesSeen w) (outline w) fun i _ _ => Free i := by
  refine Machine.meets_of_calls (coherent w) (A := Entered) (fun i _ _ => free_stable) ?_
    body_holds ?_ ?_
  · intro s i call s' hi hidle he hcall
    cases he
    exact enter_holds hi hidle hcall
  · intro s i call out hi h
    exact ⟨⟨hi, fun j _ => (coherent w).refl j s⟩, h⟩
  · intro s e s' hi he hπ
    cases he
    exact ⟨hi.env e, fun j => ⟨rfl, fun h => h.env hπ⟩⟩

/-- The operations that make no debt for a resume. -/
def Paid : Supervisor.Op → Prop
  | .inl o => unpauses o = false
  | .inr _ => True

theorem conductor_paid {α : Type} {t : Task Shared α} (h : t.All Steady) :
    (conductor t).All Paid :=
  conductor_all (fun _ ho => ho.2) h

theorem controlRound_paid (actionPending : Bool) : (controlRound cfg actionPending).All Paid := by
  refine ⟨trivial, fun selected => ?_⟩
  apply Task.all_bind Paid (conductor (op (.load .stopped)))
    _ (conductor_paid ⟨⟨rfl, rfl⟩, fun _ => trivial⟩)
  intro stopped
  cases stopped with
  | true => trivial
  | false =>
      refine Task.all_bind Paid (handleSelected cfg actionPending selected) _ ?_ fun _ => trivial
      cases selected with
      | changed => trivial
      | actionRetry =>
          refine Task.all_bind Paid _ _ ?_ fun _ => trivial
          apply Task.all_bind Paid _ _ (conductor_paid action_steady)
          exact fun _ => ⟨rfl, fun _ => trivial⟩
      | tick now =>
          apply Task.all_bind Paid _ _ (conductor_paid (tick_steady now))
          intro result
          cases result <;> trivial

/-- The resume is the only call that lowers `paused`. -/
theorem body_paid (call : RuntimeCall) (hcall : call ≠ .conductor .resume) :
    (runtimeBody cfg call).All Paid := by
  cases call with
  | conductor call =>
      have hne : call ≠ .resume := fun heq => hcall (by rw [heq])
      exact Task.all_bind Paid _ _ (conductor_paid (body_steady call hne)) fun _ => trivial
  | leaderWatch rounds waits =>
      exact Task.all_bind Paid _ _
        (runLeaderWatch_all (fun _ ho => ho.2) (fun _ _ => trivial) rounds waits) fun _ => trivial
  | controlLoop rounds =>
      refine Task.all_bind Paid (runControlLoop cfg rounds) _ ⟨trivial, fun _ => ?_⟩
        fun _ => trivial
      exact Task.all_loop Paid controlRound_paid rounds true

/-- What a runtime operation leaves of the debts. -/
theorem runtime_resumeOwes {s s' : RuntimeState Tid} {o : RuntimeOp} {x : Choice} {r : o.Reply}
    (h : s.performRuntime i o x = some (r, s')) (j : Tid) :
    (s'.own j).resumeOwes = (s.own j).resumeOwes := by
  have hset : ∀ own : Own, own.resumeOwes = (s.own i).resumeOwes →
      ((s.setOwn i own).own j).resumeOwes = (s.own j).resumeOwes := by
    intro own hown
    by_cases hj : j = i
    · rw [hj, RuntimeState.setOwn_self, hown]
    · rw [RuntimeState.setOwn_of_ne s own hj]
  cases o with
  | metrics | borrowWatchedLeader | subscribeActions =>
      cases h
      exact hset _ rfl
  | metricsChanged =>
      simp only [RuntimeState.performRuntime, RuntimeState.performMetricsChanged] at h
      split at h
      · cases h
        rfl
      · split at h <;> cases h
        exact hset _ rfl
  | select actionPending =>
      simp only [RuntimeState.performRuntime] at h
      cases hpick : x.pick with
      | changed =>
          simp only [RuntimeState.performSelect, hpick] at h
          split at h <;> cases h
          exact hset _ rfl
      | retry =>
          simp only [RuntimeState.performSelect, hpick] at h
          split at h <;> cases h
          rfl
      | tick now =>
          simp only [RuntimeState.performSelect, hpick] at h
          cases h
          rfl
      | none | closed err =>
          simp only [RuntimeState.performSelect, hpick] at h
          cases h

/-- A debt for a resume is made inside a call of `resume` only. -/
theorem resume_marks (cfg : ConductorConfig) (w : Tid) :
    (runtimeMachine Tid cfg).Marks (outline w) (fun s i => (s.own i).resumeOwes = true)
      fun call => call = .conductor .resume where
  idle s i h hmark := by
    have h : (s.own i).resumeOwes = false := h
    rw [h] at hmark
    cases hmark
  body call hcall := by
    refine Task.all_mono (fun o ho => ?_) _ (body_paid call hcall)
    intro s i x r s' hp hmark
    cases o with
    | inl o =>
        cases hb : (s.own i).resumeOwes with
        | true => rfl
        | false =>
            have hfree : (s'.own i).resumeOwes = false := free_shared hp ho hb
            rw [hfree] at hmark
            cases hmark
    | inr o =>
        rw [runtime_resumeOwes hp i] at hmark
        exact hmark
  others s i o x r s' j hp hj hmark := by
    cases o with
    | inl o =>
        rw [shared_own_of_ne hp hj] at hmark
        exact hmark
    | inr o =>
        rw [runtime_resumeOwes hp j] at hmark
        exact hmark
  enter s i call s' j he hmark := by
    cases he
    by_cases hj : j = i
    · rw [hj, RuntimeState.setOwn_self] at hmark
      rw [hj]
      exact hmark
    · rw [RuntimeState.setOwn_of_ne s _ hj] at hmark
      exact hmark
  leave _ _ _ _ _ hmark := hmark
  env s e s' j he hmark := by
    cases he
    exact hmark

/-- The watcher `w` is blocked with the latest metrics seen, the loop `l` is idle
with nothing to run, and nothing else keeps an action away. -/
structure AtRest (w l : Tid) (c : Config Tid Supervisor (RuntimeState Tid) RuntimeCall RuntimeOut) :
    Prop where
  unpaused : paused c.state = false
  running : stopped c.state = false
  resumed : ∀ i, (c.tasks i).map Prod.fst ≠ some (.conductor .resume)
  blocked : c.pending w = some (.inr .metricsChanged)
  seen : (c.state.own w).metricsSeen = c.state.version
  idle : c.pending l = some (.inr (.select false))
  heard : (c.state.own l).actionSeen = c.state.sends

/-- In every run whose changes of the leader flag are seen: whenever the system is
at rest and no stop has begun, the flag the most recent action read is the one the
node has. -/
theorem leader_change_not_lost (cfg : ConductorConfig) (leader : Bool) (version : Nat) (w l : Tid)
    (c : Config Tid Supervisor (RuntimeState Tid) RuntimeCall RuntimeOut)
    (hr : (runtimeMachine Tid cfg).Reaches (changesSeen w) (.quiet (.new cfg leader version)) c)
    (hrest : AtRest w l c) (hstopping : stopping c.state = false) :
    c.state.lastRead = some c.state.leader := by
  have hnew : (runtimeMachine Tid cfg).Upholds (changesSeen w) (outline w) (fun i _ _ => Free i)
      (.quiet (.new cfg leader version)) :=
    Machine.upholds_quiet _ (new_sound cfg leader version) fun _ => rfl
  have hup := (meets cfg w).reaches hnew hr
  have hwaiting : Waiting (c.state.own w) := hup.check (coherent w) hrest.blocked
  have hsettled : Settled w l c.state := hup.check (coherent w) hrest.idle
  refine hsettled.upToDate hup.1 hwaiting hrest.seen hrest.heard hrest.unpaused hstopping
    hrest.running fun i howes => ?_
  obtain ⟨call, t, ht, hcall⟩ := (resume_marks cfg w).within (meets cfg w) hnew hr howes
  apply hrest.resumed i
  rw [ht, hcall]
  rfl

end

/-- The watcher is thread `false`, the control loop thread `true`. -/
abbrev Run := List (Event Bool RuntimeCall Choice Metrics)

def choose (pick : Pick) : Choice := ⟨Oracle.refuse, pick⟩

/-- The next steps of one thread. -/
def steps (i : Bool) (n : Nat) : Run := List.replicate n (.step i (choose .none))

def isBlocked : Option Supervisor.Op → Bool
  | some (.inr .metricsChanged) => true
  | _ => false

def isIdle : Option Supervisor.Op → Bool
  | some (.inr (.select false)) => true
  | _ => false

def atRest (c : Config Bool Supervisor (RuntimeState Bool) RuntimeCall RuntimeOut) : Bool :=
  !paused c.state && !stopped c.state &&
    decide (∀ i, (c.tasks i).map Prod.fst ≠ some (.conductor .resume)) &&
    isBlocked (c.pending false) && decide ((c.state.own false).metricsSeen = c.state.version) &&
    isIdle (c.pending true) && decide ((c.state.own true).actionSeen = c.state.sends)

theorem eq_of_isBlocked {o : Option Supervisor.Op} (h : isBlocked o = true) :
    o = some (.inr .metricsChanged) := by
  simp only [isBlocked] at h
  split at h
  · rfl
  · cases h

theorem eq_of_isIdle {o : Option Supervisor.Op} (h : isIdle o = true) :
    o = some (.inr (.select false)) := by
  simp only [isIdle] at h
  split at h
  · rfl
  · cases h

theorem atRest_of_check {c : Config Bool Supervisor (RuntimeState Bool) RuntimeCall RuntimeOut}
    (h : atRest c = true) : AtRest false true c := by
  simp only [atRest, Bool.and_eq_true, Bool.not_eq_true', decide_eq_true_eq] at h
  obtain ⟨⟨⟨⟨⟨⟨hpaused, hstopped⟩, hresumed⟩, hblocked⟩, hseen⟩, hidle⟩, hheard⟩ := h
  exact ⟨hpaused, hstopped, hresumed, eq_of_isBlocked hblocked, hseen, eq_of_isIdle hidle, hheard⟩

/-- At rest and not stopping, with what the last action read and what the node is. -/
def restsWith (lastRead : Option Bool) (leader : Bool)
    (c : Config Bool Supervisor (RuntimeState Bool) RuntimeCall RuntimeOut) : Bool :=
  atRest c && !stopping c.state && decide (c.state.lastRead = lastRead) &&
    decide (c.state.leader = leader)

/-- The node becomes the leader and stops being it; the watcher sees both changes
and the loop runs an action for them. -/
def noticedRun : Run :=
  [.call false (.leaderWatch 3 3)] ++ steps false 2 ++
    [.call true (.controlLoop 6)] ++ steps true 1 ++ [.step true (choose .retry)] ++
    steps true 11 ++
    [.env ⟨true⟩] ++ steps false 8 ++ [.env ⟨false⟩] ++ steps false 8 ++
    [.step true (choose .changed)] ++ steps true 1 ++ [.step true (choose .retry)] ++
    steps true 11

theorem noticed_changes_not_lost :
    ∃ c, (runtimeMachine Bool .default).Reaches (changesSeen false)
        (.quiet (.new .default false 0)) c ∧
      restsWith (some false) false c = true ∧ c.state.lastRead = some c.state.leader := by
  have hrun : ∃ c, (runtimeMachine Bool .default).Reaches (changesSeen false)
      (.quiet (.new .default false 0)) c ∧ restsWith (some false) false c = true :=
    Machine.reaches_of_permitted noticedRun (by decide +kernel)
  obtain ⟨c, hr, hc⟩ := hrun
  have hfacts := hc
  simp only [restsWith, Bool.and_eq_true, Bool.not_eq_true'] at hfacts
  exact ⟨c, hr, hc, leader_change_not_lost .default false 0 false true c hr
    (atRest_of_check hfacts.1.1.1) hfacts.1.1.2⟩

/-- The leader loses its leadership and regains it before the watcher looks; the
first action of the loop reads the flag in between. -/
def undoneRun : Run :=
  [.call false (.leaderWatch 2 3)] ++ steps false 2 ++
    [.call true (.controlLoop 4)] ++ steps true 1 ++ [.step true (choose .retry)] ++
    steps true 6 ++ [.env ⟨false⟩] ++ steps true 1 ++ [.env ⟨true⟩] ++ steps true 5 ++
    steps false 2

theorem undone_change_is_lost :
    ∃ c, (runtimeMachine Bool .default).Reaches .any (.quiet (.new .default true 0)) c ∧
      AtRest false true c ∧ stopping c.state = false ∧ c.state.lastRead = some false ∧
      c.state.leader = true := by
  have hrun : ∃ c, (runtimeMachine Bool .default).Reaches .any (.quiet (.new .default true 0)) c ∧
      restsWith (some false) true c = true :=
    Machine.reaches_of_permitted undoneRun (by decide +kernel)
  obtain ⟨c, hr, hc⟩ := hrun
  simp only [restsWith, Bool.and_eq_true, Bool.not_eq_true', decide_eq_true_eq] at hc
  exact ⟨c, hr, atRest_of_check hc.1.1.1, hc.1.1.2, hc.1.2, hc.2⟩

end ConductorRs.Runtime

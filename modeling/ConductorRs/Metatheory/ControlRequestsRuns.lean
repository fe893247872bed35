import ConductorRs.Metatheory.ControlRequests
import ConductorRs.Metatheory.LeaderWatchRuns

/-!
The control loop loses no request: one triple for each piece of its round, and what
follows of every run of the runtime with its history.
-/
namespace ConductorRs.Runtime.ControlRequests
open Concurrency Conductor

section
variable {Tid : Type}

/-- A loop that waits with its flag down has just run its own action, or had the flag
down before. -/
def Polls (i : Tid) (actionPending : Bool) (p : RuntimeState Tid × Requests Tid) : Prop :=
  ∃ v, p.2.loops i = some v ∧ (actionPending = false → Served p.1 i v ∧
    (v.stage = .handling .actionRetry ∨ v.flag = false))

/-- A loop that has chosen a branch. -/
def Chooses (i : Tid) (actionPending : Bool) (selected : Selected)
    (p : RuntimeState Tid × Requests Tid) : Prop :=
  ∃ v, p.2.loops i = some v ∧ v.stage = .chosen selected ∧ v.flag = selected.flag actionPending

/-- A loop that handles a branch. -/
def Handles (i : Tid) (actionPending : Bool) (selected : Selected)
    (p : RuntimeState Tid × Requests Tid) : Prop :=
  ∃ v, p.2.loops i = some v ∧ v.stage = .handling selected ∧
    v.flag = selected.flag actionPending

/-- A loop that has called its own action. -/
def Calls (i : Tid) (p : RuntimeState Tid × Requests Tid) : Prop :=
  ∃ v n, p.2.loops i = some v ∧ v.stage = .handling .actionRetry ∧ p.2.asked i = some n

/-- A loop whose own action has begun. -/
def Acts (i : Tid) (p : RuntimeState Tid × Requests Tid) : Prop :=
  ∃ v, p.2.loops i = some v ∧ v.stage = .handling .actionRetry ∧ Served p.1 i v

def outline : Outline Tid Supervisor (RuntimeState Tid × Requests Tid) where
  inv p := Kept p.1 p.2
  rely i p p' := p'.1.own i = p.1.own i ∧ p'.2.loops i = p.2.loops i ∧
    p'.2.asked i = p.2.asked i
  idle _ _ := True
  check i p
    | .inr (.select actionPending) => Polls i actionPending p
    | _ => True

theorem coherent : (outline : Outline Tid _ _).Coherent where
  refl _ _ := ⟨rfl, rfl, rfl⟩
  trans _ _ _ _ h h' := ⟨h'.1.trans h.1, h'.2.1.trans h.2.1, h'.2.2.trans h.2.2⟩
  idle _ _ _ _ _ _ := trivial

/-- What a thread knows of its receivers, its loop and the action it has called. -/
theorem own_stable {i : Tid} (ψ : Own → Option LoopView → Option Nat → Prop) :
    (outline : Outline Tid _ _).Stable i fun p => ψ (p.1.own i) (p.2.loops i) (p.2.asked i) := by
  intro p p' h hr _
  rw [hr.1, hr.2.1, hr.2.2]
  exact h

theorem true_stable {i : Tid} : (outline : Outline Tid _ _).Stable i fun _ => True :=
  fun _ _ _ _ _ => trivial

theorem polls_stable {i : Tid} {actionPending : Bool} :
    (outline : Outline Tid _ _).Stable i (Polls i actionPending) :=
  own_stable fun own loop _ => ∃ v, loop = some v ∧ (actionPending = false →
    (∃ n, v.begun = some n ∧ own.actionSeen ≤ n) ∧
      (v.stage = .handling .actionRetry ∨ v.flag = false))

theorem chooses_stable {i : Tid} {actionPending : Bool} {selected : Selected} :
    (outline : Outline Tid _ _).Stable i (Chooses i actionPending selected) :=
  own_stable fun _ loop _ => ∃ v, loop = some v ∧ v.stage = .chosen selected ∧
    v.flag = selected.flag actionPending

theorem handles_stable {i : Tid} {actionPending : Bool} {selected : Selected} :
    (outline : Outline Tid _ _).Stable i (Handles i actionPending selected) :=
  own_stable fun _ loop _ => ∃ v, loop = some v ∧ v.stage = .handling selected ∧
    v.flag = selected.flag actionPending

theorem calls_stable {i : Tid} : (outline : Outline Tid _ _).Stable i (Calls i) :=
  own_stable fun _ loop asked => ∃ v n, loop = some v ∧ v.stage = .handling .actionRetry ∧
    asked = some n

theorem acts_stable {i : Tid} : (outline : Outline Tid _ _).Stable i (Acts i) :=
  own_stable fun own loop _ => ∃ v, loop = some v ∧ v.stage = .handling .actionRetry ∧
    ∃ n, v.begun = some n ∧ own.actionSeen ≤ n

theorem Handles.up {i : Tid} {actionPending : Bool} {selected : Selected}
    {p : RuntimeState Tid × Requests Tid} (h : Handles i actionPending selected p) :
    Polls i true p := by
  obtain ⟨v, hv, _⟩ := h
  exact ⟨v, hv, fun hdown => by cases hdown⟩

end

section
variable {Tid : Type} [DecidableEq Tid] {cfg : ConductorConfig} {i : Tid}

/-- The runtime with the history of its requests. -/
abbrev recordedMachine (Tid : Type) [DecidableEq Tid] (cfg : ConductorConfig) :
    Machine Tid Supervisor (RuntimeState Tid × Requests Tid) RuntimeCall RuntimeOut Choice
      Metrics :=
  (runtimeMachine Tid cfg).recorded (requests Tid)

abbrev logic (cfg : ConductorConfig) (i : Tid) :
    Logic Supervisor (RuntimeState Tid × Requests Tid) :=
  (recordedMachine Tid cfg).logic .any outline i

/-- The logic of the conductor's own tasks. -/
abbrev inner (cfg : ConductorConfig) (i : Tid) :
    Logic Shared (RuntimeState Tid × Requests Tid) :=
  (logic cfg i).via lift

theorem shared_triple {o : Conductor.Op} {A : RuntimeState Tid × Requests Tid → Prop}
    {Q : o.Reply → RuntimeState Tid × Requests Tid → Prop} (hA : outline.Stable i A)
    (h : ∀ s h x r s', Kept s h → A (s, h) → s.performShared i o x = some (r, s') →
      Q r (s', h.shared s i o r)) :
    (inner cfg i).Holds A (op o) Q := by
  apply Logic.via_call
  apply Machine.Triple.call hA
  intro p hi hp
  refine ⟨trivial, fun x r p' hperf _ => ?_⟩
  obtain ⟨q, hq, heq⟩ := Option.map_eq_some_iff.mp hperf
  cases heq
  exact ⟨⟨hi.shared hq, fun _ hj => ⟨shared_own_of_ne hq hj, Requests.shared_of_ne hj⟩⟩,
    h p.1 p.2 x q.1 q.2 hi hp hq⟩

theorem runtime_perform {p : RuntimeState Tid × Requests Tid} {s' : RuntimeState Tid}
    {h' : Requests Tid} {o : RuntimeOp} {x : Choice} {r : o.Reply}
    (h : (recordedMachine Tid cfg).perform p i (.inr o) x = some (r, s', h')) :
    p.1.performRuntime i o x = some (r, s') ∧ h' = p.2.runtime i o r := by
  obtain ⟨q, hq, heq⟩ := Option.map_eq_some_iff.mp h
  cases heq
  exact ⟨hq, rfl⟩

/-- The operations of everything but a control loop. -/
def Apart : Supervisor.Op → Prop
  | .inl _ => True
  | .inr o => ofMetrics o = true

theorem apart_holds (o : Supervisor.Op) (ho : Apart o) :
    (logic cfg i).Holds (fun _ => True) (Task.call o) fun _ _ => True := by
  cases o with
  | inl o =>
      have hshared : (inner cfg i).Holds (fun _ => True) (op o) fun _ _ => True :=
        shared_triple true_stable fun _ _ _ _ _ _ _ _ => trivial
      exact hshared
  | inr o =>
      have ho : ofMetrics o = true := ho
      apply Machine.Triple.call true_stable
      intro p hi _
      constructor
      · cases o with
        | select actionPending => cases ho
        | _ => trivial
      · intro x r p' hp _
        obtain ⟨s', h'⟩ := p'
        obtain ⟨hperf, hnoted⟩ := runtime_perform hp
        obtain ⟨own, rfl, hown⟩ := metrics_own ho hperf
        rw [Requests.runtime_metrics ho] at hnoted
        subst hnoted
        exact ⟨⟨hi.setOwn hown, fun j hj => ⟨RuntimeState.setOwn_of_ne _ _ hj, rfl, rfl⟩⟩, trivial⟩

theorem subscribe_holds :
    (logic cfg i).Holds (fun _ => True) (runtime .subscribeActions) fun _ => Polls i true := by
  apply Machine.Triple.call true_stable
  intro p hi _
  refine ⟨trivial, fun x r p' hp _ => ?_⟩
  cases hp
  refine ⟨⟨hi.set rfl (fun j hj => ?_) ?_ (fun _ hn => by cases hn) ?_ ?_ ?_,
    fun j hj => ⟨?_, ?_⟩⟩, ?_⟩
  · rw [RuntimeState.setOwn_of_ne _ _ hj]
  · rw [RuntimeState.setOwn_self]
  · intro w n hw hn
    cases hw
    cases hn
  · intro w hw _
    cases hw
    rfl
  · intro w hw hflag
    cases hw
    cases hflag
  · exact RuntimeState.setOwn_of_ne _ _ hj
  · exact Requests.set_of_ne _ _ _ hj
  · exact ⟨_, Requests.set_loops _ _ _ _, fun hdown => by cases hdown⟩

/-- A branch changes the receiver only when it is the one that waits for a request. -/
theorem select_own {s s' : RuntimeState Tid} {actionPending : Bool} {pick : Pick}
    {selected : Selected} (h : s.performSelect i actionPending pick = some (selected, s')) :
    ∃ own : Own, s' = s.setOwn i own ∧ own.actionSeen ≤ max s.sends (s.own i).actionSeen ∧
      (selected ≠ .changed → own = s.own i) ∧
      (selected = .actionRetry → actionPending = true) := by
  have hsame : s = s.setOwn i (s.own i) := by
    rw [RuntimeState.setOwn, Function.update_eq_self]
  cases pick with
  | changed =>
      simp only [RuntimeState.performSelect] at h
      split at h <;> cases h
      exact ⟨_, rfl, Nat.le_max_left _ _, fun hne => absurd rfl hne, fun heq => by cases heq⟩
  | retry =>
      simp only [RuntimeState.performSelect] at h
      split at h <;> cases h
      rename_i hpending
      exact ⟨_, hsame, Nat.le_max_right _ _, fun _ => rfl, fun _ => hpending⟩
  | tick now =>
      cases h
      exact ⟨_, hsame, Nat.le_max_right _ _, fun _ => rfl, fun heq => by cases heq⟩
  | none | closed err => cases h

theorem select_holds {actionPending : Bool} :
    (logic cfg i).Holds (Polls i actionPending) (runtime (.select actionPending))
      (Chooses i actionPending) := by
  apply Machine.Triple.call polls_stable
  intro p hi hpolls
  refine ⟨hpolls, fun x selected p' hp _ => ?_⟩
  obtain ⟨v, hv, hdown⟩ := hpolls
  obtain ⟨s', h'⟩ := p'
  obtain ⟨hperf, hnoted⟩ := runtime_perform hp
  have hperf : p.1.performSelect i actionPending x.pick = some (selected, s') := hperf
  obtain ⟨own, rfl, hseen, hkept, hretry⟩ := select_own hperf
  have hnoted : h' = p.2.set i none (some (v.select actionPending selected)) := by
    rw [hnoted, Requests.runtime, hv]
    rfl
  subst hnoted
  refine ⟨⟨hi.set rfl (fun j hj => ?_) ?_ (fun _ hn => by cases hn) ?_ ?_ ?_,
    fun j hj => ⟨?_, ?_⟩⟩, ?_⟩
  · rw [RuntimeState.setOwn_of_ne _ _ hj]
  · rw [RuntimeState.setOwn_self]
    have hle := hi.seen i
    omega
  · intro w n hw hn
    cases hw
    exact hi.begun i v n hv hn
  · intro w hw hretries
    cases hw
    cases selected with
    | actionRetry => exact hretry rfl
    | changed | tick now => cases hretries
  · intro w hw hflag
    cases hw
    obtain ⟨hne, hpending⟩ := Selected.flag_eq_false hflag
    rw [Served, RuntimeState.setOwn_self, hkept hne]
    exact (hdown hpending).1
  · exact RuntimeState.setOwn_of_ne _ _ hj
  · exact Requests.set_of_ne _ _ _ hj
  · exact ⟨_, Requests.set_loops _ _ _ _, rfl, rfl⟩

/-- A loop that has found the conductor running handles its branch, and calls its own
action if it retries. -/
def Checked (i : Tid) (actionPending : Bool) (selected : Selected) (stopped : Bool)
    (p : RuntimeState Tid × Requests Tid) : Prop :=
  stopped = false → Handles i actionPending selected p ∧ (selected = .actionRetry → Calls i p)

theorem loadStopped_holds {actionPending : Bool} {selected : Selected} :
    (inner cfg i).Holds (Chooses i actionPending selected) (op (.load .stopped))
      (Checked i actionPending selected) := by
  apply shared_triple chooses_stable
  rintro s h x stopped s' hk ⟨v, hv, hstage, hflag⟩ hp rfl
  have hloop : (h.proceed i s.sends).loops i = some v.proceed := by
    rw [Requests.proceed, Requests.set_loops, hv]
    rfl
  have hproceed : v.proceed.stage = .handling selected := LoopView.proceed_chosen hstage
  refine ⟨⟨_, hloop, hproceed, v.proceed_flag.trans hflag⟩, ?_⟩
  rintro rfl
  refine ⟨_, s.sends, hloop, hproceed, ?_⟩
  change (h.proceed i s.sends).asked i = _
  have hretries : v.retries = true := by rw [LoopView.retries, hstage]
  rw [Requests.proceed, Requests.set_asked, hv, Option.any_some, hretries, if_pos rfl]

/-- Whatever the conductor does for the loop, the loop stays where it is. -/
theorem handles_holds {α : Type} {actionPending : Bool} {selected : Selected}
    (t : Task Shared α) :
    (inner cfg i).Holds (Handles i actionPending selected) t
      fun _ => Handles i actionPending selected := by
  refine (inner cfg i).all (p := fun _ => True) (fun o _ => ?_)
    (Task.all_of_forall (fun _ => trivial) t)
  apply shared_triple handles_stable
  rintro s h x r s' hk ⟨v, hv, hstage, hflag⟩ hp
  obtain ⟨w, hw, hwflag, hwstage, -⟩ := Requests.shared_handling hv hstage
  exact ⟨w, hw, hwstage, hwflag.trans hflag⟩

theorem acts_holds {α : Type} (t : Task Shared α) :
    (inner cfg i).Holds (Acts i) t fun _ => Acts i := by
  refine (inner cfg i).all (p := fun _ => True) (fun o _ => ?_)
    (Task.all_of_forall (fun _ => trivial) t)
  apply shared_triple acts_stable
  rintro s h x r s' hk ⟨v, hv, hstage, n, hn, hle⟩ hp
  obtain ⟨w, hw, -, hwstage, hbegun⟩ := Requests.shared_handling hv hstage
  refine ⟨w, hw, hwstage, ?_⟩
  rw [Served, own_actionSeen hp i]
  rcases hbegun with rfl | ⟨m, hm, hwm⟩
  · exact ⟨n, hn, hle⟩
  · exact ⟨m, hwm, (hk.asked i m hm).1⟩

/-- The action that the loop has called begins with its lock. -/
theorem lockAction_holds :
    (inner cfg i).Holds (Calls i) (op (.lock .action)) fun _ => Acts i := by
  apply shared_triple calls_stable
  rintro s h x r s' hk ⟨v, n, hv, hstage, hn⟩ hp
  have hloop : (h.begin i).loops i = some (v.begin n) := by
    rw [Requests.begin_of_some hn, Requests.set_loops, hv]
    rfl
  refine ⟨_, hloop, (v.begin_stage n).trans hstage, n, v.begin_handling n hstage, ?_⟩
  rw [own_actionSeen hp i]
  exact (hk.asked i n hn).1

theorem action_holds : (inner cfg i).Holds (Calls i) (action cfg) fun _ => Acts i := by
  apply (inner cfg i).bind lockAction_holds
  exact fun _ => acts_holds _

theorem handleSelected_holds {actionPending : Bool} (selected : Selected) :
    (logic cfg i).Holds
      (fun p => Handles i actionPending selected p ∧ (selected = .actionRetry → Calls i p))
      (handleSelected cfg actionPending selected) (Polls i) := by
  cases selected with
  | changed => exact (logic cfg i).done fun _ _ h => h.1.up
  | actionRetry =>
      apply (logic cfg i).pre (fun _ h => h.2 rfl)
      apply (logic cfg i).bind (t := runControlActionOnce cfg) (R := fun _ => Acts i)
      · apply (logic cfg i).bind (t := conductor (action cfg)) action_holds
        intro result
        apply (logic cfg i).bind (t := conductor (op (.metric .loopExecutionTime)))
          (acts_holds (op (.metric .loopExecutionTime)))
        exact fun _ => (logic cfg i).done fun _ _ h => h
      · intro result
        refine (logic cfg i).done fun p _ h => ?_
        obtain ⟨v, hv, hstage, hserved⟩ := h
        exact ⟨v, hv, fun _ => ⟨hserved, .inl hstage⟩⟩
  | tick now =>
      apply (logic cfg i).pre (fun _ h => h.1)
      apply (logic cfg i).bind (t := conductor (tick cfg now)) (handles_holds (tick cfg now))
      intro result
      cases result with
      | ok u =>
          refine (logic cfg i).done fun p hi h => ?_
          obtain ⟨v, hv, _, hflag⟩ := h
          have hflag : v.flag = actionPending := hflag
          refine ⟨v, hv, fun hdown => ?_⟩
          have hlow : v.flag = false := hflag.trans hdown
          exact ⟨hi.served i v hv hlow, .inr hlow⟩
      | error err => exact (logic cfg i).done fun _ _ h => h.up

theorem controlRound_holds (actionPending : Bool) :
    (logic cfg i).Holds (Polls i actionPending) (controlRound cfg actionPending)
      (Sum.elim (Polls i) fun _ _ => True) := by
  apply (logic cfg i).bind select_holds
  intro selected
  apply (logic cfg i).bind (t := conductor (op (.load .stopped))) loadStopped_holds
  intro stopped
  cases stopped with
  | true => exact (logic cfg i).done fun _ _ _ => trivial
  | false =>
      apply (logic cfg i).bind
        ((logic cfg i).pre (fun _ h => h rfl) (handleSelected_holds selected))
      exact fun next => (logic cfg i).done fun _ _ h => h

theorem runControlLoop_holds (rounds : Nat) :
    (logic cfg i).Holds (fun _ => True) (runControlLoop cfg rounds) fun _ _ => True := by
  apply (logic cfg i).bind subscribe_holds
  intro _
  exact (logic cfg i).loop (I := Polls i) controlRound_holds (fun _ _ _ _ => trivial) rounds true

theorem body_holds (i : Tid) (call : RuntimeCall) :
    (logic cfg i).Holds (fun _ => True) (runtimeBody cfg call) fun _ _ => True := by
  cases call with
  | conductor call =>
      refine (logic cfg i).all apart_holds ?_
      exact Task.all_bind Apart _ _
        (conductor_all (fun _ _ => trivial) (Task.all_of_forall (fun _ => trivial) (body cfg call)))
        fun _ => trivial
  | leaderWatch rounds waits =>
      refine (logic cfg i).all apart_holds ?_
      exact Task.all_bind Apart _ _
        (runLeaderWatch_all (fun _ _ => trivial) (fun _ ho => ho) rounds waits) fun _ => trivial
  | controlLoop rounds =>
      apply (logic cfg i).bind (runControlLoop_holds rounds)
      exact fun _ => (logic cfg i).done fun _ _ h => h

theorem verified (cfg : ConductorConfig) :
    (recordedMachine Tid cfg).Verified .any outline := by
  refine Machine.verified_of_triples coherent (fun _ _ _ _ => rfl) ?_
    (fun _ i call _ => body_holds i call) ?_
  · intro p i call p' hi _ he _
    cases he
    exact ⟨⟨hi.enter i call, fun j hj =>
      ⟨RuntimeState.setOwn_of_ne _ _ hj, Requests.enter_of_ne hj⟩⟩, trivial⟩
  · intro p e p' hi he _
    cases he
    exact ⟨hi.grow (fun _ => rfl) (Nat.le_refl _), fun _ => ⟨rfl, rfl, rfl⟩⟩

/-- The configuration `c` is reached by a run with the history `h`. -/
def Records (cfg : ConductorConfig) (leader : Bool) (version : Nat)
    (c : Config Tid Supervisor (RuntimeState Tid) RuntimeCall RuntimeOut) (h : Requests Tid) :
    Prop :=
  (recordedMachine Tid cfg).Reaches .any (.quiet (.new cfg leader version, .empty)) (c.record h)

/-- The histories are those of all runs of the runtime. -/
theorem exists_records_iff {leader : Bool} {version : Nat}
    {c : Config Tid Supervisor (RuntimeState Tid) RuntimeCall RuntimeOut} :
    (∃ h, Records cfg leader version c h) ↔
      (runtimeMachine Tid cfg).Reaches .any (.quiet (.new cfg leader version)) c := by
  constructor
  · rintro ⟨h, hr⟩
    exact Machine.Reaches.forget (R := requests Tid) (π := .any) hr
  · intro hr
    exact Machine.Reaches.record (R := requests Tid) hr Requests.empty

end

/-- The variable `action_pending` of the loop of a thread, once it has subscribed. -/
def actionPending {Tid : Type}
    (c : Config Tid Supervisor (RuntimeState Tid) RuntimeCall RuntimeOut) (h : Requests Tid)
    (l : Tid) : Option Bool :=
  match c.pending l with
  | some (.inr (.select actionPending)) => some actionPending
  | _ => (h.loops l).map LoopView.flag

/-- An action has been queued since the most recent action began, or before any has. -/
def Requested {Tid : Type} (s : RuntimeState Tid) (h : Requests Tid) : Prop :=
  match h.began with
  | some n => n < s.sends
  | none => 0 < s.sends

section
variable {Tid : Type}
variable {c : Config Tid Supervisor (RuntimeState Tid) RuntimeCall RuntimeOut} {h : Requests Tid}
variable {l : Tid}

theorem actionPending_select {actionPending : Bool}
    (hc : c.pending l = some (.inr (.select actionPending))) :
    ControlRequests.actionPending c h l = some actionPending := by
  rw [ControlRequests.actionPending, hc]

theorem actionPending_handling (hc : ∀ b, c.pending l ≠ some (.inr (.select b))) :
    actionPending c h l = (h.loops l).map LoopView.flag := by
  rw [actionPending]
  split
  · next b hb => exact absurd hb (hc b)
  · rfl

end

section
variable {Tid : Type} [DecidableEq Tid] {cfg : ConductorConfig} {l : Tid}

/-- A loop with its flag down. -/
theorem served_of_down {c : Config Tid Supervisor (RuntimeState Tid) RuntimeCall RuntimeOut}
    {h : Requests Tid} (hc : (recordedMachine Tid cfg).Conforms .any outline (c.record h))
    (hdown : actionPending c h l = some false) :
    ∃ v, h.loops l = some v ∧ Served c.state l v ∧
      (v.stage = .handling .actionRetry ∨ v.flag = false) := by
  by_cases hselect : ∃ b, c.pending l = some (.inr (.select b))
  · obtain ⟨b, hb⟩ := hselect
    rw [actionPending_select hb] at hdown
    cases hdown
    obtain ⟨v, hv, hfalse⟩ := hc.check coherent (i := l) hb
    exact ⟨v, hv, hfalse rfl⟩
  · rw [actionPending_handling fun b hb => hselect ⟨b, hb⟩, Option.map_eq_some_iff] at hdown
    obtain ⟨v, hv, hflag⟩ := hdown
    exact ⟨v, hv, hc.1.served l v hv hflag, .inr hflag⟩

/-- The flag of a loop is down only where its `action_pending` was false. -/
theorem perform_flag {h : Requests Tid} {s : RuntimeState Tid} {i : Tid} {o : Supervisor.Op}
    {r : Supervisor.Reply o}
    {c : Config Tid Supervisor (RuntimeState Tid) RuntimeCall RuntimeOut}
    (hc : c.pending i = some o)
    (hdown : ((h.perform s i o r).loops i).map LoopView.flag = some false) :
    actionPending c h i = some false := by
  cases o with
  | inl o =>
      obtain ⟨w, hw, hflag⟩ := Option.map_eq_some_iff.mp hdown
      obtain ⟨v, hv, hvw⟩ := Requests.shared_flag hw
      rw [actionPending_handling fun b hb => by rw [hc] at hb; cases hb]
      rw [hv]
      exact congrArg some (hvw.trans hflag)
  | inr o =>
      cases o with
      | metrics | metricsChanged | borrowWatchedLeader =>
          rw [actionPending_handling fun b hb => by rw [hc] at hb; cases hb]
          exact hdown
      | subscribeActions =>
          simp only [Requests.perform, Requests.runtime, Requests.set_loops] at hdown
          cases hdown
      | select b =>
          simp only [Requests.perform, Requests.runtime, Requests.set_loops, Option.map_map,
            Option.map_eq_some_iff] at hdown
          obtain ⟨v, _, hflag⟩ := hdown
          rw [actionPending_select hc, (Selected.flag_eq_false hflag).2]

/-- A step that leaves the flag of a loop down found its `action_pending` false, or was
not one of the loop. -/
theorem step_flag {d d' : Config Tid Supervisor (RuntimeState Tid × Requests Tid) RuntimeCall
      RuntimeOut} {e : Event Tid RuntimeCall Choice Metrics}
    (hs : (recordedMachine Tid cfg).step d e = some d')
    (hdown : (d'.state.2.loops l).map LoopView.flag = some false) :
    actionPending d.forget d.state.2 l = some false ∨
      d'.pending l = d.pending l ∧ d'.state.2.loops l = d.state.2.loops l := by
  cases Machine.moves_of_step hs with
  | @call i call p _ hp =>
      cases hp
      by_cases hl : l = i
      · subst hl
        have hnone : (d.state.2.enter d.state.1 l call).loops l = none := Requests.enter_self ..
        have hdown : ((d.state.2.enter d.state.1 l call).loops l).map LoopView.flag =
          some false := hdown
        rw [hnone] at hdown
        cases hdown
      · exact .inr ⟨Config.pending_setTask_of_ne _ _ _ hl, (Requests.enter_of_ne hl).1⟩
  | @step i x call o next r q ht hq =>
      obtain ⟨p, hp, heq⟩ := Option.map_eq_some_iff.mp hq
      cases heq
      by_cases hl : l = i
      · subst hl
        exact .inl (perform_flag (Config.pending_of_perform (c := d.forget) ht) hdown)
      · exact .inr ⟨Config.pending_setTask_of_ne _ _ _ hl, (Requests.perform_of_ne hl).1⟩
  | @ret i call a ht =>
      by_cases hl : l = i
      · subst hl
        left
        rw [actionPending_handling fun b hb => by
          simp only [Config.pending, Config.forget, ht] at hb
          cases hb]
        exact hdown
      · exact .inr ⟨Config.pending_setTask_of_ne _ _ _ hl, rfl⟩
  | env hp =>
      cases hp
      exact .inr ⟨rfl, rfl⟩

theorem records_conform {leader : Bool} {version : Nat}
    {c : Config Tid Supervisor (RuntimeState Tid) RuntimeCall RuntimeOut} {h : Requests Tid}
    (hr : Records cfg leader version c h) :
    (recordedMachine Tid cfg).Conforms .any outline (c.record h) := by
  refine (verified cfg).reaches (Machine.conforms_quiet _ ?_ fun _ => trivial) hr
  refine ⟨fun _ => Nat.le_refl _, fun i n hn => ?_, fun n hn => ?_, fun i v n hv => ?_,
    fun i v hv => ?_, fun i v hv => ?_⟩
  · cases hn
  · cases hn
  · cases hv
  · cases hv
  · cases hv

/-- In every run of the runtime: where an action has been queued since the most recent
action began, the loop's receiver holds it unseen or the loop's `action_pending` is
true; and only the loop's own action makes it false, one that has begun after every
request the receiver has seen. -/
theorem control_requests_kept (cfg : ConductorConfig) (leader : Bool) (version : Nat)
    (c : Config Tid Supervisor (RuntimeState Tid) RuntimeCall RuntimeOut) (h : Requests Tid)
    (hr : Records cfg leader version c h) (l : Tid) :
    (∀ pending, actionPending c h l = some pending → Requested c.state h →
      (c.state.own l).actionSeen < c.state.sends ∨ pending = true) ∧
    ∀ e c' h', (recordedMachine Tid cfg).step (c.record h) e = some (c'.record h') →
      actionPending c h l ≠ some false → actionPending c' h' l = some false →
      ∃ v n, h'.loops l = some v ∧ v.stage = .handling .actionRetry ∧ v.begun = some n ∧
        (c'.state.own l).actionSeen ≤ n := by
  have hc := records_conform hr
  constructor
  · intro pending hpending hrequested
    cases pending with
    | true => exact .inr rfl
    | false =>
        obtain ⟨v, hv, hserved, _⟩ := served_of_down hc hpending
        have hkept : Kept c.state h := hc.1
        obtain ⟨b, hb, hle⟩ := hserved.began hkept hv
        rw [Requested, hb] at hrequested
        exact .inl (Nat.lt_of_le_of_lt hle hrequested)
  · intro e c' h' hs hup hdown
    have hc' : (recordedMachine Tid cfg).Conforms .any outline (c'.record h') :=
      records_conform (hr.tail e (Policy.any_permits _ e) hs)
    obtain ⟨v, hv, ⟨n, hn, hle⟩, hstage | hflag⟩ := served_of_down hc' hdown
    · exact ⟨v, n, hv, hstage, hn, hle⟩
    · exfalso
      have hlow : (h'.loops l).map LoopView.flag = some false := by rw [hv, ← hflag]; rfl
      cases step_flag (l := l) hs hlow with
      | inl hfalse => exact hup hfalse
      | inr hsame =>
          apply hup
          rw [← hdown, actionPending, actionPending]
          have hpending : c'.pending l = c.pending l := hsame.1
          have hloop : h'.loops l = h.loops l := hsame.2
          rw [hpending, hloop]

end

/-- The watcher queues an action while the loop's first one is running. -/
def lateRequest : Run :=
  [.call false (.leaderWatch 3 3)] ++ steps false 2 ++
    [.call true (.controlLoop 6)] ++ steps true 1 ++ [.step true (choose .retry)] ++
    steps true 7 ++ [.env ⟨true⟩] ++ steps false 8 ++ steps true 3

/-- The loop is about to end its action, which began before the one request. -/
def endsLate (d : Config Bool Supervisor (RuntimeState Bool × Requests Bool) RuntimeCall
    RuntimeOut) : Bool :=
  decide (actionPending d.forget d.state.2 true = some true) &&
    ((recordedMachine Bool .default).step d (.step true (choose .none))).any fun d' =>
      decide (actionPending d'.forget d'.state.2 true = some false) &&
        decide (d'.state.2.began = some 0) && decide (d'.state.1.sends = 1)

theorem late_request_kept :
    ∃ c h c' h', Records .default false 0 c h ∧ Records .default false 0 c' h' ∧
      actionPending c h true = some true ∧ actionPending c' h' true = some false ∧
      Requested c'.state h' ∧ (c'.state.own true).actionSeen < c'.state.sends ∧
      ∃ v n, h'.loops true = some v ∧ v.begun = some n ∧ (c'.state.own true).actionSeen ≤ n := by
  have hrun : ∃ d, (recordedMachine Bool .default).Reaches .any
      (.quiet (.new .default false 0, .empty)) d ∧ endsLate d = true :=
    Machine.reaches_of_permitted lateRequest (by decide +kernel)
  obtain ⟨d, hr, hd⟩ := hrun
  simp only [endsLate, Bool.and_eq_true, decide_eq_true_eq, Option.any_eq_true] at hd
  obtain ⟨hup, d', hs, ⟨hdown, hbegan⟩, hsends⟩ := hd
  have hrec : Records .default false 0 d.forget d.state.2 := hr
  have hrec' : Records .default false 0 d'.forget d'.state.2 :=
    hr.tail _ (Policy.any_permits _ _) hs
  have hrequested : Requested d'.forget.state d'.state.2 := by
    rw [Requested, hbegan]
    exact hsends ▸ Nat.zero_lt_one
  obtain ⟨v, n, hv, _, hn, hle⟩ := (control_requests_kept .default false 0 _ _ hrec true).2 _
    d'.forget d'.state.2 hs (by rw [hup]; simp) hdown
  refine ⟨_, _, _, _, hrec, hrec', hup, hdown, hrequested, ?_, v, n, hv, hn, hle⟩
  cases (control_requests_kept .default false 0 _ _ hrec' true).1 _ hdown hrequested with
  | inl hunseen => exact hunseen
  | inr htrue => cases htrue

end ConductorRs.Runtime.ControlRequests

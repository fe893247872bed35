import ConductorRs.Metatheory.Quiescence

/-!
Pausing and stopping: the programs and their runs.

Every call gets one triple over the outline of `Quiescence`, and a stop that
returns `Ok` promises that `stopped` is set. The last two sections are about the
guard of an action: it lets an action through exactly when `active()` says so,
unless a stop has failed and none has succeeded, because `stopping` stays set.
-/
namespace ConductorRs.Conductor.Quiescence
open Concurrency

section
variable {Tid : Type} {i : Tid} [DecidableEq Tid] {cfg : ConductorConfig}

theorem load_paused :
    (logic cfg i).Holds (Held i) (op (.load .paused)) fun r s =>
      Held i s ∧ (r = false → paused s = false) := by
  refine triple_memory rfl held_stable fun s hi h => ⟨idle_check (by simp) rfl, ?_⟩
  intro x r m hm _
  cases hm
  exact ⟨grants_of_sameView hi ⟨rfl, rfl, rfl, rfl⟩, h, fun hr => hr⟩

/-- The rest of the guard of an action that has found `paused` down. -/
theorem stoppingOrStopped_triple :
    (logic cfg i).Holds (fun s => Held i s ∧ paused s = false) stoppingOrStopped fun r s =>
      Held i s ∧ (r = false → Past i s) := by
  have hstable : outline.Stable i fun s => Held i s ∧ paused s = false := by
    intro s s' h hr hi
    exact ⟨held_stable s s' h.1 hr hi, (hr.2.2.1 h.1.1).1 h.2⟩
  refine (logic cfg i).bind (R := fun _ s => Held i s ∧ paused s = false) ?_ fun r => ?_
  · refine inert_holds hstable (fun s s' h hv => ?_) (.load .stopping) rfl fun _ _ hc => by cases hc
    obtain ⟨hh, hc, hp, _⟩ := hv
    simpa only [Held, hh, hc, hp] using h
  · cases r with
    | true => exact (logic cfg i).done fun s _ h => ⟨h.1, fun hr => by cases hr⟩
    | false =>
        refine triple_memory rfl hstable fun s hi h => ⟨idle_check (by simp) rfl, ?_⟩
        intro x r m hm _
        cases hm
        exact ⟨grants_of_sameView hi ⟨rfl, rfl, rfl, rfl⟩, h.1, fun hr => ⟨h.1, h.2, hr⟩⟩

theorem actionLocked_triple :
    (logic cfg i).Holds (Held i) (actionLocked cfg) fun _ => Held i := by
  refine (logic cfg i).bind load_paused fun paused => ?_
  cases paused with
  | true => exact (logic cfg i).done fun s _ h => h.1
  | false =>
      refine (logic cfg i).pre (B := fun s => Held i s ∧ Quiescence.paused s = false)
        (fun s h => ⟨h.1, h.2 rfl⟩) ?_
      refine (logic cfg i).bind stoppingOrStopped_triple fun stopped => ?_
      cases stopped with
      | true => exact (logic cfg i).done fun s _ h => h.1
      | false =>
          -- past the guard nothing but inner operations is left
          refine (logic cfg i).conseq (B := Past i) (Q := fun _ => Past i)
            (fun s _ h => h.2 rfl) ?_ fun _ s _ h => h.1
          refine (logic cfg i).bind (past_inner rfl) fun health => ?_
          refine (logic cfg i).bind (past_inner rfl) fun leader => ?_
          refine (logic cfg i).bind (past_inner rfl) fun active => ?_
          exact (logic cfg i).all (fun o ho => past_inner ho) (react_inner health _)

theorem action_triple : (logic cfg i).Holds (Free i) (action cfg) fun _ => Free i := by
  refine (logic cfg i).bind lock_action fun _ => ?_
  refine (logic cfg i).bind actionLocked_triple fun result => ?_
  exact (logic cfg i).bind unlock_action fun _ => (logic cfg i).done fun _ _ h => h

theorem free_outer {o : Op} (h : Outer o) :
    (logic cfg i).Holds (Free i) (op o) fun _ => Free i :=
  free_inert (outer_inert h).1 (outer_inert h).2

theorem refreshSequencerActive_triple :
    (logic cfg i).Holds (Free i) refreshSequencerActive fun _ => Free i := by
  refine (logic cfg i).bind (t := op (.sequencer .sequencerActive)) (free_inert rfl rfl)
    fun r => ?_
  cases r with
  | error err => exact (logic cfg i).done fun _ _ h => h
  | ok active =>
      exact (logic cfg i).bind (free_inert rfl rfl) fun _ => (logic cfg i).done fun _ _ h => h

theorem ticking : Ticking (logic cfg i) cfg (Free i) where
  outer _ h := free_outer h
  refresh := refreshSequencerActive_triple
  action := action_triple

theorem pause_triple : (logic cfg i).Holds (Free i) pause fun _ => Free i := by
  refine (logic cfg i).bind (free_outer rfl) fun stopped => ?_
  cases stopped with
  | true => exact (logic cfg i).done fun _ _ h => h
  | false =>
      refine (logic cfg i).bind lock_action fun _ => ?_
      refine (logic cfg i).bind store_paused fun _ => ?_
      exact (logic cfg i).bind unlock_action fun _ => (logic cfg i).done fun _ _ h => h

theorem resume_triple : (logic cfg i).Holds (Free i) resume fun _ => Free i := by
  refine (logic cfg i).bind (t := op (.load .stopped)) (free_outer rfl) fun stopped => ?_
  cases stopped with
  | true => exact (logic cfg i).done fun _ _ h => h
  | false =>
      refine (logic cfg i).bind (t := op (.sequencer .sequencerActive)) (free_inert rfl rfl)
        fun r => ?_
      cases r with
      | error err => exact (logic cfg i).done fun _ _ h => h
      | ok active =>
          refine (logic cfg i).bind (t := op (.store .seqActive active)) (free_inert rfl rfl)
            fun _ => ?_
          refine (logic cfg i).bind (t := op (.store .paused false)) store_resumed fun _ => ?_
          refine (logic cfg i).bind (t := op .nextActionSeq) (free_inert rfl rfl) fun next => ?_
          exact (logic cfg i).bind (t := op (.sendAction next)) (free_inert rfl rfl)
            fun _ => (logic cfg i).done fun _ _ h => h

theorem initializeStartupState_triple :
    (logic cfg i).Holds (Free i) initializeStartupState fun _ => Free i := by
  refine (logic cfg i).bind (t := refreshSequencerActive) refreshSequencerActive_triple
    fun r => ?_
  cases r with
  | error err => exact (logic cfg i).done fun _ _ h => h
  | ok u =>
      refine (logic cfg i).bind ?_ fun _ => (logic cfg i).done fun _ _ h => h
      exact (logic cfg i).all (p := fun o => inert o = true ∧ o.isCommand = false)
        (fun o ho => free_inert ho.1 ho.2)
        (seedPreviousStateFromCurrent_all ⟨rfl, rfl⟩ ⟨rfl, rfl⟩ ⟨rfl, rfl⟩ fun _ => ⟨rfl, rfl⟩)

/-- What a stop reads of `stopped` under its lock decides whether it goes on. -/
def Book.Found : Bool → Book → Prop
  | true => Book.Ended
  | false => Book.Fresh

theorem load_stopped :
    (logic cfg i).Holds (Closing i False fun b => b.Sound ∧ b.Settled) (op (.load .stopped))
      fun r => Closing i False (Book.Found r) := by
  refine triple_memory rfl closing_stable fun s hi h => ⟨idle_check (by simp) rfl, ?_⟩
  intro x r m hm _
  cases hm
  obtain ⟨hc, hh, hsound, hsettled⟩ := h
  refine ⟨grants_of_sameView hi ⟨rfl, rfl, rfl, rfl⟩, hc, hh, ?_⟩
  cases hstopped : s.mem.flags .stopped with
  | true => exact ⟨hsound, hstopped⟩
  | false =>
      have honce := hsound.once
      have hne : (book s).shutdowns.succeeded ≠ 1 := by
        intro hone
        have hset := hsettled.1 hone
        simp [book, hstopped] at hset
      have hzero : (book s).shutdowns.succeeded = 0 := by omega
      exact ⟨hzero, hstopped⟩

theorem stop_triple :
    (logic cfg i).Holds (Free i) stop fun r s =>
      Free i s ∧ (r = .ok () → (book s).stopped = true) := by
  refine (logic cfg i).bind lock_stop fun _ => ?_
  refine (logic cfg i).bind load_stopped fun stopped => ?_
  cases stopped with
  | true =>
      refine (logic cfg i).bind (unlock_stop fun _ h => Book.Ended.settled h) fun _ => ?_
      exact (logic cfg i).done fun s _ h => ⟨h.1, fun _ => h.2.2⟩
  | false =>
      refine (logic cfg i).bind store_stopping fun _ => ?_
      refine (logic cfg i).bind closing_lock_action fun _ => ?_
      refine (logic cfg i).bind call_shutdown fun r => ?_
      cases r with
      | error err =>
          refine (logic cfg i).bind closing_unlock_action fun _ => ?_
          refine (logic cfg i).bind (unlock_stop fun _ h => Book.Refused.settled h) fun _ => ?_
          exact (logic cfg i).done fun s _ h => ⟨h.1, fun hr => by cases hr⟩
      | ok u =>
          refine (logic cfg i).bind store_stopped fun _ => ?_
          refine (logic cfg i).bind (closing_inert rfl rfl) fun _ => ?_
          refine (logic cfg i).bind closing_unlock_action fun _ => ?_
          refine (logic cfg i).bind (unlock_stop fun _ h => Book.Ended.settled h) fun _ => ?_
          exact (logic cfg i).done fun s _ h => ⟨h.1, fun _ => h.2.2⟩

/-- What a call promises: it holds no lock, and a stop that succeeds has set
`stopped`. -/
def Promise (i : Tid) (call : Call) (r : Outcome) (s : Sys Tid) : Prop :=
  Free i s ∧ (call = .stop → r = .ok () → (book s).stopped = true)

omit [DecidableEq Tid] in
theorem promise_stable (i : Tid) (call : Call) (r : Outcome) :
    outline.Stable i (Promise i call r) := by
  intro s s' h hr hi
  exact ⟨free_stable s s' h.1 hr hi, fun hc ho => hr.2.2.2.2 (h.2 hc ho)⟩

theorem body_triple (call : Call) :
    (logic cfg i).Holds (Free i) (body cfg call) (Promise i call) := by
  have hplain : ∀ {t : Task Shared Outcome}, call ≠ .stop →
      (logic cfg i).Holds (Free i) t (fun _ => Free i) →
      (logic cfg i).Holds (Free i) t (Promise i call) := fun hne h =>
    (logic cfg i).post h fun _ s hs => ⟨hs, fun hc => absurd hc hne⟩
  cases call with
  | tick now => exact hplain (by simp) (ticking.tick_holds now)
  | action => exact hplain (by simp) action_triple
  | pause => exact hplain (by simp) pause_triple
  | resume => exact hplain (by simp) resume_triple
  | stop => exact (logic cfg i).post stop_triple fun r s h => ⟨h.1, fun _ => h.2⟩
  | refreshSequencerActive => exact hplain (by simp) refreshSequencerActive_triple
  | initializeStartupState => exact hplain (by simp) initializeStartupState_triple

theorem meets (cfg : ConductorConfig) :
    (machine cfg (world : World Tid Shutdowns Oracle Empty)).Meets .any outline Promise := by
  refine Machine.meets_of_calls coherent promise_stable (A := fun i _ => Free i) ?_
    (fun i call => body_triple call) ?_ fun s e => e.elim
  · intro s i call s' hi hidle he _
    cases he
    exact ⟨⟨hi, fun j _ => coherent.refl j s⟩, hidle⟩
  · intro s i call r hi h
    exact ⟨⟨hi, fun j _ => coherent.refl j s⟩, h.1⟩

theorem initial_upholds (cfg : ConductorConfig) (leader : Bool) :
    (machine cfg world).Upholds .any outline Promise
      (Config.quiet (initial cfg leader : Sys Tid)) := by
  refine Machine.upholds_quiet _ ⟨⟨?_, ?_, ?_⟩, fun _ => ⟨?_, ?_⟩⟩ fun i => ⟨?_, ?_⟩
  all_goals simp [initial, book, Memory.new, holder, closer]

/-- No step of a run takes `stopped` back. -/
theorem stopped_lasts (cfg : ConductorConfig) {c c' : Config Tid Shared (Sys Tid) Call Outcome}
    (h : (machine cfg world).Upholds .any outline Promise c)
    (hr : (machine cfg world).Reaches .any c c') (hstopped : (book c.state).stopped = true) :
    (book c'.state).stopped = true := by
  refine (meets cfg).lasts (K := fun s => (book s).stopped = true) ?_ ?_ ?_ ?_ h hstopped hr
  · intro s i call s' hK he
    cases he
    exact hK
  · intro s i o x r s' hcheck hK hp
    have hp' : world.perform s i o x = some (r, s') := hp
    by_cases he : o.external = true
    · obtain ⟨_, rfl⟩ := World.perform_external he hp'
      exact hK
    · obtain ⟨m, hm, rfl⟩ := World.perform_memory (by simpa using he) hp'
      by_cases ho : o = .store .stopped true
      · subst ho
        cases hm
        simp [book]
      · have hflag : m.flags .stopped = s.mem.flags .stopped := by
          refine Memory.perform_flags hm fun value => ?_
          cases value with
          | true => exact ho
          | false => exact hcheck.1
        simpa only [book, hflag] using hK
  · exact fun s i call r hK => hK
  · exact fun s e => e.elim

/-- In every run of a conductor: no command is pending while `paused` is set, nor
once a stop has returned `Ok`; `stopped` stays set; at most one shutdown succeeds,
and it has succeeded when a stop returns `Ok`. -/
theorem pause_and_stop_quiescent (cfg : ConductorConfig) (leader : Bool)
    (c : Config Tid Shared (Sys Tid) Call Outcome)
    (hr : (machine cfg world).Reaches .any (Config.quiet (initial cfg leader)) c) :
    (paused c.state = true → ∀ i o, c.pending i = some o → o.isCommand = false) ∧
    c.state.world.succeeded ≤ 1 ∧
    (∀ i, c.tasks i = some (.stop, .done (.ok ())) → c.state.world.succeeded = 1) ∧
    ∀ c', (machine cfg world).Reaches .any c c' →
      (c.state.mem.flags .stopped = true → c'.state.mem.flags .stopped = true) ∧
      ((∃ i, c.tasks i = some (.stop, .done (.ok ()))) →
        ∀ j o, c'.pending j = some o → o.isCommand = false) := by
  have hc := (meets cfg).reaches (initial_upholds cfg leader) hr
  have hreturned : ∀ i, c.tasks i = some (.stop, .done (.ok ())) →
      (book c.state).stopped = true := fun i ht => (hc.returned ht).2 rfl rfl
  refine ⟨fun hp i o hop => ?_, hc.1.1.once, fun i ht => hc.1.1.succeeded (hreturned i ht), ?_⟩
  · by_contra hcmd
    have hcheck := (hc.check coherent hop).2 (by simpa using hcmd)
    rw [hp] at hcheck
    cases hcheck.1
  · intro c' hr'
    refine ⟨stopped_lasts cfg hc hr', fun hret j o hop => ?_⟩
    obtain ⟨i, ht⟩ := hret
    have hstopped := stopped_lasts cfg hc hr' (hreturned i ht)
    have hc' := (meets cfg).reaches hc hr'
    by_contra hcmd
    have hcheck := (hc'.check coherent hop).2 (by simpa using hcmd)
    rw [hstopped] at hcheck
    cases hcheck.2

/-- Only a stop takes the stop lock. -/
theorem body_leaves_stop (call : Call) (h : ¬call = .stop) :
    (body cfg call).All fun o : Op => o ≠ .lock .stop := by
  have houter : ∀ o, Outer o → o ≠ .lock .stop := by
    rintro o ho rfl
    cases ho
  have hinner : ∀ o, Inner o → o ≠ .lock .stop := by
    rintro o ho rfl
    cases ho
  cases call with
  | tick now => exact tick_all houter hinner (by simp) (by simp) now
  | action => exact action_all houter hinner (by simp) (by simp)
  | stop => exact absurd rfl h
  | pause => exact pause_all houter (by simp) (by simp) (by simp)
  | resume => exact resume_all houter hinner (by simp) (by simp) fun _ => by simp
  | refreshSequencerActive => exact refreshSequencerActive_all hinner
  | initializeStartupState => exact initializeStartupState_all hinner fun _ => by simp

theorem perform_closer {s s' : Sys Tid} {j : Tid} {o : Op} {x : Oracle} {r : o.Reply}
    (h : world.perform s i o x = some (r, s')) (hj : j ≠ i ∨ o ≠ .lock .stop)
    (hmark : closer s' = some j) : closer s = some j := by
  by_cases he : o.external = true
  · obtain ⟨_, rfl⟩ := World.perform_external he h
    exact hmark
  · obtain ⟨m, hm, rfl⟩ := World.perform_memory (by simpa using he) h
    by_cases hl : o = .lock .stop
    · subst hl
      simp only [Memory.perform] at hm
      split at hm
      · cases hm
        simp [closer] at hmark
        rcases hj with hj | hj
        · exact absurd hmark.symm hj
        · exact absurd rfl hj
      · cases hm
    · by_cases hu : o = .unlock .stop
      · subst hu
        simp only [Memory.perform] at hm
        split at hm
        · cases hm
          simp [closer] at hmark
        · cases hm
      · have howner := Memory.perform_owner hm hl hu
        simpa only [closer, howner] using hmark

theorem marks (cfg : ConductorConfig) :
    Machine.Marks (machine cfg (world : World Tid Shutdowns Oracle Empty)) outline
      (fun s i => closer s = some i) (· = .stop) where
  idle s i h := h.2
  body call h := Task.all_mono (fun o ho s i x r s' hp => perform_closer hp (.inr ho)) _
    (body_leaves_stop call h)
  others s i o x r s' j hp hj := perform_closer hp (.inl hj)
  enter s i call s' j he h := by
    cases he
    exact h
  leave s i call r j h := h
  env s e := e.elim

end

/-- Let a task read the flags, until it comes to another operation or ends. -/
def readFlags {Tid α : Type} (m : Memory Tid) : Task Shared α → Task Shared α
  | .perform (.load flag) next => readFlags m (next (m.flags flag))
  | t => t

section
variable {Tid : Type} (m : Memory Tid) (cfg : ConductorConfig)

/-- From this memory on, an action goes past its guard and evaluates the state. -/
def Evaluates : Prop :=
  ∃ next, readFlags m (actionLocked cfg) = .perform .cloneHealthy next

/-- The value `active()` returns. -/
def ReportsActive : Prop := readFlags m active = .done true

theorem readFlags_stoppingOrStopped {α : Type} (f : Bool → Task Shared α) :
    readFlags m (stoppingOrStopped.bind f) =
      readFlags m (f (m.flags .stopping || m.flags .stopped)) := by
  change readFlags m ((if m.flags .stopping = true then Task.done true
    else op (.load .stopped) : Task Shared Bool).bind f) = _
  cases m.flags .stopping with
  | true => rfl
  | false => rfl

theorem evaluates_iff : Evaluates m cfg ↔
    m.flags .paused = false ∧ m.flags .stopping = false ∧ m.flags .stopped = false := by
  have hread : ∃ rest : Bool → Task Shared Outcome, readFlags m (actionLocked cfg) =
      readFlags m (if m.flags .paused = true then .done (.ok ()) else stoppingOrStopped.bind rest) ∧
      rest true = .done (.ok ()) ∧ ∃ next, rest false = .perform .cloneHealthy next :=
    ⟨_, rfl, rfl, _, rfl⟩
  obtain ⟨rest, hread, hstop, next, hgo⟩ := hread
  rw [Evaluates, hread]
  cases hp : m.flags .paused with
  | true =>
      rw [if_pos rfl]
      simp [readFlags]
  | false =>
      rw [if_neg (by simp), readFlags_stoppingOrStopped]
      cases hg : (m.flags .stopping || m.flags .stopped) with
      | true =>
          rw [hstop]
          simp only [Bool.or_eq_true] at hg
          rcases hg with hg | hg <;> simp [readFlags, hg]
      | false =>
          rw [hgo]
          simp only [Bool.or_eq_false_iff] at hg
          simp [readFlags, hg]

theorem reportsActive_iff : ReportsActive m ↔
    m.flags .paused = false ∧ m.flags .stopped = false := by
  have hread : readFlags m active =
      readFlags m (if m.flags .paused = true then .done false
        else (op (.load .stopped)).bind fun stopped => .done !stopped) := rfl
  rw [ReportsActive, hread]
  cases hp : m.flags .paused with
  | true =>
      rw [if_pos rfl]
      simp [readFlags]
  | false =>
      rw [if_neg (by simp)]
      change Task.done (!m.flags .stopped) = .done true ↔ _
      simp

end

section
variable {Tid : Type} [DecidableEq Tid]

/-- In every run, wherever no stop is in progress and either no shutdown has
failed or one has succeeded, an action evaluates the state exactly when the
conductor reports itself active. -/
theorem evaluates_iff_active (cfg : ConductorConfig) (leader : Bool)
    (c : Config Tid Shared (Sys Tid) Call Outcome)
    (hr : (machine cfg world).Reaches .any (Config.quiet (initial cfg leader)) c)
    (hidle : ∀ i t, c.tasks i ≠ some (.stop, t))
    (hshut : c.state.world.failed = false ∨ c.state.world.succeeded = 1) :
    Evaluates c.state.mem cfg ↔ ReportsActive c.state.mem := by
  have hc := (meets cfg).reaches (initial_upholds cfg leader) hr
  have hnone : closer c.state = none := by
    cases hclose : closer c.state with
    | none => rfl
    | some i =>
        obtain ⟨call, t, ht, rfl⟩ := (marks cfg).within (meets cfg) (initial_upholds cfg leader)
          hr hclose
        exact absurd ht (hidle i t)
  obtain ⟨hdone, hstop⟩ := hc.1.2 hnone
  have hstopping : c.state.mem.flags .stopped = false → c.state.mem.flags .stopping = false := by
    intro hs
    rw [Bool.eq_false_iff]
    intro hg
    rcases hstop hg with h | h
    · simp [book, hs] at h
    · rcases hshut with hf | hone
      · simp [book, hf] at h
      · have hset := hdone hone
        simp [book, hs] at hset
  rw [evaluates_iff, reportsActive_iff]
  constructor
  · exact fun h => ⟨h.1, h.2.2⟩
  · exact fun h => ⟨h.1, hstopping h.2, h.2⟩

end

section

abbrev Conf := Config Bool Shared (Sys Bool) Call Outcome

/-- Consensus shuts down; everything else fails. -/
def obey : Oracle
  | .consensus .shutdown => .ok ()
  | o => Oracle.refuse o

/-- A stop that runs to its end, next to an action that waits for the lock. -/
def stopAndWait (x : Oracle) : List (Event Bool Call Oracle Empty) :=
  [.call false .action, .call true .stop] ++ List.replicate 9 (.step true x)

def endedOk (c : Conf) : Bool :=
  match c.tasks true with
  | some (.stop, .done (.ok _)) => true
  | _ => false

theorem endedOk_task {c : Conf} (h : endedOk c = true) :
    c.tasks true = some (.stop, .done (.ok ())) := by
  simp only [endedOk] at h
  split at h
  · assumption
  · cases h

/-- After a stop has succeeded the waiting action may go on, but not to a command. -/
theorem stop_quiets_waiting_action :
    ∃ c : Conf, (machine .default world).Reaches .any (Config.quiet (initial .default true)) c ∧
      c.tasks true = some (.stop, .done (.ok ())) ∧ (c.pending false).isSome = true ∧
      c.state.world.succeeded = 1 ∧
      ∀ c', (machine .default world).Reaches .any c c' →
        ∀ j o, c'.pending j = some o → o.isCommand = false := by
  have hrun : ∃ c : Conf, (machine .default world).Reaches .any
      (Config.quiet (initial .default true)) c ∧
      (endedOk c && (c.pending false).isSome) = true :=
    Machine.reaches_of_permitted (stopAndWait obey) (by decide +kernel)
  obtain ⟨c, hc, hend⟩ := hrun
  rw [Bool.and_eq_true] at hend
  have htask := endedOk_task hend.1
  obtain ⟨_, _, hone, hlater⟩ := pause_and_stop_quiescent .default true c hc
  exact ⟨c, hc, htask, hend.2, hone true htask, fun c' hc' => (hlater c' hc').2 ⟨true, htask⟩⟩

/-- No call is in progress. -/
def resting (c : Conf) : Bool :=
  (c.tasks true).isNone && (c.tasks false).isNone

theorem resting_idle {c : Conf} (h : resting c = true)
    (i : Bool) (t : Task Shared Outcome) : c.tasks i ≠ some (.stop, t) := by
  simp only [resting, Bool.and_eq_true, Option.isNone_iff_eq_none] at h
  cases i with
  | true => simp [h.1]
  | false => simp [h.2]

def stopAndReturn (x : Oracle) (steps : Nat) : List (Event Bool Call Oracle Empty) :=
  [.call true .stop] ++ List.replicate steps (.step true x) ++ [.ret true]

theorem evaluates_iff_active_after_stop :
    ∃ c : Conf, (machine .default world).Reaches .any (Config.quiet (initial .default true)) c ∧
      c.state.world.succeeded = 1 ∧
      (Evaluates c.state.mem .default ↔ ReportsActive c.state.mem) := by
  have hrun : ∃ c : Conf, (machine .default world).Reaches .any
      (Config.quiet (initial .default true)) c ∧
      (resting c && decide (c.state.world.succeeded = 1)) = true :=
    Machine.reaches_of_permitted (stopAndReturn obey 9) (by decide +kernel)
  obtain ⟨c, hc, hend⟩ := hrun
  rw [Bool.and_eq_true, decide_eq_true_eq] at hend
  exact ⟨c, hc, hend.2,
    evaluates_iff_active .default true c hc (resting_idle hend.1) (.inr hend.2)⟩

/-- A stop whose shutdown fails returns and leaves `stopping` set: the conductor
reports itself active and no action gets past its guard. -/
theorem active_after_failed_stop :
    ∃ c : Conf, (machine .default world).Reaches .any (Config.quiet (initial .default true)) c ∧
      (∀ i t, c.tasks i ≠ some (.stop, t)) ∧
      ReportsActive c.state.mem ∧ ¬Evaluates c.state.mem .default := by
  have hrun : ∃ c : Conf, (machine .default world).Reaches .any
      (Config.quiet (initial .default true)) c ∧
      (resting c && !c.state.mem.flags .paused && !c.state.mem.flags .stopped &&
        c.state.mem.flags .stopping) = true :=
    Machine.reaches_of_permitted (stopAndReturn .refuse 7) (by decide +kernel)
  obtain ⟨c, hc, hend⟩ := hrun
  simp only [Bool.and_eq_true, Bool.not_eq_true'] at hend
  obtain ⟨⟨⟨hrest, hpaused⟩, hstopped⟩, hstopping⟩ := hend
  refine ⟨c, hc, resting_idle hrest, (reportsActive_iff _).mpr ⟨hpaused, hstopped⟩, ?_⟩
  rw [evaluates_iff, hstopping]
  simp

end
end ConductorRs.Conductor.Quiescence

import ConductorRs.Concurrency.Marks
import ConductorRs.Core.Runtime
import ConductorRs.Metatheory.Control

/-!
What keeps a control loop up to date with the leader flag.

A loop is settled when the flag its node has is the one the last action read, or
somebody still owes it an action: a watcher that has seen a change, a resume, or
the channel itself. It also counts as settled while the watcher has not caught up
with the flag. Every step but the loop's own reading of the channel keeps this,
provided a change of the flag does not undo one that only an action has seen.
-/
namespace ConductorRs.Runtime
open Concurrency Conductor

/-- The operations that lower a flag of a stop. -/
def lowers : Conductor.Op → Bool
  | .store .stopping false | .store .stopped false => true
  | _ => false

/-- The operation that ends a pause. -/
def unpauses : Conductor.Op → Bool
  | .store .paused false => true
  | _ => false

/-- The operations of everything but a resume. -/
def Steady (o : Conductor.Op) : Prop := lowers o = false ∧ unpauses o = false

theorem outer_steady {o : Conductor.Op} (h : Outer o) : Steady o := by
  cases o with
  | store flag value => cases h
  | _ => exact ⟨rfl, rfl⟩

theorem inner_steady {o : Conductor.Op} (h : Inner o) : Steady o := by
  cases o with
  | store flag value => cases flag <;> first | exact ⟨rfl, rfl⟩ | cases h
  | _ => exact ⟨rfl, rfl⟩

section
variable {cfg : ConductorConfig}

theorem action_steady : (action cfg).All Steady :=
  action_all (fun _ => outer_steady) (fun _ => inner_steady) ⟨rfl, rfl⟩ ⟨rfl, rfl⟩

theorem tick_steady (now : Nat) : (tick cfg now).All Steady :=
  tick_all (fun _ => outer_steady) (fun _ => inner_steady) ⟨rfl, rfl⟩ ⟨rfl, rfl⟩ now

theorem stop_steady : stop.All Steady := by
  refine ⟨⟨rfl, rfl⟩, fun _ => ⟨⟨rfl, rfl⟩, fun stopped => ?_⟩⟩
  cases stopped with
  | true => exact ⟨⟨rfl, rfl⟩, fun _ => trivial⟩
  | false =>
      refine ⟨⟨rfl, rfl⟩, fun _ => ⟨⟨rfl, rfl⟩, fun _ => ⟨⟨rfl, rfl⟩, fun shut => ?_⟩⟩⟩
      cases shut with
      | error err => exact ⟨⟨rfl, rfl⟩, fun _ => ⟨⟨rfl, rfl⟩, fun _ => trivial⟩⟩
      | ok u =>
          exact ⟨⟨rfl, rfl⟩, fun _ => ⟨⟨rfl, rfl⟩, fun _ => ⟨⟨rfl, rfl⟩, fun _ =>
            ⟨⟨rfl, rfl⟩, fun _ => trivial⟩⟩⟩⟩

theorem body_steady (call : Conductor.Call) (hcall : call ≠ .resume) :
    (body cfg call).All Steady := by
  cases call with
  | tick now => exact tick_steady now
  | action => exact action_steady
  | pause => exact pause_all (fun _ => outer_steady) ⟨rfl, rfl⟩ ⟨rfl, rfl⟩ ⟨rfl, rfl⟩
  | resume => exact absurd rfl hcall
  | stop => exact stop_steady
  | refreshSequencerActive => exact refreshSequencerActive_all fun _ => inner_steady
  | initializeStartupState =>
      exact initializeStartupState_all (fun _ => inner_steady) fun _ => ⟨rfl, rfl⟩

end

/-- The operations on a receiver of the raft metrics. -/
def ofMetrics : RuntimeOp → Bool
  | .metrics | .metricsChanged | .borrowWatchedLeader => true
  | .subscribeActions | .select _ => false

section
variable {p : Supervisor.Op → Prop}

theorem conductor_all {α : Type} {q : Conductor.Op → Prop} {t : Task Shared α}
    (hq : ∀ o, q o → p (.inl o)) (h : t.All q) : (conductor t).All p := by
  induction t with
  | done a => trivial
  | perform o next ih => exact ⟨hq o h.1, fun r => ih r (h.2 r)⟩

theorem waitRound_all (hmetrics : ∀ o, ofMetrics o = true → p (.inr o)) (previous : Bool)
    (u : Unit) : (waitRound previous u).All p := by
  refine ⟨hmetrics _ rfl, fun changed => ?_⟩
  cases changed with
  | error err => trivial
  | ok u =>
      apply Task.all_bind p (runtime .borrowWatchedLeader)
      · exact ⟨hmetrics _ rfl, fun _ => trivial⟩
      · intro leader
        split <;> trivial

theorem leaderWatchRound_all (hshared : ∀ o, Steady o → p (.inl o))
    (hmetrics : ∀ o, ofMetrics o = true → p (.inr o)) (waits : Nat) (leader : Bool) :
    (leaderWatchRound waits leader).All p := by
  have hstopped : (conductor (op (.load .stopped))).All p :=
    conductor_all hshared ⟨⟨rfl, rfl⟩, fun _ => trivial⟩
  have hqueue : (conductor queueAction).All p :=
    conductor_all hshared ⟨⟨rfl, rfl⟩, fun _ => ⟨⟨rfl, rfl⟩, fun _ => trivial⟩⟩
  apply Task.all_bind
  · exact ⟨hmetrics _ rfl, fun _ => Task.all_loop p (waitRound_all hmetrics leader) waits ()⟩
  · intro ended
    cases ended with
    | none => trivial
    | some result =>
        cases result with
        | error err =>
            apply Task.all_bind p _ _ hstopped
            intro stopped
            cases stopped <;> trivial
        | ok leader =>
            apply Task.all_bind p _ _ hstopped
            intro stopped
            cases stopped with
            | true => trivial
            | false => exact Task.all_bind p _ _ hqueue fun _ => trivial

theorem runLeaderWatch_all (hshared : ∀ o, Steady o → p (.inl o))
    (hmetrics : ∀ o, ofMetrics o = true → p (.inr o)) (rounds waits : Nat) :
    (runLeaderWatch rounds waits).All p := by
  apply Task.all_bind p (conductor (op (.consensus .leader)))
  · exact conductor_all hshared ⟨⟨rfl, rfl⟩, fun _ => trivial⟩
  · intro leader
    exact Task.all_bind p _ _
      (Task.all_loop p (leaderWatchRound_all hshared hmetrics waits) rounds leader)
      fun _ => trivial

end

section
variable {Tid : Type}

def paused (s : RuntimeState Tid) : Bool := s.mem.flags .paused
def stopping (s : RuntimeState Tid) : Bool := s.mem.flags .stopping
def stopped (s : RuntimeState Tid) : Bool := s.mem.flags .stopped

/-- The flag may change when the watcher has seen the flag it has, when the last
action has read the flag it changes to, and when nobody has read it yet. -/
def seenChange (w : Tid) (s : RuntimeState Tid) (e : Metrics) : Bool :=
  decide (e.leader = s.leader) || decide ((s.own w).noted = some s.leader) ||
    decide (s.lastRead = some e.leader) ||
    (decide ((s.own w).noted = none) && decide (s.lastRead = none))

/-- A thread is a watcher only once. -/
def firstWatch (s : RuntimeState Tid) (i : Tid) (call : RuntimeCall) : Bool :=
  !isWatch call || decide ((s.own i).noted = none)

def changesSeen (w : Tid) :
    Policy Tid Supervisor (RuntimeState Tid) RuntimeCall Choice Metrics where
  call s i call := firstWatch s i call = true
  step _ _ _ _ := True
  env s e := seenChange w s e = true

instance (w : Tid) (s : RuntimeState Tid) (i : Tid) (call : RuntimeCall) :
    Decidable ((changesSeen w).call s i call) :=
  inferInstanceAs (Decidable (_ = true))

instance (w : Tid) (s : RuntimeState Tid) (i : Tid) (o : Supervisor.Op) (x : Choice) :
    Decidable ((changesSeen w).step s i o x) :=
  inferInstanceAs (Decidable True)

instance (w : Tid) (s : RuntimeState Tid) (e : Metrics) : Decidable ((changesSeen w).env s e) :=
  inferInstanceAs (Decidable (_ = true))

/-- The watcher has caught up with the flag, or has not begun. -/
def CaughtUp (w : Tid) (s : RuntimeState Tid) : Prop :=
  (s.own w).noted = none ∨ (s.own w).noted = some s.leader

/-- Somebody owes the loop `l` an action, or no action would read the flag. -/
def Covered (w l : Tid) (s : RuntimeState Tid) : Prop :=
  (s.own w).watchOwes = true ∨ s.sends ≠ (s.own l).actionSeen ∨ paused s = true ∨
    stopping s = true ∨ stopped s = true ∨ ∃ i, (s.own i).resumeOwes = true

def Settled (w l : Tid) (s : RuntimeState Tid) : Prop :=
  CaughtUp w s → s.lastRead = some s.leader ∨ Covered w l s

/-- What a thread has seen and noted is not ahead of the channels, and a note of
the latest metrics is the flag itself. -/
structure Fits (s : RuntimeState Tid) (own : Own) : Prop where
  actions : own.actionSeen ≤ s.sends
  metrics : own.metricsSeen ≤ s.version
  unwatched : own.noted = none → own.watchOwes = false
  noted : own.noted ≠ none →
    own.notedAt ≤ s.version ∧ (own.notedAt = s.version → own.noted = some s.leader)

def Sound (s : RuntimeState Tid) : Prop := ∀ i, Fits s (s.own i)

/-- A watcher that waits for new metrics has looked at all it has seen, and has
queued its action. -/
structure Waiting (own : Own) : Prop where
  noted : own.noted ≠ none
  paid : own.watchOwes = false
  looked : own.metricsSeen ≤ own.notedAt

def outline (w : Tid) : Outline Tid Supervisor (RuntimeState Tid) where
  inv := Sound
  rely i s s' := s'.own i = s.own i ∧ (Settled w i s → Settled w i s')
  idle i s := (s.own i).resumeOwes = false
  check i s
    | .inr .metricsChanged => Waiting (s.own i)
    | .inr (.select false) => Settled w i s
    | _ => True

theorem coherent (w : Tid) : (outline w).Coherent where
  refl _ _ := ⟨rfl, fun h => h⟩
  trans _ _ _ _ h h' := ⟨h'.1.trans h.1, fun hs => h'.2 (h.2 hs)⟩
  idle i s s' h hr _ := by
    have h : (s.own i).resumeOwes = false := h
    rw [← hr.1] at h
    exact h

/-- What a thread knows of its own. -/
theorem own_stable {w i : Tid} (ψ : Own → Prop) :
    (outline w).Stable i fun s => ψ (s.own i) := by
  intro s s' h hr _
  rw [hr.1]
  exact h

/-- At rest a settled loop is up to date. -/
theorem Settled.upToDate {w l : Tid} {s : RuntimeState Tid} (h : Settled w l s) (hs : Sound s)
    (hw : Waiting (s.own w)) (hseen : (s.own w).metricsSeen = s.version)
    (hactions : (s.own l).actionSeen = s.sends) (hpaused : paused s = false)
    (hstopping : stopping s = false) (hstopped : stopped s = false)
    (hresumes : ∀ i, (s.own i).resumeOwes ≠ true) : s.lastRead = some s.leader := by
  obtain ⟨hle, hcurrent⟩ := (hs w).noted hw.noted
  have hat : (s.own w).notedAt = s.version := by
    have hlooked := hw.looked
    omega
  cases h (.inr (hcurrent hat)) with
  | inl hread => exact hread
  | inr hcovered =>
      exfalso
      have hpaid := hw.paid
      simp [Covered, hpaid, hactions, hpaused, hstopping, hstopped, hresumes] at hcovered

/-- New metrics leave every note behind. -/
theorem Sound.env {s : RuntimeState Tid} (h : Sound s) (e : Metrics) :
    Sound { s with leader := e.leader, version := s.version + 1 } := by
  intro i
  obtain ⟨hactions, hmetrics, hunwatched, hnoted⟩ := h i
  refine ⟨hactions, Nat.le_succ_of_le hmetrics, hunwatched, fun hi => ?_⟩
  obtain ⟨hle, _⟩ := hnoted hi
  refine ⟨Nat.le_succ_of_le hle, fun heq => ?_⟩
  have heq : (s.own i).notedAt = s.version + 1 := heq
  omega

/-- A change of the flag that has been seen leaves the loops settled. -/
theorem Settled.env {w l : Tid} {s : RuntimeState Tid} (h : Settled w l s) {e : Metrics}
    (he : seenChange w s e = true) :
    Settled w l { s with leader := e.leader, version := s.version + 1 } := by
  intro hcaught
  by_cases hflag : e.leader = s.leader
  · simp only [CaughtUp, hflag] at hcaught ⊢
    exact h hcaught
  · simp only [seenChange, Bool.or_eq_true, Bool.and_eq_true, decide_eq_true_eq, hflag,
      false_or] at he
    cases he with
    | inl hseen =>
        cases hseen with
        | inl hnoted =>
            -- the watcher is behind now
            exfalso
            simp only [CaughtUp, hnoted, Option.some.injEq] at hcaught
            cases hcaught with
            | inl hnone => cases hnone
            | inr heq => exact hflag heq.symm
        | inr hread => exact .inl hread
    | inr hnobody =>
        cases h (.inl hnobody.1) with
        | inl hread =>
            rw [hnobody.2] at hread
            cases hread
        | inr hcovered => exact .inr hcovered

end

section
variable {Tid : Type} [DecidableEq Tid] {w l i : Tid} {s s' : RuntimeState Tid}
variable {o : Conductor.Op} {x : Choice} {r : o.Reply}

theorem after_receivers (own : Own) (version : Nat) (o : Conductor.Op) (r : o.Reply) :
    (own.after version o r).metricsSeen = own.metricsSeen ∧
      (own.after version o r).actionSeen = own.actionSeen := by
  cases o with
  | lock lock | unlock lock => cases lock <;> exact ⟨rfl, rfl⟩
  | store flag value => cases flag <;> cases value <;> exact ⟨rfl, rfl⟩
  | consensus o =>
      cases o with
      | leader =>
          simp only [Own.after, Own.note]
          split <;> exact ⟨rfl, rfl⟩
      | _ => exact ⟨rfl, rfl⟩
  | _ => exact ⟨rfl, rfl⟩

/-- A debt is set by lowering `paused` only, and sending pays all of them. -/
theorem after_debts (own : Own) (version : Nat) (o : Conductor.Op) (r : o.Reply)
    (hsend : isSend o = false) :
    (own.after version o r).watchOwes = own.watchOwes ∧
      (own.after version o r).resumeOwes = (own.resumeOwes || unpauses o) := by
  cases o with
  | lock lock | unlock lock => cases lock <;> simp [Own.after, unpauses]
  | store flag value => cases flag <;> cases value <;> simp [Own.after, unpauses]
  | consensus o =>
      cases o with
      | leader =>
          simp only [Own.after, Own.note]
          split <;> simp [unpauses]
      | _ => simp [Own.after, unpauses]
  | sendAction seq => cases hsend
  | _ => simp [Own.after, unpauses]

theorem shared_after (h : s.performShared i o x = some (r, s')) : s' = s.after i s'.mem o r := by
  simp only [RuntimeState.performShared] at h
  split at h
  · cases h
    rfl
  · obtain ⟨p, _, hp⟩ := Option.map_eq_some_iff.mp h
    cases hp
    rfl

theorem shared_own (h : s.performShared i o x = some (r, s')) :
    s'.own i = (s.own i).after s.version o r := by
  rw [shared_after h]
  exact Function.update_self ..

theorem shared_own_of_ne (h : s.performShared i o x = some (r, s')) {j : Tid} (hj : j ≠ i) :
    s'.own j = s.own j := by
  rw [shared_after h]
  exact Function.update_of_ne hj ..

/-- Sending pays the debt of a watcher. -/
theorem shared_paid (h : s.performShared i o x = some (r, s')) (hsend : isSend o = true) :
    (s'.own i).watchOwes = false := by
  rw [shared_own h]
  cases o with
  | sendAction seq => rfl
  | _ => cases hsend

/-- What an operation of the conductor leaves alone. -/
theorem shared_world (h : s.performShared i o x = some (r, s')) :
    s'.leader = s.leader ∧ s'.version = s.version ∧
      s'.sends = if isSend o then s.sends + 1 else s.sends := by
  rw [shared_after h]
  exact ⟨rfl, rfl, rfl⟩

theorem shared_flags (h : s.performShared i o x = some (r, s')) {flag : Flag}
    (hop : ∀ value, o ≠ .store flag value) : s'.mem.flags flag = s.mem.flags flag := by
  simp only [RuntimeState.performShared] at h
  split at h
  · cases h
    rfl
  · obtain ⟨p, hm, hp⟩ := Option.map_eq_some_iff.mp h
    cases hp
    exact Memory.perform_flags hm hop

/-- A flag stays up unless it is lowered. -/
theorem shared_raised (h : s.performShared i o x = some (r, s')) {flag : Flag}
    (hop : o ≠ .store flag false) (hup : s.mem.flags flag = true) :
    s'.mem.flags flag = true := by
  by_cases hstore : o = .store flag true
  · subst hstore
    simp only [RuntimeState.performShared] at h
    cases h
    simp [RuntimeState.after]
  · rw [shared_flags h fun value hv => ?_]
    · exact hup
    · cases value with
      | true => exact hstore hv
      | false => exact hop hv

/-- The watcher's note changes with its first read only. -/
theorem shared_noted (h : s.performShared i o x = some (r, s')) :
    ((s'.own i).noted = (s.own i).noted ∧ (s'.own i).notedAt = (s.own i).notedAt) ∨
      ((s.own i).noted = none ∧ (s'.own i).noted = some s.leader ∧
        (s'.own i).notedAt = s.version) := by
  rw [shared_own h]
  cases o with
  | lock lock | unlock lock => cases lock <;> exact .inl ⟨rfl, rfl⟩
  | store flag value => cases flag <;> cases value <;> exact .inl ⟨rfl, rfl⟩
  | consensus o =>
      cases o with
      | leader =>
          cases h
          simp only [Own.after, Own.note]
          split
          · next hfirst => exact .inr ⟨hfirst.2, rfl, rfl⟩
          · exact .inl ⟨rfl, rfl⟩
      | _ => exact .inl ⟨rfl, rfl⟩
  | _ => exact .inl ⟨rfl, rfl⟩

theorem shared_lastRead (h : s.performShared i o x = some (r, s')) :
    s'.lastRead = s.lastRead ∨ s'.lastRead = some s.leader := by
  have hread : s'.lastRead = readByAction (s.own i) s.lastRead o r := by
    rw [shared_after h]
    rfl
  rw [hread]
  cases o with
  | consensus o =>
      cases o with
      | leader =>
          cases h
          simp only [readByAction]
          split
          · exact .inr rfl
          · exact .inl rfl
      | _ => exact .inl rfl
  | _ => exact .inl rfl

theorem Sound.shared (hs : Sound s) (h : s.performShared i o x = some (r, s')) : Sound s' := by
  obtain ⟨hleader, hversion, hsends⟩ := shared_world h
  have hgrows : s.sends ≤ s'.sends := by
    rw [hsends]
    split <;> omega
  intro j
  obtain ⟨hactions, hmetrics, hunwatched, hnoted⟩ := hs j
  by_cases hj : j = i
  · subst hj
    obtain ⟨hmetricsSeen, hactionSeen⟩ := after_receivers (s.own j) s.version o r
    rw [← shared_own h] at hmetricsSeen hactionSeen
    refine ⟨by omega, by omega, fun hnone => ?_, ?_⟩
    · cases hsend : isSend o with
      | true => exact shared_paid h hsend
      | false =>
          rw [shared_own h, (after_debts _ _ o r hsend).1]
          cases shared_noted h with
          | inl hsame => exact hunwatched (hsame.1 ▸ hnone)
          | inr hfirst => exact hunwatched hfirst.1
    · rw [hversion, hleader]
      cases shared_noted h with
      | inl hsame =>
          rw [hsame.1, hsame.2]
          exact hnoted
      | inr hfirst =>
          rw [hfirst.2.1, hfirst.2.2]
          exact fun _ => ⟨Nat.le_refl _, fun _ => rfl⟩
  · rw [shared_own_of_ne h hj]
    refine ⟨by omega, by omega, hunwatched, ?_⟩
    rw [hversion, hleader]
    exact hnoted

theorem CaughtUp.of_shared (h : s.performShared i o x = some (r, s')) (hc : CaughtUp w s') :
    CaughtUp w s := by
  by_cases hw : w = i
  · subst hw
    cases shared_noted h with
    | inl hsame =>
        rw [CaughtUp, hsame.1, (shared_world h).1] at hc
        exact hc
    | inr hfirst => exact .inl hfirst.1
  · rw [CaughtUp, shared_own_of_ne h hw, (shared_world h).1] at hc
    exact hc

theorem own_debts (h : s.performShared i o x = some (r, s')) (hsend : isSend o = false)
    (j : Tid) : (s'.own j).watchOwes = (s.own j).watchOwes ∧
      ((s.own j).resumeOwes = true → (s'.own j).resumeOwes = true) := by
  by_cases hj : j = i
  · subst hj
    obtain ⟨hwatch, hresume⟩ := after_debts (s.own j) s.version o r hsend
    rw [shared_own h]
    exact ⟨hwatch, fun howes => by rw [hresume, howes, Bool.true_or]⟩
  · rw [shared_own_of_ne h hj]
    exact ⟨rfl, fun howes => howes⟩

theorem own_actionSeen (h : s.performShared i o x = some (r, s')) (j : Tid) :
    (s'.own j).actionSeen = (s.own j).actionSeen := by
  by_cases hj : j = i
  · subst hj
    rw [shared_own h]
    exact (after_receivers ..).2
  · rw [shared_own_of_ne h hj]

theorem Covered.shared (hs : Sound s) (h : s.performShared i o x = some (r, s'))
    (hlow : lowers o = false) (hc : Covered w l s) : Covered w l s' := by
  cases hsend : isSend o with
  | true =>
      -- the channel itself owes the action now
      refine .inr (.inl ?_)
      rw [own_actionSeen h l, (shared_world h).2.2, hsend, if_pos rfl]
      have hle := (hs l).actions
      omega
  | false =>
      have hdebts := own_debts h hsend
      have hsends : s'.sends = s.sends := by rw [(shared_world h).2.2, hsend]; rfl
      have hstop : ∀ flag, flag = .stopping ∨ flag = .stopped → s.mem.flags flag = true →
          s'.mem.flags flag = true := by
        intro flag hflag hup
        refine shared_raised h ?_ hup
        rintro rfl
        cases hflag with
        | inl heq => subst heq; cases hlow
        | inr heq => subst heq; cases hlow
      obtain hwatch | hseen | hpaused | hstopping | hstopped | ⟨j, hresume⟩ := hc
      · exact .inl (by rw [(hdebts w).1, hwatch])
      · exact .inr (.inl (by rw [hsends, own_actionSeen h l]; exact hseen))
      · by_cases hun : o = .store .paused false
        · refine .inr (.inr (.inr (.inr (.inr ⟨i, ?_⟩))))
          rw [shared_own h, (after_debts _ _ o r hsend).2, hun]
          simp [unpauses]
        · exact .inr (.inr (.inl (shared_raised h hun hpaused)))
      · exact .inr (.inr (.inr (.inl (hstop _ (.inl rfl) hstopping))))
      · exact .inr (.inr (.inr (.inr (.inl (hstop _ (.inr rfl) hstopped)))))
      · exact .inr (.inr (.inr (.inr (.inr ⟨j, (hdebts j).2 hresume⟩))))

theorem Settled.shared (hs : Sound s) (h : s.performShared i o x = some (r, s'))
    (hlow : lowers o = false) (hsettled : Settled w l s) : Settled w l s' := by
  intro hcaught
  rw [(shared_world h).1]
  cases hsettled (hcaught.of_shared h) with
  | inl hread =>
      left
      cases shared_lastRead h with
      | inl hsame => rw [hsame, hread]
      | inr hnew => exact hnew
  | inr hcovered => exact .inr (hcovered.shared hs h hlow)

theorem grants_shared (hs : Sound s) (h : s.performShared i o x = some (r, s'))
    (hlow : lowers o = false) : (outline w).Grants i s s' :=
  ⟨hs.shared h, fun _ hj => ⟨shared_own_of_ne h hj, fun hsettled => hsettled.shared hs h hlow⟩⟩

theorem Sound.setOwn (hs : Sound s) {own : Own} (h : Fits s own) : Sound (s.setOwn i own) := by
  intro j
  by_cases hj : j = i
  · rw [hj, RuntimeState.setOwn_self]
    exact ⟨h.actions, h.metrics, h.unwatched, h.noted⟩
  · rw [RuntimeState.setOwn_of_ne s own hj]
    obtain ⟨hactions, hmetrics, hunwatched, hnoted⟩ := hs j
    exact ⟨hactions, hmetrics, hunwatched, hnoted⟩

/-- A thread changes its receivers. -/
theorem grants_setOwn (hs : Sound s) {own : Own} (hactions : own.actionSeen ≤ s.sends)
    (hmetrics : own.metricsSeen ≤ s.version) (hnoted : own.noted = (s.own i).noted)
    (hnotedAt : own.notedAt = (s.own i).notedAt) (hwatch : own.watchOwes = (s.own i).watchOwes)
    (hresume : own.resumeOwes = (s.own i).resumeOwes) :
    (outline w).Grants i s (s.setOwn i own) := by
  refine ⟨hs.setOwn ⟨hactions, hmetrics, ?_, ?_⟩,
    fun j hj => ⟨RuntimeState.setOwn_of_ne s own hj, ?_⟩⟩
  · rw [hnoted, hwatch]
    exact (hs i).unwatched
  · rw [hnoted, hnotedAt]
    exact (hs i).noted
  · have hsame : ∀ k, ((s.setOwn i own).own k).noted = (s.own k).noted ∧
        ((s.setOwn i own).own k).watchOwes = (s.own k).watchOwes ∧
        ((s.setOwn i own).own k).resumeOwes = (s.own k).resumeOwes := by
      intro k
      by_cases hk : k = i
      · rw [hk, RuntimeState.setOwn_self]
        exact ⟨hnoted, hwatch, hresume⟩
      · rw [RuntimeState.setOwn_of_ne s own hk]
        exact ⟨rfl, rfl, rfl⟩
    simp only [Settled, CaughtUp, Covered, (hsame _).1, (hsame _).2.1, (hsame _).2.2,
      RuntimeState.setOwn_of_ne s own hj]
    exact fun h => h

theorem Covered.observe (h : Covered w l s) (i : Tid) :
    Covered w l (s.setOwn i (s.observe i)) := by
  have hmore : ∀ k, ((s.setOwn i (s.observe i)).own k).actionSeen = (s.own k).actionSeen ∧
      ((s.setOwn i (s.observe i)).own k).resumeOwes = (s.own k).resumeOwes ∧
      ((s.own k).watchOwes = true → ((s.setOwn i (s.observe i)).own k).watchOwes = true) := by
    intro k
    by_cases hk : k = i
    · rw [hk, RuntimeState.setOwn_self]
      exact ⟨rfl, rfl, fun howes => by simp [RuntimeState.observe, howes]⟩
    · rw [RuntimeState.setOwn_of_ne s _ hk]
      exact ⟨rfl, rfl, fun howes => howes⟩
  cases h with
  | inl hwatch => exact .inl ((hmore w).2.2 hwatch)
  | inr hrest =>
      right
      simp only [(hmore _).1, (hmore _).2.1]
      exact hrest

/-- A watcher that looks at the flag keeps every loop settled: it owes an action
if the flag has changed. -/
theorem Settled.observe (h : Settled w l s) (i : Tid) :
    Settled w l (s.setOwn i (s.observe i)) := by
  intro hcaught
  have hsettled : CaughtUp w s → s.lastRead = some s.leader ∨
      Covered w l (s.setOwn i (s.observe i)) :=
    fun hc => (h hc).imp_right fun hcovered => hcovered.observe i
  by_cases hw : w = i
  · by_cases hnoted : (s.own i).noted = some s.leader
    · exact hsettled (.inr (by rw [hw, hnoted]))
    · right
      left
      rw [hw, RuntimeState.setOwn_self]
      simp [RuntimeState.observe, hnoted]
  · rw [CaughtUp, RuntimeState.setOwn_of_ne s _ hw] at hcaught
    exact hsettled hcaught

theorem grants_observe (hs : Sound s) : (outline w).Grants i s (s.setOwn i (s.observe i)) := by
  refine ⟨hs.setOwn ⟨(hs i).actions, (hs i).metrics, fun hnone => ?_, fun _ => ?_⟩,
    fun j hj => ⟨RuntimeState.setOwn_of_ne s _ hj, fun h => h.observe i⟩⟩
  · cases hnone
  · exact ⟨Nat.le_refl _, fun _ => rfl⟩

end
end ConductorRs.Runtime

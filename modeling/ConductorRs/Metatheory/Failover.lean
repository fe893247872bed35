import ConductorRs.Metatheory.Control
import ConductorRs.Metatheory.HandOff

/-!
Leadership is given up for a reason.

An answer that a tick is given is fit or unfit for the limits of the
configuration. The verdict of a tick is `healthy` exactly when no answer was unfit,
and it is the only thing that a reaction to ill health can come from: as long as
every answer to every tick is fit, no transfer is requested, and the sequencer is
stopped only by a call that has just been told that this node does not lead.
-/
namespace ConductorRs.Conductor
open Concurrency

namespace Failover

def tolerant (cfg : ConductorConfig) : Bool :=
  match cfg.rollupBoostPartialHealthTolerance with
  | none => false
  | some tolerance => tolerance.limit ≠ 0 && tolerance.interval ≠ 0

/-- What the limits of the configuration say about an answer at a time. -/
def fit (cfg : ConductorConfig) (now : Nat) : (o : Op) → o.Reply → Bool
  | .sequencer .sequencerActive, .ok _ => true
  | .sequencer .sequencerActive, .error _ => false
  | .sequencer .syncStatus, .ok status =>
      now - status.unsafeL2.time ≤ cfg.healthcheckUnsafeInterval &&
        (!cfg.healthcheckSafeEnabled ||
          decide (now - status.safeL2.time ≤ cfg.healthcheckSafeInterval))
  | .sequencer .syncStatus, .error _ => false
  | .sequencer .peerStats, .ok stats => cfg.healthcheckMinPeerCount ≤ stats.connected
  | .sequencer .peerStats, .error _ => false
  | .probe .supervisor, .ok _ => true
  | .probe .supervisor, .error _ => false
  | .probe .executionP2pPeerCount, .ok peerCount =>
      cfg.executionP2pMinPeerCount.getD 0 ≤ peerCount
  | .probe .executionP2pPeerCount, .error _ => false
  | .probe .rollupBoost, .ok .healthy => true
  | .probe .rollupBoost, .ok .partially => tolerant cfg
  | .probe .rollupBoost, .ok .unhealthy | .probe .rollupBoost, .error _ => false
  | .tolerate _ _, tolerated => tolerated
  | _, _ => true

/-- Per call: the time it is made for if it is a tick, whether it has been given an
unfit answer, and whether it was told last that this node does not lead. -/
structure Watch (Tid : Type) where
  clock : Tid → Option Nat
  seen : Tid → Bool
  leads : Tid → Bool
  unfit : Bool

def Call.clock : Call → Option Nat
  | .tick now => some now
  | _ => none

section
variable {Tid : Type} [DecidableEq Tid]

def Watch.mark (w : Watch Tid) (i : Tid) : Watch Tid :=
  { w with seen := Function.update w.seen i true, unfit := true }

def Watch.judge (cfg : ConductorConfig) (w : Watch Tid) (i : Tid) (o : Op) (r : o.Reply) :
    Watch Tid :=
  match w.clock i with
  | none => w
  | some now => if fit cfg now o r then w else w.mark i

def Watch.hear (w : Watch Tid) (i : Tid) : (o : Op) → o.Reply → Watch Tid
  | .consensus .leader, leader => { w with leads := Function.update w.leads i leader }
  | _, _ => w

def world (cfg : ConductorConfig) : World Tid (Watch Tid) Oracle Empty where
  begin w i call :=
    { w with
      clock := Function.update w.clock i (Call.clock call)
      seen := Function.update w.seen i false
      leads := Function.update w.leads i true }
  answer _ _ o x := some (x o)
  after w i o r := (w.judge cfg i o r).hear i o r
  env _ e := e.elim

end

abbrev Sys (Tid : Type) := System Tid (Watch Tid)

/-- A conductor that has just come up. -/
def Sys.new {Tid : Type} (cfg : ConductorConfig) (leader : Bool) : Sys Tid where
  mem := Memory.new cfg leader
  world := ⟨fun _ => none, fun _ => false, fun _ => true, false⟩

section
variable {Tid : Type}

/-- What must hold when a call is about to act. -/
def Reason (i : Tid) (s : Sys Tid) : Op → Prop
  | .sequencer .stopSequencer => s.world.unfit = true ∨ s.world.leads i = false
  | .setHealthy health => health.isHealthy = true ↔ s.world.seen i = false
  | o => o.isTransfer = true → s.world.unfit = true

structure Own (i : Tid) (s s' : Sys Tid) : Prop where
  clock : s'.world.clock i = s.world.clock i
  seen : s'.world.seen i = s.world.seen i
  leads : s'.world.leads i = s.world.leads i
  unfit : s.world.unfit = true → s'.world.unfit = true

@[reducible] def outline : Outline Tid Shared (Sys Tid) where
  inv s := s.world.unfit = false → s.mem.healthy = .healthy
  rely := Own
  idle _ _ := True
  check := Reason

theorem coherent : (outline : Outline Tid Shared (Sys Tid)).Coherent where
  refl _ _ := ⟨rfl, rfl, rfl, id⟩
  trans _ _ _ _ h h' := ⟨h'.clock.trans h.clock, h'.seen.trans h.seen,
    h'.leads.trans h.leads, fun hs => h'.unfit (h.unfit hs)⟩
  idle _ _ _ _ _ _ := trivial

/-- The operations that need no reason. -/
def harmless : Op → Bool
  | .sequencer .stopSequencer | .setHealthy _ => false
  | o => !o.isTransfer

theorem reason_of_harmless {i : Tid} {s : Sys Tid} {o : Op} (h : harmless o = true) :
    Reason i s o := by
  cases o with
  | sequencer o => cases o <;> first | (cases h; done) | exact nofun
  | consensus o => cases o <;> first | (cases h; done) | exact nofun
  | setHealthy health => cases h
  | _ => exact nofun

theorem reason_of_unfit {i : Tid} {s : Sys Tid} {o : Op} (ho : ∀ health, o ≠ .setHealthy health)
    (h : s.world.unfit = true) : Reason i s o := by
  cases o with
  | sequencer o => cases o <;> first | exact .inl h | exact fun _ => h
  | setHealthy health => exact absurd rfl (ho health)
  | _ => exact fun _ => h

/-- The call is a tick for a time, and all its answers have been fit or not. -/
def Judged (i : Tid) (now : Nat) (good : Bool) (s : Sys Tid) : Prop :=
  s.world.clock i = some now ∧ s.world.seen i = !good ∧ (good = false → s.world.unfit = true)

theorem judged_stable {i : Tid} (now : Nat) (good : Bool) :
    outline.Stable i (Judged i now good) := by
  intro s s' h hr _
  refine ⟨hr.clock.trans h.1, hr.seen.trans h.2.1, fun hbad => hr.unfit (h.2.2 hbad)⟩

def Told (i : Tid) (leads : Bool) (s : Sys Tid) : Prop := s.world.leads i = leads

theorem told_stable {i : Tid} (leads : Bool) : outline.Stable i (Told i leads) :=
  fun _ _ h hr _ => hr.leads.trans h

/-- The health that an action has read is good, or there is a reason that it is not. -/
def Read (health : Health) (s : Sys Tid) : Prop :=
  health.isHealthy = true ∨ s.world.unfit = true

theorem read_stable {i : Tid} (health : Health) : outline.Stable i (Read health) :=
  fun _ _ h hr _ => h.imp id hr.unfit

end

theorem perform_healthy {Tid : Type} [DecidableEq Tid] {m m' : Memory Tid} {i : Tid} {o : Op}
    {r : o.Reply} (h : m.perform i o = some (r, m')) (ho : ∀ health, o ≠ .setHealthy health) :
    m'.healthy = m.healthy := by
  cases o with
  | setHealthy health => exact absurd rfl (ho health)
  | lock l | unlock l | tolerate now tolerance =>
      simp only [Memory.perform] at h
      split at h <;> cases h <;> rfl
  | consensus o | sequencer o | probe o => cases h
  | _ => cases h; rfl

theorem eq_healthy {health : Health} (h : health.isHealthy = true) : health = .healthy := by
  cases health <;> first | rfl | cases h

section
variable {Tid : Type} [DecidableEq Tid] {cfg : ConductorConfig} {i j : Tid}

theorem judge_cases (cfg : ConductorConfig) (w : Watch Tid) (i : Tid) (o : Op) (r : o.Reply) :
    w.judge cfg i o r = w ∨ w.judge cfg i o r = w.mark i := by
  unfold Watch.judge
  split
  · exact .inl rfl
  · split
    · exact .inl rfl
    · exact .inr rfl

theorem judge_leads (w : Watch Tid) (i : Tid) (o : Op) (r : o.Reply) :
    (w.judge cfg i o r).leads = w.leads := by
  rcases judge_cases cfg w i o r with h | h <;> rw [h]
  rfl

theorem hear_frame (w : Watch Tid) (i : Tid) (o : Op) (r : o.Reply) :
    (w.hear i o r).clock = w.clock ∧ (w.hear i o r).seen = w.seen ∧
      (w.hear i o r).unfit = w.unfit ∧ ∀ j, j ≠ i → (w.hear i o r).leads j = w.leads j := by
  unfold Watch.hear
  split
  · exact ⟨rfl, rfl, rfl, fun j hj => Function.update_of_ne hj _ _⟩
  · exact ⟨rfl, rfl, rfl, fun _ _ => rfl⟩

theorem after_clock (w : Watch Tid) (i : Tid) (o : Op) (r : o.Reply) :
    ((world cfg).after w i o r).clock = w.clock := by
  refine (hear_frame _ i o r).1.trans ?_
  rcases judge_cases cfg w i o r with h | h <;> rw [h]
  rfl

theorem after_unfit {w : Watch Tid} (i : Tid) (o : Op) (r : o.Reply) (h : w.unfit = true) :
    ((world cfg).after w i o r).unfit = true := by
  refine (hear_frame _ i o r).2.2.1.trans ?_
  rcases judge_cases cfg w i o r with hw | hw <;> rw [hw]
  · exact h
  · rfl

theorem after_others {s s' : Sys Tid} {o : Op} {r : o.Reply}
    (h : s'.world = (world cfg).after s.world i o r) (hj : j ≠ i) : Own j s s' := by
  obtain ⟨-, hseen, -, hleads⟩ := hear_frame (s.world.judge cfg i o r) i o r
  have hjudge : (s.world.judge cfg i o r).seen j = s.world.seen j := by
    rcases judge_cases cfg s.world i o r with hw | hw <;> rw [hw]
    exact Function.update_of_ne hj _ _
  refine ⟨?_, ?_, ?_, fun hs => ?_⟩ <;> rw [h]
  · exact congrFun (after_clock s.world i o r) j
  · exact (congrFun hseen j).trans hjudge
  · exact (hleads j hj).trans (congrFun (judge_leads s.world i o r) j)
  · exact after_unfit i o r hs

theorem after_judged {now : Nat} {good : Bool} {s s' : Sys Tid} {o : Op} {r : o.Reply}
    (h : Judged i now good s) (hw : s'.world = (world cfg).after s.world i o r) :
    Judged i now (good && fit cfg now o r) s' := by
  obtain ⟨hclock, hseen, hunfit⟩ := h
  obtain ⟨-, hseen', hunfit', -⟩ := hear_frame (s.world.judge cfg i o r) i o r
  have hjudge : s.world.judge cfg i o r =
      if fit cfg now o r then s.world else s.world.mark i := by
    rw [Watch.judge, hclock]
  refine ⟨?_, ?_, fun hbad => ?_⟩ <;> rw [hw]
  · rw [after_clock]
    exact hclock
  · refine (congrFun hseen' i).trans ?_
    rw [hjudge]
    split
    · next hfit => rw [hfit, Bool.and_true, hseen]
    · next hunfit =>
        rw [Bool.eq_false_of_not_eq_true hunfit, Bool.and_false]
        exact Function.update_self i _ _
  · refine hunfit'.trans ?_
    rw [hjudge]
    split
    · next hfit =>
        rw [hfit, Bool.and_true] at hbad
        exact hunfit hbad
    · rfl

abbrev logic (cfg : ConductorConfig) (i : Tid) : Logic Shared (Sys Tid) :=
  (machine cfg (world cfg)).logic .any outline i

theorem op_holds {A : Sys Tid → Prop} {o : Op} {Q : o.Reply → Sys Tid → Prop}
    (ho : ∀ health, o ≠ .setHealthy health) (hA : outline.Stable i A)
    (hc : ∀ s, A s → Reason i s o)
    (hQ : ∀ s r s', A s → s'.world = (world cfg).after s.world i o r → Q r s') :
    (logic cfg i).Holds A (op o) Q := by
  refine Machine.Triple.call hA fun s hi hs => ⟨hc s hs, fun x r s' hp _ => ?_⟩
  have hperform : (world cfg).perform s i o x = some (r, s') := hp
  have hstep : s'.world = (world cfg).after s.world i o r ∧ s'.mem.healthy = s.mem.healthy := by
    by_cases he : o.external = true
    · obtain ⟨-, rfl⟩ := World.perform_external he hperform
      exact ⟨rfl, rfl⟩
    · obtain ⟨m, hm, rfl⟩ := World.perform_memory (by simpa using he) hperform
      exact ⟨rfl, perform_healthy hm ho⟩
  obtain ⟨hworld, hhealthy⟩ := hstep
  refine ⟨⟨fun hfit => ?_, fun j hj => after_others hworld hj⟩, hQ s r s' hs hworld⟩
  rw [hhealthy]
  refine hi (Bool.eq_false_of_not_eq_true fun hunfit => ?_)
  rw [hworld, after_unfit i o r hunfit] at hfit
  cases hfit

theorem not_setHealthy {o : Op} (h : harmless o = true) : ∀ health, o ≠ .setHealthy health := by
  rintro health rfl
  cases h

theorem harmless_holds {o : Op} (h : harmless o = true) :
    (logic cfg i).Holds (fun _ => True) (op o) fun _ _ => True :=
  op_holds (not_setHealthy h) (fun _ _ _ _ _ => trivial) (fun _ _ => reason_of_harmless h)
    fun _ _ _ _ _ => trivial

/-- An answer that the tick takes note of. -/
theorem ask_holds {now : Nat} {good : Bool} {o : Op} (h : harmless o = true) :
    (logic cfg i).Holds (Judged i now good) (op o)
      fun r => Judged i now (good && fit cfg now o r) :=
  op_holds (not_setHealthy h) (judged_stable now good) (fun _ _ => reason_of_harmless h)
    fun _ _ _ => after_judged

/-- An operation that tells nothing about health. -/
def silent : Op → Bool
  | .sequencer .sequencerActive | .sequencer .syncStatus | .sequencer .peerStats | .probe _
  | .tolerate _ _ => false
  | o => harmless o

theorem harmless_of_silent {o : Op} (h : silent o = true) : harmless o = true := by
  cases o with
  | sequencer o => cases o <;> first | rfl | cases h
  | probe o | tolerate now tolerance => cases h
  | _ => exact h

theorem fit_of_silent {now : Nat} {o : Op} (h : silent o = true) (r : o.Reply) :
    fit cfg now o r = true := by
  cases o with
  | sequencer o => cases o <;> first | rfl | cases h
  | probe o | tolerate now tolerance => cases h
  | _ => rfl

theorem silent_holds {now : Nat} {good : Bool} {o : Op} (h : silent o = true) :
    (logic cfg i).Holds (Judged i now good) (op o) fun _ => Judged i now good := by
  refine (logic cfg i).post (ask_holds (harmless_of_silent h)) fun r s hs => ?_
  rwa [fit_of_silent h r, Bool.and_true] at hs

theorem unfit_holds {o : Op} (ho : ∀ health, o ≠ .setHealthy health) :
    (logic cfg i).Holds (fun s => s.world.unfit = true) (op o)
      fun _ s => s.world.unfit = true :=
  op_holds ho (fun _ _ h hr _ => hr.unfit h) (fun _ h => reason_of_unfit ho h)
    fun s r s' h hw => by rw [hw]; exact after_unfit i o r h

/-- The verdict takes effect. -/
theorem setHealthy_holds {now : Nat} (health : Health) :
    (logic cfg i).Holds (Judged i now health.isHealthy) (op (.setHealthy health))
      fun _ _ => True := by
  refine triple_memory rfl (judged_stable now _) fun s _ hs => ⟨?_, fun x r m hm _ => ?_⟩
  · change health.isHealthy = true ↔ s.world.seen i = false
    rw [hs.2.1]
    cases health.isHealthy <;> simp
  · cases hm
    refine ⟨⟨fun hfit => ?_, fun j hj => after_others (o := .setHealthy health) rfl hj⟩, trivial⟩
    refine eq_healthy (Bool.eq_true_of_not_eq_false fun hbad => ?_)
    have hunfit : ((world cfg).after s.world i (.setHealthy health) ()).unfit = true :=
      after_unfit i _ _ (hs.2.2 hbad)
    exact Bool.false_ne_true (hfit.symm.trans hunfit)

theorem checkSyncStatus_isNone (now : Nat) (status : SyncStatus) :
    (checkSyncStatus cfg now status).isNone =
      fit cfg now (.sequencer .syncStatus) (.ok status) := by
  unfold checkSyncStatus fit
  dsimp only
  split
  · next h => simp [Nat.not_le.mpr h]
  · next h =>
      rw [decide_eq_true (Nat.le_of_not_lt h), Bool.true_and]
      split
      · next hsafe => simp [hsafe.1, Nat.not_le.mpr hsafe.2]
      · next hsafe =>
          cases henabled : cfg.healthcheckSafeEnabled with
          | false => rfl
          | true => simp [Nat.le_of_not_lt fun hlt => hsafe ⟨henabled, hlt⟩]

theorem checkPeerStats_isNone (now : Nat) (stats : PeerStats) :
    (checkPeerStats cfg stats).isNone = fit cfg now (.sequencer .peerStats) (.ok stats) := by
  unfold checkPeerStats fit
  split
  · next h => simp [Nat.not_le.mpr h]
  · next h => simp [Nat.le_of_not_lt h]

/-- What is known once a part of the check has ended. -/
def Checked (i : Tid) (now : Nat) (good : Bool) (verdict : Option Health) (s : Sys Tid) : Prop :=
  Judged i now (good && verdict.isNone) s ∧ verdict ≠ some .healthy

theorem checked_done {now : Nat} {good good' : Bool} {verdict : Option Health}
    (hgood : good' = (good && verdict.isNone)) (h : verdict ≠ some .healthy) :
    (logic cfg i).Holds (Judged i now good') (.done verdict) (Checked i now good) := by
  refine (logic cfg i).done fun s _ hs => ⟨?_, h⟩
  rwa [hgood] at hs

/-- A part of the check ends without a verdict exactly when its answers are fit. -/
theorem checkSupervisor_holds (now : Nat) (good : Bool) :
    (logic cfg i).Holds (Judged i now good) (checkSupervisor cfg) (Checked i now good) := by
  unfold checkSupervisor
  split
  · exact checked_done (Bool.and_true good).symm nofun
  · refine (logic cfg i).bind (ask_holds rfl) fun r => ?_
    cases r <;> exact checked_done rfl nofun

theorem checkExecutionP2p_holds (now : Nat) (good : Bool) :
    (logic cfg i).Holds (Judged i now good) (checkExecutionP2p cfg) (Checked i now good) := by
  unfold checkExecutionP2p
  split
  · exact checked_done (Bool.and_true good).symm nofun
  · next minPeerCount hmin =>
      refine (logic cfg i).bind (ask_holds rfl) fun r => ?_
      cases r with
      | error err => exact checked_done rfl nofun
      | ok peerCount =>
          dsimp only
          split
          · next hlt =>
              refine checked_done ?_ nofun
              simp [fit, hmin, Nat.not_le.mpr hlt]
          · next hle =>
              refine checked_done ?_ nofun
              simp [fit, hmin, Nat.le_of_not_lt hle]

/-- A partial answer is tolerated when tolerance is configured and not used up. -/
theorem tolerate_holds (now : Nat) (good : Bool) :
    (logic cfg i).Holds (Judged i now (good && tolerant cfg))
      (tolerateRollupBoostPartialHealth cfg now)
      fun tolerated => Judged i now (good && tolerated) := by
  unfold tolerateRollupBoostPartialHealth tolerant
  cases cfg.rollupBoostPartialHealthTolerance with
  | none => exact (logic cfg i).done fun _ _ h => h
  | some tolerance =>
      dsimp only
      split
      · next hzero =>
          have hbad :
              (decide (tolerance.limit ≠ 0) && decide (tolerance.interval ≠ 0)) = false := by
            rcases hzero with h | h <;> simp [h]
          rw [hbad]
          exact (logic cfg i).done fun _ _ h => h
      · next hset =>
          have hgood :
              (decide (tolerance.limit ≠ 0) && decide (tolerance.interval ≠ 0)) = true := by
            simpa [not_or] using hset
          rw [hgood, Bool.and_true]
          exact ask_holds rfl

theorem checkRollupBoost_holds (now : Nat) (good : Bool) :
    (logic cfg i).Holds (Judged i now good) (checkRollupBoost cfg now) (Checked i now good) := by
  unfold checkRollupBoost
  split
  · exact checked_done (Bool.and_true good).symm nofun
  · refine (logic cfg i).bind (ask_holds rfl) fun r => ?_
    cases r with
    | error err => exact checked_done rfl nofun
    | ok status =>
        cases status with
        | healthy | unhealthy => exact checked_done rfl nofun
        | partially =>
            refine (logic cfg i).bind (tolerate_holds now good) fun tolerated => ?_
            cases tolerated <;> exact checked_done rfl nofun

/-- A verdict that a part of the check has come to is the verdict. -/
theorem ended_holds {now : Nat} {good : Bool} {health : Health} :
    (logic cfg i).Holds (Checked i now good (some health)) (.done health)
      fun health => Judged i now health.isHealthy := by
  refine (logic cfg i).done fun s _ h => ?_
  have hbad : health.isHealthy = false :=
    Bool.eq_false_of_not_eq_true fun hgood => h.2 (congrArg some (eq_healthy hgood))
  rw [hbad, ← Bool.and_false good]
  exact h.1

theorem open_holds {now : Nat} {good : Bool} {t : Task Shared Health}
    (ht : (logic cfg i).Holds (Judged i now good) t fun health => Judged i now health.isHealthy) :
    (logic cfg i).Holds (Checked i now good none) t
      fun health => Judged i now health.isHealthy := by
  refine (logic cfg i).pre (fun s h => ?_) ht
  rw [← Bool.and_true good]
  exact h.1

theorem checkSyncStatus_ne (now : Nat) (status : SyncStatus) :
    checkSyncStatus cfg now status ≠ some .healthy := by
  unfold checkSyncStatus
  dsimp only
  split
  · nofun
  · split <;> nofun

theorem checkPeerStats_ne (stats : PeerStats) : checkPeerStats cfg stats ≠ some .healthy := by
  unfold checkPeerStats
  split <;> nofun

/-- The last part has the last word. -/
theorem boost_holds (now : Nat) (good : Bool) :
    (logic cfg i).Holds (Judged i now good)
      ((checkRollupBoost cfg now).bind fun verdict => .done (verdict.getD .healthy))
      fun health => Judged i now (good && health.isHealthy) := by
  refine (logic cfg i).bind (checkRollupBoost_holds now good) fun verdict => ?_
  refine (logic cfg i).done fun s _ h => ?_
  cases verdict with
  | none => exact h.1
  | some health =>
      have hbad : health.isHealthy = false :=
        Bool.eq_false_of_not_eq_true fun hgood => h.2 (congrArg some (eq_healthy hgood))
      change Judged i now (good && health.isHealthy) s
      rw [hbad]
      exact h.1

/-- A verdict from an answer that was asked for before. -/
theorem ended_of_eq {now : Nat} {verdict : Option Health} {health : Health}
    (heq : verdict = some health) (hne : verdict ≠ some .healthy) :
    (logic cfg i).Holds (Judged i now false) (.done health)
      fun health => Judged i now health.isHealthy :=
  (logic cfg i).pre (fun _ h => (⟨h, heq ▸ hne⟩ : Checked i now true (some health) _)) ended_holds

theorem checkHealthAt_holds (now : Nat) :
    (logic cfg i).Holds (Judged i now true) (checkHealthAt cfg now)
      fun health => Judged i now health.isHealthy := by
  refine (logic cfg i).bind (ask_holds rfl) fun r => ?_
  cases r with
  | error err => exact (logic cfg i).done fun _ _ h => h
  | ok status =>
      rw [← checkSyncStatus_isNone]
      refine (logic cfg i).bind (checkSupervisor_holds now _) fun verdict => ?_
      cases verdict with
      | some health => exact ended_holds
      | none =>
          refine open_holds ?_
          dsimp only
          cases hstatus : checkSyncStatus cfg now status with
          | some health =>
              exact ended_of_eq hstatus (checkSyncStatus_ne now status)
          | none =>
              refine (logic cfg i).bind (ask_holds rfl) fun r => ?_
              cases r with
              | error err => exact (logic cfg i).done fun _ _ h => h
              | ok stats =>
                  rw [← checkPeerStats_isNone]
                  dsimp only
                  cases hstats : checkPeerStats cfg stats with
                  | some health => exact ended_of_eq hstats (checkPeerStats_ne stats)
                  | none =>
                      refine (logic cfg i).bind (checkExecutionP2p_holds now true) fun verdict => ?_
                      cases verdict with
                      | some health => exact ended_holds
                      | none => exact open_holds (boost_holds now true)

def Harmless (o : Op) : Prop := harmless o = true

theorem harmless_of_preparing {o : Op} (h : Preparing o) : Harmless o := by
  cases o with
  | sequencer o => cases o <;> first | rfl | cases h
  | _ => cases h

theorem sendStart_harmless (hash : Hash) : (sendStart hash).All Harmless := by
  refine Task.all_bind _ _ _ (all_op rfl) fun r => ?_
  cases r with
  | ok u => exact ⟨rfl, fun _ => trivial⟩
  | error err =>
      dsimp only
      split
      · exact ⟨rfl, fun _ => trivial⟩
      · trivial

theorem startBody_harmless : (startBody cfg).run.All Harmless := by
  refine Task.all_bindExcept _ _ _ ⟨rfl, fun _ => trivial⟩ fun latest => ?_
  cases latest with
  | none => trivial
  | some payload =>
      refine Task.all_bindExcept _ _ _ trivial fun hash => ?_
      refine Task.all_bindExcept _ _ _ trivial fun number => ?_
      refine Task.all_bindExcept _ _ _ (all_sequencer rfl) fun head => ?_
      refine Task.all_bindExcept _ _ _ ?_ fun start => sendStart_harmless start
      exact Task.all_mono (fun _ => harmless_of_preparing) _ (startHash_preparing _ _ _ _)

theorem startSequencer_harmless : (startSequencer cfg).All Harmless := by
  refine Task.all_bind _ _ _ startBody_harmless fun r => ?_
  cases r <;> exact ⟨rfl, fun _ => trivial⟩

theorem settle_harmless (status : State) (result : Outcome) :
    (settle status result).All Harmless :=
  settle_all status result rfl rfl

theorem stoppingOrStopped_silent : stoppingOrStopped.All fun o => silent o = true := by
  refine Task.all_bind _ _ _ (all_op rfl) fun stopping => ?_
  cases stopping with
  | true => trivial
  | false => exact all_op rfl

theorem stoppingOrStopped_harmless : stoppingOrStopped.All Harmless :=
  Task.all_mono (fun _ => harmless_of_silent) _ stoppingOrStopped_silent

theorem all_harmless {α : Type} {t : Task Shared α} (h : t.All Harmless) :
    (logic cfg i).Holds (fun _ => True) t fun _ _ => True :=
  (logic cfg i).all (fun _ => harmless_holds) h

/-- A follower stops its sequencer. -/
theorem stopSequencer_holds :
    (logic cfg i).Holds (Told i false) stopSequencer fun _ _ => True := by
  have hstop : (logic cfg i).Holds (Told i false) (op (.sequencer .stopSequencer))
      fun _ _ => True :=
    op_holds nofun (told_stable false) (fun _ h => .inr h) fun _ _ _ _ _ => trivial
  refine (logic cfg i).bind hstop fun r => all_harmless ?_
  cases r with
  | ok hash => exact ⟨rfl, fun _ => ⟨rfl, fun _ => trivial⟩⟩
  | error err =>
      dsimp only
      split
      · exact ⟨rfl, fun _ => ⟨rfl, fun _ => trivial⟩⟩
      · exact ⟨rfl, fun _ => trivial⟩

theorem react_healthy (health : Health) (leads active : Bool) :
    (logic cfg i).Holds (Told i leads) (react cfg health ⟨leads, true, active⟩)
      fun _ _ => True := by
  cases leads with
  | false =>
      cases active with
      | false =>
          exact (logic cfg i).pre (fun _ _ => trivial)
            (all_harmless (settle_harmless _ (.ok ())))
      | true =>
          exact (logic cfg i).bind stopSequencer_holds fun r => all_harmless (settle_harmless _ r)
  | true =>
      refine (logic cfg i).pre (fun _ _ => trivial) ?_
      cases active with
      | false =>
          exact (logic cfg i).bind (all_harmless startSequencer_harmless)
            fun r => all_harmless (settle_harmless _ r)
      | true => exact all_harmless (settle_harmless _ (.ok ()))

theorem react_unfit (health : Health) (status : State) :
    (logic cfg i).Holds (fun s => s.world.unfit = true) (react cfg health status)
      fun _ _ => True := by
  have hinner : ∀ o, Inner o → (logic cfg i).Holds (fun s => s.world.unfit = true) (op o)
      fun _ s => s.world.unfit = true := by
    intro o ho
    refine unfit_holds ?_
    rintro health rfl
    cases ho
  exact (logic cfg i).post ((logic cfg i).all hinner (react_inner health status))
    fun _ _ _ => trivial

theorem read_after {health : Health} {s s' : Sys Tid} {o : Op} {r : o.Reply}
    (h : Read health s) (hw : s'.world = (world cfg).after s.world i o r) :
    Read health s' := by
  refine h.imp id fun hunfit => ?_
  rw [hw]
  exact after_unfit i o r hunfit

theorem cloneHealthy_holds :
    (logic cfg i).Holds (fun _ => True) (op .cloneHealthy) Read := by
  refine triple_memory rfl (fun _ _ _ _ _ => trivial) fun s hi _ =>
    ⟨nofun, fun x r m hm _ => ?_⟩
  cases hm
  have hread : Read s.mem.healthy s := by
    cases hunfit : s.world.unfit with
    | true => exact .inr hunfit
    | false =>
        rw [hi hunfit]
        exact .inl rfl
  refine ⟨⟨fun hfit => ?_, fun j hj => after_others (o := .cloneHealthy) rfl hj⟩,
    read_after (o := .cloneHealthy) hread rfl⟩
  refine hi (Bool.eq_false_of_not_eq_true fun hunfit => ?_)
  have hkept : ((world cfg).after s.world i .cloneHealthy s.mem.healthy).unfit = true :=
    after_unfit i _ _ hunfit
  exact Bool.false_ne_true (hfit.symm.trans hkept)

theorem leader_holds (health : Health) :
    (logic cfg i).Holds (Read health) (op (.consensus .leader))
      fun leads s => Read health s ∧ Told i leads s := by
  refine op_holds nofun (read_stable health) (fun _ _ => nofun) fun s r s' h hw => ?_
  refine ⟨read_after h hw, ?_⟩
  rw [Told, hw]
  exact Function.update_self i _ _

theorem loadActive_holds (health : Health) (leads : Bool) :
    (logic cfg i).Holds (fun s => Read health s ∧ Told i leads s) (op (.load .seqActive))
      fun _ s => Read health s ∧ Told i leads s := by
  refine op_holds nofun (fun s s' h hr hi => ?_) (fun _ _ => nofun) fun s r s' h hw => ?_
  · exact ⟨read_stable health s s' h.1 hr hi, told_stable leads s s' h.2 hr hi⟩
  · refine ⟨read_after h.1 hw, ?_⟩
    have hleads : s'.world.leads i = s.world.leads i := by
      rw [hw]
      exact congrFun (judge_leads s.world i (.load .seqActive) r) i
    exact hleads.trans h.2

theorem actionLocked_holds :
    (logic cfg i).Holds (fun _ => True) (actionLocked cfg) fun _ _ => True := by
  refine (logic cfg i).bind (harmless_holds (o := .load .paused) rfl) fun paused => ?_
  cases paused with
  | true => exact (logic cfg i).done fun _ _ _ => trivial
  | false =>
      refine (logic cfg i).bind (all_harmless stoppingOrStopped_harmless) fun stopped => ?_
      cases stopped with
      | true => exact (logic cfg i).done fun _ _ _ => trivial
      | false =>
          refine (logic cfg i).bind cloneHealthy_holds fun health => ?_
          refine (logic cfg i).bind (leader_holds health) fun leads => ?_
          refine (logic cfg i).bind (loadActive_holds health leads) fun active => ?_
          rintro s hi ⟨hread, htold⟩
          rcases hread with hgood | hunfit
          · rw [hgood]
            exact react_healthy health leads active s hi htold
          · exact react_unfit health _ s hi hunfit

theorem action_holds : (logic cfg i).Holds (fun _ => True) (action cfg) fun _ _ => True := by
  refine (logic cfg i).bind (harmless_holds (o := .lock .action) rfl) fun _ => ?_
  refine (logic cfg i).bind actionLocked_holds fun result => ?_
  exact (logic cfg i).bind (harmless_holds (o := .unlock .action) rfl)
    fun _ => (logic cfg i).done fun _ _ _ => trivial

theorem updateHealth_holds {now : Nat} (health : Health) :
    (logic cfg i).Holds (Judged i now health.isHealthy) (updateHealth cfg health)
      fun _ _ => True :=
  (logic cfg i).bind (setHealthy_holds health) fun _ => action_holds

/-- A refresh fails exactly when its answer is unfit. -/
theorem refresh_holds (now : Nat) :
    (logic cfg i).Holds (Judged i now true) refreshSequencerActive
      fun refreshed => Judged i now refreshed.isOk := by
  refine (logic cfg i).bind (t := op (.sequencer .sequencerActive)) (ask_holds rfl) fun r => ?_
  cases r with
  | error err => exact (logic cfg i).done fun _ _ h => h
  | ok active =>
      exact (logic cfg i).bind (silent_holds rfl) fun _ => (logic cfg i).done fun _ _ h => h

theorem tick_holds (now : Nat) :
    (logic cfg i).Holds (Judged i now true) (tick cfg now) fun _ _ => True := by
  have hend : ∀ result : Outcome, (logic cfg i).Holds (fun _ => True)
      ((op (.metric .loopExecutionTime)).bind fun _ => .done result) fun _ _ => True :=
    fun result => (logic cfg i).bind (harmless_holds rfl)
      fun _ => (logic cfg i).done fun _ _ _ => trivial
  have hstopped : (logic cfg i).Holds (Judged i now true) stoppingOrStopped
      fun _ => Judged i now true :=
    (logic cfg i).all (p := fun o => silent o = true) (fun _ => silent_holds)
      stoppingOrStopped_silent
  refine (logic cfg i).bind hstopped fun stopped => ?_
  cases stopped with
  | true => exact (logic cfg i).pre (fun _ _ => trivial) (hend (.ok ()))
  | false =>
      refine (logic cfg i).bind (refresh_holds now) fun refreshed => ?_
      cases refreshed with
      | ok u =>
          refine (logic cfg i).bind (checkHealthAt_holds now) fun health => ?_
          refine (logic cfg i).bind (silent_holds rfl) fun _ => ?_
          exact (logic cfg i).bind (updateHealth_holds health) hend
      | error err =>
          refine (logic cfg i).bind (silent_holds rfl) fun _ => ?_
          exact (logic cfg i).bind
            (updateHealth_holds (.sequencerConnectionDown err.display)) hend

theorem pause_harmless : pause.All Harmless := by
  refine Task.all_bind _ (op (.load .stopped)) _ (all_op rfl) fun stopped => ?_
  cases stopped with
  | true => trivial
  | false => exact ⟨rfl, fun _ => ⟨rfl, fun _ => ⟨rfl, fun _ => trivial⟩⟩⟩

theorem resume_harmless : resume.All Harmless := by
  refine Task.all_bind _ (op (.load .stopped)) _ (all_op rfl) fun stopped => ?_
  cases stopped with
  | true => trivial
  | false =>
      refine Task.all_bind _ (op (.sequencer .sequencerActive)) _ (all_op rfl) fun r => ?_
      cases r with
      | error err => trivial
      | ok active =>
          exact ⟨rfl, fun _ => ⟨rfl, fun _ => ⟨rfl, fun _ => ⟨rfl, fun _ => trivial⟩⟩⟩⟩

theorem stop_harmless : stop.All Harmless := by
  refine Task.all_bind _ (op (.lock .stop)) _ (all_op rfl) fun _ => ?_
  refine Task.all_bind _ (op (.load .stopped)) _ (all_op rfl) fun stopped => ?_
  cases stopped with
  | true => exact ⟨rfl, fun _ => trivial⟩
  | false =>
      refine Task.all_bind _ (op (.store .stopping true)) _ (all_op rfl) fun _ => ?_
      refine Task.all_bind _ (op (.lock .action)) _ (all_op rfl) fun _ => ?_
      refine Task.all_bind _ (op (.consensus .shutdown)) _ (all_op rfl) fun r => ?_
      cases r with
      | error err => exact ⟨rfl, fun _ => ⟨rfl, fun _ => trivial⟩⟩
      | ok u =>
          exact ⟨rfl, fun _ => ⟨rfl, fun _ => ⟨rfl, fun _ => ⟨rfl, fun _ => trivial⟩⟩⟩⟩

theorem refreshSequencerActive_harmless : refreshSequencerActive.All Harmless :=
  Task.all_bindExcept _ _ _ (all_sequencer rfl) fun _ => ⟨rfl, fun _ => trivial⟩

theorem initializeStartupState_harmless : initializeStartupState.All Harmless := by
  refine Task.all_bindExcept _ _ _ refreshSequencerActive_harmless fun _ => ?_
  exact Task.all_bind _ _ _ (seedPreviousStateFromCurrent_all rfl rfl rfl fun _ => rfl)
    fun _ => trivial

/-- A tick starts with a clean record; no other call looks at its record. -/
def Entered (i : Tid) (call : Call) (s : Sys Tid) : Prop :=
  ∀ now, Call.clock call = some now → Judged i now true s

theorem body_holds (call : Call) :
    (logic cfg i).Holds (Entered i call) (body cfg call) fun _ _ => True := by
  cases call with
  | tick now => exact (logic cfg i).pre (fun _ h => h now rfl) (tick_holds now)
  | action => exact (logic cfg i).pre (fun _ _ => trivial) action_holds
  | pause => exact (logic cfg i).pre (fun _ _ => trivial) (all_harmless pause_harmless)
  | resume => exact (logic cfg i).pre (fun _ _ => trivial) (all_harmless resume_harmless)
  | stop => exact (logic cfg i).pre (fun _ _ => trivial) (all_harmless stop_harmless)
  | refreshSequencerActive =>
      exact (logic cfg i).pre (fun _ _ => trivial) (all_harmless refreshSequencerActive_harmless)
  | initializeStartupState =>
      exact (logic cfg i).pre (fun _ _ => trivial) (all_harmless initializeStartupState_harmless)

theorem verified : (machine cfg (world cfg) : Machine Tid _ _ _ _ _ _).Verified .any outline := by
  refine Machine.verified_of_calls coherent (A := fun i call => Entered i call)
    (Q := fun _ _ _ _ => True) (fun _ _ _ _ _ _ _ _ => trivial) ?_ (fun i => body_holds) ?_ ?_
  · intro s i call s' hi _ he _
    cases he
    refine ⟨⟨hi, fun j hj => ?_⟩, fun now hclock => ?_⟩
    · exact ⟨Function.update_of_ne hj _ _, Function.update_of_ne hj _ _,
        Function.update_of_ne hj _ _, id⟩
    · exact ⟨(Function.update_self i _ _).trans hclock, Function.update_self i _ _, nofun⟩
  · exact fun s i call out hi _ => ⟨⟨hi, fun j _ => ⟨rfl, rfl, rfl, id⟩⟩, trivial⟩
  · exact fun s e => e.elim

/-- Whatever calls run next to each other and however remote calls are answered:
leadership is handed over only if some tick has been given an answer that is unfit
for the limits of the configuration, a sequencer is stopped only then or by a call
that was told last that this node does not lead, and the verdict a tick is about to
store is `healthy` exactly when every answer it was given is fit. -/
theorem failover_has_reason (cfg : ConductorConfig) (leader : Bool)
    {c : Config Tid Shared (Sys Tid) Call Outcome}
    (h : (machine cfg (world cfg)).Reaches .any (.quiet (Sys.new cfg leader)) c) (i : Tid) :
    (∀ o, c.pending i = some o → o.isTransfer = true → c.state.world.unfit = true) ∧
    (c.pending i = some (.sequencer .stopSequencer) →
      c.state.world.unfit = true ∨ c.state.world.leads i = false) ∧
    ∀ health, c.pending i = some (.setHealthy health) →
      (health.isHealthy = true ↔ c.state.world.seen i = false) := by
  have hconforms := verified.reaches
    (Machine.conforms_quiet (Sys.new cfg leader) (fun _ => rfl) fun _ => trivial) h
  have hcheck : ∀ o, c.pending i = some o → Reason i c.state o :=
    fun o ho => hconforms.check coherent ho
  refine ⟨fun o ho htransfer => ?_, fun ho => hcheck _ ho, fun health ho => hcheck _ ho⟩
  have hreason := hcheck o ho
  cases o with
  | consensus o => exact hreason htransfer
  | _ => cases htransfer

end

/-- The node of a leader cannot be reached. -/
theorem unreachable_leader_transfers :
    ∃ c, (machine .default (world .default)).Reaches .any
        (.quiet (Sys.new .default true : Sys Unit)) c ∧
      (∃ o, c.pending () = some o ∧ o.isTransfer = true) ∧ c.state.world.unfit = true := by
  obtain ⟨c, hreach, hpending⟩ := Machine.reaches_of_permitted (π := .any)
    (M := machine .default (world .default)) (c := .quiet (Sys.new .default true : Sys Unit))
    (p := fun c => (c.pending ()).any Op.isTransfer)
    (.call () (.tick 0) :: List.replicate 14 (.step () Oracle.refuse)) (by decide +kernel)
  obtain ⟨o, ho, htransfer⟩ := (Option.any_eq_true _ _).mp hpending
  exact ⟨c, hreach, ⟨o, ho, htransfer⟩,
    (failover_has_reason .default true hreach ()).1 o ho htransfer⟩

end Failover
end ConductorRs.Conductor

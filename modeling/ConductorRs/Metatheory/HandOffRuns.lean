import ConductorRs.Metatheory.Control
import ConductorRs.Metatheory.HandOff

/-!
No transfer over a running sequencer: the programs and their runs.

Each program of the conductor gets one triple over the outline of `HandOff`. The
soundness theorem for the machine then covers every interleaving of ticks,
actions, pauses, resumes, stops and refreshes that keeps to the policy. The last
section runs the machine outside the policy: a refresh whose answer is overtaken
by a start.
-/
namespace ConductorRs.Conductor.HandOff
open Concurrency

def Silent (o : Op) : Prop := inert o = true ∧ o.isTransfer = false

theorem settle_silent (status : State) (result : Outcome) :
    (settle status result).All Silent :=
  settle_all status result ⟨rfl, rfl⟩ ⟨rfl, rfl⟩

theorem preparing_silent {o : Op} (h : Preparing o) : Silent o := by
  cases o with
  | consensus o | sequencer o => cases o <;> first | exact ⟨rfl, rfl⟩ | cases h
  | _ => cases h

theorem transferring_inert {o : Op} (h : Transferring o) : inert o = true := by
  cases o with
  | consensus o | metric m => rfl
  | _ => cases h

theorem routine_silent {o : Op} (h : Routine o) : Silent o := by
  cases o with
  | store flag value => cases flag <;> first | exact ⟨rfl, rfl⟩ | cases h
  | lock l | unlock l => cases l <;> first | exact ⟨rfl, rfl⟩ | cases h
  | consensus o => cases o <;> first | exact ⟨rfl, rfl⟩ | cases h
  | sequencer o => cases o <;> first | exact ⟨rfl, rfl⟩ | cases h
  | _ => exact ⟨rfl, rfl⟩

section
variable {Tid : Type} {i : Tid}

theorem ready_view {s s' : Sys Tid} (h : Ready i s) (hv : SameView s s') : Ready i s' := by
  obtain ⟨hh, ha, hw⟩ := hv
  simpa only [Ready, Held, Synced, hh, ha, hw] using h

theorem inactive_view {s s' : Sys Tid} (h : Inactive i s) (hv : SameView s s') :
    Inactive i s' := by
  obtain ⟨hh, _, hw⟩ := hv
  simpa only [Inactive, Held, hh, hw] using h

theorem cleared_view {s s' : Sys Tid} (h : Cleared i s) (hv : SameView s s') :
    Cleared i s' := by
  refine ⟨ready_view h.1 hv, ?_⟩
  rw [hv.2.2]
  exact h.2

theorem free_view {s s' : Sys Tid} (h : Free i s) (hv : SameView s s') : Free i s' := by
  obtain ⟨hh, _, hw⟩ := hv
  simpa only [Free, hh, hw] using h

theorem Inactive.cleared {s : Sys Tid} (h : Inactive i s) : Cleared i s :=
  ⟨h.ready, .inl h.2⟩

/-- A failed start leaves the sequencer as it was. -/
def StartOutcome {α : Type} (i : Tid) (r : Except ConductorError α) (s : Sys Tid) :
    Prop :=
  Ready i s ∧ ∀ err, r = .error err → Inactive i s

theorem StartOutcome.inactive {α : Type} {s : Sys Tid} (r : Except ConductorError α)
    (h : Inactive i s) : StartOutcome i r s := ⟨h.ready, fun _ _ => h⟩

variable [DecidableEq Tid] {cfg : ConductorConfig} {α : Type}

theorem silent_holds {A : Sys Tid → Prop} {t : Task Shared α} (hA : outline.Stable i A)
    (hv : ∀ s s', A s → SameView s s' → A s') (ht : t.All Silent) :
    (logic cfg i).Holds A t fun _ => A := by
  refine (logic cfg i).all (fun o ho => inert_holds hA hv o ho.1 fun s _ htr => ?_) ht
  rw [ho.2] at htr
  cases htr

theorem ready_silent {t : Task Shared α} (ht : t.All Silent) :
    (logic cfg i).Holds (Ready i) t fun _ => Ready i :=
  silent_holds ready_stable (fun _ _ => ready_view) ht

theorem free_silent {t : Task Shared α} (ht : t.All Silent) :
    (logic cfg i).Holds (Free i) t fun _ => Free i :=
  silent_holds free_stable (fun _ _ => free_view) ht

theorem inactive_silent {t : Task Shared α} (ht : t.All Silent) :
    (logic cfg i).Holds (Inactive i) t fun _ => Inactive i :=
  silent_holds inactive_stable (fun _ _ => inactive_view) ht

theorem transferLeaderInternal_triple :
    (logic cfg i).Holds (Cleared i) (transferLeaderInternal cfg) fun _ => Cleared i :=
  (logic cfg i).all (fun o ho => inert_holds cleared_stable (fun _ _ => cleared_view) o
    (transferring_inert ho) fun _ h _ => h.2) transferLeaderInternal_transferring

theorem stopSequencer_triple :
    (logic cfg i).Holds (Ready i) stopSequencer fun _ => Cleared i := by
  refine (logic cfg i).bind send_stop fun r => ?_
  cases r with
  | ok hash =>
      refine (logic cfg i).bind (R := fun _ => Inactive i) ?_ fun _ => ?_
      · refine (logic cfg i).conseq ?_ (held_store false) ?_
        · exact fun s _ h => ⟨h.1.1, fun _ => h.2.2 fun err herr => by cases herr⟩
        · exact fun _ s _ h => ⟨h.1.1, h.2 rfl⟩
      · exact (logic cfg i).post (inactive_silent ⟨⟨rfl, rfl⟩, fun _ => trivial⟩)
          fun _ _ h => h.cleared
  | error err =>
      dsimp only
      split
      · next hstopped =>
          refine (logic cfg i).bind (R := fun _ => Inactive i) ?_ fun _ => ?_
          · refine (logic cfg i).conseq ?_ (held_store false) ?_
            · refine fun s _ h => ⟨h.1.1, fun _ => h.2.2 fun err' herr => ?_⟩
              cases herr
              exact hstopped
            · exact fun _ s _ h => ⟨h.1.1, h.2 rfl⟩
          · exact (logic cfg i).post (inactive_silent ⟨⟨rfl, rfl⟩, fun _ => trivial⟩)
              fun _ _ h => h.cleared
      · refine (logic cfg i).pre (fun s h => ⟨h.1, .inr h.2.1⟩)
          (silent_holds cleared_stable (fun _ _ => cleared_view) ?_)
        exact ⟨⟨rfl, rfl⟩, fun _ => trivial⟩

theorem sendStart_triple (hash : Hash) :
    (logic cfg i).Holds (Inactive i) (sendStart hash) (StartOutcome i) := by
  have hstored : ∀ already : Bool, (logic cfg i).Holds (Held i)
      ((op (.store .seqActive true)).bind fun _ => .done (.ok already)) (StartOutcome i) := by
    intro already
    refine (logic cfg i).bind ((logic cfg i).pre ?_ (held_store true)) fun _ => ?_
    · exact fun s h => ⟨h, fun hf => by cases hf⟩
    · exact fun s _ h => ⟨h.1, fun err herr => by cases herr⟩
  refine (logic cfg i).bind (send_start hash) fun r => ?_
  cases r with
  | ok u => exact (logic cfg i).pre (fun s h => h.1) (hstored false)
  | error err =>
      dsimp only
      split
      · exact (logic cfg i).pre (fun s h => h.1) (hstored true)
      · exact fun s _ h => StartOutcome.inactive _ ⟨h.1, h.2 err rfl⟩

theorem startBody_triple :
    (logic cfg i).Holds (Inactive i) (startBody cfg).run (StartOutcome i) := by
  have hfail : ∀ (β : Type) (e : ConductorError) (s : Sys Tid), outline.inv s →
      Inactive i s → StartOutcome i (.error e : Except ConductorError β) s :=
    fun _ _ _ _ h => StartOutcome.inactive _ h
  refine (logic cfg i).bindExcept (R := fun _ => Inactive i)
    (inactive_silent ⟨⟨rfl, rfl⟩, fun _ => trivial⟩) (fun latest => ?_) (hfail _)
  cases latest with
  | none => exact hfail _ _
  | some payload =>
      refine (logic cfg i).bindExcept (R := fun _ => Inactive i)
        (inactive_silent trivial) (fun hash => ?_) (hfail _)
      refine (logic cfg i).bindExcept (R := fun _ => Inactive i)
        (inactive_silent trivial) (fun number => ?_) (hfail _)
      refine (logic cfg i).bindExcept (R := fun _ => Inactive i)
        (inactive_silent (all_sequencer ⟨rfl, rfl⟩)) (fun head => ?_) (hfail _)
      refine (logic cfg i).bindExcept (R := fun _ => Inactive i)
        (inactive_silent (Task.all_mono (fun _ => preparing_silent) _
          (startHash_preparing _ _ _ _))) (fun start => ?_) (hfail _)
      exact sendStart_triple start

theorem startSequencer_triple :
    (logic cfg i).Holds (Inactive i) (startSequencer cfg) (StartOutcome i) := by
  refine (logic cfg i).bind startBody_triple fun r => ?_
  cases r with
  | ok already =>
      refine (logic cfg i).bind (R := fun _ => Ready i) ?_ fun _ => ?_
      · exact (logic cfg i).pre (fun s h => h.1) (ready_silent (all_op ⟨rfl, rfl⟩))
      · exact fun s _ h => ⟨h, fun err herr => by cases herr⟩
  | error err =>
      refine (logic cfg i).conseq (fun s _ h => h.2 err rfl)
        (inactive_silent ⟨⟨rfl, rfl⟩, fun _ => trivial⟩) ?_
      exact fun r s _ h => StartOutcome.inactive r h

theorem settle_ready {A : Sys Tid → Prop} (hA : ∀ s, A s → Ready i s) (status : State)
    (result : Outcome) : (logic cfg i).Holds A (settle status result) fun _ => Ready i :=
  (logic cfg i).pre hA (ready_silent (settle_silent status result))

theorem transferAndSettle_triple (status : State) :
    (logic cfg i).Holds (Cleared i) ((transferLeaderInternal cfg).bind (settle status))
      fun _ => Ready i :=
  (logic cfg i).bind transferLeaderInternal_triple
    fun r => settle_ready (fun _ h => h.1) status r

theorem stopAndTransferLeader_triple :
    (logic cfg i).Holds (Ready i) (stopAndTransferLeader cfg) fun _ => Ready i := by
  refine (logic cfg i).bind stopSequencer_triple fun stopResult => ?_
  refine (logic cfg i).bind transferLeaderInternal_triple fun transferResult => ?_
  cases stopResult <;> cases transferResult <;> exact fun s _ h => h.1

/-- An action that has read `seq_active` as false holds the lock over a sequencer
that does not run. -/
theorem react_triple (health : Health) (status : State) :
    (logic cfg i).Holds
      (fun s => Ready i s ∧ (status.active = false → s.world.running = false))
      (react cfg health status) fun _ => Ready i := by
  have hdown : ∀ s : Sys Tid, (Ready i s ∧ (false = false → s.world.running = false)) →
      Inactive i s := fun s h => ⟨h.1.1, h.2 rfl⟩
  match status with
  | ⟨false, _, true⟩ =>
      refine (logic cfg i).pre (fun _ h => h.1) ?_
      exact (logic cfg i).bind stopSequencer_triple
        fun r => settle_ready (fun _ h => h.1) _ r
  | ⟨true, true, false⟩ =>
      refine (logic cfg i).pre hdown ?_
      exact (logic cfg i).bind startSequencer_triple
        fun r => settle_ready (fun _ h => h.1) _ r
  | ⟨true, false, false⟩ =>
      refine (logic cfg i).pre hdown ?_
      refine (logic cfg i).bind (inactive_silent (all_op ⟨rfl, rfl⟩)) fun prev => ?_
      split
      · refine (logic cfg i).bind startSequencer_triple fun r => ?_
        cases r with
        | ok u => exact settle_ready (fun _ h => h.1) _ _
        | error err =>
            exact (logic cfg i).pre (fun s h => (h.2 err rfl).cleared)
              (transferAndSettle_triple _)
      · exact (logic cfg i).pre (fun s h => Inactive.cleared h) (transferAndSettle_triple _)
  | ⟨true, false, true⟩ =>
      refine (logic cfg i).pre (fun _ h => h.1) ?_
      refine (logic cfg i).bind (ready_silent ⟨⟨rfl, rfl⟩, fun _ => trivial⟩) fun wait => ?_
      cases wait with
      | true => exact fun s _ h => h
      | false =>
          exact (logic cfg i).bind stopAndTransferLeader_triple
            fun r => settle_ready (fun _ h => h) _ r
  | ⟨true, true, true⟩ =>
      exact settle_ready (A := fun s => Ready i s ∧ _) (fun _ h => h.1) _ (.ok ())
  | ⟨false, _, false⟩ =>
      exact settle_ready (A := fun s => Ready i s ∧ _) (fun _ h => h.1) _ (.ok ())

/-- Reading the cached flag under the lock. -/
theorem load_active :
    (logic cfg i).Holds (Ready i) (op (.load .seqActive)) fun active s =>
      Ready i s ∧ (active = false → s.world.running = false) := by
  refine triple_memory rfl ready_stable fun s hi h => ⟨fun ht => (by cases ht), ?_⟩
  intro x r m hm _
  cases hm
  refine ⟨grants_of_sameView hi ⟨rfl, rfl, rfl⟩, h, fun hf => ?_⟩
  by_contra hrun
  have hrun' : ¬s.world.running = false := hrun
  have hact := h.2 (by simpa using hrun')
  rw [active, hf] at hact
  cases hact

theorem actionLocked_triple :
    (logic cfg i).Holds (Ready i) (actionLocked cfg) fun _ => Ready i := by
  refine (logic cfg i).bind (ready_silent (all_op ⟨rfl, rfl⟩)) fun paused => ?_
  cases paused with
  | true => exact fun s _ h => h
  | false =>
      refine (logic cfg i).bind (ready_silent (Task.all_mono (fun _ => routine_silent) _
        stoppingOrStopped_routine)) fun stopped => ?_
      cases stopped with
      | true => exact fun s _ h => h
      | false =>
          refine (logic cfg i).bind (ready_silent (all_op ⟨rfl, rfl⟩)) fun health => ?_
          refine (logic cfg i).bind (ready_silent (all_op ⟨rfl, rfl⟩)) fun leader => ?_
          exact (logic cfg i).bind load_active fun active =>
            react_triple health ⟨leader, health.isHealthy, active⟩

theorem control : Control (logic cfg i) cfg (Free i) (Ready i) (ReadOutcome i) where
  free _ ho := free_silent (all_op (routine_silent ho))
  held _ ho := ready_silent (all_op (routine_silent ho))
  lock := lock_action
  unlock := unlock_action
  read := read_active
  store := free_store
  fail _ _ h := h
  critical := actionLocked_triple

theorem initializeStartupState_triple :
    (logic cfg i).Holds (Free i) initializeStartupState fun _ => Free i := by
  refine (logic cfg i).bind (t := refreshSequencerActive)
    control.refreshSequencerActive_holds fun r => ?_
  cases r with
  | error err => exact (logic cfg i).done fun s _ h => h
  | ok u =>
      refine (logic cfg i).bind ?_ fun _ => (logic cfg i).done fun s _ h => h
      exact free_silent (seedPreviousStateFromCurrent_all ⟨rfl, rfl⟩ ⟨rfl, rfl⟩ ⟨rfl, rfl⟩
        fun _ => ⟨rfl, rfl⟩)

theorem body_triple (call : Call) :
    (logic cfg i).Holds (Free i) (body cfg call) fun _ => Free i := by
  by_cases hcall : call = .initializeStartupState
  · rw [hcall]
    exact initializeStartupState_triple
  · exact control.body_holds call hcall

theorem begin_grants {s : Sys Tid} (hi : outline.inv s) (hidle : Free i s) (call : Call) :
    outline.Grants i s ⟨s.mem, world.begin s.world i call⟩ ∧
      Free i ⟨s.mem, world.begin s.world i call⟩ := by
  refine ⟨⟨hi, fun j hj => ⟨Iff.rfl, ?_, rfl, fun _ => ⟨rfl, fun _ h => h⟩⟩⟩, hidle⟩
  simp [world, Function.update_of_ne hj]

theorem verified (cfg : ConductorConfig) :
    (machine cfg (world : World Tid (Node Tid) Oracle Empty)).Verified policy outline := by
  refine Machine.verified_of_triples coherent (fun _ _ _ _ => rfl) ?_
    (fun _ _ call _ => body_triple call) fun s e => e.elim
  intro s i call s' hi hidle he _
  cases he
  exact begin_grants hi hidle call

/-- The state in which control starts: no lock is held, no refresh is under way,
and a sequencer that runs is known to run. -/
def Initial (s : Sys Tid) : Prop :=
  (∀ lock, s.mem.owner lock = none) ∧ (∀ i, s.world.sawInactive i = false) ∧ Synced s

theorem initial_conforms (cfg : ConductorConfig) {s : Sys Tid} (h : Initial s) :
    (machine cfg world).Conforms policy outline (Config.quiet s) := by
  obtain ⟨hown, hsaw, hsync⟩ := h
  refine Machine.conforms_quiet s ⟨fun _ => hsync, fun j hj => ?_⟩ fun i => ⟨?_, hsaw i⟩
  · rw [hsaw j] at hj
    cases hj
  · rw [holder, hown]
    exact fun h => by cases h

/-- In every run under the policy, a thread that is about to request a transfer
faces a sequencer that does not run, or has sent a stop itself. -/
theorem transfer_after_stop (cfg : ConductorConfig) (s : Sys Tid) (h : Initial s)
    (c : Config Tid Shared (Sys Tid) Call Outcome)
    (hr : (machine cfg world).Reaches policy (Config.quiet s) c)
    (i : Tid) (o : Op) (hop : c.pending i = some o) (htr : o.isTransfer = true) :
    c.state.world.running = false ∨ c.state.world.stopCalled i = true :=
  ((verified cfg).reaches (initial_conforms cfg h) hr).check coherent hop htr

end
section
def head : BlockInfo := ⟨Hash.zero, 1⟩

/-- The node answers, except to the health check, and holds the committed head. -/
def accept : Oracle
  | .consensus .latestUnsafePayload => .ok (some (.ofBlock head))
  | .sequencer .latestUnsafeBlock => .ok head
  | .sequencer (.startSequencer _) => .ok ()
  | .sequencer .sequencerActive => .ok false
  | o => Oracle.refuse o

def unhealthyActive : Sys Bool where
  mem := { Memory.new .default true with
    flags := fun flag => flag = .seqActive
    healthy := .unhealthy ""
    previous := ⟨true, true, true⟩ }
  world := ⟨true, fun _ => false, fun _ => false⟩

private theorem permits_refuse (c : Config Bool Shared (Sys Bool) Call Outcome) (i : Bool) :
    policy.Permits c (.step i .refuse) := by
  simp only [Policy.Permits]
  split
  · next o next _ =>
      cases o with
      | sequencer o =>
          cases o with
          | startSequencer hash => exact fun hok => by cases hok
          | stopSequencer =>
              intro err herr hstopped
              cases herr
              cases hstopped
          | _ => trivial
      | _ => trivial
  · trivial

/-- An unhealthy active leader sends a stop, which fails, and then requests the
transfer. -/
theorem transfer_after_failed_stop :
    ∃ c, (machine .default world).Reaches policy (Config.quiet unhealthyActive) c ∧
      (c.pending true).any Op.isTransfer = true ∧
      (c.state.world.running = false ∨ c.state.world.stopCalled true = true) := by
  have hinit : Initial unhealthyActive := ⟨fun _ => rfl, fun _ => rfl, fun _ => rfl⟩
  let es : List (Event Bool Call Oracle Empty) :=
    .call true .action :: List.replicate 11 (.step true .refuse)
  have hrun : ∃ c, (machine .default world).Reaches policy (Config.quiet unhealthyActive) c ∧
      (c.pending true).any Op.isTransfer = true := by
    refine Machine.reaches_of_replay (fun _ _ => true) es (fun e he c _ => ?_) ?_
    · simp only [es, List.mem_cons, List.mem_replicate] at he
      obtain rfl | ⟨_, rfl⟩ := he
      · trivial
      · exact permits_refuse c true
    · decide +kernel
  obtain ⟨c, hr, htr⟩ := hrun
  obtain ⟨o, ho, htransfer⟩ := (Option.any_eq_true _ _).mp htr
  exact ⟨c, hr, htr, transfer_after_stop _ _ hinit c hr true o ho htransfer⟩

def idleLeader : Sys Bool where
  mem := Memory.new .default true
  world := ⟨false, fun _ => false, fun _ => false⟩

/-- A tick is told that the sequencer does not run; an action starts it; the tick
stores its answer, finds the node unhealthy and goes on to its own action. -/
def overtakenRefresh : List (Event Bool Call Oracle Empty) :=
  [.call false (.tick 0)] ++ List.replicate 3 (.step false accept) ++
    [.call true .action] ++ List.replicate 14 (.step true accept) ++ [.ret true] ++
    List.replicate 13 (.step false accept)

theorem transfer_over_running :
    ∃ c, (machine .default world).Reaches .any (Config.quiet idleLeader) c ∧
      Initial idleLeader ∧ (c.pending false).any Op.isTransfer = true ∧
      c.state.world.running = true ∧ c.state.world.stopCalled false = false := by
  have hrun : ∃ c, (machine .default world).Reaches .any (Config.quiet idleLeader) c ∧
      ((c.pending false).any Op.isTransfer && c.state.world.running &&
        !c.state.world.stopCalled false) = true :=
    Machine.reaches_of_permitted overtakenRefresh (by decide +kernel)
  obtain ⟨c, hc, hbad⟩ := hrun
  simp only [Bool.and_eq_true, Bool.not_eq_true'] at hbad
  exact ⟨c, hc, ⟨fun _ => rfl, fun _ => rfl, fun h => by cases h⟩, hbad.1.1, hbad.1.2, hbad.2⟩

end
end ConductorRs.Conductor.HandOff

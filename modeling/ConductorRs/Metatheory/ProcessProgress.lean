import Mathlib.Order.Fin.Basic
import ConductorRs.Concurrency.LockOrder
import ConductorRs.Core.ProcessMachine
import ConductorRs.Metatheory.ServedRequests

/-!
Every request and every entry point of the conductor can finish.

The conductor has two mutexes. `stop` takes the action lock while it holds the stop
lock, and nothing takes them the other way round; the two loops wait for their
channels only while they hold neither. So no run of the process comes to a point at
which requests wait for each other, and every call that is under way can be run to
its end.
-/
namespace ConductorRs.Conductor
open Concurrency

/-- The order in which the mutexes are taken. -/
def Lock.rank : Lock → Bool
  | .stop => false
  | .action => true

theorem Lock.rank_injective : Function.Injective Lock.rank := by
  intro l l' h
  cases l <;> cases l' <;> first | rfl | cases h

instance : PartialOrder Lock := PartialOrder.lift Lock.rank Lock.rank_injective

instance : Finite Lock := Finite.of_injective Lock.rank Lock.rank_injective

def lockUse : Op → LockUse Lock
  | .lock l => .acquire l
  | .unlock l => .release l
  | _ => .other

abbrev Locks : Logic Shared (Set Lock) := lockOrder (E := Shared) lockUse

theorem Lock.stop_lt_action : Lock.stop < Lock.action := by
  change (false : Bool) < true
  decide

section
variable {cfg : ConductorConfig}

theorem lockUse_outer {o : Op} (h : Outer o) : lockUse o = .other := by
  cases o <;> first | rfl | cases h

theorem lockUse_inner {o : Op} (h : Inner o) : lockUse o = .other := by
  cases o <;> first | rfl | cases h

theorem actionLocked_other : (actionLocked cfg).All fun o => lockUse o = .other :=
  actionLocked_all (fun _ => lockUse_outer) fun _ => lockUse_inner

/-- The action lock is taken after any lock below it and given back. -/
theorem lock_action {held : Set Lock} (h : .action ∉ held) :
    Locks.Holds (fun s => s = held) (op (.lock .action)) fun _ s =>
      s = insert .action held := by
  refine lockOrder_call ?_
  rintro s rfl
  refine ⟨fun l hl => ?_, fun _ => rfl⟩
  cases l with
  | action => exact absurd hl h
  | stop => exact Lock.stop_lt_action

theorem unlock_action {held : Set Lock} (h : .action ∉ held) :
    Locks.Holds (fun s => s = insert .action held) (op (.unlock .action)) fun _ s =>
      s = held := by
  refine lockOrder_call ?_
  rintro s rfl
  exact ⟨Set.mem_insert _ _, fun _ => Set.insert_sdiff_self_of_notMem h⟩

theorem action_ordered :
    Locks.Holds (fun s => s = ∅) (action cfg) fun _ s => s = ∅ := by
  refine Locks.bind (lock_action (Set.notMem_empty _)) fun _ => ?_
  refine Locks.bind (lockOrder_all actionLocked_other) fun result => ?_
  exact Locks.bind (unlock_action (Set.notMem_empty _)) fun _ =>
    Locks.done fun _ _ h => h

theorem pause_ordered :
    Locks.Holds (fun s => s = ∅) pause fun _ s => s = ∅ := by
  refine Locks.bind (lockOrder_other rfl) fun stopped => ?_
  cases stopped with
  | true => exact Locks.done fun _ _ h => h
  | false =>
      refine Locks.bind (lock_action (Set.notMem_empty _)) fun _ => ?_
      refine Locks.bind (lockOrder_other rfl) fun _ => ?_
      exact Locks.bind (unlock_action (Set.notMem_empty _)) fun _ =>
        Locks.done fun _ _ h => h

theorem resume_ordered :
    Locks.Holds (fun s => s = ∅) resume fun _ s => s = ∅ :=
  lockOrder_all (resume_all (fun _ => lockUse_outer) (fun _ => lockUse_inner) rfl rfl fun _ => rfl)

theorem lock_stop :
    Locks.Holds (fun s => s = ∅) (op (.lock .stop)) fun _ s => s = {.stop} := by
  refine lockOrder_call ?_
  rintro s rfl
  exact ⟨fun l hl => absurd hl (Set.notMem_empty l), fun _ => insert_empty_eq _⟩

theorem unlock_stop :
    Locks.Holds (fun s => s = {.stop}) (op (.unlock .stop)) fun _ s => s = ∅ := by
  refine lockOrder_call ?_
  rintro s rfl
  exact ⟨rfl, fun _ => Set.sdiff_self⟩

/-- Both locks are held while consensus shuts down, and both are given back on either
outcome. -/
theorem stop_ordered : Locks.Holds (fun s => s = ∅) stop fun _ s => s = ∅ := by
  have hnot : Lock.action ∉ ({Lock.stop} : Set Lock) := by
    intro h
    cases h
  refine Locks.bind lock_stop fun _ => ?_
  refine Locks.bind (lockOrder_other rfl) fun stopped => ?_
  cases stopped with
  | true =>
      exact Locks.bind unlock_stop fun _ => Locks.done fun _ _ h => h
  | false =>
      refine Locks.bind (lockOrder_other rfl) fun _ => ?_
      refine Locks.bind (lock_action hnot) fun _ => ?_
      refine Locks.bind (lockOrder_other rfl) fun r => ?_
      cases r with
      | error err =>
          refine Locks.bind (unlock_action hnot) fun _ => ?_
          exact Locks.bind unlock_stop fun _ =>
            Locks.done fun _ _ h => h
      | ok u =>
          refine Locks.bind (lockOrder_other rfl) fun _ => ?_
          refine Locks.bind (lockOrder_other rfl) fun _ => ?_
          refine Locks.bind (unlock_action hnot) fun _ => ?_
          exact Locks.bind unlock_stop fun _ =>
            Locks.done fun _ _ h => h

theorem ticking_ordered (cfg : ConductorConfig) : Ticking Locks cfg fun s => s = ∅ where
  outer _ ho := lockOrder_other (lockUse_outer ho)
  refresh := lockOrder_all (refreshSequencerActive_all fun _ => lockUse_inner)
  action := action_ordered

theorem body_ordered (call : Call) :
    Locks.Holds (fun s => s = ∅) (body cfg call) fun _ s => s = ∅ := by
  cases call with
  | tick now => exact (ticking_ordered cfg).tick_holds now
  | action => exact action_ordered
  | pause => exact pause_ordered
  | resume => exact resume_ordered
  | stop => exact stop_ordered
  | refreshSequencerActive => exact (ticking_ordered cfg).refresh
  | initializeStartupState =>
      exact lockOrder_all (initializeStartupState_all (fun _ => lockUse_inner) fun _ => rfl)

end
end ConductorRs.Conductor

namespace ConductorRs.Process
open Concurrency ConductorRs.Runtime

/-- The operations that wait for what happens outside the process. -/
def waits : RuntimeOp → Bool
  | .metricsChanged | .select _ => true
  | _ => false

def runtimeUse (o : RuntimeOp) : LockUse Conductor.Lock := if waits o then .wait else .other

def supervisorUse : Supervisor.Op → LockUse Conductor.Lock
  | .inl o => Conductor.lockUse o
  | .inr o => runtimeUse o

def serverUse : Rpc.Server.Op → LockUse Conductor.Lock
  | .inl o => Conductor.lockUse o
  | .inr _ => .other

def lockUse : ProcessOps.Op → LockUse Conductor.Lock
  | .inl o => supervisorUse o
  | .inr _ => .other

section
variable {cfg : ConductorConfig}

abbrev Supervising : Logic Supervisor (Set Conductor.Lock) :=
  lockOrder (E := Supervisor) supervisorUse

theorem supervisor_ordered {α : Type} {t : Task Conductor.Shared α}
    {A : Set Conductor.Lock → Prop} {Q : α → Set Conductor.Lock → Prop}
    (h : Conductor.Locks.Holds A t Q) : Supervising.Holds A (Runtime.conductor t) Q :=
  lockOrder_interp (E := Conductor.Shared) Conductor.lockUse supervisorUse lift
    (fun _ _ hop => ⟨hop, fun _ => rfl⟩) h

theorem load_ordered (flag : Conductor.Flag) : Supervising.Holds (fun s => s = ∅)
    (Runtime.conductor (Conductor.op (.load flag))) fun _ s => s = ∅ :=
  supervisor_ordered (lockOrder_other rfl)

/-- A loop may wait, for it holds nothing. -/
theorem runtime_ordered (o : RuntimeOp) :
    Supervising.Holds (fun s => s = ∅) (runtime o) fun _ s => s = ∅ := by
  refine lockOrder_call ?_
  rintro s rfl
  change (runtimeUse o).Allowed ∅ ∧ ∀ _, (runtimeUse o).after ∅ = ∅
  unfold runtimeUse
  split
  · exact ⟨rfl, fun _ => rfl⟩
  · exact ⟨trivial, fun _ => rfl⟩

theorem waitRound_ordered (previous : Bool) (u : Unit) :
    Supervising.Holds (fun s => s = ∅) (waitRound previous u) fun _ s => s = ∅ := by
  refine Supervising.bind (runtime_ordered .metricsChanged) fun r => ?_
  cases r with
  | error err => exact Supervising.done fun _ _ h => h
  | ok _ =>
      refine Supervising.bind (runtime_ordered .borrowWatchedLeader) fun leader => ?_
      split <;> exact Supervising.done fun _ _ h => h

theorem leaderWatchRound_ordered (waits : Nat) (leader : Bool) :
    Supervising.Holds (fun s => s = ∅) (leaderWatchRound waits leader) fun _ s => s = ∅ := by
  have hwait : Supervising.Holds (fun s => s = ∅) (waitForLeaderStatusChange waits leader)
      fun _ s => s = ∅ := by
    refine Supervising.bind (runtime_ordered .metrics) fun _ => ?_
    refine Supervising.loop (I := fun _ s => s = ∅) (fun u => ?_) (fun _ _ _ h => h) waits ()
    refine Supervising.post (waitRound_ordered leader u) fun r s h => ?_
    cases r <;> exact h
  refine Supervising.bind hwait fun r => ?_
  rcases r with _ | _ | leader
  · exact Supervising.done fun _ _ h => h
  · refine Supervising.bind (load_ordered .stopped) fun stopped => ?_
    cases stopped <;> exact Supervising.done fun _ _ h => h
  · refine Supervising.bind (load_ordered .stopped) fun stopped => ?_
    cases stopped with
    | true => exact Supervising.done fun _ _ h => h
    | false =>
        refine Supervising.bind (R := fun _ s => s = ∅) ?_ fun _ => Supervising.done fun _ _ h => h
        have hall : Conductor.queueAction.All fun o => Conductor.lockUse o = .other :=
          ⟨rfl, fun _ => ⟨rfl, fun _ => trivial⟩⟩
        exact supervisor_ordered (lockOrder_all hall)

theorem controlRound_ordered (actionPending : Bool) :
    Supervising.Holds (fun s => s = ∅) (controlRound cfg actionPending) fun _ s => s = ∅ := by
  refine Supervising.bind (runtime_ordered (.select actionPending)) fun selected => ?_
  refine Supervising.bind (load_ordered .stopped) fun stopped => ?_
  cases stopped with
  | true => exact Supervising.done fun _ _ h => h
  | false =>
      refine Supervising.bind (R := fun _ s => s = ∅) ?_ fun _ => Supervising.done fun _ _ h => h
      cases selected with
      | changed => exact Supervising.done fun _ _ h => h
      | actionRetry =>
          refine Supervising.bind (R := fun _ s => s = ∅) ?_ fun _ =>
            Supervising.done fun _ _ h => h
          refine Supervising.bind (supervisor_ordered Conductor.action_ordered) fun result => ?_
          refine Supervising.bind (R := fun _ s => s = ∅) ?_ fun _ =>
            Supervising.done fun _ _ h => h
          exact supervisor_ordered (lockOrder_other rfl)
      | tick now =>
          refine Supervising.bind
            (supervisor_ordered ((Conductor.ticking_ordered cfg).tick_holds now)) fun result => ?_
          split <;> exact Supervising.done fun _ _ h => h

variable (cfg) in
theorem runtimeBody_ordered (call : RuntimeCall) :
    Supervising.Holds (fun s => s = ∅) (runtimeBody cfg call) fun _ s => s = ∅ := by
  cases call with
  | conductor call =>
      exact Supervising.bind (supervisor_ordered (Conductor.body_ordered call)) fun _ =>
        Supervising.done fun _ _ h => h
  | leaderWatch rounds waits =>
      refine Supervising.bind (R := fun _ s => s = ∅) ?_ fun _ => Supervising.done fun _ _ h => h
      refine Supervising.bind (supervisor_ordered (lockOrder_other rfl)) fun leader => ?_
      refine Supervising.bind (R := fun _ s => s = ∅) ?_ fun _ => Supervising.done fun _ _ h => h
      refine Supervising.loop (I := fun _ s => s = ∅) (fun leader => ?_) (fun _ _ _ h => h) rounds
        leader
      refine Supervising.post (leaderWatchRound_ordered waits leader) fun r s h => ?_
      cases r <;> exact h
  | controlLoop rounds =>
      refine Supervising.bind (R := fun _ s => s = ∅) ?_ fun _ => Supervising.done fun _ _ h => h
      refine Supervising.bind (runtime_ordered .subscribeActions) fun _ => ?_
      refine Supervising.loop (I := fun _ s => s = ∅) (fun pending => ?_) (fun _ _ _ h => h) rounds
        true
      refine Supervising.post (controlRound_ordered pending) fun r s h => ?_
      cases r <;> exact h

end

abbrev Requesting : Logic Rpc.Server (Set Conductor.Lock) :=
  lockOrder (E := Rpc.Server) serverUse

theorem server_ordered {α : Type} {t : Task Conductor.Shared α} {A : Set Conductor.Lock → Prop}
    {Q : α → Set Conductor.Lock → Prop} (h : Conductor.Locks.Holds A t Q) :
    Requesting.Holds A (Rpc.conductor t) Q :=
  lockOrder_interp (E := Conductor.Shared) Conductor.lockUse serverUse
    (fun o => Task.call (E := Rpc.Server) (.inl o)) (fun _ _ hop => ⟨hop, fun _ => rfl⟩) h

theorem serving : Rpc.Serving Requesting fun s => s = ∅ where
  server _ := lockOrder_other rfl
  asked o ho := by
    refine server_ordered (lockOrder_other ?_)
    cases o <;> first | rfl | cases ho
  pause := server_ordered Conductor.pause_ordered
  resume := server_ordered Conductor.resume_ordered
  stop := server_ordered Conductor.stop_ordered

theorem processBody_ordered (cfg : ConductorConfig) (proxy : Bool) (call : ProcessCall) :
    Ordered lockUse (fun _ held => held = ∅) (processBody cfg proxy call) ∅ := by
  cases call with
  | runtime call =>
      have hcall := lockOrder_interp supervisorUse lockUse onSupervisor
        (fun _ _ hop => ⟨hop, fun _ => rfl⟩) (runtimeBody_ordered cfg call)
      exact (hcall ∅ rfl).bind fun _ _ h => h
  | rpc payload =>
      have hrequest := lockOrder_interp serverUse lockUse onServer
        (fun o _ hop => by cases o <;> exact ⟨hop, fun _ => rfl⟩)
        (serving.handlePayload_holds proxy payload)
      exact (hrequest ∅ rfl).bind fun _ _ h => h

section
variable {Tid : Type} [DecidableEq Tid]

/-- The owners change as the operation on the mutexes says. -/
theorem memory_moves {m m' : Conductor.Memory Tid} {i : Tid} {o : Conductor.Op} {r : o.Reply}
    (h : m.perform i o = some (r, m')) : (Conductor.lockUse o).Moves i m.owner m'.owner := by
  cases o with
  | lock l =>
      simp only [Conductor.Memory.perform] at h
      split at h
      · next hfree =>
          cases h
          exact ⟨hfree, rfl⟩
      · cases h
  | unlock l =>
      simp only [Conductor.Memory.perform] at h
      split at h
      · next hheld =>
          cases h
          exact ⟨hheld, rfl⟩
      · cases h
  | _ => exact funext fun l => Conductor.Memory.perform_owner h (by simp) (by simp)

theorem memory_runs (m : Conductor.Memory Tid) {i : Tid} {o : Conductor.Op}
    (ho : o.external = false) (h : (Conductor.lockUse o).Ready i m.owner) :
    ∃ r m', m.perform i o = some (r, m') := by
  cases o with
  | lock l =>
      simp only [Conductor.Memory.perform, show m.owner l = none from h]
      exact ⟨(), _, rfl⟩
  | unlock l => exact ⟨(), _, if_pos h⟩
  | tolerate now tolerance =>
      simp only [Conductor.Memory.perform]
      split <;> exact ⟨_, _, rfl⟩
  | consensus _ | sequencer _ | probe _ => cases ho
  | _ => exact ⟨_, _, rfl⟩

theorem external_other {o : Conductor.Op} (ho : o.external = true) :
    Conductor.lockUse o = .other := by
  cases o <;> first | rfl | cases ho

theorem performShared_moves {s s' : RuntimeState Tid} {i : Tid} {o : Conductor.Op} {x : Choice}
    {r : o.Reply} (h : s.performShared i o x = some (r, s')) :
    (Conductor.lockUse o).Moves i s.mem.owner s'.mem.owner := by
  unfold RuntimeState.performShared at h
  split at h
  · next ho =>
      cases h
      rw [external_other ho]
      rfl
  · obtain ⟨p, hp, heq⟩ := Option.map_eq_some_iff.mp h
    cases heq
    exact memory_moves hp

theorem performRuntime_moves {s s' : RuntimeState Tid} {i : Tid} {o : RuntimeOp} {x : Choice}
    {r : o.Reply} (h : s.performRuntime i o x = some (r, s')) :
    (runtimeUse o).Moves i s.mem.owner s'.mem.owner := by
  have howner : s'.mem.owner = s.mem.owner := by
    cases o with
    | metrics | borrowWatchedLeader | subscribeActions =>
        cases h
        rfl
    | metricsChanged =>
        simp only [RuntimeState.performRuntime] at h
        unfold RuntimeState.performMetricsChanged at h
        split at h
        · cases h
          rfl
        · split at h <;> cases h
          rfl
    | select actionPending =>
        simp only [RuntimeState.performRuntime] at h
        unfold RuntimeState.performSelect at h
        split at h
        · split at h <;> cases h
          rfl
        · split at h <;> cases h
          rfl
        · cases h
          rfl
        · cases h
        · cases h
  unfold runtimeUse
  split <;> exact howner

theorem performShared_runs (s : RuntimeState Tid) {i : Tid} {o : Conductor.Op} (x : Choice)
    (h : (Conductor.lockUse o).Ready i s.mem.owner) :
    ∃ r s', s.performShared i o x = some (r, s') := by
  unfold RuntimeState.performShared
  cases ho : o.external with
  | true => exact ⟨_, _, rfl⟩
  | false =>
      obtain ⟨r, m, hm⟩ := memory_runs s.mem ho h
      exact ⟨r, s.after i m o r, by simp [hm]⟩

theorem performRuntime_runs (s : RuntimeState Tid) {i : Tid} {o : RuntimeOp} (x : Choice)
    (h : (runtimeUse o).Ready i s.mem.owner) : ∃ r s', s.performRuntime i o x = some (r, s') := by
  cases o with
  | metricsChanged | select _ => exact absurd h (by simp [runtimeUse, waits, LockUse.Ready])
  | _ => exact ⟨_, _, rfl⟩

/-- Everything is answered with an error, or with the answer that says least. -/
def ProcessChoice.refuse : ProcessChoice where
  runtime := ⟨.refuse, .none⟩
  server
    | .loadLeaderOverride => false
    | .leaderWithId => ⟨"", "", .voter⟩
    | .changeMembership _ | .commitUnsafePayload _ => .error .notLeader
    | .backend _ _ _ => .error .missingResult
    | .storeLeaderOverride _ | .recordNotification _ | .recordRequest _ _ _ _ => ()

theorem locking (cfg : ConductorConfig) (proxy : Bool) :
    Locking (processMachine Tid cfg proxy) .any lockUse ProcessState.owner where
  body := processBody_ordered cfg proxy
  enter s i call s' h := by
    cases h
    cases call <;> rfl
  perform s i o x r s' h := by
    cases o with
    | inl o =>
        obtain ⟨p, hp, heq⟩ := Option.map_eq_some_iff.mp h
        cases heq
        cases o with
        | inl o => exact performShared_moves hp
        | inr o => exact performRuntime_moves hp
    | inr o =>
        have hs' : s' = (s.performServer x.server o).2 :=
          (congrArg Prod.snd (Option.some.inj h)).symm
        rw [hs']
        cases o <;> rfl
  leave s i call a := rfl
  env s e s' h := by
    cases h
    rfl
  runs s i o h := by
    refine ⟨.refuse, ?_⟩
    cases o with
    | inl o =>
        have hruns : ∃ r runtime, s.runtime.perform i o ProcessChoice.refuse.runtime =
            some (r, runtime) := by
          cases o with
          | inl o => exact performShared_runs s.runtime _ h
          | inr o => exact performRuntime_runs s.runtime _ h
        obtain ⟨r, runtime, hruntime⟩ := hruns
        exact ⟨r, _, Option.map_eq_some_iff.mpr ⟨_, hruntime, rfl⟩, trivial⟩
    | inr o => exact ⟨_, _, rfl, trivial⟩

/-- The loops of the process. -/
def isLoop : ProcessCall → Bool
  | .runtime (.leaderWatch _ _) | .runtime (.controlLoop _) => true
  | _ => false

theorem conductor_does_not_wait (o : Conductor.Op) : Conductor.lockUse o ≠ .wait := by
  cases o <;> exact fun h => by cases h

/-- Only the loops wait for a channel. -/
theorem loop_of_wait (cfg : ConductorConfig) (proxy : Bool) (call : ProcessCall) :
    (processBody cfg proxy call).All fun o => lockUse o = .wait → isLoop call = true := by
  cases call with
  | runtime call =>
      cases call with
      | conductor call =>
          have hcall :
              (runtimeBody cfg (.conductor call)).All fun o => supervisorUse o ≠ .wait := by
            refine Task.all_bind _ (Runtime.conductor (Conductor.body cfg call)) _ ?_
              fun _ => trivial
            refine Task.all_interp (p := fun _ => True) (fun o _ => ?_)
              (Task.all_of_forall (fun _ => trivial) _)
            exact ⟨conductor_does_not_wait o, fun _ => trivial⟩
          refine Task.all_bind _ _ _ (Task.all_interp (fun o ho => ?_) hcall) fun _ => trivial
          exact ⟨fun hwait => absurd hwait ho, fun _ => trivial⟩
      | leaderWatch rounds waits => exact Task.all_of_forall (fun _ _ => rfl) _
      | controlLoop rounds => exact Task.all_of_forall (fun _ _ => rfl) _
  | rpc payload =>
      refine Task.all_bind _ _ _ (Task.all_interp (p := fun _ => True) (fun o _ => ?_)
        (Task.all_of_forall (fun _ => trivial) _)) fun _ => trivial
      cases o with
      | inl o => exact ⟨fun hwait => absurd hwait (conductor_does_not_wait o), fun _ => trivial⟩
      | inr o => exact ⟨nofun, fun _ => trivial⟩

/-- A thread has nothing left to do, or is a loop that waits for its channel. -/
def AtRest (c : Config Tid ProcessOps (ProcessState Tid) ProcessCall ProcessOut) (i : Tid) : Prop :=
  c.tasks i = none ∨ ∃ call t o, c.tasks i = some (call, t) ∧ isLoop call = true ∧
    c.pending i = some (.inl (.inr o)) ∧ waits o = true

theorem atRest_of_resting {cfg : ConductorConfig} {proxy : Bool} {s : ProcessState Tid}
    {c : Config Tid ProcessOps (ProcessState Tid) ProcessCall ProcessOut}
    (hr : (processMachine Tid cfg proxy).Reaches .any (Config.quiet s) c) {i : Tid}
    (h : Resting lockUse (c.tasks i)) : AtRest c i := by
  cases ht : c.tasks i with
  | none => exact .inl ht
  | some p =>
      obtain ⟨call, t⟩ := p
      rw [ht] at h
      cases t with
      | done a => exact absurd h id
      | perform o next =>
          have hloop := (hr.all_tasks (loop_of_wait cfg proxy) ht).1 h
          have hpending := Config.pending_of_perform ht
          cases o with
          | inl o =>
              cases o with
              | inl o => exact absurd h (conductor_does_not_wait o)
              | inr o =>
                  refine .inr ⟨call, _, o, ht, hloop, hpending, ?_⟩
                  by_contra hwaits
                  have hother : runtimeUse o = .other := if_neg hwaits
                  have hwait : runtimeUse o = .wait := h
                  rw [hother] at hwait
                  cases hwait
          | inr o => cases h

/-- No run of the process is stuck. Behind every mutex that is held some thread that
holds it or a later one can perform its next operation at once. And whatever
requests, entry points and loops are under way, they can be run on until every request and
every entry point has returned, the loops wait for their channels, and no mutex is
held. -/
theorem process_never_stuck (cfg : ConductorConfig) (proxy leader : Bool) (version : Nat)
    {c : Config Tid ProcessOps (ProcessState Tid) ProcessCall ProcessOut}
    (hr : (processMachine Tid cfg proxy).Reaches .any
      (Config.quiet (ProcessState.new cfg leader version)) c) :
    (∀ lock i, c.state.owner lock = some i →
      ∃ j later call o next, lock ≤ later ∧ c.state.owner later = some j ∧
        c.tasks j = some (call, .perform o next) ∧ (lockUse o).Ready j c.state.owner) ∧
    ∃ c', (processMachine Tid cfg proxy).Reaches .any c c' ∧ (∀ i, AtRest c' i) ∧
      ∀ lock, c'.state.owner lock = none := by
  have hfree : ∀ lock, (ProcessState.new cfg leader version : ProcessState Tid).owner lock = none :=
    fun _ => rfl
  refine ⟨fun lock i ho => ?_, ?_⟩
  · exact ((Disciplined.quiet _ hfree).reaches (locking cfg proxy) hr).exists_ready lock i ho
  · obtain ⟨c', hr', hrest, hlocks⟩ := (locking cfg proxy).completes hfree hr
    exact ⟨c', hr', fun i => atRest_of_resting (hr.trans hr') (hrest i), hlocks⟩

end

abbrev Running :=
  Config Bool ProcessOps (ProcessState Bool) ProcessCall ProcessOut

/-- One thread runs an action and holds its lock, the other stops the conductor on
request and waits for it. -/
def stopBehindAction : List (Event Bool ProcessCall ProcessChoice Metrics) :=
  [.call true (.runtime (.conductor .action)), .step true .refuse,
    .call false (.rpc (.object [("jsonrpc", .string "2.0"), ("method", .string "conductor_stop"),
      ("id", .number (.posInt 1))])),
    .step false .refuse, .step false .refuse, .step false .refuse]

def waitsForAction (c : Running) : Bool :=
  decide (c.state.owner .action = some true) && decide (c.state.owner .stop = some false) &&
    match c.pending false with
    | some (.inl (.inl (.lock .action))) => true
    | _ => false

theorem stop_behind_action_finishes : ∃ c : Running,
    waitsForAction c = true ∧ ∃ c', (processMachine Bool .default false).Reaches .any c c' ∧
      (∀ i, AtRest c' i) ∧ ∀ lock, c'.state.owner lock = none := by
  obtain ⟨c, hr, hc⟩ := Machine.reaches_of_permitted (π := .any)
    (M := processMachine Bool .default false)
    (c := Config.quiet (ProcessState.new .default true 0)) (p := waitsForAction)
    stopBehindAction (by decide +kernel)
  exact ⟨c, hc, (process_never_stuck .default false true 0 hr).2⟩

end ConductorRs.Process

import ConductorRs.Concurrency.Logic
import ConductorRs.Core.ConductorMemory

/-!
The entry points of the conductor, judged in an arbitrary logic.

Outside the locked part of an action the programs only touch flags, probes and
metrics, take and release the action lock, and refresh the cached sequencer
flag. `Control` asks for triples for exactly these pieces and for the locked part
as a whole; every entry point then goes from free to free.
-/
namespace ConductorRs.Conductor
open Concurrency

/-- The operations the entry points perform around the locked part of an action. -/
def Op.routine : Op → Bool
  | .load flag => flag ≠ .seqActive
  | .store flag _ => flag ≠ .seqActive
  | .lock l | .unlock l => l ≠ .action
  | .setHealthy _ | .nextActionSeq | .sendAction _ | .sendStopped | .tolerate _ _ => true
  | .consensus .shutdown | .sequencer .syncStatus | .sequencer .peerStats | .probe _ => true
  | .metric (.healthCheck _ _) | .metric .loopExecutionTime => true
  | _ => false

def Routine (o : Op) : Prop := o.routine = true

/-- What a tick performs besides its refresh and its action. -/
def Op.outer : Op → Bool
  | .load flag => flag ≠ .seqActive
  | .setHealthy _ | .tolerate _ _ => true
  | .sequencer .syncStatus | .sequencer .peerStats | .probe _ => true
  | .metric (.healthCheck _ _) | .metric .loopExecutionTime => true
  | _ => false

def Outer (o : Op) : Prop := o.outer = true

/-- The start command. -/
def Op.isStart : Op → Bool
  | .sequencer (.startSequencer _) => true
  | _ => false

/-- The operations of `start_sequencer` between the read of the committed payload
and the command. -/
def Op.preparing : Op → Bool
  | .sequencer .latestUnsafeBlock | .sequencer (.blockByNumber _)
  | .sequencer (.postUnsafePayload _) => true
  | _ => false

def Preparing (o : Op) : Prop := o.preparing = true

/-- The operations of `transfer_leader_internal`. -/
def Op.transferring : Op → Bool
  | .consensus .latestUnsafePayload | .consensus .shutdown => false
  | .consensus _ | .metric (.leaderTransfer _) => true
  | _ => false

def Transferring (o : Op) : Prop := o.transferring = true

/-- What an action may perform between its guard and the end of its locked part. -/
def Op.inner : Op → Bool
  | .load .seqActive | .store .seqActive _ => true
  | .cloneHealthy | .copyPrevious | .updatePrevious _ => true
  | .consensus .shutdown => false
  | .consensus _ | .sequencer _ | .metric _ => true
  | _ => false

def Inner (o : Op) : Prop := o.inner = true

section
variable {cfg : ConductorConfig} {p : Op → Prop}

theorem all_op {o : Op} (h : p o) : (op o).All p := ⟨h, fun _ => trivial⟩

theorem all_sequencer {o : SequencerOp} (h : p (.sequencer o)) :
    (sequencer o).run.All p := ⟨h, fun _ => trivial⟩

theorem stopSequencer_all (hstop : p (.sequencer .stopSequencer))
    (hstore : p (.store .seqActive false))
    (hmetric : ∀ success, p (.metric (.stopSequencer success))) :
    stopSequencer.All p := by
  refine Task.all_bind _ _ _ (all_op hstop) fun r => ?_
  cases r with
  | ok hash => exact ⟨hstore, fun _ => ⟨hmetric true, fun _ => trivial⟩⟩
  | error err =>
      dsimp only
      split
      · exact ⟨hstore, fun _ => ⟨hmetric false, fun _ => trivial⟩⟩
      · exact ⟨hmetric false, fun _ => trivial⟩

theorem settle_all (status : State) (result : Outcome) (hprevious : p (.updatePrevious status))
    (hmetric : p (.metric (.stateChange status.leader status.healthy status.active))) :
    (settle status result).All p := by
  cases result with
  | error err => trivial
  | ok u =>
      refine Task.all_bind _ (op (.updatePrevious status)) _ (all_op hprevious) fun b => ?_
      cases b with
      | true => exact ⟨hmetric, fun _ => trivial⟩
      | false => trivial

theorem seedPreviousStateFromCurrent_all (hhealth : p .cloneHealthy)
    (hleader : p (.consensus .leader)) (hactive : p (.load .seqActive))
    (hprevious : ∀ state, p (.setPrevious state)) : seedPreviousStateFromCurrent.All p :=
  ⟨hhealth, fun _ => ⟨hleader, fun _ => ⟨hactive, fun _ => ⟨hprevious _, fun _ => trivial⟩⟩⟩⟩

theorem outer_routine {o : Op} (h : Outer o) : Routine o := by
  cases o with
  | load flag | probe o => exact h
  | sequencer o | metric o => cases o <;> first | rfl | cases h
  | setHealthy health | tolerate now tolerance => rfl
  | _ => cases h

theorem stoppingOrStopped_outer : stoppingOrStopped.All Outer := by
  refine Task.all_bind _ _ _ (all_op rfl) fun stopping => ?_
  cases stopping with
  | true => trivial
  | false => exact all_op rfl

theorem stoppingOrStopped_routine : stoppingOrStopped.All Routine :=
  Task.all_mono (fun _ => outer_routine) _ stoppingOrStopped_outer

theorem checkExecutionP2p_outer : (checkExecutionP2p cfg).All Outer := by
  unfold checkExecutionP2p
  split
  · trivial
  · refine Task.all_bind _ _ _ (all_op rfl) fun r => ?_
    cases r with
    | error err => trivial
    | ok count => dsimp only; split <;> trivial

theorem checkRollupBoost_outer (now : Nat) : (checkRollupBoost cfg now).All Outer := by
  unfold checkRollupBoost
  split
  · trivial
  · refine Task.all_bind _ _ _ (all_op rfl) fun r => ?_
    match r with
    | .error err | .ok .healthy | .ok .unhealthy => trivial
    | .ok .partially =>
        refine Task.all_bind _ _ _ ?_ fun b => ?_
        · unfold tolerateRollupBoostPartialHealth
          split
          · trivial
          · split
            · trivial
            · exact all_op rfl
        · cases b <;> trivial

theorem checkHealthAt_outer (now : Nat) : (checkHealthAt cfg now).All Outer := by
  refine Task.all_bind _ _ _ (all_op rfl) fun r => ?_
  cases r with
  | error err => trivial
  | ok status =>
      refine Task.all_bind _ _ _ ?_ fun supervisor => ?_
      · unfold checkSupervisor
        split
        · trivial
        · refine Task.all_bind _ _ _ (all_op rfl) fun r => ?_
          cases r <;> trivial
      · cases supervisor with
        | some health => trivial
        | none =>
            dsimp only
            split
            · trivial
            · refine Task.all_bind _ _ _ (all_op rfl) fun r => ?_
              cases r with
              | error err => trivial
              | ok stats =>
                  dsimp only
                  split
                  · trivial
                  · refine Task.all_bind _ _ _ checkExecutionP2p_outer fun p2p => ?_
                    cases p2p with
                    | some health => trivial
                    | none =>
                        exact Task.all_bind _ _ _ (checkRollupBoost_outer now)
                          fun _ => trivial

theorem startHash_preparing (payload : PayloadEnvelope) (hash : Hash) (number : Nat)
    (head : BlockInfo) : (startHash cfg payload hash number head).run.All Preparing := by
  unfold startHash
  split
  · trivial
  · split
    · exact Task.all_bindExcept _ _ _ (all_sequencer rfl) fun _ => trivial
    · split
      · refine Task.all_bindExcept _ _ _ (all_sequencer rfl) fun ancestor => ?_
        by_cases h : ancestor.hash = hash
        · simp [h]; trivial
        · simp [h]; trivial
      · trivial

theorem tryTargets_transferring (targets : List ServerInfo) :
    (tryTargets targets).All Transferring := by
  induction targets with
  | nil => trivial
  | cons target rest ih =>
      refine Task.all_bind _ _ _ (all_op rfl) fun r => ?_
      cases r with
      | ok u => trivial
      | error err =>
          dsimp only
          split
          · trivial
          · exact ih

theorem transferLeader_transferring : transferLeader.All Transferring :=
  ⟨rfl, fun _ => trivial⟩

theorem transferLeaderRoundRobin_transferring :
    transferLeaderRoundRobin.All Transferring := by
  refine Task.all_bindExcept _ _ _ ⟨rfl, fun _ => trivial⟩ fun membership => ?_
  dsimp only
  split
  · trivial
  · refine Task.all_bindExcept _ _ _ ⟨rfl, fun _ => trivial⟩ fun serverId => ?_
    split
    · refine Task.all_bindExcept _ _ _ ?_ fun transferred => ?_
      · exact Task.all_bind _ _ _ (tryTargets_transferring _) fun _ => trivial
      · cases transferred with
        | true => trivial
        | false => exact transferLeader_transferring
    · trivial

theorem transferLeaderInternal_transferring :
    (transferLeaderInternal cfg).All Transferring := by
  refine Task.all_bind _ _ _ (all_op rfl) fun leader => ?_
  cases leader with
  | false => exact ⟨rfl, fun _ => trivial⟩
  | true =>
      dsimp only [Bool.not_true]
      split
      · contradiction
      · split
        · refine Task.all_bind _ _ _ transferLeaderRoundRobin_transferring fun transferred => ?_
          cases transferred with
          | ok u => exact ⟨rfl, fun _ => ⟨rfl, fun _ => trivial⟩⟩
          | error err => exact ⟨rfl, fun _ => trivial⟩
        · refine Task.all_bind _ _ _ transferLeader_transferring fun transferred => ?_
          cases transferred with
          | ok u => exact ⟨rfl, fun _ => ⟨rfl, fun _ => trivial⟩⟩
          | error err => exact ⟨rfl, fun _ => trivial⟩

theorem transferring_inner {o : Op} (h : Transferring o) : Inner o := by
  cases o with
  | consensus o => cases o <;> first | rfl | cases h
  | metric m => rfl
  | _ => cases h

theorem preparing_inner {o : Op} (h : Preparing o) : Inner o := by
  cases o with
  | sequencer o => rfl
  | _ => cases h

theorem sendStart_inner (hash : Hash) : (sendStart hash).All Inner := by
  refine Task.all_bind _ _ _ (all_op rfl) fun r => ?_
  cases r with
  | ok u => exact ⟨rfl, fun _ => trivial⟩
  | error err =>
      dsimp only
      split
      · exact ⟨rfl, fun _ => trivial⟩
      · trivial

theorem startBody_inner : (startBody cfg).run.All Inner := by
  refine Task.all_bindExcept _ _ _ ⟨rfl, fun _ => trivial⟩ fun latest => ?_
  cases latest with
  | none => trivial
  | some payload =>
      refine Task.all_bindExcept _ _ _ trivial fun hash => ?_
      refine Task.all_bindExcept _ _ _ trivial fun number => ?_
      refine Task.all_bindExcept _ _ _ (all_sequencer rfl) fun head => ?_
      refine Task.all_bindExcept _ _ _ ?_ fun start => sendStart_inner start
      exact Task.all_mono (fun _ => preparing_inner) _ (startHash_preparing _ _ _ _)

theorem startSequencer_inner : (startSequencer cfg).All Inner := by
  refine Task.all_bind _ _ _ startBody_inner fun r => ?_
  cases r <;> exact ⟨rfl, fun _ => trivial⟩

theorem stopSequencer_inner : stopSequencer.All Inner :=
  stopSequencer_all rfl rfl fun _ => rfl

theorem settle_inner (status : State) (result : Outcome) : (settle status result).All Inner :=
  settle_all status result rfl rfl

theorem transferLeaderInternal_inner : (transferLeaderInternal cfg).All Inner :=
  Task.all_mono (fun _ => transferring_inner) _ transferLeaderInternal_transferring

theorem transferAndSettle_inner (status : State) :
    ((transferLeaderInternal cfg).bind (settle status)).All Inner :=
  Task.all_bind _ _ _ transferLeaderInternal_inner (settle_inner status)

/-- Whatever the observed state is, the reaction to it stays inside. -/
theorem react_inner (health : Health) (status : State) : (react cfg health status).All Inner := by
  obtain ⟨leader, healthy, active⟩ := status
  cases leader with
  | false =>
      cases active with
      | false => exact settle_inner _ (.ok ())
      | true => exact Task.all_bind _ _ _ stopSequencer_inner (settle_inner _)
  | true =>
      cases healthy with
      | true =>
          cases active with
          | true => exact settle_inner _ (.ok ())
          | false => exact Task.all_bind _ _ _ startSequencer_inner (settle_inner _)
      | false =>
          cases active with
          | false =>
              refine Task.all_bind _ (op .copyPrevious) _ (all_op rfl) fun prev => ?_
              split
              · refine Task.all_bind _ _ _ startSequencer_inner fun r => ?_
                cases r with
                | ok u => exact settle_inner _ _
                | error err => exact transferAndSettle_inner _
              · exact transferAndSettle_inner _
          | true =>
              refine Task.all_bind _ (shouldWaitForHealthRecovery health) _
                ⟨rfl, fun _ => trivial⟩ fun wait => ?_
              cases wait with
              | true => trivial
              | false =>
                  refine Task.all_bind _ (stopAndTransferLeader cfg) _ ?_ (settle_inner _)
                  refine Task.all_bind _ _ _ stopSequencer_inner fun stopped => ?_
                  refine Task.all_bind _ _ _ transferLeaderInternal_inner fun transferred => ?_
                  cases stopped <;> cases transferred <;> trivial

theorem actionLocked_all (houter : ∀ o, Outer o → p o) (hinner : ∀ o, Inner o → p o) :
    (actionLocked cfg).All p := by
  refine Task.all_bind _ (op (.load .paused)) _ (all_op (houter _ rfl)) fun paused => ?_
  cases paused with
  | true => trivial
  | false =>
      refine Task.all_bind _ stoppingOrStopped _
        (Task.all_mono houter _ stoppingOrStopped_outer) fun stopped => ?_
      cases stopped with
      | true => trivial
      | false =>
          refine Task.all_bind _ (op .cloneHealthy) _ (all_op (hinner _ rfl)) fun health => ?_
          refine Task.all_bind _ (op (.consensus .leader)) _ (all_op (hinner _ rfl))
            fun leader => ?_
          refine Task.all_bind _ (op (.load .seqActive)) _ (all_op (hinner _ rfl))
            fun active => ?_
          exact Task.all_mono hinner _ (react_inner health _)

theorem action_all (houter : ∀ o, Outer o → p o) (hinner : ∀ o, Inner o → p o)
    (hlock : p (.lock .action)) (hunlock : p (.unlock .action)) : (action cfg).All p := by
  refine Task.all_bind _ (op (.lock .action)) _ (all_op hlock) fun _ => ?_
  refine Task.all_bind _ (actionLocked cfg) _ (actionLocked_all houter hinner) fun result => ?_
  exact ⟨hunlock, fun _ => trivial⟩

theorem refreshSequencerActive_all (hinner : ∀ o, Inner o → p o) :
    refreshSequencerActive.All p :=
  Task.all_bindExcept _ _ _ (all_sequencer (hinner _ rfl)) fun _ =>
    ⟨hinner _ rfl, fun _ => trivial⟩

theorem pause_all (houter : ∀ o, Outer o → p o) (hlock : p (.lock .action))
    (hpause : p (.store .paused true)) (hunlock : p (.unlock .action)) : pause.All p := by
  refine Task.all_bind _ (op (.load .stopped)) _ (all_op (houter _ rfl)) fun stopped => ?_
  cases stopped with
  | true => trivial
  | false => exact ⟨hlock, fun _ => ⟨hpause, fun _ => ⟨hunlock, fun _ => trivial⟩⟩⟩

theorem resume_all (houter : ∀ o, Outer o → p o) (hinner : ∀ o, Inner o → p o)
    (hresume : p (.store .paused false)) (hnext : p .nextActionSeq)
    (hsend : ∀ seq, p (.sendAction seq)) : resume.All p := by
  refine Task.all_bind _ (op (.load .stopped)) _ (all_op (houter _ rfl)) fun stopped => ?_
  cases stopped with
  | true => trivial
  | false =>
      refine Task.all_bind _ (op (.sequencer .sequencerActive)) _ (all_op (hinner _ rfl))
        fun r => ?_
      cases r with
      | error err => trivial
      | ok active =>
          exact ⟨hinner _ rfl, fun _ => ⟨hresume, fun _ => ⟨hnext, fun seq =>
            ⟨hsend (seq : Nat), fun _ => trivial⟩⟩⟩⟩

theorem initializeStartupState_all (hinner : ∀ o, Inner o → p o)
    (hprevious : ∀ state, p (.setPrevious state)) : initializeStartupState.All p := by
  refine Task.all_bindExcept _ _ _ (refreshSequencerActive_all hinner) fun _ => ?_
  exact Task.all_bind _ _ _ (seedPreviousStateFromCurrent_all (hinner _ rfl) (hinner _ rfl)
    (hinner _ rfl) hprevious) fun _ => trivial

end

section
variable {State : Type}

/-- What a tick needs: one assertion that its own operations, its refresh and its
action all keep. -/
structure Ticking (L : Logic Shared State) (cfg : ConductorConfig) (F : State → Prop) :
    Prop where
  outer : ∀ o, Outer o → L.Holds F (op o) fun _ => F
  refresh : L.Holds F refreshSequencerActive fun _ => F
  action : L.Holds F (action cfg) fun _ => F

theorem Ticking.tick_holds {L : Logic Shared State} {cfg : ConductorConfig}
    {F : State → Prop} (T : Ticking L cfg F) (now : Nat) :
    L.Holds F (tick cfg now) fun _ => F := by
  have hupdate : ∀ health, L.Holds F (updateHealth cfg health) fun _ => F :=
    fun health => L.bind (T.outer _ rfl) fun _ => T.action
  have hend : ∀ result : Outcome, L.Holds F
      ((op (.metric .loopExecutionTime)).bind fun _ => .done result) fun _ => F :=
    fun result => L.bind (T.outer _ rfl) fun _ => L.done fun _ _ h => h
  refine L.bind (L.all T.outer stoppingOrStopped_outer) fun stopped => ?_
  cases stopped with
  | true => exact hend (.ok ())
  | false =>
      refine L.bind T.refresh fun refreshed => ?_
      cases refreshed with
      | ok u =>
          refine L.bind (L.all T.outer (checkHealthAt_outer now)) fun health => ?_
          refine L.bind (T.outer _ rfl) fun _ => ?_
          exact L.bind (hupdate health) hend
      | error err =>
          refine L.bind (T.outer _ rfl) fun _ => ?_
          exact L.bind (hupdate _) hend

theorem tick_all {cfg : ConductorConfig} {p : Op → Prop} (houter : ∀ o, Outer o → p o)
    (hinner : ∀ o, Inner o → p o) (hlock : p (.lock .action)) (hunlock : p (.unlock .action))
    (now : Nat) : (tick cfg now).All p := by
  have hticking : Ticking (Logic.ops p) cfg fun _ => True :=
    ⟨fun o ho => all_op (houter o ho), refreshSequencerActive_all hinner,
      action_all houter hinner hlock hunlock⟩
  exact hticking.tick_holds now

/-- What the entry points need: `F` when this thread does not hold the action
lock, `R` when it does, and `G` between reading the sequencer's state and
storing it. -/
structure Control (L : Logic Shared State) (cfg : ConductorConfig) (F R : State → Prop)
    (G : Except SequencerError Bool → State → Prop) : Prop where
  free : ∀ o, Routine o → L.Holds F (op o) fun _ => F
  held : ∀ o, Routine o → L.Holds R (op o) fun _ => R
  lock : L.Holds F (op (.lock .action)) fun _ => R
  unlock : L.Holds R (op (.unlock .action)) fun _ => F
  read : L.Holds F (op (.sequencer .sequencerActive)) G
  store : ∀ active, L.Holds (G (.ok active)) (op (.store .seqActive active)) fun _ => F
  fail : ∀ err s, G (.error err) s → F s
  critical : L.Holds R (actionLocked cfg) fun _ => R

namespace Control
variable {L : Logic Shared State} {cfg : ConductorConfig} {F R : State → Prop}
variable {G : Except SequencerError Bool → State → Prop} (C : Control L cfg F R G)
include C

theorem action_holds : L.Holds F (action cfg) fun _ => F := by
  refine L.bind C.lock fun _ => ?_
  refine L.bind C.critical fun result => ?_
  exact L.bind C.unlock fun _ => L.done fun _ _ h => h

theorem refreshSequencerActive_holds : L.Holds F refreshSequencerActive fun _ => F := by
  refine L.bind (t := op (.sequencer .sequencerActive)) C.read fun r => ?_
  cases r with
  | error err => exact L.done fun s _ h => C.fail err s h
  | ok active => exact L.bind (C.store active) fun _ => L.done fun _ _ h => h

theorem ticking : Ticking L cfg F where
  outer o ho := C.free o (outer_routine ho)
  refresh := C.refreshSequencerActive_holds
  action := C.action_holds

theorem tick_holds (now : Nat) : L.Holds F (tick cfg now) fun _ => F :=
  C.ticking.tick_holds now

theorem pause_holds : L.Holds F pause fun _ => F := by
  refine L.bind (C.free _ rfl) fun stopped => ?_
  cases stopped with
  | true => exact L.done fun _ _ h => h
  | false =>
      refine L.bind C.lock fun _ => ?_
      refine L.bind (C.held _ rfl) fun _ => ?_
      exact L.bind C.unlock fun _ => L.done fun _ _ h => h

theorem resume_holds : L.Holds F resume fun _ => F := by
  refine L.bind (t := op (.load .stopped)) (C.free _ rfl) fun stopped => ?_
  cases stopped with
  | true => exact L.done fun _ _ h => h
  | false =>
      refine L.bind (t := op (.sequencer .sequencerActive)) C.read fun r => ?_
      cases r with
      | error err => exact L.done fun s _ h => C.fail err s h
      | ok active =>
          refine L.bind (t := op (.store .seqActive active)) (C.store active) fun _ => ?_
          refine L.bind (t := op (.store .paused false)) (C.free _ rfl) fun _ => ?_
          refine L.bind (t := op .nextActionSeq) (C.free _ rfl) fun next => ?_
          exact L.bind (t := op (.sendAction next)) (C.free _ rfl) fun _ =>
            L.done fun _ _ h => h

theorem stop_holds : L.Holds F stop fun _ => F := by
  refine L.bind (C.free _ rfl) fun _ => ?_
  refine L.bind (C.free _ rfl) fun stopped => ?_
  cases stopped with
  | true => exact L.bind (C.free _ rfl) fun _ => L.done fun _ _ h => h
  | false =>
      refine L.bind (C.free _ rfl) fun _ => ?_
      refine L.bind C.lock fun _ => ?_
      refine L.bind (C.held _ rfl) fun r => ?_
      cases r with
      | error err =>
          refine L.bind C.unlock fun _ => ?_
          exact L.bind (C.free _ rfl) fun _ => L.done fun _ _ h => h
      | ok u =>
          refine L.bind (C.held _ rfl) fun _ => ?_
          refine L.bind (C.held _ rfl) fun _ => ?_
          refine L.bind C.unlock fun _ => ?_
          exact L.bind (C.free _ rfl) fun _ => L.done fun _ _ h => h

/-- Every entry point that runs after startup. -/
theorem body_holds (call : Call) (hcall : call ≠ .initializeStartupState) :
    L.Holds F (body cfg call) fun _ => F := by
  cases call with
  | tick now => exact C.tick_holds now
  | action => exact C.action_holds
  | pause => exact C.pause_holds
  | resume => exact C.resume_holds
  | stop => exact C.stop_holds
  | refreshSequencerActive => exact C.refreshSequencerActive_holds
  | initializeStartupState => exact absurd rfl hcall

end Control
end
end ConductorRs.Conductor

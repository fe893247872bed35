import ConductorRs.Metatheory.HandOffRetry

/-!
No start while a failed hand-off stands: the programs and their runs.

The invariant is that a standing hand-off is answered for by the remembered
state: `previous` was a leader or active. The actions that could start a
sequencer then find out that they must not. The last section leaves the policy:
a follower that becomes an unhealthy leader of a running node undoes its own
hand-off.
-/
namespace ConductorRs.Conductor.HandOffRetry
open Concurrency

section
variable {Tid : Type} [DecidableEq Tid] {i : Tid} {cfg : ConductorConfig}

/-- An action that found the sequencer active has sent its stop before it transfers. -/
def Ready (m : Record) : Prop := m.found.active = true → m.sent = true

theorem Ready.attempted {m : Record} (h : Ready m) (hm : m.leader = false ∨ m.noTarget = true) :
    Attempted m := by
  cases hactive : m.found.active with
  | true => exact .inl (h hactive)
  | false => exact .inr ⟨hactive, hm⟩

theorem sent_ready {m : Record} (h : m.sent = true) : Ready m := fun _ => h

/-- A command of a hand-off is on its way. -/
theorem send_triple {A : Record → Prop} {o : Op} (ho : Silent o)
    (hsent : ∀ standing (m : Record) r, (m.after standing o r).sent = true) :
    (logic cfg i).Holds (Told i A) (op o) fun _ => Told i fun m => m.sent = true :=
  silent_op told_stable ho fun _ _ r h hv hm => ⟨hv.1.trans h.1, by rw [hm]; exact hsent _ _ r⟩

theorem transferLeader_triple {A : Record → Prop} :
    (logic cfg i).Holds (Told i A) transferLeader fun _ => Told i fun m => m.sent = true :=
  (logic cfg i).bind (send_triple ⟨rfl, rfl⟩ fun _ _ _ => rfl) fun _ =>
    (logic cfg i).done fun _ _ h => h

theorem tryTargets_triple (targets : List ServerInfo) :
    (logic cfg i).Holds (Told i Ready) (tryTargets targets) fun transferred =>
      Told i fun m => Ready m ∧ (transferred = true → m.sent = true) := by
  induction targets with
  | nil => exact (logic cfg i).done fun _ _ h => ⟨h.1, h.2, nofun⟩
  | cons target rest ih =>
      refine (logic cfg i).bind (send_triple ⟨rfl, rfl⟩ fun _ _ _ => rfl) fun r => ?_
      have hdone : (logic cfg i).Holds (Told i fun m => m.sent = true) (.done true)
          fun transferred => Told i fun m => Ready m ∧ (transferred = true → m.sent = true) :=
        (logic cfg i).done fun _ _ h => ⟨h.1, sent_ready h.2, fun _ => h.2⟩
      cases r with
      | ok u => exact hdone
      | error err =>
          dsimp only
          split
          · exact hdone
          · exact (logic cfg i).pre (fun _ h => ⟨h.1, sent_ready h.2⟩) ih

/-- The voters a round-robin transfer has to choose from. -/
theorem membership_triple :
    (logic cfg i).Holds (Told i Ready) (op (.consensus .membership)) fun r =>
      Told i fun m => Ready m ∧ m.voters = votersOf r ∧
        m.noTarget = decide ((votersOf r).length ≤ 1) := by
  refine silent_op told_stable ⟨rfl, rfl⟩ fun s s' r h hv hm => ⟨hv.1.trans h.1, ?_⟩
  rw [hm]
  exact ⟨h.2, rfl, rfl⟩

theorem serverId_triple (voters : List ServerInfo) :
    (logic cfg i).Holds (Told i fun m => Ready m ∧ m.voters = voters)
      (op (.consensus .serverId)) fun id =>
        Told i fun m => Ready m ∧ m.noTarget = !voters.any fun server => server.id = id := by
  refine silent_op told_stable ⟨rfl, rfl⟩ fun s s' r h hv hm => ⟨hv.1.trans h.1, ?_⟩
  rw [hm]
  refine ⟨h.2.1, ?_⟩
  simp [Record.after, h.2.2]

theorem findIdx?_sorted_none {voters : List ServerInfo} {id : String}
    (h : (voters.mergeSort idLe).findIdx? (fun server => server.id = id) = none) :
    (!voters.any fun server => server.id = id) = true := by
  rw [List.findIdx?_eq_none_iff] at h
  rw [Bool.not_eq_true', List.any_eq_false]
  exact fun server hserver => by simpa using h server (List.mem_mergeSort.mpr hserver)

/-- What the record says of the voters after the answer to the request for them. -/
def Answered : Except ConductorError ClusterMembership → Record → Prop
  | .ok membership, m => m.voters = votersOf (.ok membership) ∧
      m.noTarget = decide ((votersOf (.ok membership)).length ≤ 1)
  | .error _, m => m.noTarget = true

theorem transferLeaderRoundRobin_triple :
    (logic cfg i).Holds (Told i Ready) transferLeaderRoundRobin fun _ => Told i Attempted := by
  have hnobody : ∀ {m : Record}, Ready m → m.noTarget = true → Attempted m :=
    fun hready hnone => hready.attempted (.inr hnone)
  refine (logic cfg i).bindExcept (R := fun r => Told i fun m => Ready m ∧ Answered r m) ?_
    (fun membership => ?_) fun err s _ h => ⟨h.1, hnobody h.2.1 h.2.2⟩
  · refine (logic cfg i).bind membership_triple fun r => (logic cfg i).done fun s _ h => ?_
    obtain ⟨hheld, hready, hvoters, hnone⟩ := h
    cases r with
    | ok membership => exact ⟨hheld, hready, hvoters, hnone⟩
    | error err => exact ⟨hheld, hready, hnone⟩
  · dsimp only
    split
    · next hfew =>
        refine (logic cfg i).done fun _ _ h => ⟨h.1, hnobody h.2.1 ?_⟩
        rw [h.2.2.2]
        exact decide_eq_true hfew
    · refine (logic cfg i).bindLift ((logic cfg i).pre
        (fun _ h => ⟨h.1, h.2.1, h.2.2.1⟩) (serverId_triple _)) fun id => ?_
      split
      · refine (logic cfg i).bindLift ((logic cfg i).pre (fun _ h => ⟨h.1, h.2.1⟩)
          (tryTargets_triple _)) fun transferred => ?_
        cases transferred with
        | true => exact (logic cfg i).done fun _ _ h => ⟨h.1, .inl (h.2.2 rfl)⟩
        | false => exact (logic cfg i).post transferLeader_triple fun _ _ h => ⟨h.1, .inl h.2⟩
      · next hmissing =>
          refine (logic cfg i).done fun _ _ h => ⟨h.1, hnobody h.2.1 ?_⟩
          rw [h.2.2]
          exact findIdx?_sorted_none (Option.eq_none_iff_forall_ne_some.mpr hmissing)

/-- A transfer is sent, or there was nothing to transfer or nobody to transfer to. -/
theorem transferLeaderInternal_triple :
    (logic cfg i).Holds (Told i Ready) (transferLeaderInternal cfg) fun _ => Told i Attempted := by
  have hread : (logic cfg i).Holds (Told i Ready) (op (.consensus .leader)) fun leader =>
      Told i fun m => Ready m ∧ (leader = false → m.leader = false) := by
    refine silent_op told_stable ⟨rfl, rfl⟩ fun s s' r h hv hm => ⟨hv.1.trans h.1, ?_⟩
    rw [hm]
    exact ⟨h.2, fun hr => hr⟩
  refine (logic cfg i).bind hread fun leader => ?_
  cases leader with
  | false =>
      refine (logic cfg i).pre (B := Told i Attempted)
        (fun s h => ⟨h.1, h.2.1.attempted (.inl (h.2.2 rfl))⟩) ?_
      exact (logic cfg i).bind report_failed_transfer fun _ => (logic cfg i).done fun _ _ h => h
  | true =>
      refine (logic cfg i).pre (B := Told i Ready) (fun s h => ⟨h.1, h.2.1⟩) ?_
      have hsucceeded : (logic cfg i).Holds (Told i Attempted) (do
          op (.consensus (.setLeaderForTests false))
          op (.metric (.leaderTransfer true))
          return .ok () : Task Shared Outcome) fun _ => Told i Attempted :=
        told_quiet ⟨⟨⟨rfl, rfl⟩, rfl⟩, fun _ => ⟨⟨⟨rfl, rfl⟩, rfl⟩, fun _ => trivial⟩⟩
      have hfailed : ∀ err, (logic cfg i).Holds (Told i Attempted) (do
          op (.metric (.leaderTransfer false))
          return .error err : Task Shared Outcome) fun _ => Told i Attempted :=
        fun err => (logic cfg i).bind report_failed_transfer fun _ =>
          (logic cfg i).done fun _ _ h => h
      dsimp only [Bool.not_true]
      split
      · contradiction
      · split
        · refine (logic cfg i).bind transferLeaderRoundRobin_triple fun transferred => ?_
          cases transferred with
          | ok u => exact hsucceeded
          | error err => exact hfailed err
        · refine (logic cfg i).bind (R := fun _ => Told i Attempted)
            ((logic cfg i).post transferLeader_triple fun _ _ h => ⟨h.1, .inl h.2⟩)
            fun transferred => ?_
          cases transferred with
          | ok u => exact hsucceeded
          | error err => exact hfailed err

theorem stopSequencer_silent : stopSequencer.All Silent :=
  stopSequencer_all ⟨rfl, rfl⟩ ⟨rfl, rfl⟩ fun _ => ⟨rfl, rfl⟩

theorem sent_steady : Steady fun m => m.sent = true := fun _ _ hf h => hf.sent h

theorem stopSequencer_triple {A : Record → Prop} :
    (logic cfg i).Holds (Told i A) stopSequencer fun _ => Told i fun m => m.sent = true := by
  refine (logic cfg i).bind (send_triple ⟨rfl, rfl⟩ fun _ _ _ => rfl) fun r => ?_
  refine told_silent sent_steady ?_
  exact (stopSequencer_silent).2 r

theorem preparing_neutral {o : Op} (h : Preparing o) : neutral o = true := by
  cases o with
  | consensus o | sequencer o => rfl
  | _ => cases h

theorem startSequencer_neutral : (startSequencer cfg).All fun o => neutral o = true := by
  refine Task.all_bind _ _ _ ?_ fun r => ?_
  · refine Task.all_bindExcept _ _ _ ⟨rfl, fun _ => trivial⟩ fun latest => ?_
    cases latest with
    | none => trivial
    | some payload =>
        refine Task.all_bindExcept _ _ _ trivial fun hash => ?_
        refine Task.all_bindExcept _ _ _ trivial fun number => ?_
        refine Task.all_bindExcept _ _ _ (all_sequencer rfl) fun head => ?_
        refine Task.all_bindExcept _ _ _ ?_ fun start => ?_
        · exact Task.all_mono (fun _ => preparing_neutral) _ (startHash_preparing _ _ _ _)
        · refine Task.all_bind _ _ _ (all_op rfl) fun r => ?_
          cases r with
          | ok u => exact ⟨rfl, fun _ => trivial⟩
          | error err =>
              dsimp only
              split
              · exact ⟨rfl, fun _ => trivial⟩
              · trivial
  · cases r <;> exact ⟨rfl, fun _ => trivial⟩

theorem settle_triple {A : Record → Prop} (status : State) (result : Outcome) :
    (logic cfg i).Holds
      (fun s => Told i A s ∧ (s.world.standing = true → status.leader = true))
      (settle status result) fun _ => Told i A := by
  cases result with
  | error err => exact (logic cfg i).done fun s _ h => h.1
  | ok u =>
      refine (logic cfg i).bind (update_previous status) fun changed => ?_
      cases changed with
      | true => exact told_quiet ⟨⟨⟨rfl, rfl⟩, rfl⟩, fun _ => trivial⟩
      | false => exact (logic cfg i).done fun s _ h => h

theorem settle_calm {A : Record → Prop} (status : State) (result : Outcome) :
    (logic cfg i).Holds (Calm i A) (settle status result) fun _ => Kept i := by
  refine (logic cfg i).post (Q := fun _ => Told i fun m => m.facing = false ∧ A m)
    ((logic cfg i).pre (fun s h => ⟨h.1, fun hst => ?_⟩) (settle_triple status result))
    fun _ _ h => h.unfaced
  rw [h.2] at hst
  cases hst

theorem settle_attempted {status : State} (h : status.leader = true) (result : Outcome) :
    (logic cfg i).Holds (Told i Attempted) (settle status result) fun _ => Kept i :=
  (logic cfg i).post ((logic cfg i).pre (fun _ hs => ⟨hs, fun _ => h⟩)
    (settle_triple status result)) fun _ _ h => h.kept

theorem inactive_steady : Steady fun m => m.found.active = false := by
  intro m m' hf h
  rw [hf.found]
  exact h

theorem any_steady : Steady fun _ => True := fun _ _ _ _ => trivial

/-- An inactive leader that is unhealthy: a new leader may start its sequencer, any other
transfers. -/
theorem react_inactive (health : Health) :
    (logic cfg i).Holds (Found i ⟨true, false, false⟩) (react cfg health ⟨true, false, false⟩)
      fun _ => Kept i := by
  have htransfer : (logic cfg i).Holds (Told i Ready)
      ((transferLeaderInternal cfg).bind (settle ⟨true, false, false⟩)) fun _ => Kept i :=
    (logic cfg i).bind transferLeaderInternal_triple fun r => settle_attempted rfl r
  have hready : ∀ {m : Record}, m.found.active = false → Ready m := by
    intro m hm hactive
    rw [hm] at hactive
    cases hactive
  refine (logic cfg i).bind (copy_previous _) fun prev => ?_
  split
  · next hnew =>
      simp only [Bool.and_eq_true, Bool.not_eq_true'] at hnew
      refine (logic cfg i).pre (B := Calm i fun m => m.found.active = false) (fun s h => ?_) ?_
      · refine calm_of_not ⟨h.1.1.1, h.1.1.2.1, by rw [h.1.1.2.2]⟩ h.2.2 ?_
        simp [hnew.1.1, hnew.1.2]
      · refine (logic cfg i).bind (calm_neutral inactive_steady startSequencer_neutral)
          fun r => ?_
        cases r with
        | ok u => exact settle_calm _ _
        | error err =>
            exact (logic cfg i).pre (fun s h => ⟨h.1.1, hready h.1.2.2⟩) htransfer
  · refine (logic cfg i).pre (fun s h => ⟨h.1.1.1, hready ?_⟩) htransfer
    rw [h.1.1.2.2]

/-- An active leader that is unhealthy: it waits for a recovery, or stops and transfers. -/
theorem react_active (health : Health) :
    (logic cfg i).Holds (Found i ⟨true, false, true⟩) (react cfg health ⟨true, false, true⟩)
      fun _ => Kept i := by
  have hwait : (logic cfg i).Holds (Found i ⟨true, false, true⟩)
      (shouldWaitForHealthRecovery health) fun wait s => Found i ⟨true, false, true⟩ s ∧
        (wait = true → s.mem.previous = ⟨true, false, false⟩) := by
    refine (logic cfg i).bind (copy_previous _) fun prev =>
      (logic cfg i).done fun s _ h => ⟨h.1, fun hw => h.2.1.trans ?_⟩
    obtain ⟨leader, healthy, active⟩ := prev
    simp only [Bool.and_eq_true, Bool.not_eq_true'] at hw
    rw [hw.1.1.1, hw.1.1.2, hw.1.2]
  refine (logic cfg i).bind hwait fun wait => ?_
  cases wait with
  | true =>
      refine (logic cfg i).done fun s _ h => ⟨h.1.1.1, fun _ => .inr ⟨?_, h.2 rfl⟩⟩
      rw [h.1.1.2.2]
  | false =>
      refine (logic cfg i).pre (B := Told i fun _ => True) (fun s h => ⟨h.1.1.1, trivial⟩) ?_
      refine (logic cfg i).bind ?_ fun r => settle_attempted rfl r
      refine (logic cfg i).bind stopSequencer_triple fun stopped => ?_
      refine (logic cfg i).bind ((logic cfg i).pre (fun _ h => ⟨h.1, sent_ready h.2⟩)
        transferLeaderInternal_triple) fun transferred => ?_
      cases stopped <;> cases transferred <;> exact (logic cfg i).done fun s _ h => h

theorem react_triple (health : Health) (status : State) :
    (logic cfg i).Holds (Found i status) (react cfg health status) fun _ => Kept i := by
  match status with
  | ⟨false, healthy, true⟩ =>
      refine (logic cfg i).pre (fun s h => h.calm (by simp)) ?_
      exact (logic cfg i).bind (calm_neutral any_steady
        (Task.all_mono (fun _ ho => ho.1) _ stopSequencer_silent)) fun r => settle_calm _ r
  | ⟨true, true, false⟩ =>
      refine (logic cfg i).pre (fun s h => h.calm (by simp)) ?_
      exact (logic cfg i).bind (calm_neutral any_steady startSequencer_neutral) fun r =>
        settle_calm _ r
  | ⟨true, false, false⟩ => exact react_inactive health
  | ⟨true, false, true⟩ => exact react_active health
  | ⟨true, true, true⟩ =>
      refine (logic cfg i).pre (fun s h => h.calm (by simp)) ?_
      exact settle_calm ⟨true, true, true⟩ (.ok ())
  | ⟨false, healthy, false⟩ =>
      refine (logic cfg i).pre (fun s h => h.calm (by simp)) ?_
      exact settle_calm ⟨false, healthy, false⟩ (.ok ())

theorem actionLocked_triple :
    (logic cfg i).Holds (Kept i) (actionLocked cfg) fun _ => Kept i := by
  refine (logic cfg i).bind (kept_quiet (all_op ⟨⟨rfl, rfl⟩, rfl⟩)) fun paused => ?_
  cases paused with
  | true => exact (logic cfg i).done fun s _ h => h
  | false =>
      refine (logic cfg i).bind (kept_quiet (Task.all_mono (fun _ => routine_quiet) _
        stoppingOrStopped_routine)) fun stopped => ?_
      cases stopped with
      | true => exact (logic cfg i).done fun s _ h => h
      | false =>
          refine (logic cfg i).bind clone_health fun health => ?_
          refine (logic cfg i).bind (read_leader health.isHealthy) fun leader => ?_
          exact (logic cfg i).bind (load_active health.isHealthy leader) fun active =>
            react_triple health ⟨leader, health.isHealthy, active⟩

theorem control : Control (logic cfg i) cfg (Free i) (Kept i) fun _ => Free i where
  free _ ho := free_silent (all_op (routine_quiet ho).1)
  held _ ho := kept_quiet (all_op (routine_quiet ho))
  lock := lock_action
  unlock := unlock_action
  read := free_silent (all_op ⟨rfl, rfl⟩)
  store _ := free_silent (all_op ⟨rfl, rfl⟩)
  fail _ _ h := h
  critical := actionLocked_triple

theorem verified (cfg : ConductorConfig) :
    (machine cfg (world : World Tid (Journal Tid) Oracle Empty)).Verified policy outline := by
  refine Machine.verified_of_triples coherent (fun _ _ _ _ => rfl) ?_
    (fun _ i call hcall => control.body_holds call hcall) fun s e => e.elim
  intro s i call s' hi hidle he _
  cases he
  exact ⟨grants_of_sameView hi ⟨rfl, rfl, rfl, fun _ _ => rfl⟩, hidle⟩

/-- No hand-off has failed yet, and nobody holds the action lock. -/
def Initial (s : Sys Tid) : Prop := holder s = none ∧ s.world.standing = false

theorem initial_conforms (cfg : ConductorConfig) {s : Sys Tid} (h : Initial s) :
    (machine cfg world).Conforms policy outline (Config.quiet s) := by
  refine Machine.conforms_quiet s (fun hst => ?_) fun i hi => ?_
  · rw [h.2] at hst
    cases hst
  · rw [h.1] at hi
    cases hi

/-- In every run under the policy, no thread drives a start while a failed hand-off
stands, and what it commands then is a stop or a transfer. An action that has found a
standing hand-off has tried again by its end. -/
theorem no_start_while_handOff_stands (cfg : ConductorConfig) (s : Sys Tid) (h : Initial s)
    (c : Config Tid Shared (Sys Tid) Call Outcome)
    (hr : (machine cfg world).Reaches policy (Config.quiet s) c) (i : Tid) (o : Op)
    (hop : c.pending i = some o) :
    (drivesStart o = true → c.state.world.standing = false) ∧
      (c.state.world.standing = true → command o = true → handsOff o = true) ∧
      (o = .unlock .action → Retried i c.state) := by
  obtain ⟨hstart, hretried⟩ :=
    ((verified cfg).reaches (initial_conforms cfg h) hr).check coherent hop
  refine ⟨hstart, fun hstanding hcommand => ?_, hretried⟩
  cases hands : handsOff o with
  | true => rfl
  | false =>
      have hdrives : drivesStart o = true := by
        unfold command at hcommand
        split at hcommand <;> first | rfl | cases hands | cases hcommand
      rw [hstart hdrives] at hstanding
      cases hstanding

end

section
def head : BlockInfo := ⟨Hash.zero, 1⟩

/-- A node that runs, has no peers and accepts a stop, in a cluster that refuses
the transfer. -/
def peerless : Oracle
  | .consensus .latestUnsafePayload => .ok (some (.ofBlock head))
  | .sequencer .latestUnsafeBlock => .ok head
  | .sequencer .sequencerActive => .ok true
  | .sequencer .stopSequencer => .ok Hash.zero
  | .sequencer .syncStatus => .ok ⟨⟨none, 1, 0⟩, ⟨none, 1, 0⟩⟩
  | .sequencer .peerStats => .ok ⟨0⟩
  | o => Oracle.refuse o

def fresh (leader : Bool) : Sys Bool := ⟨Memory.new .default leader, .empty⟩

instance (s : Sys Bool) (i : Bool) (call : Call) : Decidable (policy.call s i call) :=
  inferInstanceAs (Decidable (call ≠ .initializeStartupState))

instance (s : Sys Bool) (i : Bool) (o : Op) (x : Oracle) : Decidable (policy.step s i o x) := by
  unfold policy
  dsimp only
  split <;> infer_instance

/-- The node has been stopped and has its peers back. -/
def recovered : Oracle
  | .sequencer .sequencerActive => .ok false
  | .sequencer .peerStats => .ok ⟨10⟩
  | o => peerless o

/-- A leader's hand-off fails in a tick, and an action comes back to it. -/
def retriedHandOff : List (Event Bool Call Oracle Empty) :=
  [.call false (.tick 0)] ++ List.replicate 24 (.step false peerless) ++ [.ret false] ++
    [.call true .action] ++ List.replicate 11 (.step true peerless)

/-- The action ends, and the next tick finds the node healthy. -/
def recovery : List (Event Bool Call Oracle Empty) :=
  [.step true peerless, .ret true, .call false (.tick 0)] ++
    List.replicate 17 (.step false recovered)

def isUnlock : Op → Bool
  | .unlock .action => true
  | _ => false

/-- The action of the thread `true` is at its end and faces a standing hand-off. -/
def facesHandOff (c : Config Bool Shared (Sys Bool) Call Outcome) : Bool :=
  (c.pending true).any isUnlock && (c.state.world.mine true).facing && c.state.world.standing

theorem handOff_retried_then_start :
    ∃ c c', (machine .default world).Reaches policy (Config.quiet (fresh true)) c ∧
      facesHandOff c = true ∧ Retried true c.state ∧
      (machine .default world).Reaches policy c c' ∧ (c'.pending false).any Op.isStart = true ∧
      c'.state.world.standing = false := by
  have hinit : Initial (fresh true) := ⟨rfl, rfl⟩
  have hrun : ∃ c, (machine .default world).Reaches policy (Config.quiet (fresh true)) c ∧
      (facesHandOff c && ((machine .default world).replay (fun c e => decide (policy.Permits c e))
        c recovery).any fun c' => (c'.pending false).any Op.isStart) = true :=
    Machine.reaches_of_permitted retriedHandOff (by decide +kernel)
  obtain ⟨c, hr, hc⟩ := hrun
  rw [Bool.and_eq_true] at hc
  obtain ⟨c', hr', hstart⟩ := Machine.reaches_of_permitted recovery hc.2
  obtain ⟨o, ho, hfirst⟩ := (Option.any_eq_true _ _).mp hstart
  have hunlock : c.pending true = some (.unlock .action) := by
    have hfaces := hc.1
    simp only [facesHandOff, Bool.and_eq_true] at hfaces
    obtain ⟨o, ho, hunlock⟩ := (Option.any_eq_true _ _).mp hfaces.1.1
    rw [ho]
    unfold isUnlock at hunlock
    split at hunlock
    · rfl
    · cases hunlock
  have hdrives : drivesStart o = true := by
    unfold Op.isStart at hfirst
    split at hfirst
    · rfl
    · cases hfirst
  exact ⟨c, c', hr, hc.1,
    (no_start_while_handOff_stands _ _ hinit c hr true _ hunlock).2.2 rfl, hr', hstart,
    (no_start_while_handOff_stands _ _ hinit c' (hr.trans hr') false o ho).1 hdrives⟩

/-- A tick hands leadership away and fails; the action after it starts the
sequencer again. -/
def undoneHandOff : List (Event Bool Call Oracle Empty) :=
  [.call false (.tick 0)] ++ List.replicate 24 (.step false peerless) ++ [.ret false] ++
    [.call true .action] ++ List.replicate 10 (.step true peerless)

theorem start_undoes_handOff :
    ∃ c, (machine .default world).Reaches .any (Config.quiet (fresh false)) c ∧
      Initial (fresh false) ∧ (c.pending true).any Op.isStart = true ∧
      c.state.world.standing = true := by
  have hrun : ∃ c, (machine .default world).Reaches .any (Config.quiet (fresh false)) c ∧
      ((c.pending true).any Op.isStart && c.state.world.standing) = true :=
    Machine.reaches_of_permitted undoneHandOff (by decide +kernel)
  obtain ⟨c, hr, hbad⟩ := hrun
  simp only [Bool.and_eq_true] at hbad
  exact ⟨c, hr, ⟨rfl, rfl⟩, hbad.1, hbad.2⟩

end
end ConductorRs.Conductor.HandOffRetry

import ConductorRs.Metatheory.Control

/-!
What follows a failed hand-off.

The journal of a run keeps, for each thread, the health and leadership its
action has read, what that action found, and what it has sent. A hand-off stands once
a stop has succeeded and the transfer after it has failed, and as long as every later
action finds an unhealthy leader. Nothing in the code reads the journal. A failed action
does not overwrite `previous`, so a hand-off that began from a remembered inactive
follower is undone by the next action; the results here are about hand-offs that did
not.
-/
namespace ConductorRs.Conductor.HandOffRetry
open Concurrency

/-- One thread: what its action has read, whether it faces a hand-off that stands,
whether it has sent a stop or a transfer, and whether a round-robin transfer had nobody
to go to. -/
structure Record where
  healthy : Bool
  leader : Bool
  found : State
  stopped : Bool
  facing : Bool
  sent : Bool
  voters : List ServerInfo
  noTarget : Bool

def Record.empty : Record := ⟨false, false, ⟨false, false, false⟩, false, false, false, [], false⟩

structure Journal (Tid : Type) where
  mine : Tid → Record
  standing : Bool

def Journal.empty {Tid : Type} : Journal Tid := ⟨fun _ => .empty, false⟩

/-- The transfer that has just failed followed a stop that succeeded, in an
action that found an unhealthy active leader. -/
def Record.handOffFailed (m : Record) : Bool :=
  m.leader && m.stopped && m.found = ⟨true, false, true⟩

def stopSucceeded : Except SequencerError Hash → Bool
  | .ok _ => true
  | .error err => err.isSequencerAlreadyStopped

def votersOf : Except ConsensusError ClusterMembership → List ServerInfo
  | .ok membership => membership.servers.filter fun server => server.suffrage = .voter
  | .error _ => []

def Record.after (standing : Bool) (m : Record) : (op : Op) → op.Reply → Record
  | .lock .action, _ => { m with facing := false }
  | .cloneHealthy, health => { m with healthy := health.isHealthy }
  | .consensus .leader, leader => { m with leader }
  | .load .seqActive, active =>
      { m with
        found := ⟨m.leader, m.healthy, active⟩
        stopped := false
        facing := standing && (m.leader && !m.healthy)
        sent := false
        noTarget := false }
  | .sequencer .stopSequencer, r => { m with stopped := stopSucceeded r, sent := true }
  | .consensus .transferLeader, _ => { m with sent := true }
  | .consensus (.transferLeaderTo _ _), _ => { m with sent := true }
  | .consensus .membership, r =>
      { m with voters := votersOf r, noTarget := decide ((votersOf r).length ≤ 1) }
  | .consensus .serverId, id =>
      { m with noTarget := !m.voters.any fun server => server.id = id }
  | _, _ => m

def standingAfter (standing : Bool) (m : Record) : Op → Bool
  | .load .seqActive => standing && (m.leader && !m.healthy)
  | .metric (.leaderTransfer false) => standing || m.handOffFailed
  | _ => standing

section
variable {Tid : Type}

def Journal.after [DecidableEq Tid] (w : Journal Tid) (i : Tid) (o : Op) (r : o.Reply) :
    Journal Tid where
  mine := Function.update w.mine i ((w.mine i).after w.standing o r)
  standing := standingAfter w.standing (w.mine i) o

def world [DecidableEq Tid] : World Tid (Journal Tid) Oracle Empty where
  begin w _ _ := w
  answer _ _ op x := some (x op)
  after := Journal.after
  env _ e := e.elim

abbrev Sys (Tid : Type) := System Tid (Journal Tid)

/-- A hand-off fails only where the remembered state was a leader or active.
Startup is over. -/
def policy : Policy Tid Shared (Sys Tid) Call Oracle Empty where
  call _ _ call := call ≠ .initializeStartupState
  step s i op _ :=
    match op with
    | .metric (.leaderTransfer false) =>
        (s.world.mine i).handOffFailed = true →
          s.mem.previous.leader = true ∨ s.mem.previous.active = true
    | _ => True
  env _ _ := True

def holder (s : Sys Tid) : Option Tid := s.mem.owner .action

/-- The start command and the repair of the node's head that comes before it. -/
def drivesStart : Op → Bool
  | .sequencer (.startSequencer _) | .sequencer (.postUnsafePayload _) => true
  | _ => false

/-- The commands of a hand-off. -/
def handsOff : Op → Bool
  | .sequencer .stopSequencer | .consensus .transferLeader
  | .consensus (.transferLeaderTo _ _) => true
  | _ => false

/-- What an action sends to its node and to the cluster that is not a question. -/
def command : Op → Bool
  | .sequencer (.startSequencer _) | .sequencer (.postUnsafePayload _) => true
  | .sequencer .stopSequencer | .consensus .transferLeader
  | .consensus (.transferLeaderTo _ _) => true
  | _ => false

/-- The action has sent a stop or a transfer. With the sequencer found inactive it had
only the transfer to send, and may have found that the node leads no longer or that
there is nobody to transfer to. -/
def Attempted (m : Record) : Prop :=
  m.sent = true ∨ (m.found.active = false ∧ (m.leader = false ∨ m.noTarget = true))

/-- An action that faced a standing hand-off has tried again, or it found the sequencer
active and waits for the recovery of a leader it remembers unhealthy and inactive. -/
def Retried (i : Tid) (s : Sys Tid) : Prop :=
  (s.world.mine i).facing = true → Attempted (s.world.mine i) ∨
    ((s.world.mine i).found.active = true ∧ s.mem.previous = ⟨true, false, false⟩)

def outline : Outline Tid Shared (Sys Tid) where
  inv s := s.world.standing = true →
    s.mem.previous.leader = true ∨ s.mem.previous.active = true
  rely i s s' :=
    (holder s' = some i ↔ holder s = some i) ∧ s'.world.mine i = s.world.mine i ∧
    (holder s = some i →
      s'.world.standing = s.world.standing ∧ s'.mem.previous = s.mem.previous)
  idle i s := holder s ≠ some i
  check i s op :=
    (drivesStart op = true → s.world.standing = false) ∧ (op = .unlock .action → Retried i s)

theorem coherent : (outline : Outline Tid Shared (Sys Tid)).Coherent where
  refl i s := ⟨Iff.rfl, rfl, fun _ => ⟨rfl, rfl⟩⟩
  trans i {s s' s''} h h' := by
    obtain ⟨hh, hm, hst⟩ := h
    obtain ⟨hh', hm', hst'⟩ := h'
    refine ⟨hh'.trans hh, hm'.trans hm, fun hi => ?_⟩
    obtain ⟨h1, h2⟩ := hst hi
    obtain ⟨h1', h2'⟩ := hst' (hh.mpr hi)
    exact ⟨h1'.trans h1, h2'.trans h2⟩
  idle i {s s'} h hr _ := fun hi => h (hr.1.mp hi)

def Free (i : Tid) (s : Sys Tid) : Prop := holder s ≠ some i

def Held (i : Tid) (s : Sys Tid) : Prop := holder s = some i

/-- This thread holds the lock and its record satisfies `A`. -/
def Told (i : Tid) (A : Record → Prop) (s : Sys Tid) : Prop := Held i s ∧ A (s.world.mine i)

/-- No failed hand-off stands and this action faces none. -/
def Calm (i : Tid) (A : Record → Prop) (s : Sys Tid) : Prop :=
  Told i (fun m => m.facing = false ∧ A m) s ∧ s.world.standing = false

/-- The lock can be given back. -/
def Kept (i : Tid) (s : Sys Tid) : Prop := Held i s ∧ Retried i s

variable {i : Tid} {A : Record → Prop}

theorem free_stable : outline.Stable i (Free i) := fun _ _ h hr hi => coherent.idle i h hr hi

theorem told_stable : outline.Stable i (Told i A) := by
  intro s s' h hr _
  exact ⟨hr.1.mpr h.1, hr.2.1 ▸ h.2⟩

theorem calm_stable : outline.Stable i (Calm i A) :=
  fun s s' h hr hi => ⟨told_stable s s' h.1 hr hi, (hr.2.2 h.1.1).1.trans h.2⟩

theorem kept_stable : outline.Stable i (Kept i) := by
  intro s s' h hr _
  refine ⟨hr.1.mpr h.1, ?_⟩
  rw [Retried, hr.2.1, (hr.2.2 h.1).2]
  exact h.2

theorem Told.kept {s : Sys Tid} (h : Told i Attempted s) : Kept i s := ⟨h.1, fun _ => .inl h.2⟩

theorem Told.unfaced {s : Sys Tid} (h : Told i (fun m => m.facing = false ∧ A m) s) :
    Kept i s := by
  refine ⟨h.1, fun hf => ?_⟩
  rw [h.2.1] at hf
  cases hf

/-- What a step of thread `i` leaves as it was, unless it reads the cached flag in
an action, settles an action or reports a failed transfer. -/
def SameView (i : Tid) (s s' : Sys Tid) : Prop :=
  holder s' = holder s ∧ s'.mem.previous = s.mem.previous ∧
    s'.world.standing = s.world.standing ∧ ∀ j, j ≠ i → s'.world.mine j = s.world.mine j

theorem grants_of_sameView {s s' : Sys Tid} (hi : outline.inv s) (h : SameView i s s') :
    outline.Grants i s s' := by
  obtain ⟨hh, hp, hs, hj⟩ := h
  refine ⟨?_, fun j hne => ⟨?_, hj j hne, fun _ => ⟨hs, hp⟩⟩⟩
  · simpa only [outline, hp, hs] using hi
  · rw [hh]

/-- A step of the holder that other threads do not notice. -/
theorem grants_of_holder {s s' : Sys Tid} (hheld : Held i s) (hi : outline.inv s')
    (hholder : holder s' = holder s) (hothers : ∀ j, j ≠ i → s'.world.mine j = s.world.mine j) :
    outline.Grants i s s' := by
  refine ⟨hi, fun j hj => ⟨by rw [hholder], hothers j hj, fun hj' => ?_⟩⟩
  rw [show holder s = some i from hheld] at hj'
  exact absurd (Option.some.inj hj').symm hj

theorem free_view {s s' : Sys Tid} (h : Free i s) (hv : SameView i s s') : Free i s' := by
  rw [Free, hv.1]
  exact h

theorem calm_of_not {B : Prop} {s : Sys Tid}
    (hs : Told i (fun m => m.facing = s.world.standing ∧ A m) s)
    (h : s.world.standing = true → B) (hB : ¬B) : Calm i A s := by
  have hst : s.world.standing = false := by
    cases hst : s.world.standing with
    | false => rfl
    | true => exact absurd (h hst) hB
  exact ⟨⟨hs.1, hs.2.1.trans hst, hs.2.2⟩, hst⟩

/-- If a hand-off stands, the action under way faces it, and it has found an unhealthy
leader. -/
def Found (i : Tid) (status : State) (s : Sys Tid) : Prop :=
  Told i (fun m => m.facing = s.world.standing ∧ m.found = status) s ∧
    (s.world.standing = true → status.leader = true ∧ status.healthy = false)

theorem found_stable (status : State) : outline.Stable i (Found i status) := by
  intro s s' h hr hi
  obtain ⟨hst, _⟩ := hr.2.2 h.1.1
  refine ⟨⟨hr.1.mpr h.1.1, ?_⟩, ?_⟩
  · rw [hr.2.1, hst]
    exact h.1.2
  · rw [hst]
    exact h.2

theorem Found.calm {status : State} {s : Sys Tid} (h : Found i status s)
    (hs : ¬(status.leader = true ∧ status.healthy = false)) : Calm i (fun _ => True) s :=
  calm_of_not ⟨h.1.1, h.1.2.1, trivial⟩ h.2 hs

/-- The operations whose steps keep the view. -/
def neutral : Op → Bool
  | .lock .action | .unlock .action | .load .seqActive => false
  | .setPrevious _ | .updatePrevious _ | .metric (.leaderTransfer false) => false
  | _ => true

/-- The operations that the record takes notice of. -/
def noted : Op → Bool
  | .lock .action | .cloneHealthy | .load .seqActive | .sequencer .stopSequencer => true
  | .consensus .leader | .consensus .transferLeader | .consensus (.transferLeaderTo _ _)
  | .consensus .membership | .consensus .serverId => true
  | _ => false

theorem after_unnoted {standing : Bool} {m : Record} {o : Op} (r : o.Reply)
    (ho : noted o = false) : m.after standing o r = m := by
  cases o with
  | lock l => cases l <;> first | rfl | cases ho
  | load flag => cases flag <;> first | rfl | cases ho
  | consensus o => cases o <;> first | rfl | cases ho
  | sequencer o => cases o <;> first | rfl | cases ho
  | cloneHealthy => cases ho
  | _ => rfl

/-- A neutral step leaves what the action found, and what was sent stays sent. -/
structure Follows (m m' : Record) : Prop where
  facing : m'.facing = m.facing
  found : m'.found = m.found
  sent : m.sent = true → m'.sent = true

theorem after_follows {standing : Bool} {m : Record} {o : Op} (r : o.Reply)
    (ho : neutral o = true) : Follows m (m.after standing o r) := by
  cases o with
  | lock l => cases l <;> first | exact ⟨rfl, rfl, id⟩ | cases ho
  | load flag => cases flag <;> first | exact ⟨rfl, rfl, id⟩ | cases ho
  | consensus o => cases o <;> first | exact ⟨rfl, rfl, id⟩ | exact ⟨rfl, rfl, fun _ => rfl⟩
  | sequencer o => cases o <;> first | exact ⟨rfl, rfl, id⟩ | exact ⟨rfl, rfl, fun _ => rfl⟩
  | _ => exact ⟨rfl, rfl, id⟩

theorem standingAfter_neutral {standing : Bool} {m : Record} {o : Op} (ho : neutral o = true) :
    standingAfter standing m o = standing := by
  cases o with
  | load flag => cases flag <;> first | rfl | cases ho
  | metric metric =>
      cases metric with
      | leaderTransfer success => cases success <;> first | rfl | cases ho
      | _ => rfl
  | _ => rfl

variable [DecidableEq Tid] {cfg : ConductorConfig} {α : Type}

theorem mine_after (w : Journal Tid) (o : Op) (r : o.Reply) :
    (w.after i o r).mine i = (w.mine i).after w.standing o r := Function.update_self ..

theorem others_after (w : Journal Tid) (o : Op) (r : o.Reply) {j : Tid} (hj : j ≠ i) :
    (w.after i o r).mine j = w.mine j := Function.update_of_ne hj ..

theorem perform_neutral {s s' : Sys Tid} {o : Op} {x : Oracle} {r : o.Reply}
    (ho : neutral o = true) (h : world.perform s i o x = some (r, s')) :
    SameView i s s' ∧ s'.world.mine i = (s.world.mine i).after s.world.standing o r := by
  have hstanding : (s.world.after i o r).standing = s.world.standing := standingAfter_neutral ho
  by_cases he : o.external = true
  · obtain ⟨_, rfl⟩ := World.perform_external he h
    exact ⟨⟨rfl, rfl, hstanding, fun _ => others_after _ o r⟩, mine_after _ o r⟩
  · obtain ⟨m, hm, rfl⟩ := World.perform_memory (by simpa using he) h
    refine ⟨⟨Memory.perform_owner hm ?_ ?_, Memory.perform_previous hm ?_ ?_, hstanding,
      fun _ => others_after _ o r⟩, mine_after _ o r⟩
    · rintro rfl
      cases ho
    · rintro rfl
      cases ho
    · rintro state rfl
      cases ho
    · rintro state rfl
      cases ho

abbrev logic (cfg : ConductorConfig) (i : Tid) : Logic Shared (Sys Tid) :=
  (machine cfg world).logic policy outline i

theorem neutral_op {o : Op} {A : Sys Tid → Prop} {Q : o.Reply → Sys Tid → Prop}
    (hA : outline.Stable i A) (ho : neutral o = true)
    (hc : drivesStart o = true → ∀ s, A s → s.world.standing = false)
    (h : ∀ s s' r, A s → SameView i s s' →
      s'.world.mine i = (s.world.mine i).after s.world.standing o r → Q r s') :
    (logic cfg i).Holds A (op o) Q := by
  refine Machine.Triple.call hA fun s hi ha =>
    ⟨⟨fun hd => hc hd s ha, ?_⟩, fun x r s' hp _ => ?_⟩
  · rintro rfl
    cases ho
  · obtain ⟨hview, hmine⟩ := perform_neutral ho hp
    exact ⟨grants_of_sameView hi hview, h s s' r ha hview hmine⟩

/-- Neutral and no part of a start. -/
def Silent (o : Op) : Prop := neutral o = true ∧ drivesStart o = false

theorem silent_op {o : Op} {A : Sys Tid → Prop} {Q : o.Reply → Sys Tid → Prop}
    (hA : outline.Stable i A) (ho : Silent o)
    (h : ∀ s s' r, A s → SameView i s s' →
      s'.world.mine i = (s.world.mine i).after s.world.standing o r → Q r s') :
    (logic cfg i).Holds A (op o) Q := by
  refine neutral_op hA ho.1 (fun hd => ?_) h
  rw [ho.2] at hd
  cases hd

theorem free_silent {t : Task Shared α} (ht : t.All Silent) :
    (logic cfg i).Holds (Free i) t fun _ => Free i :=
  (logic cfg i).all (fun _ ho => silent_op free_stable ho fun _ _ _ h hv _ => free_view h hv) ht

/-- An operation of which the record takes no notice. -/
def Quiet (o : Op) : Prop := Silent o ∧ noted o = false

theorem told_quiet {t : Task Shared α} (ht : t.All Quiet) :
    (logic cfg i).Holds (Told i A) t fun _ => Told i A := by
  refine (logic cfg i).all (fun o ho => silent_op told_stable ho.1 fun s s' r h hv hm => ?_) ht
  rw [after_unnoted r ho.2] at hm
  exact ⟨hv.1.trans h.1, hm ▸ h.2⟩

theorem kept_quiet {t : Task Shared α} (ht : t.All Quiet) :
    (logic cfg i).Holds (Kept i) t fun _ => Kept i := by
  refine (logic cfg i).all (fun o ho => silent_op kept_stable ho.1 fun s s' r h hv hm => ?_) ht
  rw [after_unnoted r ho.2] at hm
  refine ⟨hv.1.trans h.1, ?_⟩
  rw [Retried, hm, hv.2.1]
  exact h.2

/-- An assertion that neutral steps keep. -/
def Steady (A : Record → Prop) : Prop := ∀ m m', Follows m m' → A m → A m'

theorem told_silent (hA : Steady A) {t : Task Shared α} (ht : t.All Silent) :
    (logic cfg i).Holds (Told i A) t fun _ => Told i A := by
  refine (logic cfg i).all (fun o ho => silent_op told_stable ho fun s s' r h hv hm => ?_) ht
  exact ⟨hv.1.trans h.1, hA _ _ (hm ▸ after_follows r ho.1) h.2⟩

/-- While no hand-off stands, a start may be driven. -/
theorem calm_neutral (hA : Steady A) {t : Task Shared α} (ht : t.All fun o => neutral o = true) :
    (logic cfg i).Holds (Calm i A) t fun _ => Calm i A := by
  refine (logic cfg i).all (fun o ho => neutral_op calm_stable ho (fun _ _ h => h.2)
    fun s s' r h hv hm => ?_) ht
  have hf : Follows (s.world.mine i) (s'.world.mine i) := hm ▸ after_follows r ho
  exact ⟨⟨hv.1.trans h.1.1, hf.facing.trans h.1.2.1, hA _ _ hf h.1.2.2⟩, hv.2.2.1.trans h.2⟩

theorem routine_quiet {o : Op} (h : Routine o) : Quiet o := by
  cases o with
  | load flag => cases flag <;> first | exact ⟨⟨rfl, rfl⟩, rfl⟩ | cases h
  | lock l | unlock l => cases l <;> first | exact ⟨⟨rfl, rfl⟩, rfl⟩ | cases h
  | consensus o => cases o <;> first | exact ⟨⟨rfl, rfl⟩, rfl⟩ | cases h
  | sequencer o => cases o <;> first | exact ⟨⟨rfl, rfl⟩, rfl⟩ | cases h
  | metric m => cases m <;> first | exact ⟨⟨rfl, rfl⟩, rfl⟩ | cases h
  | cloneHealthy | setPrevious state | updatePrevious state => cases h
  | _ => exact ⟨⟨rfl, rfl⟩, rfl⟩

theorem lock_action : (logic cfg i).Holds (Free i) (op (.lock .action)) fun _ => Kept i := by
  refine triple_memory rfl free_stable fun s hi h => ⟨⟨nofun, nofun⟩, fun x r m hm _ => ?_⟩
  simp only [Memory.perform] at hm
  split at hm
  · next hfree =>
      cases hm
      refine ⟨⟨hi, fun j hj => ⟨?_, others_after _ _ _ hj, fun _ => ⟨rfl, rfl⟩⟩⟩, ?_⟩
      · simp [holder, hfree, Ne.symm hj]
      · refine Told.unfaced (A := fun _ => True) ⟨by simp [Held, holder], ?_, trivial⟩
        rw [show (world.after s.world i (.lock .action) ()).mine i = _ from
          mine_after s.world (.lock .action) ()]
        rfl
  · cases hm

theorem unlock_action :
    (logic cfg i).Holds (Kept i) (op (.unlock .action)) fun _ => Free i := by
  refine triple_memory rfl kept_stable fun s hi h => ⟨⟨nofun, fun _ => h.2⟩, ?_⟩
  intro x r m hm _
  simp only [Memory.perform] at hm
  split at hm
  · next hmine =>
      cases hm
      refine ⟨⟨hi, fun j hj => ⟨?_, others_after _ _ _ hj, fun _ => ⟨rfl, rfl⟩⟩⟩, ?_⟩
      · simp [holder, hmine, Ne.symm hj]
      · simp [Free, holder]
  · cases hm

theorem clone_health :
    (logic cfg i).Holds (Kept i) (op .cloneHealthy) fun health =>
      Told i fun m => m.healthy = health.isHealthy :=
  silent_op kept_stable ⟨rfl, rfl⟩ fun _ _ _ h hv hm => ⟨hv.1.trans h.1, by rw [hm]; rfl⟩

theorem read_leader (healthy : Bool) :
    (logic cfg i).Holds (Told i fun m => m.healthy = healthy) (op (.consensus .leader))
      fun leader => Told i fun m => m.healthy = healthy ∧ m.leader = leader := by
  refine silent_op told_stable ⟨rfl, rfl⟩ fun s s' r h hv hm => ⟨hv.1.trans h.1, ?_⟩
  rw [hm]
  exact ⟨h.2, rfl⟩

theorem load_active (healthy leader : Bool) :
    (logic cfg i).Holds (Told i fun m => m.healthy = healthy ∧ m.leader = leader)
      (op (.load .seqActive)) fun active => Found i ⟨leader, healthy, active⟩ := by
  refine triple_memory rfl told_stable fun s hi h => ⟨⟨nofun, nofun⟩, fun x r m hm _ => ?_⟩
  obtain ⟨hheld, hhealthy, hleader⟩ := h
  have hmine := mine_after (i := i) s.world (.load .seqActive) r
  have hstanding : (s.world.after i (.load .seqActive) r).standing =
      (s.world.standing && (leader && !healthy)) := by
    simp [Journal.after, standingAfter, hhealthy, hleader]
  have hfacing : ((s.world.after i (.load .seqActive) r).mine i).facing =
      (s.world.standing && (leader && !healthy)) := by
    rw [hmine]
    simp [Record.after, hhealthy, hleader]
  have hfound : ((s.world.after i (.load .seqActive) r).mine i).found = ⟨leader, healthy, r⟩ := by
    rw [hmine]
    simp [Record.after, hhealthy, hleader]
  cases hm
  refine ⟨grants_of_holder hheld (fun hst => hi ?_) rfl fun _ => others_after _ _ _,
    ⟨hheld, hfacing.trans hstanding.symm, hfound⟩, fun hst => ?_⟩
  · have hst : (s.world.after i (.load .seqActive) _).standing = true := hst
    rw [hstanding, Bool.and_eq_true] at hst
    exact hst.1
  · have hst : (s.world.after i (.load .seqActive) _).standing = true := hst
    rw [hstanding, Bool.and_eq_true, Bool.and_eq_true, Bool.not_eq_true'] at hst
    exact hst.2

/-- The remembered state answers for a standing hand-off. -/
theorem copy_previous (status : State) :
    (logic cfg i).Holds (Found i status) (op .copyPrevious) fun prev s =>
      Found i status s ∧ s.mem.previous = prev ∧
        (s.world.standing = true → prev.leader = true ∨ prev.active = true) := by
  refine triple_memory rfl (found_stable status) fun s hi h =>
    ⟨⟨nofun, nofun⟩, fun x r m hm _ => ?_⟩
  cases hm
  have hmine : (s.world.after i .copyPrevious s.mem.previous).mine i = s.world.mine i :=
    (mine_after s.world .copyPrevious _).trans (after_unnoted _ rfl)
  refine ⟨grants_of_sameView hi ⟨rfl, rfl, rfl, fun _ => others_after _ _ _⟩,
    ⟨⟨h.1.1, ?_⟩, h.2⟩, rfl, hi⟩
  change ((s.world.after i .copyPrevious s.mem.previous).mine i).facing = _ ∧
    ((s.world.after i .copyPrevious s.mem.previous).mine i).found = _
  rw [hmine]
  exact h.1.2

theorem update_previous (status : State) :
    (logic cfg i).Holds
      (fun s => Told i A s ∧ (s.world.standing = true → status.leader = true))
      (op (.updatePrevious status)) fun _ => Told i A := by
  refine triple_memory rfl ?_ fun s hi h => ⟨⟨nofun, nofun⟩, fun x r m hm _ => ?_⟩
  · intro s s' h hr hi
    refine ⟨told_stable s s' h.1 hr hi, fun hst => h.2 ?_⟩
    rw [← (hr.2.2 h.1.1).1]
    exact hst
  · have hmine := (mine_after (i := i) s.world (.updatePrevious status) r).trans
      (after_unnoted r rfl)
    cases hm
    refine ⟨grants_of_holder h.1.1 (fun hst => .inl (h.2 hst)) rfl
      fun _ => others_after _ _ _, h.1.1, ?_⟩
    exact hmine ▸ h.1.2

theorem report_failed_transfer :
    (logic cfg i).Holds (Told i A) (op (.metric (.leaderTransfer false))) fun _ => Told i A := by
  refine triple_memory rfl told_stable fun s hi h => ⟨⟨nofun, nofun⟩, fun x r m hm hπ => ?_⟩
  have hmine := (mine_after (i := i) s.world (.metric (.leaderTransfer false)) r).trans
    (after_unnoted r rfl)
  cases hm
  refine ⟨grants_of_holder h.1 (fun hst => ?_) rfl fun _ => others_after _ _ _, h.1,
    hmine ▸ h.2⟩
  have hst' : (s.world.standing || (s.world.mine i).handOffFailed) = true := hst
  cases Bool.or_eq_true_iff.mp hst' with
  | inl hold => exact hi hold
  | inr hnew => exact hπ hnew

end
end ConductorRs.Conductor.HandOffRetry

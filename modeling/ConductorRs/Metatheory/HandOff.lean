import ConductorRs.Concurrency.RelyGuarantee
import ConductorRs.Core.ConductorMemory

/-!
Leadership transfers and the sequencer's running flag.

The node is its running flag: a start or stop that succeeds sets it, one that
fails leaves it alone, and `sequencer_active` reports it. Two history variables
are kept per call and read by no operation: whether the call has sent a stop, and
whether it has been told `false` by `sequencer_active` without having stored the
answer yet. `seq_active` is a cached copy of the running flag that a refresh
writes without the action lock; a start that takes effect inside that window is
overwritten, and the next action hands leadership away over a running sequencer.
-/
namespace ConductorRs.Conductor
open Concurrency

def Op.isTransfer : Op → Bool
  | .consensus .transferLeader | .consensus (.transferLeaderTo _ _) => true
  | _ => false

namespace HandOff

structure Node (Tid : Type) where
  running : Bool
  stopCalled : Tid → Bool
  sawInactive : Tid → Bool

section
variable {Tid : Type}

def Node.after [DecidableEq Tid] (w : Node Tid) (i : Tid) : (op : Op) → op.Reply → Node Tid
  | .sequencer (.startSequencer _), .ok _ => { w with running := true }
  | .sequencer .stopSequencer, .ok _ =>
      { w with running := false, stopCalled := Function.update w.stopCalled i true }
  | .sequencer .stopSequencer, .error _ =>
      { w with stopCalled := Function.update w.stopCalled i true }
  | .sequencer .sequencerActive, .ok active =>
      { w with sawInactive := Function.update w.sawInactive i (!active) }
  | .store .seqActive _, _ => { w with sawInactive := Function.update w.sawInactive i false }
  | _, _ => w

def world [DecidableEq Tid] : World Tid (Node Tid) Oracle Empty where
  begin w i _ := { w with stopCalled := Function.update w.stopCalled i false }
  answer w _
    | .sequencer .sequencerActive, x =>
        some ((x (.sequencer .sequencerActive)).map fun _ => w.running)
    | op, x => some (x op)
  after := Node.after
  env _ e := e.elim

abbrev Sys (Tid : Type) := System Tid (Node Tid)

/-- No start takes effect while a call holds an answer `false` it has not yet
stored, and the node says that it is already stopped only when it is. -/
def policy : Policy Tid Shared (Sys Tid) Call Oracle Empty where
  call _ _ _ := True
  step s _ op x :=
    match op with
    | .sequencer (.startSequencer hash) =>
        (x (.sequencer (.startSequencer hash))).isOk → ∀ j, s.world.sawInactive j = false
    | .sequencer .stopSequencer =>
        ∀ err, x (.sequencer .stopSequencer) = .error err →
          err.isSequencerAlreadyStopped → s.world.running = false
    | _ => True
  env _ _ := True

def active (s : Sys Tid) : Bool := s.mem.flags .seqActive

def holder (s : Sys Tid) : Option Tid := s.mem.owner .action

def Synced (s : Sys Tid) : Prop := s.world.running = true → active s = true

def Free (i : Tid) (s : Sys Tid) : Prop :=
  holder s ≠ some i ∧ s.world.sawInactive i = false

def Held (i : Tid) (s : Sys Tid) : Prop :=
  holder s = some i ∧ s.world.sawInactive i = false

def outline : Outline Tid Shared (Sys Tid) where
  inv s := (holder s = none → Synced s) ∧
    ∀ j, s.world.sawInactive j = true → s.world.running = false
  rely i s s' :=
    (holder s' = some i ↔ holder s = some i) ∧
    s'.world.stopCalled i = s.world.stopCalled i ∧
    s'.world.sawInactive i = s.world.sawInactive i ∧
    (holder s = some i → s'.world.running = s.world.running ∧
      (s.world.running = true → active s = true → active s' = true))
  idle := Free
  check i s op := op.isTransfer = true → s.world.running = false ∨ s.world.stopCalled i = true

theorem coherent : (outline : Outline Tid Shared (Sys Tid)).Coherent where
  refl i s := ⟨Iff.rfl, rfl, rfl, fun _ => ⟨rfl, fun _ h => h⟩⟩
  trans i {s s' s''} h h' := by
    obtain ⟨hh, hs, hp, hr⟩ := h
    obtain ⟨hh', hs', hp', hr'⟩ := h'
    refine ⟨hh'.trans hh, hs'.trans hs, hp'.trans hp, fun hi => ?_⟩
    obtain ⟨hrun, hact⟩ := hr hi
    obtain ⟨hrun', hact'⟩ := hr' (hh.mpr hi)
    exact ⟨hrun'.trans hrun, fun h1 h2 => hact' (hrun.trans h1) (hact h1 h2)⟩
  idle i {s s'} h hr _ := ⟨fun hi => h.1 (hr.1.mp hi), hr.2.2.1.trans h.2⟩

variable {i : Tid}

def SameView (s s' : Sys Tid) : Prop :=
  holder s' = holder s ∧ active s' = active s ∧ s'.world = s.world

theorem grants_of_sameView {s s' : Sys Tid} (hi : outline.inv s) (h : SameView s s') :
    outline.Grants i s s' := by
  obtain ⟨hh, ha, hw⟩ := h
  refine ⟨?_, fun j _ => ?_⟩
  · simpa only [outline, Synced, hh, ha, hw] using hi
  · simp [outline, hh, ha, hw]

/-- The holder of the lock may move the running flag: no other thread relies on
it. -/
theorem grants_of_holder {s s' : Sys Tid} (hmine : holder s = some i)
    (hh : holder s' = holder s) (hsaw : s'.world.sawInactive = s.world.sawInactive)
    (hstop : ∀ j, j ≠ i → s'.world.stopCalled j = s.world.stopCalled j)
    (hrun : ∀ j, s.world.sawInactive j = true → s'.world.running = false) :
    outline.Grants i s s' := by
  refine ⟨⟨fun hnone => ?_, fun j hj => ?_⟩, fun j hj => ⟨?_, hstop j hj, ?_, fun hj' => ?_⟩⟩
  · rw [hh, hmine] at hnone
    cases hnone
  · rw [hsaw] at hj
    exact hrun j hj
  · rw [hh]
  · rw [hsaw]
  · rw [hmine] at hj'
    exact absurd (Option.some.inj hj').symm hj

theorem held_stable : outline.Stable i (Held i) :=
  fun _ _ h hr _ => ⟨hr.1.mpr h.1, hr.2.2.1.trans h.2⟩

def Ready (i : Tid) (s : Sys Tid) : Prop := Held i s ∧ Synced s

theorem ready_stable : outline.Stable i (Ready i) := by
  intro s s' h hr hi
  obtain ⟨hrun, hact⟩ := hr.2.2.2 h.1.1
  refine ⟨held_stable s s' h.1 hr hi, fun hrun' => ?_⟩
  have hrunning := hrun ▸ hrun'
  exact hact hrunning (h.2 hrunning)

/-- The sequencer does not run and this thread holds the action lock. -/
def Inactive (i : Tid) (s : Sys Tid) : Prop := Held i s ∧ s.world.running = false

theorem inactive_stable : outline.Stable i (Inactive i) := by
  intro s s' h hr hi
  exact ⟨held_stable s s' h.1 hr hi, (hr.2.2.2 h.1.1).1.trans h.2⟩

theorem Inactive.ready {s : Sys Tid} (h : Inactive i s) : Ready i s :=
  ⟨h.1, fun hrun => by rw [h.2] at hrun; cases hrun⟩

/-- A transfer may be requested: the sequencer is down or this call has sent a
stop. -/
def Cleared (i : Tid) (s : Sys Tid) : Prop :=
  Ready i s ∧ (s.world.running = false ∨ s.world.stopCalled i = true)

theorem cleared_stable : outline.Stable i (Cleared i) := by
  intro s s' h hr hi
  refine ⟨ready_stable s s' h.1 hr hi, ?_⟩
  rw [(hr.2.2.2 h.1.1.1).1, hr.2.1]
  exact h.2

theorem free_stable : outline.Stable i (Free i) :=
  fun _ _ h hr hi => coherent.idle i h hr hi

variable [DecidableEq Tid]

/-- The operations that touch neither the node, the cached flag nor the action
lock. -/
def inert : Op → Bool
  | .store .seqActive _ | .lock .action | .unlock .action => false
  | .sequencer (.startSequencer _) | .sequencer .stopSequencer
  | .sequencer .sequencerActive => false
  | _ => true

theorem perform_inert {s s' : Sys Tid} {op : Op} {x : Oracle} {r : op.Reply}
    (hop : inert op = true) (h : world.perform s i op x = some (r, s')) :
    SameView s s' := by
  have hw : world.after s.world i op r = s.world := by
    cases op with
    | sequencer o => cases o <;> first | rfl | cases hop
    | store flag value => cases flag <;> first | rfl | cases hop
    | _ => rfl
  by_cases he : op.external = true
  · obtain ⟨_, rfl⟩ := World.perform_external he h
    exact ⟨rfl, rfl, hw⟩
  · obtain ⟨m, hm, rfl⟩ := World.perform_memory (by simpa using he) h
    refine ⟨Memory.perform_owner hm ?_ ?_, Memory.perform_flags hm fun value => ?_, hw⟩
    · rintro rfl
      cases hop
    · rintro rfl
      cases hop
    · rintro rfl
      cases hop

variable {cfg : ConductorConfig}

abbrev logic (cfg : ConductorConfig) (i : Tid) : Logic Shared (Sys Tid) :=
  (machine cfg world).logic policy outline i

theorem inert_holds {A : Sys Tid → Prop} (hA : outline.Stable i A)
    (hv : ∀ s s', A s → SameView s s' → A s') (o : Op) (ho : inert o = true)
    (hc : ∀ s, A s → outline.check i s o) : (logic cfg i).Holds A (op o) fun _ => A := by
  refine Machine.Triple.call hA fun s hi ha => ⟨hc s ha, fun x r s' hp _ => ?_⟩
  have hview := perform_inert ho hp
  exact ⟨grants_of_sameView hi hview, hv s s' ha hview⟩

def storeActive (s : Sys Tid) (i : Tid) (value : Bool) : Sys Tid :=
  ⟨{ s.mem with flags := Function.update s.mem.flags .seqActive value },
    { s.world with sawInactive := Function.update s.world.sawInactive i false }⟩

theorem storeActive_idle (s : Sys Tid) (i : Tid) (value : Bool) :
    (storeActive s i value).world.sawInactive i = false := by
  simp [storeActive]

private theorem storeActive_synced {s : Sys Tid} {value : Bool}
    (hv : value = false → s.world.running = false) : Synced (storeActive s i value) := by
  intro hrun
  cases value with
  | true => simp [active, storeActive]
  | false =>
      have hrun' : s.world.running = true := hrun
      rw [hv rfl] at hrun'
      cases hrun'

private theorem grants_storeActive {s : Sys Tid} {value : Bool} (hi : outline.inv s)
    (hv : value = false → s.world.running = false) :
    outline.Grants i s (storeActive s i value) := by
  have hsync : Synced (storeActive s i value) := storeActive_synced hv
  refine ⟨⟨fun _ => hsync, fun j hj => ?_⟩, fun j hj => ?_⟩
  · by_cases hji : j = i
    · rw [hji, storeActive_idle] at hj
      cases hj
    · simp only [storeActive, Function.update_of_ne hji] at hj
      exact hi.2 j hj
  · refine ⟨Iff.rfl, rfl, ?_, fun _ => ⟨rfl, fun hrun _ => hsync hrun⟩⟩
    simp [storeActive, Function.update_of_ne hj]

theorem held_store (value : Bool) :
    (logic cfg i).Holds (fun s => Held i s ∧ (value = false → s.world.running = false))
      (op (.store .seqActive value)) fun _ s =>
        Ready i s ∧ (value = false → s.world.running = false) := by
  refine triple_memory rfl ?_ fun s hi h => ⟨fun ht => (by cases ht), ?_⟩
  · intro s s' h hr hi
    exact ⟨held_stable s s' h.1 hr hi, fun hv => (hr.2.2.2 h.1.1).1.trans (h.2 hv)⟩
  · intro x r m hm _
    cases hm
    exact ⟨grants_storeActive hi h.2,
      ⟨⟨h.1.1, storeActive_idle s i value⟩, storeActive_synced h.2⟩, h.2⟩

def ReadOutcome (i : Tid) : Except SequencerError Bool → Sys Tid → Prop
  | .ok running, s => holder s ≠ some i ∧ (running = false → s.world.sawInactive i = true)
  | .error _, s => Free i s

/-- A refresh stores an answer it got earlier; the answer `false` is still true
then, because no start has taken effect meanwhile. -/
theorem free_store (value : Bool) :
    (logic cfg i).Holds (ReadOutcome i (.ok value)) (op (.store .seqActive value))
      fun _ => Free i := by
  refine triple_memory rfl ?_ fun s hi h => ⟨fun ht => (by cases ht), ?_⟩
  · intro s s' h hr _
    exact ⟨fun hh => h.1 (hr.1.mp hh), fun hv => hr.2.2.1.trans (h.2 hv)⟩
  · intro x r m hm _
    cases hm
    exact ⟨grants_storeActive hi fun hv => hi.2 i (h.2 hv), h.1, storeActive_idle s i value⟩

theorem lock_action : (logic cfg i).Holds (Free i) (op (.lock .action)) fun _ => Ready i := by
  refine triple_memory rfl free_stable fun s hi h => ⟨fun ht => (by cases ht), ?_⟩
  intro x r m hm _
  simp only [Memory.perform] at hm
  split at hm
  · next hfree =>
      cases hm
      have hsync : Synced s := hi.1 hfree
      refine ⟨⟨⟨fun _ => hsync, hi.2⟩, fun j hj => ⟨?_, rfl, rfl, fun hj' => ?_⟩⟩,
        ⟨?_, h.2⟩, hsync⟩
      · simp [holder, hfree, Ne.symm hj]
      · rw [holder, hfree] at hj'
        cases hj'
      · simp [holder]
  · cases hm

theorem unlock_action : (logic cfg i).Holds (Ready i) (op (.unlock .action)) fun _ => Free i := by
  refine triple_memory rfl ready_stable fun s hi h => ⟨fun ht => (by cases ht), ?_⟩
  intro x r m hm _
  simp only [Memory.perform] at hm
  split at hm
  · next hmine =>
      cases hm
      refine ⟨⟨⟨fun _ => h.2, hi.2⟩, fun j hj => ⟨?_, rfl, rfl, fun hj' => ?_⟩⟩,
        ?_, h.1.2⟩
      · simp [holder, hmine, Ne.symm hj]
      · rw [holder, hmine] at hj'
        exact absurd (Option.some.inj hj').symm hj
      · simp [holder]
  · cases hm

theorem read_active :
    (logic cfg i).Holds (Free i) (op (.sequencer .sequencerActive)) (ReadOutcome i) := by
  refine triple_external rfl free_stable fun s hi h => ⟨fun ht => (by cases ht), ?_⟩
  intro x r ha _
  simp only [world, Option.some.injEq] at ha
  cases r with
  | error err => exact ⟨grants_of_sameView hi ⟨rfl, rfl, rfl⟩, h⟩
  | ok running =>
      have hrun : running = s.world.running := by
        cases hx : x (.sequencer .sequencerActive) with
        | error err => rw [hx] at ha; cases ha
        | ok b => rw [hx] at ha; exact (Except.ok.inj ha).symm
      refine ⟨⟨⟨hi.1, fun j hj => ?_⟩, fun j hj => ⟨Iff.rfl, rfl, ?_, ?_⟩⟩, h.1, fun hf => ?_⟩
      · by_cases hji : j = i
        · subst hji
          simpa [world, Node.after, hrun] using hj
        · simp only [world, Node.after, Function.update_of_ne hji] at hj
          exact hi.2 j hj
      · simp [world, Node.after, Function.update_of_ne hj]
      · exact fun _ => ⟨rfl, fun _ hact => hact⟩
      · simp [world, Node.after, hf]

def StopOutcome (i : Tid) (r : Except SequencerError Hash) (s : Sys Tid) : Prop :=
  Ready i s ∧ s.world.stopCalled i = true ∧
    ((∀ err, r = .error err → err.isSequencerAlreadyStopped = true) →
      s.world.running = false)

theorem send_stop :
    (logic cfg i).Holds (Ready i) (op (.sequencer .stopSequencer)) (StopOutcome i) := by
  refine triple_external rfl ready_stable fun s hi h => ⟨fun ht => (by cases ht), ?_⟩
  intro x r ha hπ
  simp only [world, Option.some.injEq] at ha
  cases r with
  | ok hash =>
      refine ⟨grants_of_holder h.1.1 rfl rfl (fun j hj => ?_) fun _ _ => rfl,
        ⟨h.1, fun hrun => (by cases hrun)⟩, ?_, fun _ => rfl⟩
      · simp [world, Node.after, Function.update_of_ne hj]
      · simp [world, Node.after]
  | error err =>
      refine ⟨grants_of_holder h.1.1 rfl rfl (fun j hj => ?_) hi.2, h, ?_, fun hall => ?_⟩
      · simp [world, Node.after, Function.update_of_ne hj]
      · simp [world, Node.after]
      · exact hπ err ha (hall err rfl)

theorem send_start (hash : Hash) :
    (logic cfg i).Holds (Inactive i) (op (.sequencer (.startSequencer hash))) fun r s =>
      Held i s ∧ ∀ err, r = .error err → s.world.running = false := by
  refine triple_external rfl inactive_stable fun s hi h => ⟨fun ht => (by cases ht), ?_⟩
  intro x r ha hπ
  simp only [world, Option.some.injEq] at ha
  cases r with
  | ok u =>
      have hsaw : ∀ j, s.world.sawInactive j = false := hπ (by rw [ha]; rfl)
      refine ⟨grants_of_holder h.1.1 rfl rfl (fun _ _ => rfl) fun j hj => ?_, h.1, ?_⟩
      · rw [hsaw j] at hj
        cases hj
      · intro err herr
        cases herr
  | error err => exact ⟨grants_of_sameView hi ⟨rfl, rfl, rfl⟩, h.1, fun _ _ => h.2⟩

end
end HandOff
end ConductorRs.Conductor

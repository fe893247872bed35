import ConductorRs.Concurrency.RelyGuarantee
import ConductorRs.Core.Conductor

/-!
The memory of one `Conductor` and the machine its entry points run on. The
memory answers the operations on atomics and mutexes; a world answers the calls
that leave the process and is told every reply, so that it can hold the state of
the node, of the cluster, or a history of the run.
-/
namespace ConductorRs.Conductor
open Concurrency Collections

structure Memory (Tid : Type) where
  flags : Flag → Bool
  owner : Lock → Option Tid
  healthy : Health
  previous : State
  actionSeq : Nat
  actionSent : Nat
  stoppedSent : Bool
  counter : TimeBoundedCounter

inductive Call where
  | tick (now : Nat)
  | action
  | pause
  | resume
  | stop
  | refreshSequencerActive
  | initializeStartupState
deriving DecidableEq

def body (cfg : ConductorConfig) : Call → Task Shared Outcome
  | .tick now => tick cfg now
  | .action => action cfg
  | .pause => pause
  | .resume => resume
  | .stop => stop
  | .refreshSequencerActive => refreshSequencerActive
  | .initializeStartupState => initializeStartupState

namespace Memory
variable {Tid : Type}

/-- `Conductor::new` on a node that is or is not the leader. -/
def new (cfg : ConductorConfig) (leader : Bool) : Memory Tid where
  flags
    | .paused => cfg.startPaused
    | _ => false
  owner _ := none
  healthy := .healthy
  previous := ⟨leader, true, false⟩
  actionSeq := 0
  actionSent := 0
  stoppedSent := false
  counter := .default

variable [DecidableEq Tid]

/-- One operation on the memory. A held mutex cannot be taken, and a call that
leaves the process is not answered here. -/
def perform (m : Memory Tid) (i : Tid) : (op : Op) → Option (op.Reply × Memory Tid)
  | .load flag => some (m.flags flag, m)
  | .store flag value => some ((), { m with flags := Function.update m.flags flag value })
  | .lock lock =>
      match m.owner lock with
      | none => some ((), { m with owner := Function.update m.owner lock (some i) })
      | some _ => none
  | .unlock lock =>
      if m.owner lock = some i then
        some ((), { m with owner := Function.update m.owner lock none })
      else none
  | .cloneHealthy => some (m.healthy, m)
  | .setHealthy health => some ((), { m with healthy := health })
  | .copyPrevious => some (m.previous, m)
  | .setPrevious state => some ((), { m with previous := state })
  | .updatePrevious state => some (decide (m.previous ≠ state), { m with previous := state })
  | .nextActionSeq => some (m.actionSeq + 1, { m with actionSeq := m.actionSeq + 1 })
  | .sendAction seq => some ((), { m with actionSent := seq })
  | .sendStopped => some ((), { m with stoppedSent := true })
  | .tolerate now tolerance =>
      if tolerance.limit ≤ m.counter.currentValue now tolerance.interval then some (false, m)
      else some (true, { m with counter := (m.counter.increment now tolerance.interval).2 })
  | .metric _ => some ((), m)
  | .consensus _ | .sequencer _ | .probe _ => none

theorem perform_flags {m m' : Memory Tid} {i : Tid} {op : Op} {r : op.Reply} {flag : Flag}
    (h : m.perform i op = some (r, m')) (hop : ∀ value, op ≠ .store flag value) :
    m'.flags flag = m.flags flag := by
  cases op with
  | store f value =>
      cases h
      have hne : flag ≠ f := fun hf => hop value (by rw [hf])
      simp [Function.update_of_ne hne]
  | lock l | unlock l | tolerate now tolerance =>
      simp only [perform] at h
      split at h <;> cases h <;> rfl
  | consensus o | sequencer o | probe o => cases h
  | _ => cases h; rfl

theorem perform_owner {m m' : Memory Tid} {i : Tid} {op : Op} {r : op.Reply} {lock : Lock}
    (h : m.perform i op = some (r, m')) (hl : op ≠ .lock lock) (hu : op ≠ .unlock lock) :
    m'.owner lock = m.owner lock := by
  cases op with
  | lock l =>
      have hne : lock ≠ l := fun hl' => hl (by rw [hl'])
      simp only [perform] at h
      split at h <;> cases h
      simp [Function.update_of_ne hne]
  | unlock l =>
      have hne : lock ≠ l := fun hl' => hu (by rw [hl'])
      simp only [perform] at h
      split at h <;> cases h
      simp [Function.update_of_ne hne]
  | tolerate now tolerance =>
      simp only [perform] at h
      split at h <;> cases h <;> rfl
  | consensus o | sequencer o | probe o => cases h
  | _ => cases h; rfl

theorem perform_previous {m m' : Memory Tid} {i : Tid} {op : Op} {r : op.Reply}
    (h : m.perform i op = some (r, m')) (hs : ∀ state, op ≠ .setPrevious state)
    (hu : ∀ state, op ≠ .updatePrevious state) : m'.previous = m.previous := by
  cases op with
  | setPrevious state => exact absurd rfl (hs state)
  | updatePrevious state => exact absurd rfl (hu state)
  | lock l | unlock l | tolerate now tolerance =>
      simp only [perform] at h
      split at h <;> cases h <;> rfl
  | consensus o | sequencer o | probe o => cases h
  | _ => cases h; rfl

end Memory

/-- The operations that leave the process. -/
def Op.external : Op → Bool
  | .consensus _ | .sequencer _ | .probe _ => true
  | _ => false

/-- One answer for every operation. -/
abbrev Oracle := (op : Op) → op.Reply

/-- Every remote call fails, and consensus names this node the leader. -/
def Oracle.refuse : Oracle
  | .load _ | .updatePrevious _ | .tolerate _ _ => false
  | .cloneHealthy => .healthy
  | .copyPrevious => ⟨true, true, true⟩
  | .nextActionSeq => 0
  | .consensus .serverId => ""
  | .consensus .leader => true
  | .consensus (.setLeaderForTests _) => ()
  | .consensus .membership => .error .notLeader
  | .consensus .transferLeader => .error .notLeader
  | .consensus (.transferLeaderTo _ _) => .error .notLeader
  | .consensus .shutdown => .error .notLeader
  | .consensus .latestUnsafePayload => .error .notLeader
  | .sequencer _ => .error (.rpc .missingResult)
  | .probe .supervisor => .error ""
  | .probe .executionP2pPeerCount => .error ""
  | .probe .rollupBoost => .error ""
  | .store _ _ | .lock _ | .unlock _ | .setHealthy _ | .setPrevious _ | .sendAction _
  | .sendStopped | .metric _ => ()

structure World (Tid W Choice Env : Type) where
  begin : W → Tid → Call → W
  answer : W → Tid → (op : Op) → Choice → Option op.Reply
  after : W → Tid → (op : Op) → op.Reply → W
  env : W → Env → Option W

structure System (Tid W : Type) where
  mem : Memory Tid
  world : W

section
variable {Tid W Choice Env : Type} [DecidableEq Tid]

def World.perform (world : World Tid W Choice Env) (s : System Tid W) (i : Tid) (op : Op)
    (x : Choice) : Option (op.Reply × System Tid W) :=
  if op.external then
    (world.answer s.world i op x).map fun r => (r, ⟨s.mem, world.after s.world i op r⟩)
  else
    (s.mem.perform i op).map fun p => (p.1, ⟨p.2, world.after s.world i op p.1⟩)

def machine (cfg : ConductorConfig) (world : World Tid W Choice Env) :
    Machine Tid Shared (System Tid W) Call Outcome Choice Env where
  body := body cfg
  enter s i call := some ⟨s.mem, world.begin s.world i call⟩
  perform := world.perform
  leave s _ _ _ := s
  env s e := (world.env s.world e).map fun w => ⟨s.mem, w⟩

/-- An external call leaves the memory alone and is answered by the world. -/
theorem World.perform_external {world : World Tid W Choice Env} {s s' : System Tid W}
    {i : Tid} {op : Op} {x : Choice} {r : op.Reply} (he : op.external = true)
    (h : world.perform s i op x = some (r, s')) :
    world.answer s.world i op x = some r ∧
      s' = ⟨s.mem, world.after s.world i op r⟩ := by
  rw [World.perform, if_pos he, Option.map_eq_some_iff] at h
  obtain ⟨r', ha, hr⟩ := h
  cases hr
  exact ⟨ha, rfl⟩

/-- An access to the memory is answered by the memory. -/
theorem World.perform_memory {world : World Tid W Choice Env} {s s' : System Tid W}
    {i : Tid} {op : Op} {x : Choice} {r : op.Reply} (he : op.external = false)
    (h : world.perform s i op x = some (r, s')) :
    ∃ m, s.mem.perform i op = some (r, m) ∧ s' = ⟨m, world.after s.world i op r⟩ := by
  rw [World.perform, if_neg (by simp [he]), Option.map_eq_some_iff] at h
  obtain ⟨⟨r', m⟩, hm, hr⟩ := h
  cases hr
  exact ⟨m, hm, rfl⟩

variable {cfg : ConductorConfig} {world : World Tid W Choice Env}
variable {π : Policy Tid Shared (System Tid W) Call Choice Env}
variable {P : Outline Tid Shared (System Tid W)} {i : Tid} {A : System Tid W → Prop}

theorem triple_external {o : Op} {Q : o.Reply → System Tid W → Prop}
    (he : o.external = true) (hA : P.Stable i A)
    (h : ∀ s, P.inv s → A s → P.check i s o ∧
      ∀ x r, world.answer s.world i o x = some r → π.step s i o x →
        P.Grants i s ⟨s.mem, world.after s.world i o r⟩ ∧
          Q r ⟨s.mem, world.after s.world i o r⟩) :
    (machine cfg world).Triple π P i A (op o) Q := by
  refine Machine.Triple.call hA fun s hi ha => ⟨(h s hi ha).1, fun x r s' hp hπ => ?_⟩
  have hp' : world.perform s i o x = some (r, s') := hp
  obtain ⟨hr, rfl⟩ := World.perform_external he hp'
  exact (h s hi ha).2 x r hr hπ

theorem triple_memory {o : Op} {Q : o.Reply → System Tid W → Prop}
    (he : o.external = false) (hA : P.Stable i A)
    (h : ∀ s, P.inv s → A s → P.check i s o ∧
      ∀ x r m, s.mem.perform i o = some (r, m) → π.step s i o x →
        P.Grants i s ⟨m, world.after s.world i o r⟩ ∧
          Q r ⟨m, world.after s.world i o r⟩) :
    (machine cfg world).Triple π P i A (op o) Q := by
  refine Machine.Triple.call hA fun s hi ha => ⟨(h s hi ha).1, fun x r s' hp hπ => ?_⟩
  have hp' : world.perform s i o x = some (r, s') := hp
  obtain ⟨m, hm, rfl⟩ := World.perform_memory he hp'
  exact (h s hi ha).2 x r m hm hπ

end
end ConductorRs.Conductor

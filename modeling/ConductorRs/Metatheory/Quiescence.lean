import ConductorRs.Concurrency.Marks
import ConductorRs.Metatheory.Control

/-!
Pausing, stopping and the action in progress.

A pause raises its flag while it holds the action lock, and an action reads the
flags after it has taken that lock, so an action past its guard keeps `paused`
and `stopped` down until it lets go. A stop holds the stop lock from its first
step to its last; the shutdowns that have succeeded or failed are counted in a
history that no operation reads, and only the holder of that lock moves it.
-/
namespace ConductorRs.Conductor
open Concurrency

/-- The commands of a control action. -/
def Op.isCommand : Op → Bool
  | .sequencer (.startSequencer _) | .sequencer .stopSequencer
  | .sequencer (.postUnsafePayload _) => true
  | .consensus .transferLeader | .consensus (.transferLeaderTo _ _) => true
  | _ => false

namespace Quiescence

/-- The calls of `consensus.shutdown()` that have returned. -/
structure Shutdowns where
  succeeded : Nat
  failed : Bool
deriving DecidableEq

def Shutdowns.after (w : Shutdowns) : (op : Op) → op.Reply → Shutdowns
  | .consensus .shutdown, .ok _ => { w with succeeded := w.succeeded + 1 }
  | .consensus .shutdown, .error _ => { w with failed := true }
  | _, _ => w

section
variable {Tid : Type}

def world : World Tid Shutdowns Oracle Empty where
  begin w _ _ := w
  answer _ _ op x := some (x op)
  after w _ op r := w.after op r
  env _ e := e.elim

abbrev Sys (Tid : Type) := System Tid Shutdowns

/-- A new conductor. -/
def initial (cfg : ConductorConfig) (leader : Bool) : Sys Tid :=
  ⟨Memory.new cfg leader, ⟨0, false⟩⟩

def holder (s : Sys Tid) : Option Tid := s.mem.owner .action

def closer (s : Sys Tid) : Option Tid := s.mem.owner .stop

def paused (s : Sys Tid) : Bool := s.mem.flags .paused

/-- What only a call of `stop` moves. -/
structure Book where
  stopping : Bool
  stopped : Bool
  shutdowns : Shutdowns

def book (s : Sys Tid) : Book := ⟨s.mem.flags .stopping, s.mem.flags .stopped, s.world⟩

/-- Between calls of `stop`: a shutdown that succeeded has been recorded, and a
stop that was begun has succeeded or failed. -/
def Book.Settled (b : Book) : Prop :=
  (b.shutdowns.succeeded = 1 → b.stopped = true) ∧
    (b.stopping = true → b.stopped = true ∨ b.shutdowns.failed = true)

structure Book.Sound (b : Book) : Prop where
  once : b.shutdowns.succeeded ≤ 1
  stopping : b.stopped = true → b.stopping = true
  succeeded : b.stopped = true → b.shutdowns.succeeded = 1

def outline : Outline Tid Shared (Sys Tid) where
  inv s := (book s).Sound ∧ (closer s = none → (book s).Settled)
  rely i s s' :=
    (holder s' = some i ↔ holder s = some i) ∧ (closer s' = some i ↔ closer s = some i) ∧
    (holder s = some i →
      (paused s = false → paused s' = false) ∧ (book s').stopped = (book s).stopped) ∧
    (closer s = some i → book s' = book s) ∧
    ((book s).stopped = true → (book s').stopped = true)
  idle i s := holder s ≠ some i ∧ closer s ≠ some i
  check _ s op := op ≠ .store .stopped false ∧
    (op.isCommand = true → paused s = false ∧ (book s).stopped = false)

theorem coherent : (outline : Outline Tid Shared (Sys Tid)).Coherent where
  refl i s := ⟨Iff.rfl, Iff.rfl, fun _ => ⟨fun h => h, rfl⟩, fun _ => rfl, fun h => h⟩
  trans i {s s' s''} h h' := by
    obtain ⟨hh, hc, ha, hb, hs⟩ := h
    obtain ⟨hh', hc', ha', hb', hs'⟩ := h'
    refine ⟨hh'.trans hh, hc'.trans hc, fun hi => ⟨fun hp => ?_, ?_⟩, fun hi => ?_, fun h => ?_⟩
    · exact (ha' (hh.mpr hi)).1 ((ha hi).1 hp)
    · exact (ha' (hh.mpr hi)).2.trans (ha hi).2
    · exact (hb' (hc.mpr hi)).trans (hb hi)
    · exact hs' (hs h)
  idle i {s s'} h hr _ := ⟨fun hi => h.1 (hr.1.mp hi), fun hi => h.2 (hr.2.1.mp hi)⟩

variable {i : Tid}

/-- An operation that is no command and does not take `stopped` back may run at any
time. -/
theorem idle_check {s : Sys Tid} {o : Op} (ho : o ≠ .store .stopped false)
    (hc : o.isCommand = false) : outline.check i s o := by
  refine ⟨ho, fun hcmd => ?_⟩
  rw [hc] at hcmd
  cases hcmd

def Free (i : Tid) (s : Sys Tid) : Prop := holder s ≠ some i ∧ closer s ≠ some i

def Held (i : Tid) (s : Sys Tid) : Prop := holder s = some i ∧ closer s ≠ some i

/-- An action past its guard. -/
def Past (i : Tid) (s : Sys Tid) : Prop :=
  Held i s ∧ paused s = false ∧ (book s).stopped = false

/-- A stop with its lock, with or without the action lock. -/
def Closing (i : Tid) (locked : Prop) (φ : Book → Prop) (s : Sys Tid) : Prop :=
  closer s = some i ∧ (holder s = some i ↔ locked) ∧ φ (book s)

theorem free_stable : outline.Stable i (Free i) :=
  fun _ _ h hr hi => coherent.idle i h hr hi

theorem held_stable : outline.Stable i (Held i) :=
  fun _ _ h hr _ => ⟨hr.1.mpr h.1, fun hi => h.2 (hr.2.1.mp hi)⟩

theorem past_stable : outline.Stable i (Past i) := by
  intro s s' h hr hi
  obtain ⟨hpaused, hstopped⟩ := hr.2.2.1 h.1.1
  exact ⟨held_stable s s' h.1 hr hi, hpaused h.2.1, hstopped.trans h.2.2⟩

theorem closing_stable {locked : Prop} {φ : Book → Prop} :
    outline.Stable i (Closing i locked φ) := by
  intro s s' h hr _
  obtain ⟨hc, hl, hφ⟩ := h
  refine ⟨hr.2.1.mpr hc, hr.1.trans hl, ?_⟩
  rw [hr.2.2.2.1 hc]
  exact hφ

/-- The same locks, the same flags and the same history. -/
def SameView (s s' : Sys Tid) : Prop :=
  holder s' = holder s ∧ closer s' = closer s ∧ paused s' = paused s ∧ book s' = book s

theorem grants_of_sameView {s s' : Sys Tid} (hi : outline.inv s) (h : SameView s s') :
    outline.Grants i s s' := by
  obtain ⟨hh, hc, hp, hb⟩ := h
  refine ⟨?_, fun j _ => ?_⟩
  · simpa only [outline, hc, hb] using hi
  · simp [outline, hh, hc, hp, hb]

/-- The state after thread `i` has taken a lock that was free. -/
def locked (s : Sys Tid) (l : Lock) (i : Tid) : Sys Tid :=
  ⟨{ s.mem with owner := Function.update s.mem.owner l (some i) }, s.world⟩

def stored (s : Sys Tid) (flag : Flag) (value : Bool) : Sys Tid :=
  ⟨{ s.mem with flags := Function.update s.mem.flags flag value }, s.world⟩

def unlocked (s : Sys Tid) (l : Lock) : Sys Tid :=
  ⟨{ s.mem with owner := Function.update s.mem.owner l none }, s.world⟩

/-- Taking the action lock moves nothing another thread relies on. -/
theorem grants_lock_action {s : Sys Tid} (hi : outline.inv s) (hfree : holder s = none) :
    outline.Grants i s (locked s .action i) := by
  refine ⟨hi, fun j hj => ⟨?_, Iff.rfl, fun hj' => ?_, fun _ => rfl, fun h => h⟩⟩
  · simp [holder, locked] at hfree ⊢
    simp [hfree, Ne.symm hj]
  · rw [hfree] at hj'
    cases hj'

theorem grants_unlock_action {s : Sys Tid} (hi : outline.inv s) (hmine : holder s = some i) :
    outline.Grants i s (unlocked s .action) := by
  refine ⟨hi, fun j hj => ⟨?_, Iff.rfl, fun hj' => ?_, fun _ => rfl, fun h => h⟩⟩
  · simp [holder, unlocked] at hmine ⊢
    simp [hmine, Ne.symm hj]
  · rw [hmine] at hj'
    exact absurd (Option.some.inj hj').symm hj

/-- Between the two locks of a stop no other thread relies on the book. -/
theorem grants_closer {s s' : Sys Tid} (hmine : closer s = some i)
    (hc : closer s' = closer s) (hh : holder s' = holder s) (hp : paused s' = paused s)
    (hsound : (book s').Sound)
    (hstopped : (book s').stopped = (book s).stopped ∨
      holder s = some i ∧ (book s').stopped = true) : outline.Grants i s s' := by
  refine ⟨⟨hsound, fun hnone => ?_⟩, fun j hj => ⟨?_, ?_, fun hj' => ⟨?_, ?_⟩, fun hj' => ?_, ?_⟩⟩
  · rw [hc, hmine] at hnone
    cases hnone
  · rw [hh]
  · rw [hc]
  · rw [hp]
    exact fun h => h
  · rcases hstopped with h | ⟨h, _⟩
    · exact h
    · rw [h] at hj'
      exact absurd (Option.some.inj hj').symm hj
  · rw [hmine] at hj'
    exact absurd (Option.some.inj hj').symm hj
  · intro hs
    rcases hstopped with h | ⟨_, h⟩
    · rw [h]
      exact hs
    · exact h

variable [DecidableEq Tid]

/-- The operations that touch neither lock, none of the three flags and not the
shutdown. -/
def inert : Op → Bool
  | .store .seqActive _ => true
  | .store _ _ | .lock _ | .unlock _ | .consensus .shutdown => false
  | _ => true

theorem inner_inert {o : Op} (h : Inner o) : inert o = true := by
  cases o with
  | consensus o => cases o <;> first | rfl | cases h
  | store flag value => cases flag <;> first | rfl | cases h
  | lock l | unlock l => cases h
  | _ => rfl

theorem outer_inert {o : Op} (h : Outer o) : inert o = true ∧ o.isCommand = false := by
  cases o with
  | consensus o | store flag value | lock l | unlock l => cases h
  | sequencer o => cases o <;> first | exact ⟨rfl, rfl⟩ | cases h
  | _ => exact ⟨rfl, rfl⟩

theorem perform_inert {s s' : Sys Tid} {op : Op} {x : Oracle} {r : op.Reply}
    (hop : inert op = true) (h : world.perform s i op x = some (r, s')) : SameView s s' := by
  have hw : world.after s.world i op r = s.world := by
    cases op with
    | consensus o => cases o <;> first | rfl | cases hop
    | _ => rfl
  by_cases he : op.external = true
  · obtain ⟨_, rfl⟩ := World.perform_external he h
    refine ⟨rfl, rfl, rfl, ?_⟩
    simp only [book, hw]
  · obtain ⟨m, hm, rfl⟩ := World.perform_memory (by simpa using he) h
    have hlock : ∀ l, m.owner l = s.mem.owner l := fun l =>
      Memory.perform_owner hm (by rintro rfl; cases hop) (by rintro rfl; cases hop)
    have hflag : ∀ flag, flag ≠ .seqActive → m.flags flag = s.mem.flags flag := by
      intro flag hne
      refine Memory.perform_flags hm fun value => ?_
      rintro rfl
      cases flag <;> first | exact hne rfl | cases hop
    refine ⟨hlock .action, hlock .stop, hflag .paused (by simp), ?_⟩
    simp only [book, hw]
    rw [hflag .stopping (by simp), hflag .stopped (by simp)]

variable {cfg : ConductorConfig}

abbrev logic (cfg : ConductorConfig) (i : Tid) : Logic Shared (Sys Tid) :=
  (machine cfg world).logic .any outline i

theorem inert_holds {A : Sys Tid → Prop} (hA : outline.Stable i A)
    (hv : ∀ s s', A s → SameView s s' → A s') (o : Op) (ho : inert o = true)
    (hc : ∀ s, A s → o.isCommand = true → paused s = false ∧ (book s).stopped = false) :
    (logic cfg i).Holds A (op o) fun _ => A := by
  refine Machine.Triple.call hA fun s hi ha => ⟨⟨?_, hc s ha⟩, fun x r s' hp _ => ?_⟩
  · rintro rfl
    cases ho
  · have hview := perform_inert ho hp
    exact ⟨grants_of_sameView hi hview, hv s s' ha hview⟩

theorem past_inner {o : Op} (h : Inner o) :
    (logic cfg i).Holds (Past i) (op o) fun _ => Past i := by
  refine inert_holds past_stable (fun s s' h hv => ?_) o (inner_inert h) fun s h _ => h.2
  obtain ⟨hh, hc, hp, hb⟩ := hv
  simpa only [Past, Held, hh, hc, hp, hb] using h

theorem free_inert {o : Op} (h : inert o = true) (hc : o.isCommand = false) :
    (logic cfg i).Holds (Free i) (op o) fun _ => Free i := by
  refine inert_holds free_stable (fun s s' h hv => ?_) o h fun s _ hcmd => ?_
  · obtain ⟨hh, hc, _, _⟩ := hv
    simpa only [Free, hh, hc] using h
  · rw [hc] at hcmd
    cases hcmd

theorem lock_holds {l : Lock} {A B : Sys Tid → Prop} (hA : outline.Stable i A)
    (h : ∀ s, outline.inv s → A s → s.mem.owner l = none →
      outline.Grants i s (locked s l i) ∧ B (locked s l i)) :
    (logic cfg i).Holds A (op (.lock l)) fun _ => B := by
  refine triple_memory rfl hA fun s hi ha => ⟨idle_check (by simp) rfl, ?_⟩
  intro x r m hm _
  simp only [Memory.perform] at hm
  split at hm
  · next hfree =>
      cases hm
      exact h s hi ha hfree
  · cases hm

theorem unlock_holds {l : Lock} {A B : Sys Tid → Prop} (hA : outline.Stable i A)
    (h : ∀ s, outline.inv s → A s → s.mem.owner l = some i →
      outline.Grants i s (unlocked s l) ∧ B (unlocked s l)) :
    (logic cfg i).Holds A (op (.unlock l)) fun _ => B := by
  refine triple_memory rfl hA fun s hi ha => ⟨idle_check (by simp) rfl, ?_⟩
  intro x r m hm _
  simp only [Memory.perform] at hm
  split at hm
  · next hmine =>
      cases hm
      exact h s hi ha hmine
  · cases hm

theorem lock_action : (logic cfg i).Holds (Free i) (op (.lock .action)) fun _ => Held i :=
  lock_holds free_stable fun s hi h hfree =>
    ⟨grants_lock_action hi hfree, by simp [holder, locked], h.2⟩

theorem unlock_action : (logic cfg i).Holds (Held i) (op (.unlock .action)) fun _ => Free i :=
  unlock_holds held_stable fun s hi h hmine =>
    ⟨grants_unlock_action hi hmine, by simp [holder, unlocked], h.2⟩

theorem closing_lock_action {φ : Book → Prop} :
    (logic cfg i).Holds (Closing i False φ) (op (.lock .action)) fun _ => Closing i True φ :=
  lock_holds closing_stable fun s hi h hfree =>
    ⟨grants_lock_action hi hfree, h.1, by simp [holder, locked], h.2.2⟩

theorem closing_unlock_action {φ : Book → Prop} :
    (logic cfg i).Holds (Closing i True φ) (op (.unlock .action)) fun _ => Closing i False φ :=
  unlock_holds closing_stable fun s hi h hmine =>
    ⟨grants_unlock_action hi hmine, h.1, by simp [holder, unlocked], h.2.2⟩

/-- A stop finds the history settled: whoever had the lock before left it so. -/
theorem lock_stop :
    (logic cfg i).Holds (Free i) (op (.lock .stop)) fun _ =>
      Closing i False fun b => b.Sound ∧ b.Settled := by
  refine lock_holds free_stable fun s hi h hfree => ⟨⟨⟨hi.1, fun hnone => ?_⟩, fun j hj => ?_⟩, ?_⟩
  · exact hi.2 hfree
  · have hne : closer s ≠ some j := by
      rw [closer, hfree]
      simp
    refine ⟨Iff.rfl, ?_, fun _ => ⟨fun h => h, rfl⟩, fun hj' => absurd hj' hne, fun h => h⟩
    simp [closer, locked, Ne.symm hj] at hfree ⊢
    simp [hfree]
  · refine ⟨by simp [closer, locked], ?_, hi.1, hi.2 hfree⟩
    simpa [holder, locked] using h.1

theorem unlock_stop {φ : Book → Prop} (hφ : ∀ b, φ b → b.Settled) :
    (logic cfg i).Holds (Closing i False φ) (op (.unlock .stop)) fun _ s =>
      Free i s ∧ φ (book s) := by
  refine unlock_holds closing_stable fun s hi h hmine =>
    ⟨⟨⟨hi.1, fun _ => hφ _ h.2.2⟩, fun j hj => ?_⟩, ⟨?_, ?_⟩, h.2.2⟩
  · refine ⟨Iff.rfl, ?_, fun _ => ⟨fun h => h, rfl⟩, fun _ => rfl, fun h => h⟩
    simp [closer, unlocked] at hmine ⊢
    simp [hmine, Ne.symm hj]
  · exact fun hh => h.2.1.mp hh
  · simp [closer, unlocked]

/-- A pause raises its flag under the action lock: nobody else is past the guard. -/
theorem store_paused :
    (logic cfg i).Holds (Held i) (op (.store .paused true)) fun _ => Held i := by
  refine triple_memory rfl held_stable fun s hi h => ⟨idle_check (by simp) rfl, ?_⟩
  intro x r m hm _
  cases hm
  refine ⟨⟨hi, fun j hj => ⟨Iff.rfl, Iff.rfl, fun hj' => ?_, fun _ => rfl, fun h => h⟩⟩, h⟩
  rw [h.1] at hj'
  exact absurd (Option.some.inj hj').symm hj

theorem store_resumed :
    (logic cfg i).Holds (Free i) (op (.store .paused false)) fun _ => Free i := by
  refine triple_memory rfl free_stable fun s hi h => ⟨idle_check (by simp) rfl, ?_⟩
  intro x r m hm _
  cases hm
  refine ⟨⟨hi, fun j _ => ⟨Iff.rfl, Iff.rfl, fun _ => ⟨fun _ => ?_, rfl⟩, fun _ => rfl, ?_⟩⟩, h⟩
  · simp [paused]
  · exact fun h => h

/-- Before the shutdown: no shutdown has succeeded yet. -/
def Book.Fresh (b : Book) : Prop :=
  b.shutdowns.succeeded = 0 ∧ b.stopped = false

def Book.Begun (b : Book) : Prop := b.Fresh ∧ b.stopping = true

/-- The shutdown has succeeded and `stopped` is about to be set. -/
def Book.Down (b : Book) : Prop :=
  b.shutdowns.succeeded = 1 ∧ b.stopped = false ∧ b.stopping = true

def Book.Ended (b : Book) : Prop := b.Sound ∧ b.stopped = true

def Book.Refused (b : Book) : Prop := b.Fresh ∧ b.shutdowns.failed = true

theorem Book.Ended.settled {b : Book} (h : b.Ended) : b.Settled :=
  ⟨fun _ => h.2, fun _ => .inl h.2⟩

theorem Book.Refused.settled {b : Book} (h : b.Refused) : b.Settled := by
  refine ⟨fun hone => ?_, fun _ => .inr h.2⟩
  rw [h.1.1] at hone
  cases hone

theorem store_stopping :
    (logic cfg i).Holds (Closing i False Book.Fresh) (op (.store .stopping true)) fun _ =>
      Closing i False Book.Begun := by
  refine triple_memory rfl closing_stable fun s hi h => ⟨idle_check (by simp) rfl, ?_⟩
  intro x r m hm _
  cases hm
  obtain ⟨hc, hh, hzero, hstopped⟩ := h
  refine ⟨grants_closer hc rfl rfl rfl ⟨hi.1.once, fun _ => ?_, hi.1.succeeded⟩ (.inl rfl),
    hc, hh, ⟨hzero, hstopped⟩, ?_⟩
  · simp [book]
  · simp [book]

/-- What the result of the shutdown leaves in the book. -/
def Book.AfterShutdown : Except ConsensusError Unit → Book → Prop
  | .ok _ => Book.Down
  | .error _ => Book.Refused

theorem call_shutdown :
    (logic cfg i).Holds (Closing i True Book.Begun) (op (.consensus .shutdown)) fun r =>
      Closing i True (Book.AfterShutdown r) := by
  refine triple_external rfl closing_stable fun s hi h => ⟨idle_check (by simp) rfl, ?_⟩
  intro x r _ _
  obtain ⟨hc, hh, ⟨hzero, hstopped⟩, hstopping⟩ := h
  have hdown : ¬(book s).stopped = true := by simp [hstopped]
  cases r with
  | ok u =>
      refine ⟨grants_closer hc rfl rfl rfl ⟨?_, hi.1.stopping, fun h => absurd h hdown⟩
        (.inl rfl), hc, hh, ?_, hstopped, hstopping⟩
      · simp [book, world, Shutdowns.after] at hzero ⊢
        omega
      · simp [book, world, Shutdowns.after] at hzero ⊢
        exact hzero
  | error err =>
      exact ⟨grants_closer hc rfl rfl rfl ⟨hi.1.once, hi.1.stopping, hi.1.succeeded⟩ (.inl rfl),
        hc, hh, ⟨hzero, hstopped⟩, rfl⟩

theorem store_stopped :
    (logic cfg i).Holds (Closing i True Book.Down) (op (.store .stopped true)) fun _ =>
      Closing i True Book.Ended := by
  refine triple_memory rfl closing_stable fun s hi h => ⟨idle_check (by simp) rfl, ?_⟩
  intro x r m hm _
  cases hm
  obtain ⟨hc, hh, hone, hstopped, hstopping⟩ := h
  have hset : (book (stored s .stopped true)).stopped = true := by
    simp [book, stored]
  have hsound : (book (stored s .stopped true)).Sound :=
    ⟨hi.1.once, fun _ => hstopping, fun _ => hone⟩
  exact ⟨grants_closer hc rfl rfl rfl hsound (.inr ⟨hh.mpr trivial, hset⟩), hc, hh, hsound, hset⟩

theorem closing_inert {l : Prop} {φ : Book → Prop} {o : Op} (h : inert o = true)
    (hc : o.isCommand = false) :
    (logic cfg i).Holds (Closing i l φ) (op o) fun _ => Closing i l φ := by
  refine inert_holds closing_stable (fun s s' h hv => ?_) o h fun s _ hcmd => ?_
  · obtain ⟨hh, hcl, _, hb⟩ := hv
    simpa only [Closing, hh, hcl, hb] using h
  · rw [hc] at hcmd
    cases hcmd

end
end Quiescence
end ConductorRs.Conductor

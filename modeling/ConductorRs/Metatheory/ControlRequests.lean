import ConductorRs.Concurrency.History
import ConductorRs.Metatheory.LeaderWatch

/-!
Requests for an action, and the control loop that serves them.

A request is made when an action is queued on the watch channel. Next to the runtime
a history notes how many requests had been made when a thread called an action. The
action has begun when it has its lock; then the number counts for the most recent
action, and for the control loop whose action it is. The history also notes what the
variable `action_pending` of every control loop is while it handles a branch. The
loop's receiver and this variable together never forget a request that no action has
begun after.
-/
namespace ConductorRs.Runtime
open Concurrency Conductor

/-- How far a control loop is in its round. -/
inductive Stage where
  | subscribed
  | chosen (selected : Selected)
  | handling (selected : Selected)

/-- A control loop that has subscribed. While it handles a branch, `flag` is its
`action_pending`: a branch and what it assigns before it first awaits are one step of
the loop. `begun` is the number of requests made when it called its own action, from
when that has begun until the loop chooses to run the next one. -/
structure LoopView where
  flag : Bool
  stage : Stage
  begun : Option Nat

/-- `asked` is the number of requests made when a thread called the action that it has
not begun yet, and `began` the most that had been made when an action was called that
has begun. -/
structure Requests (Tid : Type) where
  asked : Tid → Option Nat
  began : Option Nat
  loops : Tid → Option LoopView

def Selected.flag (actionPending : Bool) : Selected → Bool
  | .changed => true
  | .actionRetry | .tick _ => actionPending

theorem Selected.flag_eq_false {actionPending : Bool} {selected : Selected}
    (h : selected.flag actionPending = false) : selected ≠ .changed ∧ actionPending = false := by
  cases selected with
  | changed => cases h
  | actionRetry | tick now => exact ⟨fun heq => (by cases heq), h⟩

namespace LoopView

def select (v : LoopView) (actionPending : Bool) (selected : Selected) : LoopView :=
  { v with flag := selected.flag actionPending, stage := .chosen selected }

/-- The loop is going to run its own action. -/
def retries (v : LoopView) : Bool :=
  match v.stage with
  | .chosen .actionRetry => true
  | _ => false

/-- The loop has found the conductor running and handles the branch it has chosen. -/
def proceed (v : LoopView) : LoopView :=
  match v.stage with
  | .chosen .actionRetry => ⟨v.flag, .handling .actionRetry, none⟩
  | .chosen selected => ⟨v.flag, .handling selected, v.begun⟩
  | _ => v

/-- An action of the thread has begun; it is the loop's own if the loop handles a
retry, and that of a tick otherwise. -/
def begin (v : LoopView) (n : Nat) : LoopView :=
  match v.stage with
  | .handling .actionRetry => { v with begun := some n }
  | _ => v

theorem proceed_flag (v : LoopView) : v.proceed.flag = v.flag := by
  simp only [proceed]
  split <;> rfl

theorem proceed_chosen {v : LoopView} {selected : Selected} (h : v.stage = .chosen selected) :
    v.proceed.stage = .handling selected := by
  rw [proceed, h]
  cases selected <;> rfl

theorem proceed_handling {v : LoopView} {selected : Selected} (h : v.stage = .handling selected) :
    v.proceed = v := by
  rw [proceed, h]

theorem proceed_begun {v : LoopView} {n : Nat} (h : v.proceed.begun = some n) :
    v.begun = some n := by
  obtain ⟨flag, stage, begun⟩ := v
  cases stage with
  | chosen selected =>
      cases selected with
      | actionRetry => cases h
      | _ => exact h
  | _ => exact h

theorem proceed_begun_of_not_retries {v : LoopView} (h : v.retries = false) :
    v.proceed.begun = v.begun := by
  obtain ⟨flag, stage, begun⟩ := v
  cases stage with
  | chosen selected =>
      cases selected with
      | actionRetry => cases h
      | _ => rfl
  | _ => rfl

theorem retries_proceed (v : LoopView) : v.proceed.retries = false := by
  obtain ⟨flag, stage, begun⟩ := v
  cases stage with
  | chosen selected => cases selected <;> rfl
  | _ => rfl

theorem begin_flag (v : LoopView) (n : Nat) : (v.begin n).flag = v.flag := by
  simp only [begin]
  split <;> rfl

theorem begin_stage (v : LoopView) (n : Nat) : (v.begin n).stage = v.stage := by
  simp only [begin]
  split <;> rfl

theorem begin_cases (v : LoopView) (n : Nat) : v.begin n = v ∨ (v.begin n).begun = some n := by
  simp only [begin]
  split
  · exact .inr rfl
  · exact .inl rfl

theorem begin_handling {v : LoopView} (n : Nat) (h : v.stage = .handling .actionRetry) :
    (v.begin n).begun = some n := by
  rw [begin, h]

end LoopView

namespace Requests
section
variable {Tid : Type}

def empty : Requests Tid := ⟨fun _ => none, none, fun _ => none⟩

/-- An action has begun that was called when `n` requests had been made. -/
def raise (h : Requests Tid) (n : Nat) : Requests Tid :=
  { h with began := some (max (h.began.getD 0) n) }

variable [DecidableEq Tid]

/-- What is noted of one thread. -/
def set (h : Requests Tid) (i : Tid) (asked : Option Nat) (v : Option LoopView) : Requests Tid :=
  { h with asked := Function.update h.asked i asked, loops := Function.update h.loops i v }

theorem set_asked (h : Requests Tid) (i : Tid) (a : Option Nat) (v : Option LoopView) :
    (h.set i a v).asked i = a :=
  Function.update_self ..

theorem set_loops (h : Requests Tid) (i : Tid) (a : Option Nat) (v : Option LoopView) :
    (h.set i a v).loops i = v :=
  Function.update_self ..

theorem set_of_ne (h : Requests Tid) {i j : Tid} (a : Option Nat) (v : Option LoopView)
    (hj : j ≠ i) :
    (h.set i a v).loops j = h.loops j ∧ (h.set i a v).asked j = h.asked j :=
  ⟨Function.update_of_ne hj .., Function.update_of_ne hj ..⟩

/-- A thread that begins a call is not a subscribed loop. -/
def enter (h : Requests Tid) (s : RuntimeState Tid) (i : Tid) : RuntimeCall → Requests Tid
  | .conductor .action => h.set i (some s.sends) none
  | _ => h.set i none none

/-- A loop that has found the conductor running calls its action if it has chosen to
retry. -/
def proceed (h : Requests Tid) (i : Tid) (sends : Nat) : Requests Tid :=
  h.set i (if (h.loops i).any LoopView.retries then some sends else h.asked i)
    ((h.loops i).map LoopView.proceed)

/-- The action that thread `i` has called has its lock. A pause and a stop take the same
lock, but have called no action. -/
def begin (h : Requests Tid) (i : Tid) : Requests Tid :=
  match h.asked i with
  | some n => (h.raise n).set i none ((h.loops i).map fun v => v.begin n)
  | none => h

/-- The action of `update_health` is called when the health has been stored. -/
def shared (h : Requests Tid) (s : RuntimeState Tid) (i : Tid) :
    (o : Conductor.Op) → o.Reply → Requests Tid
  | .setHealthy _, _ => h.set i (some s.sends) (h.loops i)
  | .load .stopped, false => h.proceed i s.sends
  | .lock .action, _ => h.begin i
  | _, _ => h

/-- No action is under way in a loop that waits. -/
def runtime (h : Requests Tid) (i : Tid) : (o : RuntimeOp) → o.Reply → Requests Tid
  | .subscribeActions, _ => h.set i none (some ⟨true, .subscribed, none⟩)
  | .select actionPending, selected =>
      h.set i none ((h.loops i).map fun v => v.select actionPending selected)
  | _, _ => h

def perform (h : Requests Tid) (s : RuntimeState Tid) (i : Tid) :
    (o : Supervisor.Op) → Supervisor.Reply o → Requests Tid
  | .inl o, r => h.shared s i o r
  | .inr o, r => h.runtime i o r

theorem begin_of_none {h : Requests Tid} {i : Tid} (ha : h.asked i = none) : h.begin i = h := by
  rw [begin, ha]

theorem begin_of_some {h : Requests Tid} {i : Tid} {n : Nat} (ha : h.asked i = some n) :
    h.begin i = (h.raise n).set i none ((h.loops i).map fun v => v.begin n) := by
  rw [begin, ha]

end
end Requests

def requests (Tid : Type) [DecidableEq Tid] :
    Recorder Tid Supervisor (RuntimeState Tid) RuntimeCall (Requests Tid) where
  enter s h := h.enter s
  perform s h := h.perform s

section
variable {Tid : Type}

/-- Every request the loop of thread `i` has observed was made before it called its own
action, and that has begun. -/
def Served (s : RuntimeState Tid) (i : Tid) (v : LoopView) : Prop :=
  ∃ n, v.begun = some n ∧ (s.own i).actionSeen ≤ n

/-- A receiver is not ahead of the channel, nor of the action that its thread has called,
nor an action ahead of the most recent one; a loop retries only with its flag up, and
handles a branch with its flag down only if it is served. -/
structure Kept (s : RuntimeState Tid) (h : Requests Tid) : Prop where
  seen : ∀ i, (s.own i).actionSeen ≤ s.sends
  asked : ∀ i n, h.asked i = some n → (s.own i).actionSeen ≤ n ∧ n ≤ s.sends
  began : ∀ n, h.began = some n → n ≤ s.sends
  begun : ∀ i v n, h.loops i = some v → v.begun = some n → ∃ b, h.began = some b ∧ n ≤ b
  retries : ∀ i v, h.loops i = some v → v.retries = true → v.flag = true
  served : ∀ i v, h.loops i = some v → v.flag = false → Served s i v

theorem Kept.grow {s s' : RuntimeState Tid} {h : Requests Tid} (hk : Kept s h)
    (hseen : ∀ i, (s'.own i).actionSeen = (s.own i).actionSeen) (hsends : s.sends ≤ s'.sends) :
    Kept s' h := by
  refine ⟨fun i => ?_, fun i n hn => ?_, fun n hn => (hk.began n hn).trans hsends, hk.begun,
    hk.retries, fun i v hv hflag => ?_⟩
  · rw [hseen i]
    exact (hk.seen i).trans hsends
  · rw [hseen i]
    exact ⟨(hk.asked i n hn).1, (hk.asked i n hn).2.trans hsends⟩
  · rw [Served, hseen i]
    exact hk.served i v hv hflag

theorem Kept.raise {s : RuntimeState Tid} {h : Requests Tid} (hk : Kept s h) {n : Nat}
    (hn : n ≤ s.sends) : Kept s (h.raise n) := by
  refine ⟨hk.seen, hk.asked, fun m hm => ?_, fun i v m hv hm => ⟨_, rfl, ?_⟩, hk.retries,
    hk.served⟩
  · cases hm
    refine Nat.max_le.mpr ⟨?_, hn⟩
    cases hb : h.began with
    | none => exact Nat.zero_le _
    | some b => exact hk.began b hb
  · obtain ⟨b, hb, hle⟩ := hk.begun i v m hv hm
    rw [hb, Option.getD_some]
    exact hle.trans (Nat.le_max_left b n)

/-- What a served loop has seen was there when the most recent action was called. -/
theorem Served.began {s : RuntimeState Tid} {h : Requests Tid} {i : Tid} {v : LoopView}
    (hs : Served s i v) (hk : Kept s h) (hv : h.loops i = some v) :
    ∃ b, h.began = some b ∧ (s.own i).actionSeen ≤ b := by
  obtain ⟨n, hn, hle⟩ := hs
  obtain ⟨b, hb, hnb⟩ := hk.begun i v n hv hn
  exact ⟨b, hb, hle.trans hnb⟩

variable [DecidableEq Tid]

theorem Requests.loops_of_set {h : Requests Tid} {i j : Tid} {a : Option Nat}
    {v : Option LoopView} {w : LoopView} (hw : (h.set i a v).loops j = some w) :
    (j = i ∧ v = some w) ∨ (j ≠ i ∧ h.loops j = some w) := by
  by_cases hj : j = i
  · subst hj
    rw [Requests.set_loops] at hw
    exact .inl ⟨rfl, hw⟩
  · rw [(h.set_of_ne a v hj).1] at hw
    exact .inr ⟨hj, hw⟩

/-- A thread changes its receiver and what is noted of it. -/
theorem Kept.set {s s' : RuntimeState Tid} {h : Requests Tid} {i : Tid} {a : Option Nat}
    {v : Option LoopView} (hk : Kept s h) (hsends : s'.sends = s.sends)
    (hothers : ∀ j, j ≠ i → (s'.own j).actionSeen = (s.own j).actionSeen)
    (hseen : (s'.own i).actionSeen ≤ s.sends)
    (hasked : ∀ n, a = some n → (s'.own i).actionSeen ≤ n ∧ n ≤ s.sends)
    (hbegun : ∀ w n, v = some w → w.begun = some n → ∃ b, h.began = some b ∧ n ≤ b)
    (hretries : ∀ w, v = some w → w.retries = true → w.flag = true)
    (hserved : ∀ w, v = some w → w.flag = false → Served s' i w) :
    Kept s' (h.set i a v) := by
  refine ⟨fun j => ?_, fun j n hn => ?_, fun n hn => ?_, fun j w n hw hn => ?_,
    fun j w hw hretry => ?_, fun j w hw hflag => ?_⟩
  · rw [hsends]
    by_cases hj : j = i
    · rw [hj]
      exact hseen
    · rw [hothers j hj]
      exact hk.seen j
  · rw [hsends]
    by_cases hj : j = i
    · subst hj
      rw [Requests.set_asked] at hn
      exact hasked n hn
    · rw [(h.set_of_ne a v hj).2] at hn
      rw [hothers j hj]
      exact hk.asked j n hn
  · rw [hsends]
    exact hk.began n hn
  · rcases Requests.loops_of_set hw with ⟨-, hv⟩ | ⟨-, hloop⟩
    · exact hbegun w n hv hn
    · exact hk.begun j w n hloop hn
  · rcases Requests.loops_of_set hw with ⟨-, hv⟩ | ⟨-, hloop⟩
    · exact hretries w hv hretry
    · exact hk.retries j w hloop hretry
  · rcases Requests.loops_of_set hw with ⟨rfl, hv⟩ | ⟨hj, hloop⟩
    · exact hserved w hv hflag
    · rw [Served, hothers j hj]
      exact hk.served j w hloop hflag

/-- A thread calls an action. -/
theorem Kept.ask {s : RuntimeState Tid} {h : Requests Tid} (hk : Kept s h) (i : Tid) :
    Kept s (h.set i (some s.sends) (h.loops i)) := by
  refine hk.set rfl (fun _ _ => rfl) (hk.seen i) (fun n hn => ?_) (fun w n => hk.begun i w n)
    (hk.retries i) (hk.served i)
  cases hn
  exact ⟨hk.seen i, Nat.le_refl _⟩

theorem Kept.proceed {s : RuntimeState Tid} {h : Requests Tid} (hk : Kept s h) (i : Tid) :
    Kept s (h.proceed i s.sends) := by
  refine hk.set rfl (fun _ _ => rfl) (hk.seen i) (fun n hn => ?_) (fun w n hw hn => ?_)
    (fun w hw hretry => ?_) fun w hw hflag => ?_
  · split at hn
    · cases hn
      exact ⟨hk.seen i, Nat.le_refl _⟩
    · exact hk.asked i n hn
  · obtain ⟨v, hv, rfl⟩ := Option.map_eq_some_iff.mp hw
    exact hk.begun i v n hv (LoopView.proceed_begun hn)
  · obtain ⟨v, hv, rfl⟩ := Option.map_eq_some_iff.mp hw
    rw [v.retries_proceed] at hretry
    cases hretry
  · obtain ⟨v, hv, rfl⟩ := Option.map_eq_some_iff.mp hw
    rw [v.proceed_flag] at hflag
    cases hretries : v.retries with
    | true =>
        rw [hk.retries i v hv hretries] at hflag
        cases hflag
    | false =>
        rw [Served, LoopView.proceed_begun_of_not_retries hretries]
        exact hk.served i v hv hflag

theorem Kept.begin {s : RuntimeState Tid} {h : Requests Tid} (hk : Kept s h) (i : Tid) :
    Kept s (h.begin i) := by
  cases ha : h.asked i with
  | none =>
      rw [Requests.begin_of_none ha]
      exact hk
  | some n =>
      rw [Requests.begin_of_some ha]
      obtain ⟨hseen, hsends⟩ := hk.asked i n ha
      refine (hk.raise hsends).set rfl (fun _ _ => rfl) (hk.seen i) (fun _ hm => by cases hm)
        (fun w m hw hm => ?_) (fun w hw hretry => ?_) fun w hw hflag => ?_
      · obtain ⟨v, hv, rfl⟩ := Option.map_eq_some_iff.mp hw
        rcases v.begin_cases n with hsame | hbegun
        · rw [hsame] at hm
          exact (hk.raise hsends).begun i v m hv hm
        · rw [hbegun] at hm
          cases hm
          exact ⟨_, rfl, Nat.le_max_right _ _⟩
      · obtain ⟨v, hv, rfl⟩ := Option.map_eq_some_iff.mp hw
        rw [LoopView.retries, v.begin_stage] at hretry
        rw [v.begin_flag]
        exact hk.retries i v hv hretry
      · obtain ⟨v, hv, rfl⟩ := Option.map_eq_some_iff.mp hw
        rcases v.begin_cases n with hsame | hbegun
        · rw [hsame] at hflag ⊢
          exact hk.served i v hv hflag
        · exact ⟨n, hbegun, hseen⟩

theorem Kept.shared {s s' : RuntimeState Tid} {h : Requests Tid} {i : Tid} {o : Conductor.Op}
    {x : Choice} {r : o.Reply} (hk : Kept s h) (hp : s.performShared i o x = some (r, s')) :
    Kept s' (h.shared s i o r) := by
  have hnoted : Kept s (h.shared s i o r) := by
    simp only [Requests.shared]
    split
    · exact hk.ask i
    · exact hk.proceed i
    · exact hk.begin i
    · exact hk
  refine hnoted.grow (own_actionSeen hp) ?_
  rw [(shared_world hp).2.2]
  split <;> omega

theorem Requests.begin_of_ne {h : Requests Tid} {i j : Tid} (hj : j ≠ i) :
    (h.begin i).loops j = h.loops j ∧ (h.begin i).asked j = h.asked j := by
  cases ha : h.asked i with
  | none =>
      rw [Requests.begin_of_none ha]
      exact ⟨rfl, rfl⟩
  | some n =>
      rw [Requests.begin_of_some ha]
      exact Requests.set_of_ne _ _ _ hj

theorem Requests.shared_of_ne {h : Requests Tid} {s : RuntimeState Tid} {i j : Tid}
    {o : Conductor.Op} {r : o.Reply} (hj : j ≠ i) :
    (h.shared s i o r).loops j = h.loops j ∧ (h.shared s i o r).asked j = h.asked j := by
  simp only [Requests.shared]
  split
  · exact Requests.set_of_ne _ _ _ hj
  · exact Requests.set_of_ne _ _ _ hj
  · exact Requests.begin_of_ne hj
  · exact ⟨rfl, rfl⟩

theorem Requests.perform_of_ne {h : Requests Tid} {s : RuntimeState Tid} {i j : Tid}
    {o : Supervisor.Op} {r : Supervisor.Reply o} (hj : j ≠ i) :
    (h.perform s i o r).loops j = h.loops j ∧ (h.perform s i o r).asked j = h.asked j := by
  cases o with
  | inl o => exact Requests.shared_of_ne hj
  | inr o =>
      cases o with
      | subscribeActions | select b => exact Requests.set_of_ne _ _ _ hj
      | _ => exact ⟨rfl, rfl⟩

/-- The lock of an action leaves a loop where it is. -/
theorem Requests.begin_loops {h : Requests Tid} {i : Tid} {v : LoopView}
    (hv : h.loops i = some v) :
    ∃ w, (h.begin i).loops i = some w ∧ w.flag = v.flag ∧ w.stage = v.stage ∧
      (w = v ∨ ∃ n, h.asked i = some n ∧ w.begun = some n) := by
  cases ha : h.asked i with
  | none =>
      rw [Requests.begin_of_none ha]
      exact ⟨v, hv, rfl, rfl, .inl rfl⟩
  | some n =>
      rw [Requests.begin_of_some ha, Requests.set_loops, hv]
      refine ⟨v.begin n, rfl, v.begin_flag n, v.begin_stage n, ?_⟩
      exact (v.begin_cases n).imp_right fun hbegun => ⟨n, rfl, hbegun⟩

/-- The conductor's operations leave the flag of the loop alone. -/
theorem Requests.shared_flag {h : Requests Tid} {s : RuntimeState Tid} {i : Tid}
    {o : Conductor.Op} {r : o.Reply} {w : LoopView}
    (hw : (h.shared s i o r).loops i = some w) : ∃ v, h.loops i = some v ∧ v.flag = w.flag := by
  simp only [Requests.shared] at hw
  split at hw
  · rw [Requests.set_loops] at hw
    exact ⟨w, hw, rfl⟩
  · rw [Requests.proceed, Requests.set_loops, Option.map_eq_some_iff] at hw
    obtain ⟨v, hv, rfl⟩ := hw
    exact ⟨v, hv, v.proceed_flag.symm⟩
  · cases ha : h.asked i with
    | none =>
        rw [Requests.begin_of_none ha] at hw
        exact ⟨w, hw, rfl⟩
    | some n =>
        rw [Requests.begin_of_some ha, Requests.set_loops, Option.map_eq_some_iff] at hw
        obtain ⟨v, hv, rfl⟩ := hw
        exact ⟨v, hv, (v.begin_flag n).symm⟩
  · exact ⟨w, hw, rfl⟩

/-- What is noted of a loop that handles a branch stays as it is, but for an action that
begins. -/
theorem Requests.shared_handling {h : Requests Tid} {s : RuntimeState Tid} {i : Tid}
    {o : Conductor.Op} {r : o.Reply} {v : LoopView} {selected : Selected}
    (hv : h.loops i = some v) (hstage : v.stage = .handling selected) :
    ∃ w, (h.shared s i o r).loops i = some w ∧ w.flag = v.flag ∧ w.stage = .handling selected ∧
      (w = v ∨ ∃ n, h.asked i = some n ∧ w.begun = some n) := by
  have hsame : ∀ {h' : Requests Tid}, h'.loops i = some v →
      ∃ w, h'.loops i = some w ∧ w.flag = v.flag ∧ w.stage = .handling selected ∧
        (w = v ∨ ∃ n, h.asked i = some n ∧ w.begun = some n) :=
    fun hv' => ⟨v, hv', rfl, hstage, .inl rfl⟩
  simp only [Requests.shared]
  split
  · exact hsame ((Requests.set_loops _ _ _ _).trans hv)
  · refine hsame ?_
    rw [Requests.proceed, Requests.set_loops, hv, Option.map_some,
      LoopView.proceed_handling hstage]
  · obtain ⟨w, hw, hflag, hwstage, hbegun⟩ := Requests.begin_loops hv
    exact ⟨w, hw, hflag, hwstage.trans hstage, hbegun⟩
  · exact hsame hv

/-- The receiver of the raft metrics is not that of the actions. -/
theorem metrics_own {s s' : RuntimeState Tid} {i : Tid} {o : RuntimeOp} {x : Choice} {r : o.Reply}
    (ho : ofMetrics o = true) (hp : s.performRuntime i o x = some (r, s')) :
    ∃ own : Own, s' = s.setOwn i own ∧ own.actionSeen = (s.own i).actionSeen := by
  cases o with
  | metrics | borrowWatchedLeader =>
      cases hp
      exact ⟨_, rfl, rfl⟩
  | metricsChanged =>
      simp only [RuntimeState.performRuntime, RuntimeState.performMetricsChanged] at hp
      split at hp
      · cases hp
        refine ⟨s.own i, ?_, rfl⟩
        rw [RuntimeState.setOwn, Function.update_eq_self]
      · split at hp <;> cases hp
        exact ⟨_, rfl, rfl⟩
  | subscribeActions | select actionPending => cases ho

theorem Requests.runtime_metrics {h : Requests Tid} {i : Tid} {o : RuntimeOp} {r : o.Reply}
    (ho : ofMetrics o = true) : h.runtime i o r = h := by
  cases o with
  | subscribeActions | select actionPending => cases ho
  | _ => rfl

theorem Kept.setOwn {s : RuntimeState Tid} {h : Requests Tid} {i : Tid} {own : Own}
    (hk : Kept s h) (hown : own.actionSeen = (s.own i).actionSeen) : Kept (s.setOwn i own) h := by
  refine hk.grow (fun j => ?_) (Nat.le_refl _)
  by_cases hj : j = i
  · rw [hj, RuntimeState.setOwn_self, hown]
  · rw [RuntimeState.setOwn_of_ne s own hj]

/-- A thread that begins a call. -/
theorem Kept.enter {s : RuntimeState Tid} {h : Requests Tid} (hk : Kept s h) (i : Tid)
    (call : RuntimeCall) :
    Kept (s.setOwn i ((s.own i).begin call)) (h.enter s i call) := by
  have hown : Kept (s.setOwn i ((s.own i).begin call)) h := hk.setOwn rfl
  have hset : ∀ a : Option Nat, (∀ n, a = some n → n = s.sends) →
      Kept (s.setOwn i ((s.own i).begin call)) (h.set i a none) := by
    intro a ha
    refine hown.set rfl (fun _ _ => rfl) (hown.seen i) (fun n hn => ?_)
      (fun _ _ hw => by cases hw) (fun _ hw => by cases hw) fun _ hw => by cases hw
    rw [ha n hn]
    exact ⟨hown.seen i, Nat.le_refl _⟩
  simp only [Requests.enter]
  split
  · exact hset _ fun n hn => by cases hn; rfl
  · exact hset _ fun n hn => by cases hn

theorem Requests.enter_self (h : Requests Tid) (s : RuntimeState Tid) (i : Tid)
    (call : RuntimeCall) : (h.enter s i call).loops i = none := by
  simp only [Requests.enter]
  split <;> exact Requests.set_loops _ _ _ _

theorem Requests.enter_of_ne {h : Requests Tid} {s : RuntimeState Tid} {i j : Tid}
    {call : RuntimeCall} (hj : j ≠ i) :
    (h.enter s i call).loops j = h.loops j ∧ (h.enter s i call).asked j = h.asked j := by
  simp only [Requests.enter]
  split <;> exact Requests.set_of_ne _ _ _ hj

end
end ConductorRs.Runtime

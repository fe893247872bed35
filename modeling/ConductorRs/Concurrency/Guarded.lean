import Mathlib.Data.List.Basic
import ConductorRs.Concurrency.RelyGuarantee
import ConductorRs.Concurrency.Sequential

/-!
Calls on a value behind a lock, one after the other.

A call works on the value while it holds the lock, or makes a single step while
nobody does. The state keeps a log of the calls in the order in which they let go
of the value. Whatever the interleaving, the value is the one that the logged
calls leave when they run alone and in that order, up to the part that the holder
of the lock has done already; and a call stands in the log between the place where
the log ended when it was made and the place where it ended when it returned.
-/
namespace Concurrency

section
variable {Tid State Call Out Choice : Type} {E : Interface}

inductive GuardOp (E : Interface) (Call Out : Type) where
  | acquire
  | release (call : Call) (out : Out)
  | once (op : E.Op) (call : Call) (out : E.Reply op → Out)

@[reducible] def GuardOp.Reply : GuardOp E Call Out → Type
  | .acquire | .release _ _ => Unit
  | .once op _ _ => E.Reply op

@[reducible] def Guard (E : Interface) (Call Out : Type) : Interface where
  Op := GuardOp E Call Out
  Reply := GuardOp.Reply

@[reducible] def Guarded (E : Interface) (Call Out : Type) : Interface :=
  E.sum (Guard E Call Out)

/-- What a call does to the value: a task under the lock, or a step that needs the
lock for no longer than itself. -/
inductive Section (E : Interface) (Out : Type) where
  | exclusive (t : Task E Out)
  | once (op : E.Op) (out : E.Reply op → Out)

namespace Section

/-- The call on a value that nobody else uses. -/
def task : Section E Out → Task E Out
  | .exclusive t => t
  | .once op out => .perform op fun r => .done (out r)

def inside (call : Call) : Task E Out → Task (Guarded E Call Out) Out
  | .done out => .perform (.inr (.release call out)) fun _ => .done out
  | .perform op next => .perform (.inl op) fun r => inside call (next r)

def guarded (call : Call) : Section E Out → Task (Guarded E Call Out) Out
  | .exclusive t => .perform (.inr .acquire) fun _ => inside call t
  | .once op out => .perform (.inr (.once op call out)) fun r => .done (out r)

end Section

/-- A call that has returned: where the log ended when it was made, where it stands
in the log, and where the log ended when it returned. -/
structure Finished (Tid Call Out : Type) where
  tid : Tid
  call : Call
  out : Out
  began : Nat
  placed : Nat
  ended : Nat

structure GuardState (Tid State Call Out : Type) where
  owner : Option Tid
  value : State
  log : List (Tid × Call × Out)
  began : Tid → Nat
  placed : Tid → Nat
  finished : List (Finished Tid Call Out)

namespace GuardState

def free (value : State) : GuardState Tid State Call Out where
  owner := none
  value := value
  log := []
  began _ := 0
  placed _ := 0
  finished := []

variable [DecidableEq Tid]

def enter (s : GuardState Tid State Call Out) (i : Tid) : GuardState Tid State Call Out :=
  { s with began := Function.update s.began i s.log.length }

def place (s : GuardState Tid State Call Out) (i : Tid) (call : Call) (out : Out) :
    GuardState Tid State Call Out :=
  { s with
    log := s.log ++ [(i, call, out)]
    placed := Function.update s.placed i s.log.length }

def leave (s : GuardState Tid State Call Out) (i : Tid) (call : Call) (out : Out) :
    GuardState Tid State Call Out :=
  { s with finished := ⟨i, call, out, s.began i, s.placed i, s.log.length⟩ :: s.finished }

def perform (step : State → (op : E.Op) → Choice → Option (E.Reply op × State))
    (s : GuardState Tid State Call Out) (i : Tid) :
    (op : (Guarded E Call Out).Op) → Choice →
      Option ((Guarded E Call Out).Reply op × GuardState Tid State Call Out)
  | .inl op, x => (step s.value op x).map fun p => (p.1, { s with value := p.2 })
  | .inr .acquire, _ =>
      if s.owner.isNone then some ((), { s with owner := some i }) else none
  | .inr (.release call out), _ =>
      if s.owner = some i then some ((), { s.place i call out with owner := none }) else none
  | .inr (.once op call out), x =>
      if s.owner.isNone then
        (step s.value op x).map fun p =>
          (p.1, { s.place i call (out p.1) with value := p.2 })
      else none

end GuardState

section
variable [DecidableEq Tid]

def guardMachine (sections : Call → Section E Out)
    (step : State → (op : E.Op) → Choice → Option (E.Reply op × State)) :
    Machine Tid (Guarded E Call Out) (GuardState Tid State Call Out) Call Out Choice Empty where
  body call := (sections call).guarded call
  enter s i _ := some (s.enter i)
  perform s i op x := s.perform step i op x
  leave s i call out := s.leave i call out
  env _ e := e.elim

end

variable (sections : Call → Section E Out)
variable (step : State → (op : E.Op) → Choice → Option (E.Reply op × State))

/-- The logged calls, run alone and in order. -/
inductive Serial (start : State) : List (Tid × Call × Out) → State → Prop where
  | nil : Serial start [] start
  | snoc {log : List (Tid × Call × Out)} {s s' : State} {i : Tid} {call : Call} {out : Out} :
      Serial start log s → Runs step (sections call).task s out s' →
      Serial start (log ++ [(i, call, out)]) s'

variable {sections step} in
/-- The part of a log before an entry, the entry, and what follows it. -/
theorem Serial.split {start s : State} {log : List (Tid × Call × Out)}
    (h : Serial sections step start log s) {n : Nat} {i : Tid} {call : Call} {out : Out}
    (hn : log[n]? = some (i, call, out)) :
    ∃ s₁ s₂, Serial sections step start (log.take n) s₁ ∧
      Runs step (sections call).task s₁ out s₂ ∧
      Serial sections step start (log.take (n + 1)) s₂ := by
  induction h with
  | nil => simp at hn
  | @snoc log s₁ s₂ j call' out' hlog hrun ih =>
      rcases Nat.lt_trichotomy n log.length with hlt | rfl | hgt
      · rw [List.getElem?_append_left hlt] at hn
        obtain ⟨u, v, hu, hcall, hv⟩ := ih hn
        refine ⟨u, v, ?_, hcall, ?_⟩
        · rwa [List.take_append_of_le_length (Nat.le_of_lt hlt)]
        · rwa [List.take_append_of_le_length hlt]
      · simp only [List.getElem?_concat_length, Option.some.injEq, Prod.mk.injEq] at hn
        obtain ⟨rfl, rfl, rfl⟩ := hn
        refine ⟨s₁, s₂, ?_, hrun, ?_⟩
        · rwa [List.take_left]
        · rw [List.take_of_length_le (by simp)]
          exact hlog.snoc hrun
      · rw [List.getElem?_eq_none (by simp; omega)] at hn
        cases hn

namespace Guarding
variable (start : State)

/-- What the value is: the one after the logged calls, or one that a further call
passes through. -/
def Value (s : GuardState Tid State Call Out) (settled : State) : Prop :=
  match s.owner with
  | none => s.value = settled
  | some _ => ∃ call, Cut step (sections call).task settled s.value

def Placed (log : List (Tid × Call × Out)) (f : Finished Tid Call Out) : Prop :=
  f.began ≤ f.placed ∧ f.placed < f.ended ∧ f.ended ≤ log.length ∧
    log[f.placed]? = some (f.tid, f.call, f.out)

structure Sound (s : GuardState Tid State Call Out) : Prop where
  serial : ∃ settled, Serial sections step start s.log settled ∧ Value sections step s settled
  finished : ∀ f ∈ s.finished, Placed s.log f

/-- The others leave a thread's own entries alone, and while it holds the lock the
value and the log as well. -/
structure Own (i : Tid) (s s' : GuardState Tid State Call Out) : Prop where
  owner : s'.owner = some i ↔ s.owner = some i
  held : s.owner = some i → s'.value = s.value ∧ s'.log = s.log
  began : s'.began i = s.began i
  placed : s'.placed i = s.placed i
  log : s.log <+: s'.log

@[reducible] def outline : Outline Tid (Guarded E Call Out) (GuardState Tid State Call Out) where
  inv := Sound sections step start
  rely := Own
  idle i s := s.owner ≠ some i
  check _ _ _ := True

variable {sections step start}

theorem own_refl (i : Tid) (s : GuardState Tid State Call Out) : Own i s s :=
  ⟨Iff.rfl, fun _ => ⟨rfl, rfl⟩, rfl, rfl, List.prefix_refl _⟩

theorem Own.trans {i : Tid} {s s' s'' : GuardState Tid State Call Out} (h : Own i s s')
    (h' : Own i s' s'') : Own i s s'' where
  owner := h'.owner.trans h.owner
  held hs := by
    obtain ⟨hvalue, hlog⟩ := h.held hs
    obtain ⟨hvalue', hlog'⟩ := h'.held (h.owner.mpr hs)
    exact ⟨hvalue'.trans hvalue, hlog'.trans hlog⟩
  began := h'.began.trans h.began
  placed := h'.placed.trans h.placed
  log := h.log.trans h'.log

theorem outline_coherent :
    (outline sections step start : Outline Tid _ _).Coherent where
  refl := own_refl
  trans := by
    intro i s s' s'' h h'
    exact Own.trans h h'
  idle := by
    intro i s s' h hr _ hs'
    exact h (hr.owner.mp hs')

theorem Placed.mono {log log' : List (Tid × Call × Out)} {f : Finished Tid Call Out}
    (h : Placed log f) (hlog : log <+: log') : Placed log' f := by
  obtain ⟨hbegan, hended, hlen, hat⟩ := h
  obtain ⟨rest, rfl⟩ := hlog
  refine ⟨hbegan, hended, by simp; omega, ?_⟩
  rw [List.getElem?_append_left (by omega)]
  exact hat

/-- A call that has been made, and nothing more. -/
def Entered (i : Tid) (s : GuardState Tid State Call Out) : Prop :=
  s.owner ≠ some i ∧ s.began i ≤ s.log.length

variable (sections step start) in
/-- The holder has the task left to do: whatever comes of that from here comes of
the whole call from the value it found. -/
def Holding (i : Tid) (call : Call) (t : Task E Out) (s : GuardState Tid State Call Out) :
    Prop :=
  s.owner = some i ∧ s.began i ≤ s.log.length ∧
    ∃ settled, Serial sections step start s.log settled ∧
      (∀ out v, Runs step t s.value out v → Runs step (sections call).task settled out v) ∧
      ∀ v, Cut step t s.value v → Cut step (sections call).task settled v

/-- The call stands in the log. -/
def Past (i : Tid) (call : Call) (out : Out) (s : GuardState Tid State Call Out) : Prop :=
  s.owner ≠ some i ∧ s.began i ≤ s.placed i ∧ s.log[s.placed i]? = some (i, call, out)

theorem entered_stable (i : Tid) :
    (outline sections step start).Stable i (Entered i) := by
  intro s s' h hr _
  refine ⟨fun hs' => h.1 (hr.owner.mp hs'), ?_⟩
  rw [hr.began]
  exact Nat.le_trans h.2 hr.log.length_le

theorem holding_stable (i : Tid) (call : Call) (t : Task E Out) :
    (outline sections step start).Stable i
      (Holding sections step start i call t) := by
  intro s s' h hr _
  obtain ⟨hvalue, hlog⟩ := hr.held h.1
  refine ⟨hr.owner.mpr h.1, ?_⟩
  rw [hr.began, hvalue, hlog]
  exact h.2

theorem past_stable (i : Tid) (call : Call) (out : Out) :
    (outline sections step start).Stable i (Past i call out) := by
  intro s s' h hr _
  obtain ⟨howner, hbegan, hat⟩ := h
  refine ⟨fun hs' => howner (hr.owner.mp hs'), ?_⟩
  obtain ⟨rest, hlog⟩ := hr.log
  rw [hr.began, hr.placed, ← hlog]
  refine ⟨hbegan, ?_⟩
  rw [List.getElem?_append_left (List.getElem?_eq_some_iff.mp hat).1]
  exact hat

/-- The calls that have returned stay where they are in a log that grows. -/
theorem Sound.of_prefix {s s' : GuardState Tid State Call Out}
    (h : Sound sections step start s) (hlog : s.log <+: s'.log)
    (hfinished : s'.finished = s.finished)
    (hserial : ∃ settled, Serial sections step start s'.log settled ∧
      Value sections step s' settled) : Sound sections step start s' where
  serial := hserial
  finished f hf := by
    rw [hfinished] at hf
    exact (h.finished f hf).mono hlog

section
variable [DecidableEq Tid]

theorem own_place {i j : Tid} (hj : j ≠ i) {s s' : GuardState Tid State Call Out} {call : Call}
    {out : Out} (hlog : s'.log = (s.place i call out).log)
    (hplaced : s'.placed = (s.place i call out).placed) (hbegan : s'.began = s.began)
    (howner : s'.owner ≠ some j) (howner' : s.owner ≠ some j) : Own j s s' where
  owner := iff_of_false howner howner'
  held h := absurd h howner'
  began := congrFun hbegan j
  placed := by
    rw [hplaced]
    exact Function.update_of_ne hj _ _
  log := by
    rw [hlog]
    exact List.prefix_append _ _

theorem past_place {i : Tid} {s s' : GuardState Tid State Call Out} {call : Call} {out : Out}
    (hlog : s'.log = (s.place i call out).log)
    (hplaced : s'.placed = (s.place i call out).placed) (hbegan : s'.began = s.began)
    (howner : s'.owner ≠ some i) (h : s.began i ≤ s.log.length) : Past i call out s' := by
  have hat : s'.placed i = s.log.length := by
    rw [hplaced]
    exact Function.update_self i _ _
  refine ⟨howner, ?_, ?_⟩
  · rw [hbegan, hat]
    exact h
  · rw [hlog, hat]
    exact List.getElem?_concat_length

variable {π : Policy Tid (Guarded E Call Out) (GuardState Tid State Call Out) Call Choice Empty}

theorem acquire_holds {i : Tid} {call : Call} {t : Task E Out} (ht : (sections call).task = t) :
    ((guardMachine sections step).logic π (outline sections step start) i).Holds (Entered i)
      (Task.call (E := Guarded E Call Out) (.inr .acquire))
      fun _ => Holding sections step start i call t := by
  refine Machine.Triple.call (entered_stable i) fun s hi hs => ⟨trivial, fun x r s' hp _ => ?_⟩
  simp only [guardMachine, GuardState.perform] at hp
  split at hp
  · next hfree =>
      cases hp
      have hnone : s.owner = none := Option.isNone_iff_eq_none.mp hfree
      obtain ⟨settled, hserial, hvalue⟩ := hi.serial
      rw [Value, hnone] at hvalue
      have hcut : Cut step (sections call).task settled s.value := by
        rw [hvalue]
        exact .here _ _
      refine ⟨⟨hi.of_prefix (List.prefix_refl _) rfl ⟨settled, hserial, call, hcut⟩, ?_⟩, ?_⟩
      · intro j hj
        refine ⟨iff_of_false (fun h => hj (Option.some.inj h).symm) ?_, ?_, rfl, rfl,
          List.prefix_refl _⟩
        · rw [hnone]
          nofun
        · rw [hnone]
          nofun
      · refine ⟨rfl, hs.2, settled, hserial, ?_, ?_⟩
        · intro out v hrun
          rw [ht, ← hvalue]
          exact hrun
        · intro v hrun
          rw [ht, ← hvalue]
          exact hrun
  · cases hp

theorem release_holds {i : Tid} {call : Call} {out : Out} :
    ((guardMachine sections step).logic π (outline sections step start) i).Holds
      (Holding sections step start i call (.done out))
      (Task.call (E := Guarded E Call Out) (.inr (.release call out)))
      fun _ => Past i call out := by
  refine Machine.Triple.call (holding_stable i call _) fun s hi hs =>
    ⟨trivial, fun x r s' hp _ => ?_⟩
  simp only [guardMachine, GuardState.perform] at hp
  obtain ⟨howner, hbegan, settled, hserial, hruns, -⟩ := hs
  rw [if_pos howner] at hp
  cases hp
  refine ⟨⟨hi.of_prefix (List.prefix_append _ _) rfl ?_, ?_⟩, ?_⟩
  · exact ⟨s.value, hserial.snoc (hruns out s.value (.done out s.value)), rfl⟩
  · intro j hj
    refine own_place hj rfl rfl rfl nofun ?_
    rw [howner]
    exact fun h => hj (Option.some.inj h).symm
  · exact past_place rfl rfl rfl nofun hbegan

theorem inner_holds {i : Tid} {call : Call} {op : E.Op} {next : E.Reply op → Task E Out} :
    ((guardMachine sections step).logic π (outline sections step start) i).Holds
      (Holding sections step start i call (.perform op next))
      (Task.call (E := Guarded E Call Out) (.inl op))
      fun r => Holding sections step start i call (next r) := by
  refine Machine.Triple.call (holding_stable i call _) fun s hi hs =>
    ⟨trivial, fun x r s' hp _ => ?_⟩
  simp only [guardMachine, GuardState.perform, Option.map_eq_some_iff] at hp
  obtain ⟨p, hstep, hpair⟩ := hp
  cases hpair
  obtain ⟨howner, hbegan, settled, hserial, hruns, hcuts⟩ := hs
  have hcut : Cut step (sections call).task settled p.2 :=
    hcuts p.2 (.later x hstep (.here _ _))
  refine ⟨⟨hi.of_prefix (List.prefix_refl _) rfl ⟨settled, hserial, ?_⟩, ?_⟩, ?_⟩
  · rw [Value, howner]
    exact ⟨call, hcut⟩
  · intro j hj
    have hother : s.owner ≠ some j := by
      rw [howner]
      exact fun h => hj (Option.some.inj h).symm
    exact ⟨Iff.rfl, fun h => absurd h hother, rfl, rfl, List.prefix_refl _⟩
  · refine ⟨howner, hbegan, settled, hserial, ?_, ?_⟩
    · exact fun out v hrun => hruns out v (.perform x hstep hrun)
    · exact fun v hrun => hcuts v (.later x hstep hrun)

theorem once_holds {i : Tid} {call : Call} {op : E.Op} {out : E.Reply op → Out}
    (hcall : sections call = .once op out) :
    ((guardMachine sections step).logic π (outline sections step start) i).Holds (Entered i)
      (Task.call (E := Guarded E Call Out) (.inr (.once op call out)))
      fun r => Past i call (out r) := by
  refine Machine.Triple.call (entered_stable i) fun s hi hs => ⟨trivial, fun x r s' hp _ => ?_⟩
  simp only [guardMachine, GuardState.perform] at hp
  split at hp
  · next hfree =>
      have hnone : s.owner = none := Option.isNone_iff_eq_none.mp hfree
      obtain ⟨p, hstep, hpair⟩ := Option.map_eq_some_iff.mp hp
      cases hpair
      obtain ⟨settled, hserial, hvalue⟩ := hi.serial
      rw [Value, hnone] at hvalue
      have hrun : Runs step (sections call).task settled (out p.1) p.2 := by
        rw [hcall, ← hvalue]
        exact .perform x hstep (.done _ _)
      have hfree' : ∀ j : Tid, s.owner ≠ some j := by
        intro j
        rw [hnone]
        nofun
      refine ⟨⟨hi.of_prefix (List.prefix_append _ _) rfl ⟨p.2, hserial.snoc hrun, ?_⟩, ?_⟩, ?_⟩
      · rw [Value]
        simp only [GuardState.place, hnone]
      · exact fun j hj => own_place hj rfl rfl rfl (hfree' j) (hfree' j)
      · exact past_place rfl rfl rfl (hfree' i) hs.2
  · cases hp

theorem inside_holds {i : Tid} {call : Call} (t : Task E Out) :
    ((guardMachine sections step).logic π (outline sections step start) i).Holds
      (Holding sections step start i call t) (Section.inside call t) (Past i call) := by
  induction t with
  | done out =>
      exact Logic.bind _ release_holds fun _ => Logic.done _ fun _ _ h => h
  | perform op next ih => exact Logic.bind _ inner_holds ih

theorem guarded_holds (i : Tid) (call : Call) :
    ((guardMachine sections step).logic π (outline sections step start) i).Holds (Entered i)
      ((sections call).guarded call) (Past i call) := by
  cases hcall : sections call with
  | exclusive t =>
      have ht : (sections call).task = t := by
        rw [hcall]
        rfl
      exact Logic.bind _ (acquire_holds ht) fun _ => inside_holds t
  | once op out => exact Logic.bind _ (once_holds hcall) fun r => Logic.done _ fun _ _ h => h

theorem guard_verified :
    (guardMachine sections step).Verified π (outline sections step start) := by
  refine Machine.verified_of_calls outline_coherent (A := fun i _ => Entered i)
    (Q := fun i call out => Past i call out) past_stable ?_ guarded_holds ?_ ?_
  · intro s i call s' hi hidle he _
    cases he
    refine ⟨⟨hi.of_prefix (List.prefix_refl _) rfl hi.serial, fun j hj => ?_⟩, hidle, ?_⟩
    · exact ⟨Iff.rfl, fun _ => ⟨rfl, rfl⟩, Function.update_of_ne hj _ _, rfl,
        List.prefix_refl _⟩
    · have hbegan : (s.enter i).began i = s.log.length := Function.update_self i _ _
      exact Nat.le_of_eq hbegan
  · intro s i call out hi hs
    obtain ⟨howner, hbegan, hat⟩ := hs
    have hlt : s.placed i < s.log.length := (List.getElem?_eq_some_iff.mp hat).1
    refine ⟨⟨⟨hi.serial, ?_⟩, fun j _ => ?_⟩, howner⟩
    · intro f hf
      rcases List.mem_cons.mp hf with rfl | hf
      · exact ⟨hbegan, hlt, Nat.le_refl _, hat⟩
      · exact hi.finished f hf
    · exact ⟨Iff.rfl, fun _ => ⟨rfl, rfl⟩, rfl, rfl, List.prefix_refl _⟩
  · exact fun s e => e.elim

/-- Every interleaving of guarded calls is a log of whole calls, and a cut of one
more while the lock is held. -/
theorem guard_sound {s : State} {c : Config Tid (Guarded E Call Out)
      (GuardState Tid State Call Out) Call Out}
    (h : (guardMachine sections step).Reaches π (.quiet (GuardState.free s)) c) :
    Sound sections step s c.state := by
  have hfree : Sound sections step s (GuardState.free s : GuardState Tid State Call Out) :=
    ⟨⟨s, .nil, rfl⟩, nofun⟩
  have hquiet := Machine.conforms_quiet (M := guardMachine sections step) (π := π)
    (P := outline sections step s) (GuardState.free s) hfree fun _ => nofun
  exact (guard_verified.reaches hquiet h).1

end
end Guarding
end
end Concurrency

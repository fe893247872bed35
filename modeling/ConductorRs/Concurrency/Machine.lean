import ConductorRs.Concurrency.Task

/-!
Interleavings of concurrent calls on one shared state.

A machine says which calls exist, what task each call runs, and what one
operation does to the shared state. A choice resolves everything the code does
not decide (the outcome of a remote call, the data it returns), so one step is a
function of the configuration and the event. An operation that cannot run yet,
such as taking a held lock, has no successor.
-/
namespace Concurrency

structure Machine (Tid : Type) (E : Interface) (State Call Out Choice Env : Type) where
  body : Call → Task E Out
  enter : State → Tid → Call → Option State
  perform : State → Tid → (op : E.Op) → Choice → Option (E.Reply op × State)
  leave : State → Tid → Call → Out → State
  env : State → Env → Option State

structure Config (Tid : Type) (E : Interface) (State Call Out : Type) where
  state : State
  tasks : Tid → Option (Call × Task E Out)

inductive Event (Tid Call Choice Env : Type) where
  | call (i : Tid) (c : Call)
  | step (i : Tid) (x : Choice)
  | ret (i : Tid)
  | env (e : Env)

/-- Restrictions on the steps of a run: calling rules of the environment and
conditions under which a result is stated. -/
structure Policy (Tid : Type) (E : Interface) (State Call Choice Env : Type) where
  call : State → Tid → Call → Prop
  step : State → Tid → E.Op → Choice → Prop
  env : State → Env → Prop

section
variable {Tid State Call Out Choice Env : Type} {E : Interface}

@[reducible] def Policy.any : Policy Tid E State Call Choice Env where
  call _ _ _ := True
  step _ _ _ _ := True
  env _ _ := True

def Policy.Permits (π : Policy Tid E State Call Choice Env)
    (c : Config Tid E State Call Out) : Event Tid Call Choice Env → Prop
  | .call i call => π.call c.state i call
  | .step i x =>
      match c.tasks i with
      | some (_, .perform op _) => π.step c.state i op x
      | _ => True
  | .ret _ => True
  | .env e => π.env c.state e

theorem Policy.any_permits (c : Config Tid E State Call Out) (e : Event Tid Call Choice Env) :
    Policy.any.Permits c e := by
  cases e with
  | step i x =>
      simp only [Permits]
      split <;> trivial
  | _ => trivial

theorem Policy.Permits.step {π : Policy Tid E State Call Choice Env}
    {c : Config Tid E State Call Out} {i : Tid} {x : Choice} {call : Call} {op : E.Op}
    {next : E.Reply op → Task E Out} (h : π.Permits c (.step i x))
    (ht : c.tasks i = some (call, .perform op next)) : π.step c.state i op x := by
  simp only [Permits, ht] at h
  exact h

instance {π : Policy Tid E State Call Choice Env} [∀ s i call, Decidable (π.call s i call)]
    [∀ s i op x, Decidable (π.step s i op x)] [∀ s e, Decidable (π.env s e)]
    (c : Config Tid E State Call Out) : (e : Event Tid Call Choice Env) →
    Decidable (π.Permits c e)
  | .call i call => inferInstanceAs (Decidable (π.call c.state i call))
  | .step i x =>
      match h : c.tasks i with
      | some (_, .perform op _) =>
          decidable_of_iff (π.step c.state i op x) (by simp [Policy.Permits, h])
      | some (_, .done _) | none => .isTrue (by simp [Policy.Permits, h])
  | .ret _ => .isTrue trivial
  | .env e => inferInstanceAs (Decidable (π.env c.state e))

/-- A machine without an environment. -/
instance (π : Policy Tid E State Call Choice Empty) (s : State) (e : Empty) :
    Decidable (π.env s e) :=
  e.elim

/-- The operation thread `i` is about to run. -/
def Config.pending (c : Config Tid E State Call Out) (i : Tid) : Option E.Op :=
  match c.tasks i with
  | some (_, .perform op _) => some op
  | _ => none

theorem Config.pending_of_perform {c : Config Tid E State Call Out} {i : Tid} {call : Call}
    {op : E.Op} {next : E.Reply op → Task E Out}
    (ht : c.tasks i = some (call, .perform op next)) : c.pending i = some op := by
  simp only [pending, ht]

namespace Config
variable [DecidableEq Tid]

def setTask (c : Config Tid E State Call Out) (s : State) (i : Tid)
    (t : Option (Call × Task E Out)) : Config Tid E State Call Out where
  state := s
  tasks := Function.update c.tasks i t

def quiet (s : State) : Config Tid E State Call Out where
  state := s
  tasks _ := none

@[simp] theorem setTask_self (c : Config Tid E State Call Out) (s : State) (i : Tid)
    (t : Option (Call × Task E Out)) : (c.setTask s i t).tasks i = t := by
  simp [setTask]

theorem setTask_of_ne (c : Config Tid E State Call Out) (s : State) {i j : Tid}
    (t : Option (Call × Task E Out)) (h : j ≠ i) :
    (c.setTask s i t).tasks j = c.tasks j := by
  simp [setTask, h]

theorem pending_setTask_of_ne (c : Config Tid E State Call Out) (s : State) {i j : Tid}
    (t : Option (Call × Task E Out)) (h : j ≠ i) : (c.setTask s i t).pending j = c.pending j := by
  simp only [pending, setTask_of_ne c s t h]

end Config

namespace Machine
variable [DecidableEq Tid] (M : Machine Tid E State Call Out Choice Env)
variable (π : Policy Tid E State Call Choice Env)

def step (c : Config Tid E State Call Out) :
    Event Tid Call Choice Env → Option (Config Tid E State Call Out)
  | .call i call =>
      match c.tasks i with
      | some _ => none
      | none => (M.enter c.state i call).map fun s =>
          c.setTask s i (some (call, M.body call))
  | .step i x =>
      match c.tasks i with
      | some (call, .perform op next) => (M.perform c.state i op x).map fun p =>
          c.setTask p.2 i (some (call, next p.1))
      | _ => none
  | .ret i =>
      match c.tasks i with
      | some (call, .done a) => some (c.setTask (M.leave c.state i call a) i none)
      | _ => none
  | .env e => (M.env c.state e).map fun s => { c with state := s }

/-- What a step can be. -/
inductive Moves (c : Config Tid E State Call Out) :
    Event Tid Call Choice Env → Config Tid E State Call Out → Prop where
  | call {i : Tid} {call : Call} {s : State} : c.tasks i = none →
      M.enter c.state i call = some s →
      Moves c (.call i call) (c.setTask s i (some (call, M.body call)))
  | step {i : Tid} {x : Choice} {call : Call} {op : E.Op} {next : E.Reply op → Task E Out}
      {r : E.Reply op} {s : State} : c.tasks i = some (call, .perform op next) →
      M.perform c.state i op x = some (r, s) →
      Moves c (.step i x) (c.setTask s i (some (call, next r)))
  | ret {i : Tid} {call : Call} {a : Out} : c.tasks i = some (call, .done a) →
      Moves c (.ret i) (c.setTask (M.leave c.state i call a) i none)
  | env {e : Env} {s : State} : M.env c.state e = some s → Moves c (.env e) { c with state := s }

variable {M} in
theorem moves_of_step {c c' : Config Tid E State Call Out} {e : Event Tid Call Choice Env}
    (h : M.step c e = some c') : M.Moves c e c' := by
  cases e with
  | call i call =>
      simp only [step] at h
      split at h
      · cases h
      · next ht =>
          obtain ⟨s, hs, rfl⟩ := Option.map_eq_some_iff.mp h
          exact .call ht hs
  | step i x =>
      simp only [step] at h
      split at h
      · next ht =>
          obtain ⟨⟨r, s⟩, hs, rfl⟩ := Option.map_eq_some_iff.mp h
          exact .step ht hs
      · cases h
  | ret i =>
      simp only [step] at h
      split at h
      · next ht =>
          cases h
          exact .ret ht
      · cases h
  | env e =>
      obtain ⟨s, hs, rfl⟩ := Option.map_eq_some_iff.mp h
      exact .env hs

/-- Execution of a schedule that stops at an event its guard rejects. -/
def replay (ok : Config Tid E State Call Out → Event Tid Call Choice Env → Bool)
    (c : Config Tid E State Call Out) :
    List (Event Tid Call Choice Env) → Option (Config Tid E State Call Out)
  | [] => some c
  | e :: es => if ok c e then (M.step c e).bind fun c' => replay ok c' es else none

inductive Reaches : Config Tid E State Call Out → Config Tid E State Call Out → Prop where
  | refl (c) : Reaches c c
  | tail {c c' c''} (e) : Reaches c c' → π.Permits c' e → M.step c' e = some c'' →
      Reaches c c''

variable {M π}

theorem Reaches.head {c c' c'' : Config Tid E State Call Out}
    {e : Event Tid Call Choice Env} (hp : π.Permits c e) (hs : M.step c e = some c')
    (h : M.Reaches π c' c'') : M.Reaches π c c'' := by
  induction h with
  | refl => exact .tail e (.refl _) hp hs
  | tail e' _ hp' hs' ih => exact .tail e' ih hp' hs'

theorem Reaches.trans {c c' c'' : Config Tid E State Call Out} (h : M.Reaches π c c')
    (h' : M.Reaches π c' c'') : M.Reaches π c c'' := by
  induction h' with
  | refl => exact h
  | tail e _ hp hs ih => exact .tail e ih hp hs

/-- A schedule replayed by evaluation is a run of every policy that permits the
events its guard lets through. -/
theorem reaches_of_replay (ok : Config Tid E State Call Out → Event Tid Call Choice Env → Bool)
    (es : List (Event Tid Call Choice Env)) {c : Config Tid E State Call Out}
    {p : Config Tid E State Call Out → Bool}
    (hok : ∀ e ∈ es, ∀ c, ok c e = true → π.Permits c e)
    (h : (M.replay ok c es).any p = true) : ∃ c', M.Reaches π c c' ∧ p c' = true := by
  induction es generalizing c with
  | nil => exact ⟨c, .refl c, h⟩
  | cons e es ih =>
      simp only [replay] at h
      split at h
      · next hgo =>
          cases hs : M.step c e with
          | none => simp [hs] at h
          | some c₁ =>
              rw [hs] at h
              obtain ⟨c', hr, hp⟩ := ih (fun e' he' => hok e' (List.mem_cons_of_mem e he')) h
              exact ⟨c', .head (hok e (List.mem_cons_self ..) c hgo) hs hr, hp⟩
      · cases h

/-- A schedule whose events are checked against the policy as it is replayed. -/
theorem reaches_of_permitted [∀ c e, Decidable (π.Permits (c : Config Tid E State Call Out) e)]
    (es : List (Event Tid Call Choice Env)) {c : Config Tid E State Call Out}
    {p : Config Tid E State Call Out → Bool}
    (h : (M.replay (fun c e => decide (π.Permits c e)) c es).any p = true) :
    ∃ c', M.Reaches π c c' ∧ p c' = true :=
  reaches_of_replay _ es (fun _ _ _ h => of_decide_eq_true h) h

/-- A property kept by every permitted step holds in every configuration
reached. -/
theorem Reaches.induct {c c' : Config Tid E State Call Out}
    {I : Config Tid E State Call Out → Prop} (h : M.Reaches π c c') (hc : I c)
    (hstep : ∀ c e c', I c → π.Permits c e → M.step c e = some c' → I c') : I c' := by
  induction h with
  | refl => exact hc
  | tail e _ hp hs ih => exact hstep _ e _ ih hp hs

/-- What all operations of a call's body satisfy, all operations left of it satisfy. -/
theorem Reaches.all_tasks {p : Call → E.Op → Prop} (hbody : ∀ call, (M.body call).All (p call))
    {s : State} {c : Config Tid E State Call Out} (h : M.Reaches π (Config.quiet s) c) {i : Tid}
    {call : Call} {t : Task E Out} (ht : c.tasks i = some (call, t)) : t.All (p call) := by
  have hall := h.induct
    (I := fun c => ∀ i call t, c.tasks i = some (call, t) → t.All (p call))
    (fun _ _ _ ht => by cases ht) fun c e c' hc _ hs => by
      have hset : ∀ (s' : State) (j : Tid) (t : Option (Call × Task E Out)),
          (∀ call t', t = some (call, t') → t'.All (p call)) → ∀ i call t',
          (c.setTask s' j t).tasks i = some (call, t') → t'.All (p call) := by
        intro s' j t hj i call t' ht'
        by_cases hij : i = j
        · subst hij
          rw [Config.setTask_self] at ht'
          exact hj call t' ht'
        · rw [Config.setTask_of_ne c s' t hij] at ht'
          exact hc i call t' ht'
      cases moves_of_step hs with
      | @call j call s' _ _ =>
          refine hset _ j _ fun call' t' heq => ?_
          cases heq
          exact hbody call
      | @step j x call op next r s' hj _ =>
          refine hset _ j _ fun call' t' heq => ?_
          cases heq
          exact (hc j call _ hj).2 r
      | @ret j call a _ => exact hset _ j none fun _ _ heq => by cases heq
      | env _ => exact hc
  exact hall i call t ht

end Machine
end
end Concurrency

import ConductorRs.Concurrency.Machine

/-!
Machines that keep a history of their runs.

A recorder notes the calls and the operations next to the state. No operation reads
what has been noted, so recording neither adds a run to a machine nor takes one away.
-/
namespace Concurrency

/-- What is noted of a call that begins and of an operation that has replied, in the
state before it. -/
structure Recorder (Tid : Type) (E : Interface) (State Call Hist : Type) where
  enter : State → Hist → Tid → Call → Hist
  perform : State → Hist → Tid → (op : E.Op) → E.Reply op → Hist

section
variable {Tid State Call Out Choice Env Hist : Type} {E : Interface}

def Machine.recorded (M : Machine Tid E State Call Out Choice Env)
    (R : Recorder Tid E State Call Hist) :
    Machine Tid E (State × Hist) Call Out Choice Env where
  body := M.body
  enter s i call := (M.enter s.1 i call).map fun s' => (s', R.enter s.1 s.2 i call)
  perform s i op x :=
    (M.perform s.1 i op x).map fun p => (p.1, p.2, R.perform s.1 s.2 i op p.1)
  leave s i call a := (M.leave s.1 i call a, s.2)
  env s e := (M.env s.1 e).map fun s' => (s', s.2)

@[reducible] def Policy.recorded (Hist : Type) (π : Policy Tid E State Call Choice Env) :
    Policy Tid E (State × Hist) Call Choice Env where
  call s := π.call s.1
  step s := π.step s.1
  env s := π.env s.1

def Config.record (c : Config Tid E State Call Out) (h : Hist) :
    Config Tid E (State × Hist) Call Out where
  state := (c.state, h)
  tasks := c.tasks

def Config.forget (c : Config Tid E (State × Hist) Call Out) : Config Tid E State Call Out where
  state := c.state.1
  tasks := c.tasks

variable {M : Machine Tid E State Call Out Choice Env} {R : Recorder Tid E State Call Hist}
variable {π : Policy Tid E State Call Choice Env}

theorem Policy.permits_forget {c : Config Tid E (State × Hist) Call Out}
    {e : Event Tid Call Choice Env} : (π.recorded Hist).Permits c e ↔ π.Permits c.forget e := by
  cases e <;> exact Iff.rfl

variable [DecidableEq Tid]

theorem Machine.step_forget (c : Config Tid E (State × Hist) Call Out)
    (e : Event Tid Call Choice Env) :
    ((M.recorded R).step c e).map Config.forget = M.step c.forget e := by
  cases e with
  | call i call =>
      simp only [step, Config.forget]
      cases c.tasks i with
      | some p => rfl
      | none => simp [recorded, Function.comp_def, Config.setTask, Config.forget]
  | step i x =>
      simp only [step, Config.forget]
      cases c.tasks i with
      | none => rfl
      | some p =>
          obtain ⟨call, t⟩ := p
          cases t with
          | done a => rfl
          | perform op next =>
              simp [recorded, Function.comp_def, Config.setTask, Config.forget]
  | ret i =>
      simp only [step, Config.forget]
      cases c.tasks i with
      | none => rfl
      | some p =>
          obtain ⟨call, t⟩ := p
          cases t <;> rfl
  | env e => simp [step, recorded, Function.comp_def, Config.forget]

/-- Forgetting the history of a run leaves a run. -/
theorem Machine.Reaches.forget {c c' : Config Tid E (State × Hist) Call Out}
    (h : (M.recorded R).Reaches (π.recorded Hist) c c') : M.Reaches π c.forget c'.forget := by
  induction h with
  | refl => exact .refl _
  | tail e _ hp hs ih =>
      refine ih.tail e (Policy.permits_forget.mp hp) ?_
      rw [← Machine.step_forget (R := R), hs]
      rfl

/-- Every run has a history. -/
theorem Machine.Reaches.record {c c' : Config Tid E State Call Out} (h : M.Reaches π c c')
    (h₀ : Hist) : ∃ h', (M.recorded R).Reaches (π.recorded Hist) (c.record h₀) (c'.record h') := by
  induction h with
  | refl => exact ⟨h₀, .refl _⟩
  | @tail c₁ c₂ e _ hp hs ih =>
      obtain ⟨h₁, hr⟩ := ih
      have hstep := Machine.step_forget (M := M) (R := R) (c₁.record h₁) e
      have hs : M.step (c₁.record h₁).forget e = some c₂ := hs
      rw [hs, Option.map_eq_some_iff] at hstep
      obtain ⟨c', hc', rfl⟩ := hstep
      exact ⟨c'.state.2, hr.tail e (Policy.permits_forget.mpr hp) hc'⟩

end
end Concurrency

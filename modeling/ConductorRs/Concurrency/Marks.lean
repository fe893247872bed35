import ConductorRs.Concurrency.RelyGuarantee

/-!
Marks that calls of one kind leave in the state.

A mark says of a thread that it has begun something it must end before it
returns: it holds a lock, or it owes a notification. Where only calls of one kind
set the mark and an idle thread carries none, a marked thread is inside such a
call, so a configuration in which no such call is in progress carries no mark.
-/
namespace Concurrency
namespace Machine

section
variable {Tid State Call Out Choice Env : Type} {E : Interface}
variable {M : Machine Tid E State Call Out Choice Env}
variable {π : Policy Tid E State Call Choice Env} {P : Outline Tid E State}

/-- A mark on a thread that only calls of one kind can set, and that an idle thread
does not carry. -/
structure Marks (M : Machine Tid E State Call Out Choice Env) (P : Outline Tid E State)
    (mark : State → Tid → Prop) (kind : Call → Prop) : Prop where
  idle : ∀ s i, P.idle i s → ¬mark s i
  body : ∀ call, ¬kind call → (M.body call).All fun op =>
    ∀ s i x r s', M.perform s i op x = some (r, s') → mark s' i → mark s i
  others : ∀ s i op x r s' j, M.perform s i op x = some (r, s') → j ≠ i → mark s' j → mark s j
  enter : ∀ s i call s' j, M.enter s i call = some s' → mark s' j → mark s j
  leave : ∀ s i call a j, mark (M.leave s i call a) j → mark s j
  env : ∀ s e s' j, M.env s e = some s' → mark s' j → mark s j

namespace Marks
variable {mark : State → Tid → Prop} {kind : Call → Prop}
variable {Q : Tid → Call → Out → State → Prop}

/-- A thread that runs a call of another kind cannot set the mark any more, and a
marked thread is inside a call of the kind. -/
def Placed (M : Machine Tid E State Call Out Choice Env) (mark : State → Tid → Prop)
    (kind : Call → Prop) (c : Config Tid E State Call Out) : Prop :=
  (∀ i call t, c.tasks i = some (call, t) → ¬kind call → t.All fun op =>
    ∀ s i x r s', M.perform s i op x = some (r, s') → mark s' i → mark s i) ∧
  ∀ i, mark c.state i → ∃ call t, c.tasks i = some (call, t) ∧ kind call

theorem placed_setTask [DecidableEq Tid] {c : Config Tid E State Call Out} {s' : State}
    {i : Tid} {t : Option (Call × Task E Out)} (h : Placed M mark kind c)
    (htask : ∀ call t', t = some (call, t') → ¬kind call → t'.All fun op =>
      ∀ s i x r s', M.perform s i op x = some (r, s') → mark s' i → mark s i)
    (hself : mark s' i → ∃ call t', t = some (call, t') ∧ kind call)
    (hothers : ∀ j, j ≠ i → mark s' j → mark c.state j) :
    Placed M mark kind (c.setTask s' i t) := by
  refine ⟨fun j call t' ht => ?_, fun j hj => ?_⟩
  · by_cases hji : j = i
    · subst hji
      rw [Config.setTask_self] at ht
      exact htask call t' ht
    · rw [Config.setTask_of_ne c s' t hji] at ht
      exact h.1 j call t' ht
  · by_cases hji : j = i
    · subst hji
      rw [Config.setTask_self]
      exact hself hj
    · rw [Config.setTask_of_ne c s' t hji]
      exact h.2 j (hothers j hji hj)

theorem placed_step [DecidableEq Tid] (K : Marks M P mark kind) (V : M.Meets π P Q)
    {c c' : Config Tid E State Call Out} {e : Event Tid Call Choice Env}
    (h : M.Upholds π P Q c) (hplaced : Placed M mark kind c) (hp : π.Permits c e)
    (hs : M.step c e = some c') : Placed M mark kind c' := by
  have hc' := V.step h hp hs
  cases moves_of_step hs with
  | @call i call s' ht he =>
      refine placed_setTask hplaced ?_ ?_ fun j _ => K.enter _ i call s' j he
      · intro call' t' heq hkind
        cases heq
        exact K.body call hkind
      · intro hmark
        obtain ⟨call', t', hrun, _⟩ := hplaced.2 i (K.enter _ i call s' i he hmark)
        rw [ht] at hrun
        cases hrun
  | @step i x call op next r s' ht hperf =>
      refine placed_setTask hplaced ?_ ?_ fun j hj => K.others _ i op x r s' j hperf hj
      · intro call' t' heq hkind
        cases heq
        exact (hplaced.1 i call _ ht hkind).2 r
      · intro hmark
        by_cases hkind : kind call
        · exact ⟨call, next r, rfl, hkind⟩
        · have hall := (hplaced.1 i call _ ht hkind).1
          obtain ⟨call', t', hrun, hk⟩ := hplaced.2 i (hall _ i x r s' hperf hmark)
          rw [ht] at hrun
          cases hrun
          exact absurd hk hkind
  | @ret i call a ht =>
      have hidle := hc'.2 i
      rw [Config.setTask_self] at hidle
      refine placed_setTask hplaced (fun _ _ heq => by cases heq) ?_
        fun j _ => K.leave _ i call a j
      exact fun hmark => absurd hmark (K.idle _ i hidle)
  | @env e s' he => exact ⟨hplaced.1, fun i hi => hplaced.2 i (K.env _ e s' i he hi)⟩

/-- In every run a marked thread is inside a call of the kind. -/
theorem within [DecidableEq Tid] (K : Marks M P mark kind) (V : M.Meets π P Q) {s : State}
    (h : M.Upholds π P Q (Config.quiet s)) {c : Config Tid E State Call Out}
    (hr : M.Reaches π (Config.quiet s) c) {i : Tid} (hmark : mark c.state i) :
    ∃ call t, c.tasks i = some (call, t) ∧ kind call := by
  have hquiet : Placed M mark kind (Config.quiet s : Config Tid E State Call Out) :=
    ⟨fun _ _ _ ht => (by cases ht), fun j hj => absurd hj (K.idle s j (h.2 j))⟩
  have hboth := hr.induct (I := fun c => M.Upholds π P Q c ∧ Placed M mark kind c)
    ⟨h, hquiet⟩ fun _ _ _ hc hp hs =>
      ⟨V.step hc.1 hp hs, K.placed_step V hc.1 hc.2 hp hs⟩
  exact hboth.2.2 i hmark

end Marks

end
end Machine
end Concurrency

import ConductorRs.Concurrency.Sequential

/-!
Total correctness of tasks that run alone.

A triple says that the task has a run from every state of its precondition, and
that every run from there ends in its postcondition. An operation that has no
successor blocks the task, so nothing with a triple can get stuck.
-/
namespace Concurrency

section
variable {E : Interface} {State Choice : Type}
variable (perform : State → (op : E.Op) → Choice → Option (E.Reply op × State))

def totalLogic : Logic E State where
  inv _ := True
  Holds A t Q := ∀ s, A s → (∃ a s', Runs perform t s a s') ∧
    ∀ a s', Runs perform t s a s' → Q a s'
  done := by
    intro α A Q a h s hA
    refine ⟨⟨a, s, .done a s⟩, fun b s' hrun => ?_⟩
    obtain ⟨rfl, rfl⟩ := runs_done.mp hrun
    exact h _ trivial hA
  bind := by
    intro α β A R Q t f ht hf s hA
    obtain ⟨⟨a, s₁, hrun⟩, hR⟩ := ht s hA
    obtain ⟨⟨b, s', hrest⟩, -⟩ := hf a s₁ (hR a s₁ hrun)
    refine ⟨⟨b, s', hrun.bind hrest⟩, fun b s' h => ?_⟩
    obtain ⟨a, s₁, hrun, hrest⟩ := h.of_bind
    exact (hf a s₁ (hR a s₁ hrun)).2 b s' hrest
  conseq := by
    intro α A B Q R t hA ht hQ s ha
    obtain ⟨hexists, hall⟩ := ht s (hA s trivial ha)
    exact ⟨hexists, fun a s' h => hQ a s' trivial (hall a s' h)⟩

variable {perform}

theorem totalLogic_call {A : State → Prop} {op : E.Op} {Q : E.Reply op → State → Prop}
    (hready : ∀ s, A s → ∃ x r s', perform s op x = some (r, s'))
    (h : ∀ s x r s', A s → perform s op x = some (r, s') → Q r s') :
    (totalLogic perform).Holds A (Task.call op) Q := by
  intro s hA
  refine ⟨?_, fun r s' hrun => ?_⟩
  · obtain ⟨x, r, s', hp⟩ := hready s hA
    exact ⟨r, s', .perform x hp (.done r s')⟩
  · obtain ⟨x, hp⟩ := hrun.of_call
    exact h s x r s' hA hp

/-- A fact that does not depend on the state may be assumed. -/
theorem totalLogic_fact {A : State → Prop} {φ : Prop} {α : Type} {t : Task E α}
    {Q : α → State → Prop} (h : φ → (totalLogic perform).Holds A t Q) :
    (totalLogic perform).Holds (fun s => φ ∧ A s) t Q :=
  fun s hs => h hs.1 s hs.2

end
end Concurrency

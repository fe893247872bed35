import ConductorRs.Concurrency.Logic

/-!
Loops that may run forever.

A loop is cut after a number of rounds, so every finite part of its behaviour is
that of the cut loop for some number. What holds of all cut loops at every point
holds of the loop at every point.
-/
namespace Concurrency

section
variable {E : Interface} {σ β : Type}

/-- At most `n` rounds. A round goes on with a new value or leaves the loop; no
result means that the loop is still running. -/
def Task.loop (body : σ → Task E (σ ⊕ β)) : Nat → σ → Task E (Option β)
  | 0, _ => .done none
  | n + 1, x => (body x).bind fun r => r.elim (Task.loop body n) fun b => .done (some b)

theorem Task.all_loop (p : E.Op → Prop) {body : σ → Task E (σ ⊕ β)} (h : ∀ x, (body x).All p)
    (n : Nat) (x : σ) : (Task.loop body n x).All p := by
  induction n generalizing x with
  | zero => trivial
  | succ n ih =>
      apply Task.all_bind p _ _ (h x)
      intro r
      cases r with
      | inl y => exact ih y
      | inr b => trivial

variable {State : Type} (L : Logic E State)

/-- A round takes the loop invariant to itself or to the postcondition. -/
theorem Logic.loop {body : σ → Task E (σ ⊕ β)} {I : σ → State → Prop}
    {Q : Option β → State → Prop}
    (hbody : ∀ x, L.Holds (I x) (body x) (Sum.elim I fun b => Q (some b)))
    (hrunning : ∀ x s, L.inv s → I x s → Q none s) (n : Nat) (x : σ) :
    L.Holds (I x) (Task.loop body n x) Q := by
  induction n generalizing x with
  | zero => exact L.done (hrunning x)
  | succ n ih =>
      apply L.bind (hbody x)
      intro r
      cases r with
      | inl y => exact ih y
      | inr b => exact L.done fun _ _ h => h

end
end Concurrency

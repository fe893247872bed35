import ConductorRs.Concurrency.CompareAndSwap
import ConductorRs.Concurrency.RelyGuarantee

/-!
Threads that check and change a versioned value, next to each other.

The outline is the one of the ledger: a thread relies on its own row, and between
calls its row is empty. An assertion of a program point is a stage of the call,
so a triple for one operation says which stage it leads to.
-/
namespace Concurrency.Ledger

section
variable {Tid State M : Type} {E : Interface}

@[reducible] def outline (ledger : State → Ledger Tid M) (inv : State → Prop) :
    Outline Tid E State where
  inv := inv
  rely i s s' := Own i (ledger s) (ledger s')
  idle i s := (ledger s).At i .idle
  check _ _ _ := True

variable {ledger : State → Ledger Tid M} {inv : State → Prop}

theorem own_refl (i : Tid) (L : Ledger Tid M) : Own i L L :=
  ⟨rfl, rfl, rfl, rfl⟩

theorem Own.trans {i : Tid} {L L' L'' : Ledger Tid M} (h : Own i L L') (h' : Own i L' L'') :
    Own i L L'' :=
  ⟨h'.1.trans h.1, h'.2.1.trans h.2.1, h'.2.2.1.trans h.2.2.1, h'.2.2.2.trans h.2.2.2⟩

theorem outline_coherent : (outline (E := E) ledger inv).Coherent where
  refl i s := own_refl i (ledger s)
  trans := by
    intro i s s' s'' h h'
    exact h.trans h'
  idle := by
    intro i s s' h hr _
    exact Own.at hr (show (ledger s).At i .idle from h)

theorem at_stable (i : Tid) (stage : Stage) :
    (outline (E := E) ledger inv).Stable i fun s => (ledger s).At i stage :=
  fun _ _ h hr _ => hr.at h

variable {Call Choice Env : Type} {Out : Type}
variable {machine : Machine Tid E State Call Out Choice Env}
variable {π : Policy Tid E State Call Choice Env} {i : Tid}

/-- One operation leads from a stage to the stage its reply tells. -/
theorem stage_call {stage : Stage} {op : E.Op} (next : E.Reply op → Stage)
    (h : ∀ s x r s', inv s → (ledger s).At i stage → machine.perform s i op x = some (r, s') →
      π.step s i op x → inv s' ∧ (∀ j, j ≠ i → Own j (ledger s) (ledger s')) ∧
        (ledger s').At i (next r)) :
    (machine.logic π (outline ledger inv) i).Holds (fun s => (ledger s).At i stage)
      (Task.call op) fun r s => (ledger s).At i (next r) := by
  refine Machine.Triple.call (at_stable i stage) ?_
  intro s hi hs
  refine ⟨trivial, fun x r s' hp hπ => ?_⟩
  obtain ⟨hi', hown, hs'⟩ := h s x r s' hi hs hp hπ
  exact ⟨⟨hi', hown⟩, hs'⟩

/-- An operation that is not entered in the ledger. -/
theorem stage_keep {stage : Stage} {op : E.Op}
    (h : ∀ s x r s', inv s → machine.perform s i op x = some (r, s') →
      inv s' ∧ ledger s' = ledger s) :
    (machine.logic π (outline ledger inv) i).Holds (fun s => (ledger s).At i stage)
      (Task.call op) fun _ s => (ledger s).At i stage := by
  refine stage_call (fun _ => stage) ?_
  intro s x r s' hi hs hp _
  obtain ⟨hi', heq⟩ := h s x r s' hi hp
  rw [heq]
  exact ⟨hi', fun j _ => own_refl j _, hs⟩

end

section
variable {Tid State M Call Choice Env ε α : Type} {E : Interface} [DecidableEq Tid]
variable {ledger : State → Ledger Tid M} {inv : State → Prop}
variable {machine : Machine Tid E State Call (Except ε α) Choice Env}
variable {π : Policy Tid E State Call Choice Env}

/-- Calls that begin and finish in the ledger, with the stages of their bodies,
verify a machine. -/
theorem verified_of_stages (version : Call → Nat)
    (henter : ∀ s i call s', inv s → machine.enter s i call = some s' →
      inv s' ∧ ledger s' = (ledger s).begin i (version call))
    (hbody : ∀ i call, (machine.logic π (outline ledger inv) i).Holds
      (fun s => (ledger s).At i (.entered (version call))) (machine.body call)
      fun out s => (ledger s).At i (.returned (version call) out))
    (hleave : ∀ s i call out, inv s → (ledger s).At i (.returned (version call) out) →
      inv (machine.leave s i call out) ∧
        ledger (machine.leave s i call out) = (ledger s).finish i out)
    (henv : ∀ s e s', inv s → machine.env s e = some s' →
      inv s' ∧ ledger s' = ledger s) :
    machine.Verified π (outline ledger inv) := by
  refine Machine.verified_of_calls outline_coherent
    (A := fun i call s => (ledger s).At i (.entered (version call)))
    (Q := fun i call out s => (ledger s).At i (.returned (version call) out))
    (fun i _ _ => at_stable i _) ?_ hbody ?_ ?_
  · intro s i call s' hi hidle he _
    obtain ⟨hi', heq⟩ := henter s i call s' hi he
    have hown : ∀ j, j ≠ i → Own j (ledger s) (ledger s') := by
      intro j hj
      rw [heq]
      exact own_begin hj _
    refine ⟨⟨hi', hown⟩, ?_⟩
    rw [heq]
    exact hidle.begin _
  · intro s i call out hi hs
    obtain ⟨hi', heq⟩ := hleave s i call out hi hs
    have hown : ∀ j, j ≠ i → Own j (ledger s) (ledger (machine.leave s i call out)) := by
      intro j hj
      rw [heq]
      exact own_finish hj out
    refine ⟨⟨hi', hown⟩, ?_⟩
    change (ledger (machine.leave s i call out)).At i .idle
    rw [heq]
    exact hs.finish
  · intro s e s' hi he _
    obtain ⟨hi', heq⟩ := henv s e s' hi he
    refine ⟨hi', fun j => ?_⟩
    change Own j (ledger s) (ledger s')
    rw [heq]
    exact own_refl j _

end
end Concurrency.Ledger

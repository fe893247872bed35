import ConductorRs.Concurrency.RelyGuarantee

/-!
Outlines put together.

Two outlines for one machine make an outline that says both, and a task that keeps to
each of them keeps to both. An outline for a machine is one for a larger machine that
contains it: what is said of the state is said of a part, and a triple for a task is
one for the task carried over.
-/
namespace Concurrency

section
variable {Tid State Call Out Choice Env : Type} {E : Interface}

def Outline.and (P R : Outline Tid E State) : Outline Tid E State where
  inv s := P.inv s ∧ R.inv s
  rely i s s' := P.rely i s s' ∧ R.rely i s s'
  idle i s := P.idle i s ∧ R.idle i s
  check i s op := P.check i s op ∧ R.check i s op

theorem Outline.Coherent.and {P R : Outline Tid E State} (hP : P.Coherent) (hR : R.Coherent) :
    (P.and R).Coherent where
  refl i s := ⟨hP.refl i s, hR.refl i s⟩
  trans i _ _ _ h h' := ⟨hP.trans i h.1 h'.1, hR.trans i h.2 h'.2⟩
  idle i _ _ h hr hi := ⟨hP.idle i h.1 hr.1 hi.1, hR.idle i h.2 hr.2 hi.2⟩

theorem Outline.Grants.and {P R : Outline Tid E State} {i : Tid} {s s' : State}
    (hP : P.Grants i s s') (hR : R.Grants i s s') : (P.and R).Grants i s s' :=
  ⟨⟨hP.1, hR.1⟩, fun j hj => ⟨hP.2 j hj, hR.2 j hj⟩⟩

namespace Machine
variable {M : Machine Tid E State Call Out Choice Env}
variable {π : Policy Tid E State Call Choice Env} {P R : Outline Tid E State} {i : Tid}

theorem Safe.and {α : Type} {Q Q' : α → State → Prop} {t : Task E α} {s : State}
    (hP : M.Safe π P i Q t s) (hR : M.Safe π R i Q' t s) :
    M.Safe π (P.and R) i (fun a s => Q a s ∧ Q' a s) t s := by
  induction t generalizing s with
  | done a => exact ⟨hP, hR⟩
  | perform op next ih =>
      intro s' hr hi
      obtain ⟨hcP, hstepP⟩ := hP s' hr.1 hi.1
      obtain ⟨hcR, hstepR⟩ := hR s' hr.2 hi.2
      refine ⟨⟨hcP, hcR⟩, fun x r s'' hp hπ => ?_⟩
      obtain ⟨hgP, hnextP⟩ := hstepP x r s'' hp hπ
      obtain ⟨hgR, hnextR⟩ := hstepR x r s'' hp hπ
      exact ⟨hgP.and hgR, ih r hnextP hnextR⟩

theorem Triple.and {α : Type} {A B : State → Prop} {Q Q' : α → State → Prop} {t : Task E α}
    (hP : M.Triple π P i A t Q) (hR : M.Triple π R i B t Q') :
    M.Triple π (P.and R) i (fun s => A s ∧ B s) t fun a s => Q a s ∧ Q' a s :=
  fun s hi hA => Safe.and (hP s hi.1 hA.1) (hR s hi.2 hA.2)

end Machine

section
variable {State' Call' Out' Choice' Env' : Type} {F G : Interface}

/-- The outline of a part of the state; an operation is checked where it is one of the
part. -/
def Outline.pull (P : Outline Tid E State) (part : State' → State) (view : F.Op → Option E.Op) :
    Outline Tid F State' where
  inv s := P.inv (part s)
  rely i s s' := P.rely i (part s) (part s')
  idle i s := P.idle i (part s)
  check i s op' := ∀ op, view op' = some op → P.check i (part s) op

theorem Outline.Coherent.pull {P : Outline Tid E State} (hP : P.Coherent) (part : State' → State)
    (view : F.Op → Option E.Op) : (P.pull part view).Coherent where
  refl i s := hP.refl i (part s)
  trans i _ _ _ h h' := hP.trans i h h'
  idle i _ _ h hr hi := hP.idle i h hr hi

/-- A step that leaves the part alone. -/
theorem Outline.Coherent.pull_grants {P : Outline Tid E State} (hP : P.Coherent)
    {part : State' → State} {view : F.Op → Option E.Op} {i : Tid} {s s' : State'}
    (hi : P.inv (part s)) (h : part s' = part s) : (P.pull part view).Grants i s s' := by
  have hs' : P.inv (part s') := by rwa [h]
  refine ⟨hs', fun j _ => ?_⟩
  change P.rely j (part s) (part s')
  rw [h]
  exact hP.refl j (part s)

namespace Machine
variable {M : Machine Tid E State Call Out Choice Env}
variable {M' : Machine Tid F State' Call' Out' Choice' Env'}
variable {π : Policy Tid E State Call Choice Env} {π' : Policy Tid F State' Call' Choice' Env'}
variable {P : Outline Tid E State} {P' : Outline Tid F State'} {i : Tid} (part : State' → State)

/-- A task keeps to an outline of the larger machine where each of its operations does. -/
theorem Triple.interp {handler : (op : E.Op) → Task F (E.Reply op)}
    (hinv : ∀ s, P'.inv s → P.inv (part s))
    (hop : ∀ (op : E.Op) (A : State → Prop) (Q : E.Reply op → State → Prop),
      M.Triple π P i A (Task.call op) Q →
      M'.Triple π' P' i (fun s => A (part s)) (handler op) fun r s => Q r (part s))
    {α : Type} {A : State → Prop} {Q : α → State → Prop} {t : Task E α}
    (h : M.Triple π P i A t Q) :
    M'.Triple π' P' i (fun s => A (part s)) (t.interp handler) fun a s => Q a (part s) := by
  induction t generalizing A with
  | done a => exact fun s hi ha => h (part s) (hinv s hi) ha
  | perform op next ih =>
      -- between the operation and the rest stands what the rest needs
      refine Triple.bind (hop op A (fun r s => M.Safe π P i Q (next r) s) fun s hi ha => ?_)
        fun r => ih r fun s _ hs => hs
      exact h s hi ha

/-- One operation of the part, on the right of the operations of the larger machine. -/
theorem Triple.pull_inr {M' : Machine Tid (G.sum E) State' Call' Out' Choice' Env'}
    {π' : Policy Tid (G.sum E) State' Call' Choice' Env'}
    {view : G.Op ⊕ E.Op → Option E.Op} (hview : ∀ op op', view (.inr op) = some op' → op' = op)
    {op : E.Op}
    (hperform : ∀ s x r s', M'.perform s i (.inr op) x = some (r, s') → ∃ x',
      M.perform (part s) i op x' = some (r, part s') ∧ π.step (part s) i op x')
    {A : State → Prop} {Q : E.Reply op → State → Prop} (h : M.Triple π P i A (Task.call op) Q) :
    M'.Triple π' (P.pull (F := G.sum E) part view) i (fun s => A (part s))
      (Task.call (E := G.sum E) (.inr op)) fun r s => Q r (part s) := by
  intro s hi ha s' hr hi'
  obtain ⟨hc, hstep⟩ := h (part s) hi ha (part s') hr hi'
  refine ⟨fun op' hop' => ?_, fun x r s'' hp _ => ?_⟩
  · rw [hview op op' hop']
    exact hc
  · obtain ⟨x', hp', hπ⟩ := hperform s' x r s'' hp
    exact hstep x' r (part s'') hp' hπ

end Machine
end
end
end Concurrency

import ConductorRs.Concurrency.Answers
import ConductorRs.Concurrency.Sequential

/-!
What a task has asked, and what it was told.

The state is the list of the exchanges so far, and every operation may be given any
reply. A triple then speaks about the order of the operations of a task, and the
invariant of the logic about every moment of a run.
-/
namespace Concurrency

structure Exchange (E : Interface) where
  op : E.Op
  reply : E.Reply op

section
variable {E : Interface}

abbrev Transcript (E : Interface) := List (Exchange E)

def record (told : Transcript E) (op : E.Op) (answer : (op : E.Op) → E.Reply op) :
    Option (E.Reply op × Transcript E) :=
  some (answer op, told ++ [⟨op, answer op⟩])

/-- One more exchange. -/
theorem record_call {inv A : Transcript E → Prop} {op : E.Op}
    {Q : E.Reply op → Transcript E → Prop}
    (h : ∀ told r, inv told → A told → inv (told ++ [⟨op, r⟩]) ∧ Q r (told ++ [⟨op, r⟩])) :
    (crashLogic record inv).Holds A (Task.call op) Q := by
  refine crashLogic_call fun told answer r told' hi hA hp => ?_
  cases hp
  exact h told (answer op) hi hA

theorem record_exists {ι α : Type} {inv : Transcript E → Prop} {A : ι → Transcript E → Prop}
    {t : Task E α} {Q : α → Transcript E → Prop}
    (h : ∀ i, (crashLogic record inv).Holds (A i) t Q) :
    (crashLogic record inv).Holds (fun told => ∃ i, A i told) t Q := by
  rintro told hi ⟨i, hA⟩
  exact h i told hi hA

/-- Where an assertion implies the invariant, the invariant need not be shown. -/
theorem record_keep {inv A : Transcript E → Prop} {op : E.Op}
    {Q : E.Reply op → Transcript E → Prop} (hQ : ∀ r told, Q r told → inv told)
    (h : ∀ told r, A told → Q r (told ++ [⟨op, r⟩])) :
    (crashLogic record inv).Holds A (Task.call op) Q :=
  record_call fun told r _ hA => ⟨hQ r _ (h told r hA), h told r hA⟩

/-- A state that keeps a transcript, read as the transcript. -/
theorem record_of_cut {State Choice α : Type}
    {perform : State → (op : E.Op) → Choice → Option (E.Reply op × State)}
    (told : State → Transcript E)
    (htold : ∀ s op x r s', perform s op x = some (r, s') → told s' = told s ++ [⟨op, r⟩])
    (answer : Choice → (op : E.Op) → E.Reply op) {t : Task E α} {s s' : State}
    (h : Cut perform t s s') : Cut record t (told s) (told s') := by
  classical
  induction h with
  | here t s => exact .here t (told s)
  | @later op next s s₁ s' r x hp _ ih =>
      have hrecord : record (told s) op (Function.update (answer x) op r) =
          some (r, told s₁) := by
        rw [record, Function.update_self, htold s op x r s₁ hp]
      exact .later _ hrecord ih

end
end Concurrency

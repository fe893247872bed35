import ConductorRs.Concurrency.Task

/-!
Tasks whose operations are answered by a function: the result, and the
operations performed on the way.
-/
namespace Concurrency.Task

section
variable {E : Interface} {α β ε : Type} (answer : (op : E.Op) → E.Reply op)

def result : Task E α → α
  | .done a => a
  | .perform op next => (next (answer op)).result

def trace : Task E α → List E.Op
  | .done _ => []
  | .perform op next => op :: (next (answer op)).trace

theorem result_bind (t : Task E α) (f : α → Task E β) :
    (t.bind f).result answer = (f (t.result answer)).result answer := by
  induction t with
  | done a => rfl
  | perform op next ih => exact ih (answer op)

theorem trace_bind (t : Task E α) (f : α → Task E β) :
    (t.bind f).trace answer = t.trace answer ++ (f (t.result answer)).trace answer := by
  induction t with
  | done a => rfl
  | perform op next ih => exact congrArg (op :: ·) (ih (answer op))

theorem result_bindExcept {t : ExceptT ε (Task E) α} {a : α} (f : α → ExceptT ε (Task E) β)
    (h : t.run.result answer = .ok a) :
    (t >>= f).run.result answer = (f a).run.result answer := by
  refine (result_bind answer t.run _).trans ?_
  rw [h]
  rfl

theorem trace_bindExcept {t : ExceptT ε (Task E) α} {a : α} (f : α → ExceptT ε (Task E) β)
    (h : t.run.result answer = .ok a) :
    (t >>= f).run.trace answer = t.run.trace answer ++ (f a).run.trace answer := by
  refine (trace_bind answer t.run _).trans ?_
  rw [h]
  rfl

theorem result_bindLift (t : Task E α) (f : α → ExceptT ε (Task E) β) :
    ((ExceptT.lift t : ExceptT ε (Task E) α) >>= f).run.result answer =
      (f (t.result answer)).run.result answer := by
  have heq : ((ExceptT.lift t : ExceptT ε (Task E) α) >>= f).run = t.bind fun a => (f a).run :=
    bind_bind t _ _
  rw [heq, result_bind]

theorem trace_bindLift (t : Task E α) (f : α → ExceptT ε (Task E) β) :
    ((ExceptT.lift t : ExceptT ε (Task E) α) >>= f).run.trace answer =
      t.trace answer ++ (f (t.result answer)).run.trace answer := by
  have heq : ((ExceptT.lift t : ExceptT ε (Task E) α) >>= f).run = t.bind fun a => (f a).run :=
    bind_bind t _ _
  rw [heq, trace_bind]

/-- The computation comes to its end. -/
def Succeeds (t : ExceptT ε (Task E) α) : Prop := ∃ a, t.run.result answer = .ok a

variable {answer}

theorem Succeeds.bind {t : ExceptT ε (Task E) α} {f : α → ExceptT ε (Task E) β}
    (ht : Succeeds answer t) (hf : ∀ a, Succeeds answer (f a)) : Succeeds answer (t >>= f) := by
  obtain ⟨a, ha⟩ := ht
  obtain ⟨b, hb⟩ := hf a
  exact ⟨b, (result_bindExcept answer f ha).trans hb⟩

end
end Concurrency.Task

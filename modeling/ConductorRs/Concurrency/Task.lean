import Mathlib.Logic.Function.Basic

/-!
Suspended computations over an interface of atomic operations.

A task either has finished or waits for the reply of one operation. The
operations are the points at which another task may run: a lock acquisition,
an access to shared memory, a call to an outside service. Nothing is said here
about what an operation does; a machine or a handler supplies that meaning.
-/
namespace Concurrency

/-- The operations a task may wait for, each with the type of its reply. -/
structure Interface where
  Op : Type
  Reply : Op → Type

/-- The operations of two interfaces side by side. -/
@[reducible] def Interface.sum (E F : Interface) : Interface where
  Op := E.Op ⊕ F.Op
  Reply
    | .inl op => E.Reply op
    | .inr op => F.Reply op

inductive Task (E : Interface) (α : Type) where
  | done (a : α)
  | perform (op : E.Op) (next : E.Reply op → Task E α)

namespace Task
variable {E F : Interface} {α β ε : Type}

protected def bind : Task E α → (α → Task E β) → Task E β
  | .done a, f => f a
  | .perform op next, f => .perform op fun r => (next r).bind f

instance : Monad (Task E) where
  pure := .done
  bind := Task.bind

/-- Perform one operation and return its reply. -/
def call (op : E.Op) : Task E (E.Reply op) :=
  .perform op .done

theorem bind_done (t : Task E α) : t.bind .done = t := by
  induction t with
  | done a => rfl
  | perform op next ih => exact congrArg (Task.perform op) (funext ih)

theorem bind_bind {γ : Type} (t : Task E α) (f : α → Task E β) (g : β → Task E γ) :
    (t.bind f).bind g = t.bind fun a => (f a).bind g := by
  induction t with
  | done a => rfl
  | perform op next ih => exact congrArg (Task.perform op) (funext ih)

instance : LawfulMonad (Task E) :=
  LawfulMonad.mk' (Task E) (fun t => bind_done t) (fun _ _ => rfl)
    (fun t f g => bind_bind t f g)

/-- A fallible task, read as a computation that stops at its first error. -/
def attempt (t : Task E (Except ε α)) : ExceptT ε (Task E) α :=
  ExceptT.mk t

/-- One task for each element of a list, one after the other. -/
def each {ι : Type} (f : ι → Task E α) : List ι → Task E (List α)
  | [] => .done []
  | x :: xs => (f x).bind fun a => (each f xs).bind fun as => .done (a :: as)

/-- Give every operation of a task its meaning as a task over a lower
interface. Replies keep their type, so the continuation is unchanged. -/
def interp (handler : (op : E.Op) → Task F (E.Reply op)) : Task E α → Task F α
  | .done a => .done a
  | .perform op next => (handler op).bind fun r => (next r).interp handler

theorem interp_bind (handler : (op : E.Op) → Task F (E.Reply op))
    (t : Task E α) (f : α → Task E β) :
    (t.bind f).interp handler =
      (t.interp handler).bind fun a => (f a).interp handler := by
  induction t with
  | done a => rfl
  | perform op next ih =>
      simp only [Task.bind, interp, bind_bind]
      exact congrArg ((handler op).bind ·) (funext ih)

/-- Every operation the task may ever wait for satisfies the predicate,
whatever the replies are. -/
def All (p : E.Op → Prop) : Task E α → Prop
  | .done _ => True
  | .perform op next => p op ∧ ∀ r, (next r).All p

theorem all_bind (p : E.Op → Prop) (t : Task E α) (f : α → Task E β)
    (ht : t.All p) (hf : ∀ a, (f a).All p) : (t.bind f).All p := by
  induction t with
  | done a => exact hf a
  | perform op next ih => exact ⟨ht.1, fun r => ih r (ht.2 r)⟩

theorem all_bindExcept (p : E.Op → Prop) (t : ExceptT ε (Task E) α)
    (f : α → ExceptT ε (Task E) β) (ht : t.run.All p) (hf : ∀ a, (f a).run.All p) :
    (t >>= f).run.All p := by
  refine all_bind p t.run _ ht fun r => ?_
  cases r with
  | ok a => exact hf a
  | error e => trivial

theorem all_of_forall {p : E.Op → Prop} (h : ∀ op, p op) (t : Task E α) : t.All p := by
  induction t with
  | done a => trivial
  | perform op next ih => exact ⟨h op, ih⟩

theorem all_mono {p q : E.Op → Prop} (h : ∀ op, p op → q op) (t : Task E α)
    (ht : t.All p) : t.All q := by
  induction t with
  | done a => trivial
  | perform op next ih => exact ⟨h op ht.1, fun r => ih r (ht.2 r)⟩

theorem all_interp {p : E.Op → Prop} {q : F.Op → Prop}
    {handler : (op : E.Op) → Task F (E.Reply op)} (h : ∀ op, p op → (handler op).All q)
    {t : Task E α} (ht : t.All p) : (t.interp handler).All q := by
  induction t with
  | done a => trivial
  | perform op next ih => exact all_bind q _ _ (h op ht.1) fun r => ih r (ht.2 r)

end Task
end Concurrency

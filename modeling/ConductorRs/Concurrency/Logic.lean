import ConductorRs.Concurrency.Task

/-!
Pre- and postconditions for tasks, without a choice of what they mean.

A logic judges tasks over one interface and is closed under sequencing and
consequence. Everything proved here about a program from triples for its
operations holds in every such logic. A logic for a lower interface is one for
an upper interface through a handler.
-/
namespace Concurrency

structure Logic (E : Interface) (State : Type) where
  inv : State → Prop
  Holds : {α : Type} → (State → Prop) → Task E α → (α → State → Prop) → Prop
  done : ∀ {α : Type} {A : State → Prop} {Q : α → State → Prop} {a : α},
    (∀ s, inv s → A s → Q a s) → Holds A (.done a) Q
  bind : ∀ {α β : Type} {A : State → Prop} {R : α → State → Prop} {Q : β → State → Prop}
    {t : Task E α} {f : α → Task E β},
    Holds A t R → (∀ a, Holds (R a) (f a) Q) → Holds A (t.bind f) Q
  conseq : ∀ {α : Type} {A B : State → Prop} {Q R : α → State → Prop} {t : Task E α},
    (∀ s, inv s → A s → B s) → Holds B t Q → (∀ a s, inv s → Q a s → R a s) → Holds A t R

namespace Logic
variable {E F : Interface} {State : Type} (L : Logic E State)
variable {α β ε : Type} {A B : State → Prop}

theorem pre {Q : α → State → Prop} {t : Task E α} (hA : ∀ s, A s → B s)
    (h : L.Holds B t Q) : L.Holds A t Q :=
  L.conseq (fun s _ ha => hA s ha) h fun _ _ _ hq => hq

theorem post {Q R : α → State → Prop} {t : Task E α} (h : L.Holds A t Q)
    (hQ : ∀ a s, Q a s → R a s) : L.Holds A t R :=
  L.conseq (fun _ _ ha => ha) h fun a s _ hq => hQ a s hq

/-- Sequencing of computations that stop at their first error. -/
theorem bindExcept {R : Except ε α → State → Prop} {Q : Except ε β → State → Prop}
    {t : ExceptT ε (Task E) α} {f : α → ExceptT ε (Task E) β} (ht : L.Holds A t.run R)
    (hf : ∀ a, L.Holds (R (.ok a)) (f a).run Q)
    (he : ∀ e s, L.inv s → R (.error e) s → Q (.error e) s) :
    L.Holds A (t >>= f).run Q := by
  refine L.bind ht fun r => ?_
  cases r with
  | ok a => exact hf a
  | error e => exact L.done (he e)

/-- A fallible step that performs no operation. -/
theorem bindPure {Q : Except ε β → State → Prop} {r : Except ε α}
    {f : α → ExceptT ε (Task E) β} (hf : ∀ a, r = .ok a → L.Holds A (f a).run Q)
    (he : ∀ e s, L.inv s → A s → Q (.error e) s) :
    L.Holds A (ExceptT.mk (Task.done r) >>= f).run Q := by
  cases r with
  | ok a => exact hf a rfl
  | error e => exact L.done (he e)

/-- A step that cannot fail. -/
theorem bindLift {R : α → State → Prop} {Q : Except ε β → State → Prop} {t : Task E α}
    {f : α → ExceptT ε (Task E) β} (ht : L.Holds A t R)
    (hf : ∀ a, L.Holds (R a) (f a).run Q) :
    L.Holds A ((ExceptT.lift t : ExceptT ε (Task E) α) >>= f).run Q := by
  have heq : ((ExceptT.lift t : ExceptT ε (Task E) α) >>= f).run = t.bind fun a => (f a).run :=
    Task.bind_bind t _ _
  rw [heq]
  exact L.bind ht hf

theorem lift {R : α → State → Prop} {Q : Except ε α → State → Prop} {t : Task E α}
    (ht : L.Holds A t R) (hQ : ∀ a s, R a s → Q (.ok a) s) :
    L.Holds A (ExceptT.lift t : ExceptT ε (Task E) α).run Q :=
  L.bind ht fun a => L.done fun s _ h => hQ a s h

/-- A task whose operations all keep one assertion keeps it. -/
theorem all {p : E.Op → Prop} (h : ∀ op, p op → L.Holds A (Task.call op) fun _ => A)
    {t : Task E α} (ht : t.All p) : L.Holds A t fun _ => A := by
  induction t with
  | done a => exact L.done fun _ _ ha => ha
  | perform op next ih => exact L.bind (h op ht.1) fun r => ih r (ht.2 r)

/-- The logic that says no more than which operations a task performs. -/
def ops (p : E.Op → Prop) : Logic E Unit where
  inv _ := True
  Holds _ t _ := t.All p
  done _ := trivial
  bind ht hf := Task.all_bind p _ _ ht hf
  conseq _ ht _ := ht

/-- Judge a task by what its operations do over a lower interface. -/
def via (L : Logic F State) (handler : (op : E.Op) → Task F (E.Reply op)) :
    Logic E State where
  inv := L.inv
  Holds A t Q := L.Holds A (t.interp handler) Q
  done h := L.done h
  bind ht hf := by
    rw [Task.interp_bind]
    exact L.bind ht hf
  conseq := L.conseq

theorem via_call (L : Logic F State) {handler : (op : E.Op) → Task F (E.Reply op)}
    {op : E.Op} {Q : E.Reply op → State → Prop} (h : L.Holds A (handler op) Q) :
    (L.via handler).Holds A (Task.call op) Q := by
  have hb : (handler op).bind .done = handler op := Task.bind_done _
  change L.Holds A ((handler op).bind .done) Q
  rw [hb]
  exact h

end Logic
end Concurrency

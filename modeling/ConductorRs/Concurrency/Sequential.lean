import ConductorRs.Concurrency.Logic

/-!
Tasks that run alone and may be cut at any point.

`Runs` relates a task to the states in which it ends, `Cut` to every state it
passes through. A triple of the crash logic says that a task keeps an invariant
in all of them, so whatever a cut leaves behind is known.
-/
namespace Concurrency

section
variable {E : Interface} {State Choice : Type}

inductive Runs (perform : State → (op : E.Op) → Choice → Option (E.Reply op × State))
    {α : Type} : Task E α → State → α → State → Prop where
  | done (a : α) (s : State) : Runs perform (.done a) s a s
  | perform {op : E.Op} {next : E.Reply op → Task E α} {s s₁ s' : State} {r : E.Reply op}
      {a : α} (x : Choice) : perform s op x = some (r, s₁) → Runs perform (next r) s₁ a s' →
      Runs perform (.perform op next) s a s'

inductive Cut (perform : State → (op : E.Op) → Choice → Option (E.Reply op × State))
    {α : Type} : Task E α → State → State → Prop where
  | here (t : Task E α) (s : State) : Cut perform t s s
  | later {op : E.Op} {next : E.Reply op → Task E α} {s s₁ s' : State} {r : E.Reply op}
      (x : Choice) : perform s op x = some (r, s₁) → Cut perform (next r) s₁ s' →
      Cut perform (.perform op next) s s'

/-- One task for each element of a list, run to its end before the next. -/
inductive RunsEach (perform : State → (op : E.Op) → Choice → Option (E.Reply op × State))
    {ι α : Type} (f : ι → Task E α) : List ι → State → List α → State → Prop where
  | nil (s : State) : RunsEach perform f [] s [] s
  | cons {x : ι} {xs : List ι} {s s₁ s' : State} {a : α} {as : List α} :
      Runs perform (f x) s a s₁ → RunsEach perform f xs s₁ as s' →
      RunsEach perform f (x :: xs) s (a :: as) s'

variable {perform : State → (op : E.Op) → Choice → Option (E.Reply op × State)}

theorem Runs.cut {α : Type} {t : Task E α} {s s' : State} {a : α}
    (h : Runs perform t s a s') : Cut perform t s s' := by
  induction h with
  | done a s => exact .here _ s
  | perform x hp _ ih => exact .later x hp ih

theorem Runs.of_bind {α β : Type} {t : Task E α} {f : α → Task E β} {s s' : State} {b : β}
    (h : Runs perform (t.bind f) s b s') :
    ∃ a s₁, Runs perform t s a s₁ ∧ Runs perform (f a) s₁ b s' := by
  induction t generalizing s with
  | done a => exact ⟨a, s, .done a s, h⟩
  | perform op next ih =>
      cases h with
      | perform x hp hrest =>
          obtain ⟨a, s₁, ht, hf⟩ := ih _ hrest
          exact ⟨a, s₁, .perform x hp ht, hf⟩

theorem Runs.bind {α β : Type} {t : Task E α} {f : α → Task E β} {s s₁ s' : State} {a : α} {b : β}
    (ht : Runs perform t s a s₁) (hf : Runs perform (f a) s₁ b s') :
    Runs perform (t.bind f) s b s' := by
  induction ht with
  | done a s => exact hf
  | perform x hp _ ih => exact .perform x hp (ih hf)

theorem runs_each_iff {ι α : Type} {f : ι → Task E α} {xs : List ι} {s s' : State} {as : List α} :
    Runs perform (Task.each f xs) s as s' ↔ RunsEach perform f xs s as s' := by
  constructor
  · intro h
    induction xs generalizing s as with
    | nil =>
        cases h
        exact .nil _
    | cons x xs ih =>
        obtain ⟨a, s₁, hx, h⟩ := h.of_bind
        obtain ⟨bs, s₂, hxs, h⟩ := h.of_bind
        cases h
        exact .cons hx (ih hxs)
  · intro h
    induction h with
    | nil s => exact .done [] s
    | cons hx _ ih => exact hx.bind (ih.bind (.done _ _))

/-- One more element at the end. -/
theorem RunsEach.snoc {ι α : Type} {f : ι → Task E α} {xs : List ι} {s s₁ s' : State}
    {as : List α} {x : ι} {a : α} (h : RunsEach perform f xs s as s₁)
    (hx : Runs perform (f x) s₁ a s') : RunsEach perform f (xs ++ [x]) s (as ++ [a]) s' := by
  induction h with
  | nil s => exact .cons hx (.nil _)
  | cons hy _ ih => exact .cons hy (ih hx)

/-- A computation that stops at its first error stops there or goes on. -/
theorem Runs.of_bindExcept {α β ε : Type} {t : ExceptT ε (Task E) α}
    {f : α → ExceptT ε (Task E) β} {s s' : State} {b : Except ε β}
    (h : Runs perform (t >>= f).run s b s') :
    (∃ e, Runs perform t.run s (.error e) s' ∧ b = .error e) ∨
      ∃ a s₁, Runs perform t.run s (.ok a) s₁ ∧ Runs perform (f a).run s₁ b s' := by
  obtain ⟨r, s₁, ht, hf⟩ := Runs.of_bind (t := t.run) h
  cases r with
  | error e =>
      cases hf
      exact .inl ⟨e, ht, rfl⟩
  | ok a => exact .inr ⟨a, s₁, ht, hf⟩

theorem Runs.bindExcept {α β ε : Type} {t : ExceptT ε (Task E) α}
    {f : α → ExceptT ε (Task E) β} {s s₁ s' : State} {a : α} {b : Except ε β}
    (ht : Runs perform t.run s (.ok a) s₁) (hf : Runs perform (f a).run s₁ b s') :
    Runs perform (t >>= f).run s b s' :=
  Runs.bind (f := ExceptT.bindCont f) ht hf

theorem Runs.stop {α β ε : Type} {t : ExceptT ε (Task E) α} {f : α → ExceptT ε (Task E) β}
    {s s' : State} {e : ε} (h : Runs perform t.run s (.error e) s') :
    Runs perform (t >>= f).run s (.error e) s' :=
  Runs.bind (f := ExceptT.bindCont f) h (.done _ _)

/-- A step that cannot fail is followed by the rest. -/
theorem runs_lift {α β ε : Type} {t : Task E α} {f : α → ExceptT ε (Task E) β} {s s' : State}
    {b : Except ε β} :
    Runs perform ((ExceptT.lift t : ExceptT ε (Task E) α) >>= f).run s b s' ↔
      Runs perform (t.bind fun a => (f a).run) s b s' := by
  have heq : ((ExceptT.lift t : ExceptT ε (Task E) α) >>= f).run = t.bind fun a => (f a).run :=
    Task.bind_bind t _ _
  rw [heq]

theorem runs_done {α : Type} {s s' : State} {a b : α} :
    Runs perform (.done a) s b s' ↔ b = a ∧ s' = s := by
  constructor
  · intro h
    cases h
    exact ⟨rfl, rfl⟩
  · rintro ⟨rfl, rfl⟩
    exact .done _ _

theorem Runs.of_call {op : E.Op} {s s' : State} {r : E.Reply op}
    (h : Runs perform (Task.call op) s r s') : ∃ x, perform s op x = some (r, s') := by
  cases h with
  | perform x hp hrest =>
      cases hrest
      exact ⟨x, hp⟩

/-- What every operation keeps is kept by a whole run. -/
theorem Runs.keeps {α : Type} {t : Task E α} {s s' : State} {a : α} {I : State → Prop}
    (h : Runs perform t s a s') (hs : I s)
    (hstep : ∀ s op x r s', I s → perform s op x = some (r, s') → I s') : I s' := by
  induction h with
  | done a s => exact hs
  | perform x hp _ ih => exact ih (hstep _ _ x _ _ hs hp)

theorem Cut.keeps {α : Type} {t : Task E α} {s s' : State} {I : State → Prop}
    (h : Cut perform t s s') (hs : I s)
    (hstep : ∀ s op x r s', I s → perform s op x = some (r, s') → I s') : I s' := by
  induction h with
  | here t s => exact hs
  | later x hp _ ih => exact ih (hstep _ _ x _ _ hs hp)

theorem Cut.of_bind {α β : Type} {t : Task E α} {f : α → Task E β} {s s' : State}
    (h : Cut perform (t.bind f) s s') :
    Cut perform t s s' ∨ ∃ a s₁, Runs perform t s a s₁ ∧ Cut perform (f a) s₁ s' := by
  induction t generalizing s with
  | done a => exact .inr ⟨a, s, .done a s, h⟩
  | perform op next ih =>
      cases h with
      | here => exact .inl (.here _ _)
      | later x hp hrest =>
          rcases ih _ hrest with ht | ⟨a, s₁, ht, hf⟩
          · exact .inl (.later x hp ht)
          · exact .inr ⟨a, s₁, .perform x hp ht, hf⟩

variable (perform) in
/-- Evaluation with one choice throughout. -/
def execute (x : Choice) {α : Type} : Task E α → State → Option (α × State)
  | .done a, s => some (a, s)
  | .perform op next, s => (perform s op x).bind fun p => execute x (next p.1) p.2

theorem execute_bind {x : Choice} {α β : Type} (t : Task E α) (f : α → Task E β) (s : State) :
    execute perform x (t.bind f) s =
      (execute perform x t s).bind fun p => execute perform x (f p.1) p.2 := by
  induction t generalizing s with
  | done a => rfl
  | perform op next ih =>
      simp only [Task.bind, execute, Option.bind_assoc]
      exact congrArg ((perform s op x).bind ·) (funext fun p => ih p.1 p.2)

theorem execute_bindExcept {x : Choice} {α β ε : Type} {t : ExceptT ε (Task E) α}
    {f : α → ExceptT ε (Task E) β} {s s' : State} {a : α}
    (h : execute perform x t.run s = some (.ok a, s')) :
    execute perform x (t >>= f).run s = execute perform x (f a).run s' := by
  refine (execute_bind t.run (ExceptT.bindCont f) s).trans ?_
  rw [h]
  rfl

theorem execute_stop {x : Choice} {α β ε : Type} {t : ExceptT ε (Task E) α}
    {f : α → ExceptT ε (Task E) β} {s s' : State} {e : ε}
    (h : execute perform x t.run s = some (.error e, s')) :
    execute perform x (t >>= f).run s = some (.error e, s') := by
  refine (execute_bind t.run (ExceptT.bindCont f) s).trans ?_
  rw [h]
  rfl

theorem execute_lift {x : Choice} {α ε : Type} {t : Task E α} {s s' : State} {a : α}
    (h : execute perform x t s = some (a, s')) :
    execute perform x (ExceptT.lift t : ExceptT ε (Task E) α).run s = some (.ok a, s') := by
  refine (execute_bind t (fun a => .done (Except.ok a)) s).trans ?_
  rw [h]
  rfl

theorem runs_of_execute_eq {x : Choice} {α : Type} {t : Task E α} {s s' : State} {a : α}
    (h : execute perform x t s = some (a, s')) : Runs perform t s a s' := by
  induction t generalizing s with
  | done b =>
      cases h
      exact .done _ _
  | perform op next ih =>
      simp only [execute, Option.bind_eq_some_iff] at h
      obtain ⟨q, hp, hrest⟩ := h
      exact .perform x hp (ih q.1 hrest)

/-- With one choice only, a run is an evaluation. -/
theorem runs_iff_execute [Subsingleton Choice] (x : Choice) {α : Type} {t : Task E α}
    {s s' : State} {a : α} :
    Runs perform t s a s' ↔ execute perform x t s = some (a, s') := by
  refine ⟨fun h => ?_, runs_of_execute_eq⟩
  induction h with
  | done a s => rfl
  | perform y hp _ ih =>
      rw [Subsingleton.elim y x] at hp
      simp only [execute, hp, Option.bind_some]
      exact ih

theorem runs_of_execute {x : Choice} {α : Type} {t : Task E α} {s : State}
    {p : α × State → Bool} (h : (execute perform x t s).any p = true) :
    ∃ a s', Runs perform t s a s' ∧ p (a, s') = true := by
  obtain ⟨q, hq, hgood⟩ := (Option.any_eq_true _ _).mp h
  exact ⟨q.1, q.2, runs_of_execute_eq hq, hgood⟩

variable (perform) in
/-- The triples of a task that runs alone, with an invariant that holds wherever
it is cut. -/
def crashLogic (inv : State → Prop) : Logic E State where
  inv := inv
  Holds A t Q := ∀ s, inv s → A s → (∀ s', Cut perform t s s' → inv s') ∧
    ∀ a s', Runs perform t s a s' → Q a s'
  done := by
    intro α A Q a h s hi hA
    refine ⟨fun s' hcut => ?_, fun b s' hrun => ?_⟩
    · cases hcut
      exact hi
    · cases hrun
      exact h s hi hA
  bind := by
    intro α β A R Q t f ht hf s hi hA
    obtain ⟨hcut, hrun⟩ := ht s hi hA
    refine ⟨fun s' h => ?_, fun b s' h => ?_⟩
    · rcases h.of_bind with h | ⟨a, s₁, hr, h⟩
      · exact hcut s' h
      · exact (hf a s₁ (hcut s₁ hr.cut) (hrun a s₁ hr)).1 s' h
    · obtain ⟨a, s₁, hr, h⟩ := h.of_bind
      exact (hf a s₁ (hcut s₁ hr.cut) (hrun a s₁ hr)).2 b s' h
  conseq := by
    intro α A B Q R t hA ht hQ s hi ha
    obtain ⟨hcut, hrun⟩ := ht s hi (hA s hi ha)
    exact ⟨hcut, fun a s' h => hQ a s' (hcut s' h.cut) (hrun a s' h)⟩

/-- A fact that does not depend on the state may be assumed. -/
theorem crashLogic_fact {inv A : State → Prop} {φ : Prop} {α : Type} {t : Task E α}
    {Q : α → State → Prop} (h : φ → (crashLogic perform inv).Holds A t Q) :
    (crashLogic perform inv).Holds (fun s => φ ∧ A s) t Q :=
  fun s hi hs => h hs.1 s hi hs.2

theorem crashLogic_call {inv A : State → Prop} {op : E.Op} {Q : E.Reply op → State → Prop}
    (h : ∀ s x r s', inv s → A s → perform s op x = some (r, s') → inv s' ∧ Q r s') :
    (crashLogic perform inv).Holds A (Task.call op) Q := by
  intro s hi hA
  refine ⟨fun s' hcut => ?_, fun a s' hrun => ?_⟩
  · cases hcut with
    | here => exact hi
    | later x hp hrest =>
        cases hrest
        exact (h _ x _ _ hi hA hp).1
  · cases hrun with
    | perform x hp hrest =>
        cases hrest
        exact (h _ x _ _ hi hA hp).2

/-- An operation that leaves the state as it is. -/
theorem crashLogic_skip {inv A : State → Prop} {op : E.Op}
    (h : ∀ s x r s', perform s op x = some (r, s') → s' = s) :
    (crashLogic perform inv).Holds A (Task.call op) fun _ => A := by
  refine crashLogic_call fun s x r s' hi hA hp => ?_
  rw [h s x r s' hp]
  exact ⟨hi, hA⟩

end
end Concurrency

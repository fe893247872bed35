import Mathlib.Logic.Nontrivial.Basic
import ConductorRs.Concurrency.Logic
import ConductorRs.Concurrency.Machine

/-!
Pre- and postconditions for tasks that run next to other tasks.

An outline fixes a state invariant, what each thread may assume of the steps of
the others, and what must hold whenever an operation is about to run. A triple is
judged against that outline: its assertions survive the steps of the other
threads, and its own steps give the other threads what they assume. The
soundness theorem turns triples for the bodies of all calls into a statement
about every configuration a machine can reach.
-/
namespace Concurrency

section
variable {Tid State Call Out Choice Env : Type} {E : Interface}

structure Outline (Tid : Type) (E : Interface) (State : Type) where
  inv : State → Prop
  rely : Tid → State → State → Prop
  idle : Tid → State → Prop
  check : Tid → State → E.Op → Prop

structure Outline.Coherent (P : Outline Tid E State) : Prop where
  refl : ∀ i s, P.rely i s s
  trans : ∀ i {s s' s''}, P.rely i s s' → P.rely i s' s'' → P.rely i s s''
  idle : ∀ i {s s'}, P.idle i s → P.rely i s s' → P.inv s' → P.idle i s'

namespace Outline
variable (P : Outline Tid E State)

def Grants (i : Tid) (s s' : State) : Prop :=
  P.inv s' ∧ ∀ j, j ≠ i → P.rely j s s'

def Stable (i : Tid) (A : State → Prop) : Prop :=
  ∀ s s', A s → P.rely i s s' → P.inv s' → A s'

end Outline

namespace Machine
variable (M : Machine Tid E State Call Out Choice Env)
variable (π : Policy Tid E State Call Choice Env) (P : Outline Tid E State)

/-- From state `s` on, thread `i` running the task keeps to the outline, under
every interference the outline allows, and ends in `Q`. -/
def Safe {α : Type} (i : Tid) (Q : α → State → Prop) : Task E α → State → Prop
  | .done a, s => Q a s
  | .perform op next, s => ∀ s', P.rely i s s' → P.inv s' →
      P.check i s' op ∧
      ∀ x r s'', M.perform s' i op x = some (r, s'') → π.step s' i op x →
        P.Grants i s' s'' ∧ Safe i Q (next r) s''

def Triple {α : Type} (i : Tid) (A : State → Prop) (t : Task E α)
    (Q : α → State → Prop) : Prop :=
  ∀ s, P.inv s → A s → M.Safe π P i Q t s

def Returns (i : Tid) (call : Call) (a : Out) (s : State) : Prop :=
  ∀ s', P.rely i s s' → P.inv s' →
    P.Grants i s' (M.leave s' i call a) ∧ P.idle i (M.leave s' i call a)

variable {M π P}

theorem Safe.stable {α : Type} (hP : P.Coherent) {i : Tid} {Q : α → State → Prop}
    (hQ : ∀ a, P.Stable i (Q a)) {t : Task E α} {s s' : State}
    (h : M.Safe π P i Q t s) (hr : P.rely i s s') (hi : P.inv s') :
    M.Safe π P i Q t s' := by
  cases t with
  | done a => exact hQ a s s' h hr hi
  | perform op next => exact fun s'' hr' hi' => h s'' (hP.trans i hr hr') hi'

theorem Safe.bind {α β : Type} {i : Tid} {R : α → State → Prop} {Q : β → State → Prop}
    {t : Task E α} {f : α → Task E β} {s : State} (hi : P.inv s)
    (h : M.Safe π P i R t s)
    (hf : ∀ a s, P.inv s → R a s → M.Safe π P i Q (f a) s) :
    M.Safe π P i Q (t.bind f) s := by
  induction t generalizing s with
  | done a => exact hf a s hi h
  | perform op next ih =>
      intro s' hr hi'
      obtain ⟨hc, hstep⟩ := h s' hr hi'
      refine ⟨hc, fun x r s'' hp hπ => ?_⟩
      obtain ⟨hg, hnext⟩ := hstep x r s'' hp hπ
      exact ⟨hg, ih r hg.1 hnext⟩

theorem Safe.mono {α : Type} {i : Tid} {Q R : α → State → Prop} {t : Task E α}
    {s : State} (hi : P.inv s) (h : M.Safe π P i Q t s)
    (hQ : ∀ a s, P.inv s → Q a s → R a s) : M.Safe π P i R t s := by
  have hb := Safe.bind (f := .done) hi h fun a s hi ha => hQ a s hi ha
  rwa [Task.bind_done] at hb

theorem Triple.bind {α β : Type} {i : Tid} {A : State → Prop} {R : α → State → Prop}
    {Q : β → State → Prop} {t : Task E α} {f : α → Task E β}
    (ht : M.Triple π P i A t R) (hf : ∀ a, M.Triple π P i (R a) (f a) Q) :
    M.Triple π P i A (t.bind f) Q :=
  fun s hi hA => Safe.bind hi (ht s hi hA) fun a s hi hR => hf a s hi hR

theorem Triple.done {α : Type} {i : Tid} {A : State → Prop} {Q : α → State → Prop}
    {a : α} (h : ∀ s, P.inv s → A s → Q a s) : M.Triple π P i A (.done a) Q :=
  h

theorem Triple.conseq {α : Type} {i : Tid} {A B : State → Prop} {Q R : α → State → Prop}
    {t : Task E α} (hA : ∀ s, P.inv s → A s → B s) (ht : M.Triple π P i B t Q)
    (hQ : ∀ a s, P.inv s → Q a s → R a s) : M.Triple π P i A t R :=
  fun s hi ha => Safe.mono hi (ht s hi (hA s hi ha)) hQ

/-- One operation: the precondition survives interference until the operation
runs, and then the step must be one the outline grants. -/
theorem Triple.call {i : Tid} {A : State → Prop} {op : E.Op}
    {Q : E.Reply op → State → Prop} (hA : P.Stable i A)
    (h : ∀ s, P.inv s → A s → P.check i s op ∧
      ∀ x r s', M.perform s i op x = some (r, s') → π.step s i op x →
        P.Grants i s s' ∧ Q r s') :
    M.Triple π P i A (Task.call op) Q := by
  intro s _ ha s' hr hi'
  exact h s' hi' (hA s s' ha hr hi')

variable (M π P) in
/-- The triples of one thread form a logic. -/
def logic (i : Tid) : Logic E State where
  inv := P.inv
  Holds := M.Triple π P i
  done := Triple.done
  bind := Triple.bind
  conseq := Triple.conseq

variable (M π P) in
/-- The verification conditions of a machine: every call body meets its
triple, entering and the environment keep to the outline. -/
structure Verified : Prop where
  coherent : P.Coherent
  enter : ∀ s i call s', P.inv s → P.idle i s → M.enter s i call = some s' →
    π.call s i call →
      P.Grants i s s' ∧ M.Safe π P i (M.Returns P i call) (M.body call) s'
  env : ∀ s e s', P.inv s → M.env s e = some s' → π.env s e →
    P.inv s' ∧ ∀ j, P.rely j s s'

variable (M π P) in
/-- The verification conditions with a postcondition for every call. -/
structure Meets (Q : Tid → Call → Out → State → Prop) : Prop where
  coherent : P.Coherent
  stable : ∀ i call a, P.Stable i (Q i call a)
  enter : ∀ s i call s', P.inv s → P.idle i s → M.enter s i call = some s' →
    π.call s i call → P.Grants i s s' ∧ M.Safe π P i (Q i call) (M.body call) s'
  leave : ∀ s i call a, P.inv s → Q i call a s →
    P.Grants i s (M.leave s i call a) ∧ P.idle i (M.leave s i call a)
  env : ∀ s e s', P.inv s → M.env s e = some s' → π.env s e →
    P.inv s' ∧ ∀ j, P.rely j s s'

/-- One triple for each call, from what entering establishes to what leaving
needs. -/
theorem meets_of_calls (hP : P.Coherent) {A : Tid → Call → State → Prop}
    {Q : Tid → Call → Out → State → Prop} (hQ : ∀ i call a, P.Stable i (Q i call a))
    (henter : ∀ s i call s', P.inv s → P.idle i s → M.enter s i call = some s' →
      π.call s i call → P.Grants i s s' ∧ A i call s')
    (hbody : ∀ i call, M.Triple π P i (A i call) (M.body call) (Q i call))
    (hleave : ∀ s i call a, P.inv s → Q i call a s →
      P.Grants i s (M.leave s i call a) ∧ P.idle i (M.leave s i call a))
    (henv : ∀ s e s', P.inv s → M.env s e = some s' → π.env s e →
      P.inv s' ∧ ∀ j, P.rely j s s') : M.Meets π P Q where
  coherent := hP
  stable := hQ
  enter s i call s' hi hidle he hπ := by
    obtain ⟨hg, hA⟩ := henter s i call s' hi hidle he hπ
    exact ⟨hg, hbody i call s' hg.1 hA⟩
  leave := hleave
  env := henv

theorem Meets.verified {Q : Tid → Call → Out → State → Prop} (V : M.Meets π P Q) :
    M.Verified π P where
  coherent := V.coherent
  enter s i call s' hi hidle he hπ := by
    obtain ⟨hg, hsafe⟩ := V.enter s i call s' hi hidle he hπ
    refine ⟨hg, Safe.mono hg.1 hsafe ?_⟩
    intro a s₁ _ ha s₂ hr hi₂
    exact V.leave s₂ i call a hi₂ (V.stable i call a s₁ s₂ ha hr hi₂)
  env := V.env

/-- A machine is verified by one triple for each call, from what entering
establishes to what leaving needs. -/
theorem verified_of_calls (hP : P.Coherent) {A : Tid → Call → State → Prop}
    {Q : Tid → Call → Out → State → Prop} (hQ : ∀ i call a, P.Stable i (Q i call a))
    (henter : ∀ s i call s', P.inv s → P.idle i s → M.enter s i call = some s' →
      π.call s i call → P.Grants i s s' ∧ A i call s')
    (hbody : ∀ i call, M.Triple π P i (A i call) (M.body call) (Q i call))
    (hleave : ∀ s i call a, P.inv s → Q i call a s →
      P.Grants i s (M.leave s i call a) ∧ P.idle i (M.leave s i call a))
    (henv : ∀ s e s', P.inv s → M.env s e = some s' → π.env s e →
      P.inv s' ∧ ∀ j, P.rely j s s') : M.Verified π P :=
  (meets_of_calls hP hQ henter hbody hleave henv).verified

/-- Where returning does not touch the state, the triples go from idle to idle. -/
theorem verified_of_triples (hP : P.Coherent)
    (hleave : ∀ s i call a, M.leave s i call a = s)
    (henter : ∀ s i call s', P.inv s → P.idle i s → M.enter s i call = some s' →
      π.call s i call → P.Grants i s s' ∧ P.idle i s')
    (hbody : ∀ s i call, π.call s i call →
      M.Triple π P i (P.idle i) (M.body call) fun _ => P.idle i)
    (henv : ∀ s e s', P.inv s → M.env s e = some s' → π.env s e →
      P.inv s' ∧ ∀ j, P.rely j s s') : M.Verified π P := by
  refine verified_of_calls hP (A := fun i call s => P.idle i s ∧ ∃ s₀, π.call s₀ i call)
    (Q := fun i _ _ => P.idle i) (fun i _ _ _ _ h hr hi => hP.idle i h hr hi) ?_ ?_ ?_ henv
  · intro s i call s' hi hidle he hπ
    obtain ⟨hg, hidle'⟩ := henter s i call s' hi hidle he hπ
    exact ⟨hg, hidle', s, hπ⟩
  · rintro i call s hi ⟨hidle, s₀, hπ⟩
    exact hbody s₀ i call hπ s hi hidle
  · intro s i call a hi hidle
    rw [hleave]
    exact ⟨⟨hi, fun j _ => hP.refl j s⟩, hidle⟩

variable (M π P) in
/-- Thread `i` is idle, or its call is going to end in its postcondition. -/
def Owes (Q : Tid → Call → Out → State → Prop) (i : Tid) :
    Option (Call × Task E Out) → State → Prop
  | none, s => P.idle i s
  | some (call, t), s => M.Safe π P i (Q i call) t s

variable (M π P) in
def Upholds (Q : Tid → Call → Out → State → Prop) (c : Config Tid E State Call Out) : Prop :=
  P.inv c.state ∧ ∀ i, M.Owes π P Q i (c.tasks i) c.state

variable (M π P) in
def Thread (i : Tid) : Option (Call × Task E Out) → State → Prop
  | none, s => P.idle i s
  | some (call, t), s => M.Safe π P i (M.Returns P i call) t s

variable (M π P) in
def Conforms (c : Config Tid E State Call Out) : Prop :=
  P.inv c.state ∧ ∀ i, M.Thread π P i (c.tasks i) c.state

theorem returns_stable (hP : P.Coherent) (i : Tid) (call : Call) (a : Out) :
    P.Stable i (M.Returns P i call a) := by
  intro s s' h hr _ s'' hr' hi'
  exact h s'' (hP.trans i hr hr') hi'

theorem conforms_quiet (s : State) (hi : P.inv s) (h : ∀ i, P.idle i s) :
    M.Conforms π P (Config.quiet s) :=
  ⟨hi, h⟩

theorem upholds_quiet {Q : Tid → Call → Out → State → Prop} (s : State) (hi : P.inv s)
    (h : ∀ i, P.idle i s) : M.Upholds π P Q (Config.quiet s) :=
  ⟨hi, h⟩

section
variable {Q : Tid → Call → Out → State → Prop}

theorem owes_stable (hP : P.Coherent) (hQ : ∀ i call a, P.Stable i (Q i call a)) (i : Tid)
    (t : Option (Call × Task E Out)) : P.Stable i (M.Owes π P Q i t) := by
  intro s s' h hr hi
  cases t with
  | none => exact hP.idle i h hr hi
  | some p => exact Safe.stable hP (hQ i p.1) h hr hi

private theorem upholds_setTask [DecidableEq Tid] (V : M.Meets π P Q)
    {c : Config Tid E State Call Out} {s' : State} {i : Tid}
    {t : Option (Call × Task E Out)} (h : M.Upholds π P Q c)
    (hg : P.Grants i c.state s') (ht : M.Owes π P Q i t s') :
    M.Upholds π P Q (c.setTask s' i t) := by
  refine ⟨hg.1, fun j => ?_⟩
  by_cases hj : j = i
  · subst hj
    rw [Config.setTask_self]
    exact ht
  · rw [Config.setTask_of_ne c s' t hj]
    exact owes_stable V.coherent V.stable j _ _ _ (h.2 j) (hg.2 j hj) hg.1

/-- A step is one of a single thread, which the outline grants, or one of the
environment, on which every thread may rely. -/
theorem Meets.step_cases [DecidableEq Tid] (V : M.Meets π P Q)
    {c c' : Config Tid E State Call Out} {e : Event Tid Call Choice Env}
    (h : M.Upholds π P Q c) (hp : π.Permits c e) (hs : M.step c e = some c') :
    (∃ i s' t, c' = c.setTask s' i t ∧ P.Grants i c.state s' ∧ M.Owes π P Q i t s') ∨
      (c'.tasks = c.tasks ∧ P.inv c'.state ∧ ∀ j, P.rely j c.state c'.state) := by
  cases moves_of_step hs with
  | @call i call s' ht he =>
      have hidle := h.2 i
      rw [ht] at hidle
      obtain ⟨hg, hbody⟩ := V.enter c.state i call s' h.1 hidle he hp
      exact .inl ⟨i, s', _, rfl, hg, hbody⟩
  | @step i x call op next r s' ht hperform =>
      have hsafe := h.2 i
      rw [ht] at hsafe
      obtain ⟨_, hstep⟩ := hsafe c.state (V.coherent.refl i c.state) h.1
      obtain ⟨hg, hnext⟩ := hstep x r s' hperform (hp.step ht)
      exact .inl ⟨i, s', _, rfl, hg, hnext⟩
  | @ret i call a ht =>
      have hpost := h.2 i
      rw [ht] at hpost
      obtain ⟨hg, hidle⟩ := V.leave c.state i call a h.1 hpost
      exact .inl ⟨i, _, none, rfl, hg, hidle⟩
  | @env e s' he => exact .inr ⟨rfl, V.env c.state e s' h.1 he hp⟩

theorem Meets.step [DecidableEq Tid] (V : M.Meets π P Q)
    {c c' : Config Tid E State Call Out} {e : Event Tid Call Choice Env}
    (h : M.Upholds π P Q c) (hp : π.Permits c e) (hs : M.step c e = some c') :
    M.Upholds π P Q c' := by
  rcases V.step_cases h hp hs with ⟨i, s', t, rfl, hg, ht⟩ | ⟨htasks, hi, hr⟩
  · exact upholds_setTask V h hg ht
  · refine ⟨hi, fun j => ?_⟩
    rw [htasks]
    exact owes_stable V.coherent V.stable j _ _ _ (h.2 j) (hr j) hi

theorem Meets.reaches [DecidableEq Tid] (V : M.Meets π P Q)
    {c c' : Config Tid E State Call Out} (h : M.Upholds π P Q c)
    (hr : M.Reaches π c c') : M.Upholds π P Q c' :=
  hr.induct h fun _ _ _ hc hp hs => V.step hc hp hs

/-- A call that has run to its end has met its postcondition. -/
theorem Upholds.returned {c : Config Tid E State Call Out} (h : M.Upholds π P Q c) {i : Tid}
    {call : Call} {a : Out} (ht : c.tasks i = some (call, .done a)) : Q i call a c.state := by
  have hi := h.2 i
  rw [ht] at hi
  exact hi

/-- The check of the outline holds whenever an operation is about to run. -/
theorem Upholds.check (hP : P.Coherent) {c : Config Tid E State Call Out}
    (h : M.Upholds π P Q c) {i : Tid} {op : E.Op} (hop : c.pending i = some op) :
    P.check i c.state op := by
  have hi := h.2 i
  simp only [Config.pending] at hop
  split at hop
  · next call o next ht =>
      cases hop
      rw [ht] at hi
      exact (hi c.state (hP.refl i c.state) h.1).1
  · cases hop

/-- What every operation that passes its check keeps lasts to the end of a run. -/
theorem Meets.lasts [DecidableEq Tid] (V : M.Meets π P Q) {K : State → Prop}
    (henter : ∀ s i call s', K s → M.enter s i call = some s' → K s')
    (hperform : ∀ s i op x r s', P.check i s op → K s →
      M.perform s i op x = some (r, s') → K s')
    (hleave : ∀ s i call a, K s → K (M.leave s i call a))
    (henv : ∀ s e s', K s → M.env s e = some s' → K s')
    {c c' : Config Tid E State Call Out} (h : M.Upholds π P Q c) (hK : K c.state)
    (hr : M.Reaches π c c') : K c'.state := by
  induction hr with
  | refl => exact hK
  | @tail c₁ c₂ e hr hp hs ih =>
      have hc₁ := V.reaches h hr
      cases moves_of_step hs with
      | @call i call s' _ he => exact henter _ i call s' ih he
      | @step i x call op next r s' ht hperf =>
          have hcheck := hc₁.check V.coherent (Config.pending_of_perform ht)
          exact hperform _ i op x r s' hcheck ih hperf
      | @ret i call a _ => exact hleave _ i call a ih
      | @env e s' he => exact henv _ e s' ih he

end

theorem Verified.meets (V : M.Verified π P) : M.Meets π P (M.Returns P) where
  coherent := V.coherent
  stable := returns_stable V.coherent
  enter := V.enter
  leave s i _ _ hi h := h s (V.coherent.refl i s) hi
  env := V.env

theorem thread_iff_owes (i : Tid) (t : Option (Call × Task E Out)) (s : State) :
    M.Thread π P i t s ↔ M.Owes π P (M.Returns P) i t s := by
  cases t <;> rfl

theorem conforms_iff_upholds (c : Config Tid E State Call Out) :
    M.Conforms π P c ↔ M.Upholds π P (M.Returns P) c := by
  simp only [Conforms, Upholds, thread_iff_owes]

/-- A step is one of a single thread, which the outline grants, or one of the
environment, on which every thread may rely. -/
theorem Verified.step_cases [DecidableEq Tid] (V : M.Verified π P)
    {c c' : Config Tid E State Call Out} {e : Event Tid Call Choice Env}
    (h : M.Conforms π P c) (hp : π.Permits c e) (hs : M.step c e = some c') :
    (∃ i s' t, c' = c.setTask s' i t ∧ P.Grants i c.state s' ∧ M.Thread π P i t s') ∨
      (c'.tasks = c.tasks ∧ P.inv c'.state ∧ ∀ j, P.rely j c.state c'.state) := by
  simp only [thread_iff_owes]
  exact V.meets.step_cases ((conforms_iff_upholds c).mp h) hp hs

theorem Verified.step [DecidableEq Tid] (V : M.Verified π P)
    {c c' : Config Tid E State Call Out} {e : Event Tid Call Choice Env}
    (h : M.Conforms π P c) (hp : π.Permits c e) (hs : M.step c e = some c') :
    M.Conforms π P c' :=
  (conforms_iff_upholds c').mpr (V.meets.step ((conforms_iff_upholds c).mp h) hp hs)

theorem Verified.reaches [DecidableEq Tid] (V : M.Verified π P)
    {c c' : Config Tid E State Call Out} (h : M.Conforms π P c)
    (hr : M.Reaches π c c') : M.Conforms π P c' :=
  hr.induct h fun _ _ _ hc hp hs => V.step hc hp hs

/-- What every thread may rely on holds along every run. -/
theorem Verified.relates [DecidableEq Tid] [Nontrivial Tid] (V : M.Verified π P)
    {R : State → State → Prop} (hrefl : ∀ s, R s s)
    (htrans : ∀ {s s' s''}, R s s' → R s' s'' → R s s'')
    (hR : ∀ j s s', P.rely j s s' → R s s') {c c' : Config Tid E State Call Out}
    (h : M.Conforms π P c) (hr : M.Reaches π c c') : R c.state c'.state := by
  induction hr with
  | refl => exact hrefl _
  | tail e hr hp hs ih =>
      refine htrans ih ?_
      rcases V.step_cases (V.reaches h hr) hp hs with ⟨i, s', t, rfl, hg, _⟩ | ⟨_, _, hr⟩
      · obtain ⟨j, hj⟩ := exists_ne i
        exact hR j _ _ (hg.2 j hj)
      · obtain ⟨j, _⟩ := exists_pair_ne Tid
        exact hR j _ _ (hr j)

theorem Conforms.check (hP : P.Coherent) {c : Config Tid E State Call Out}
    (h : M.Conforms π P c) {i : Tid} {op : E.Op} (hop : c.pending i = some op) :
    P.check i c.state op :=
  ((conforms_iff_upholds c).mp h).check hP hop

/-- Where returning does not touch the state, a thread with nothing left to perform is
as good as idle. -/
theorem Conforms.idle (hP : P.Coherent) (hleave : ∀ s i call a, M.leave s i call a = s)
    {c : Config Tid E State Call Out} (h : M.Conforms π P c) {i : Tid}
    (hop : c.pending i = none) : P.idle i c.state := by
  have hi := h.2 i
  rcases ht : c.tasks i with _ | ⟨call, a | ⟨op, next⟩⟩
  · rw [ht] at hi
    exact hi
  · rw [ht] at hi
    have hidle := (hi c.state (hP.refl i c.state) h.1).2
    rwa [hleave] at hidle
  · rw [Config.pending_of_perform ht] at hop
    cases hop

end Machine
end
end Concurrency

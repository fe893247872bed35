import Mathlib.Logic.Hydra
import Mathlib.Order.WellFounded
import ConductorRs.Concurrency.Logic
import ConductorRs.Concurrency.Machine

/-!
Mutexes that are taken in one order.

An operation takes a mutex, gives one back, waits for something that another
thread has to do, or does neither. Where every task takes mutexes in ascending
order, waits only while it holds none and gives back what it has taken, a thread
that waits for a mutex waits for one that can go on, and every configuration can
be run on until no thread has anything left to do on its own.
-/
namespace Concurrency

/-- What an operation does to the mutexes. -/
inductive LockUse (L : Type) where
  | acquire (lock : L)
  | release (lock : L)
  | wait
  | other

namespace LockUse
variable {L Tid : Type}

/-- The discipline, for a thread that holds the given mutexes. -/
def Allowed [LT L] : LockUse L → Set L → Prop
  | .acquire lock, held => ∀ l ∈ held, l < lock
  | .release lock, held => lock ∈ held
  | .wait, held => held = ∅
  | .other, _ => True

def after : LockUse L → Set L → Set L
  | .acquire lock, held => insert lock held
  | .release lock, held => held \ {lock}
  | .wait, held | .other, held => held

/-- The operation can run without the help of another thread. -/
def Ready (i : Tid) (owner : L → Option Tid) : LockUse L → Prop
  | .acquire lock => owner lock = none
  | .release lock => owner lock = some i
  | .wait => False
  | .other => True

/-- What the operation does to the owners when thread `i` has run it. -/
def Moves [DecidableEq L] (i : Tid) (owner owner' : L → Option Tid) : LockUse L → Prop
  | .acquire lock => owner lock = none ∧ owner' = Function.update owner lock (some i)
  | .release lock => owner lock = some i ∧ owner' = Function.update owner lock none
  | .wait | .other => owner' = owner

end LockUse

/-- The mutexes of one thread. -/
def heldBy {L Tid : Type} (owner : L → Option Tid) (i : Tid) : Set L :=
  {lock | owner lock = some i}

section
variable {L Tid : Type} [DecidableEq L] {owner owner' : L → Option Tid} {i : Tid}
variable {u : LockUse L}

theorem LockUse.Moves.heldBy_self (h : u.Moves i owner owner') :
    heldBy owner' i = u.after (heldBy owner i) := by
  cases u with
  | acquire lock =>
      obtain ⟨_, rfl⟩ := h
      ext l
      by_cases hl : l = lock
      · simp [heldBy, after, hl]
      · simp [heldBy, after, hl]
  | release lock =>
      obtain ⟨_, rfl⟩ := h
      ext l
      by_cases hl : l = lock
      · simp [heldBy, after, hl]
      · simp [heldBy, after, hl]
  | wait | other => rw [show owner' = owner from h]; rfl

theorem LockUse.Moves.heldBy_of_ne (h : u.Moves i owner owner') {j : Tid} (hj : j ≠ i) :
    heldBy owner' j = heldBy owner j := by
  have hij : some i ≠ some j := fun he => hj (Option.some.inj he).symm
  cases u with
  | acquire lock =>
      obtain ⟨hfree, rfl⟩ := h
      ext l
      by_cases hl : l = lock
      · simp [heldBy, hl, hfree, hij]
      · simp [heldBy, Function.update_of_ne hl]
  | release lock =>
      obtain ⟨hheld, rfl⟩ := h
      ext l
      by_cases hl : l = lock
      · simp [heldBy, hl, hheld, hij]
      · simp [heldBy, Function.update_of_ne hl]
  | wait | other => rw [show owner' = owner from h]

end

section
variable {E : Interface} {L : Type} [LT L]

/-- From the mutexes held on, the task keeps to the discipline, whatever the replies
are, and ends in `Q`. -/
def Ordered (use : E.Op → LockUse L) {α : Type} (Q : α → Set L → Prop) :
    Task E α → Set L → Prop
  | .done a, held => Q a held
  | .perform op next, held =>
      (use op).Allowed held ∧ ∀ r, Ordered use Q (next r) ((use op).after held)

variable {use : E.Op → LockUse L}

theorem Ordered.bind {α β : Type} {R : α → Set L → Prop} {Q : β → Set L → Prop} {t : Task E α}
    {f : α → Task E β} {held : Set L} (ht : Ordered use R t held)
    (hf : ∀ a held, R a held → Ordered use Q (f a) held) : Ordered use Q (t.bind f) held := by
  induction t generalizing held with
  | done a => exact hf a held ht
  | perform op next ih => exact ⟨ht.1, fun r => ih r (ht.2 r)⟩

variable (use) in
/-- The discipline as a logic over the mutexes a thread holds. -/
def lockOrder : Logic E (Set L) where
  inv _ := True
  Holds A t Q := ∀ held, A held → Ordered use Q t held
  done h held hA := h held trivial hA
  bind ht hf held hA := (ht held hA).bind hf
  conseq hA ht hQ held ha := by
    have hb := (ht held (hA held trivial ha)).bind (f := .done)
      fun a held hq => hQ a held trivial hq
    rwa [Task.bind_done] at hb

theorem lockOrder_call {op : E.Op} {A : Set L → Prop} {Q : E.Reply op → Set L → Prop}
    (h : ∀ held, A held → (use op).Allowed held ∧ ∀ r, Q r ((use op).after held)) :
    (lockOrder use).Holds A (Task.call op) Q :=
  h

/-- A task keeps to the discipline over a lower interface where each of its operations
does there what it stands for. -/
theorem lockOrder_interp {F : Interface} (use : E.Op → LockUse L) (use' : F.Op → LockUse L)
    (handler : (op : E.Op) → Task F (E.Reply op))
    (hop : ∀ op held, (use op).Allowed held →
      Ordered use' (fun _ held' => held' = (use op).after held) (handler op) held)
    {α : Type} {A : Set L → Prop} {Q : α → Set L → Prop} {t : Task E α}
    (h : (lockOrder use).Holds A t Q) : (lockOrder use').Holds A (t.interp handler) Q := by
  intro held ha
  have ht := h held ha
  clear h ha
  induction t generalizing held with
  | done a => exact ht
  | perform op next ih =>
      refine (hop op held ht.1).bind fun r held' hheld => ?_
      rw [hheld]
      exact ih r _ (ht.2 r)

/-- Operations on no mutex keep every assertion. -/
theorem lockOrder_other {op : E.Op} (h : use op = .other) {A : Set L → Prop} :
    (lockOrder use).Holds A (Task.call op) fun _ => A :=
  lockOrder_call fun held ha => by
    rw [h]
    exact ⟨trivial, fun _ => ha⟩

theorem lockOrder_all {α : Type} {t : Task E α} (ht : t.All fun op => use op = .other)
    {A : Set L → Prop} : (lockOrder use).Holds A t fun _ => A :=
  (lockOrder use).all (fun _ h => lockOrder_other h) ht

end

section
variable {Tid State Call Out Choice Env L : Type} {E : Interface}

/-- The tasks of all threads keep to the discipline, and an idle thread holds nothing. -/
def Disciplined [LT L] (use : E.Op → LockUse L) (owner : State → L → Option Tid)
    (c : Config Tid E State Call Out) : Prop :=
  ∀ i, (c.tasks i).elim (heldBy (owner c.state) i = ∅) fun p =>
    Ordered use (fun _ held => held = ∅) p.2 (heldBy (owner c.state) i)

/-- Nothing is left to do, or nothing before another thread has done something. -/
def Resting (use : E.Op → LockUse L) : Option (Call × Task E Out) → Prop
  | none => True
  | some (_, .done _) => False
  | some (_, .perform op _) => use op = .wait

/-- How a machine implements the mutexes, and that the operations of its tasks can
run whenever the mutexes allow it. -/
structure Locking [LT L] [DecidableEq L] (M : Machine Tid E State Call Out Choice Env)
    (π : Policy Tid E State Call Choice Env) (use : E.Op → LockUse L)
    (owner : State → L → Option Tid) : Prop where
  body : ∀ call, Ordered use (fun _ held => held = ∅) (M.body call) ∅
  enter : ∀ s i call s', M.enter s i call = some s' → owner s' = owner s
  perform : ∀ s i op x r s', M.perform s i op x = some (r, s') →
    (use op).Moves i (owner s) (owner s')
  leave : ∀ s i call a, owner (M.leave s i call a) = owner s
  env : ∀ s e s', M.env s e = some s' → owner s' = owner s
  runs : ∀ s i op, (use op).Ready i (owner s) →
    ∃ x r s', M.perform s i op x = some (r, s') ∧ π.step s i op x

namespace Disciplined
variable [Preorder L] {use : E.Op → LockUse L} {owner : State → L → Option Tid}
variable {c c' : Config Tid E State Call Out}

theorem idle (h : Disciplined use owner c) {i : Tid} (ht : c.tasks i = none) :
    heldBy (owner c.state) i = ∅ := by
  have hi := h i
  rwa [ht] at hi

theorem running (h : Disciplined use owner c) {i : Tid} {call : Call} {t : Task E Out}
    (ht : c.tasks i = some (call, t)) :
    Ordered use (fun _ held => held = ∅) t (heldBy (owner c.state) i) := by
  have hi := h i
  rwa [ht] at hi

/-- A mutex belongs to a thread that is in the middle of a call. -/
theorem owner_running (h : Disciplined use owner c) {i : Tid} {lock : L}
    (ho : owner c.state lock = some i) :
    ∃ call op next, c.tasks i = some (call, .perform op next) ∧ use op ≠ .wait := by
  have hmem : lock ∈ heldBy (owner c.state) i := ho
  cases ht : c.tasks i with
  | none =>
      rw [h.idle ht] at hmem
      exact absurd hmem (Set.notMem_empty lock)
  | some p =>
      obtain ⟨call, t⟩ := p
      have hord := h.running ht
      cases t with
      | done a =>
          rw [show heldBy (owner c.state) i = ∅ from hord] at hmem
          exact absurd hmem (Set.notMem_empty lock)
      | perform op next =>
          refine ⟨call, op, next, rfl, fun hwait => ?_⟩
          have hallowed := hord.1
          rw [hwait] at hallowed
          rw [show heldBy (owner c.state) i = ∅ from hallowed] at hmem
          exact absurd hmem (Set.notMem_empty lock)

/-- Behind every mutex that is held, some thread that holds it or a later one can go
on: its own next operation needs no mutex that is held. -/
theorem exists_ready [WellFoundedGT L] (h : Disciplined use owner c) (lock : L) (i : Tid)
    (ho : owner c.state lock = some i) :
    ∃ j later call op next, lock ≤ later ∧ owner c.state later = some j ∧
      c.tasks j = some (call, .perform op next) ∧ (use op).Ready j (owner c.state) := by
  -- a holder that waits itself waits for a mutex after all of its own
  induction lock using WellFoundedGT.induction generalizing i with
  | ind lock ih =>
      obtain ⟨call, op, next, ht, hwait⟩ := h.owner_running ho
      have hallowed := (h.running ht).1
      cases hu : use op with
      | acquire later =>
          rw [hu] at hallowed
          have hlt : lock < later := hallowed lock ho
          cases hj : owner c.state later with
          | none =>
              refine ⟨i, lock, call, op, next, le_refl lock, ho, ht, ?_⟩
              rw [hu]
              exact hj
          | some j =>
              obtain ⟨k, last, call', op', next', hle, hk⟩ := ih later hlt j hj
              exact ⟨k, last, call', op', next', hlt.le.trans hle, hk⟩
      | release lock' =>
          rw [hu] at hallowed
          refine ⟨i, lock, call, op, next, le_refl lock, ho, ht, ?_⟩
          rw [hu]
          exact hallowed
      | wait => exact absurd hu hwait
      | other =>
          refine ⟨i, lock, call, op, next, le_refl lock, ho, ht, ?_⟩
          rw [hu]
          trivial

theorem quiet (s : State) (h : ∀ lock, owner s lock = none) :
    Disciplined use owner (Config.quiet s : Config Tid E State Call Out) := by
  intro i
  have hfree : heldBy (owner s) i = ∅ := by simp [heldBy, h]
  exact hfree

private theorem setTask [DecidableEq Tid] (h : Disciplined use owner c) {i : Tid} {s' : State}
    {t : Option (Call × Task E Out)}
    (hself : t.elim (heldBy (owner s') i = ∅) fun p =>
      Ordered use (fun _ held => held = ∅) p.2 (heldBy (owner s') i))
    (hothers : ∀ j, j ≠ i → heldBy (owner s') j = heldBy (owner c.state) j) :
    Disciplined use owner (c.setTask s' i t) := by
  intro j
  by_cases hj : j = i
  · subst hj
    rw [Config.setTask_self]
    exact hself
  · rw [Config.setTask_of_ne c s' t hj]
    change (c.tasks j).elim (heldBy (owner s') j = ∅) _
    rw [show (c.setTask s' i t).state = s' from rfl, hothers j hj]
    exact h j

variable [DecidableEq L] [DecidableEq Tid] {M : Machine Tid E State Call Out Choice Env}
variable {π : Policy Tid E State Call Choice Env}

theorem step (K : Locking M π use owner) (h : Disciplined use owner c)
    {e : Event Tid Call Choice Env} (hs : M.step c e = some c') : Disciplined use owner c' := by
  cases Machine.moves_of_step hs with
  | @call i call s' ht he =>
      have howner := K.enter _ i call s' he
      refine h.setTask ?_ fun j _ => by rw [howner]
      have hfree := h.idle ht
      rw [← howner] at hfree
      change Ordered use _ (M.body call) (heldBy (owner s') i)
      rw [hfree]
      exact K.body call
  | @step i x call op next r s' ht hp =>
      have hmoves := K.perform _ i op x r s' hp
      refine h.setTask ?_ fun j hj => hmoves.heldBy_of_ne hj
      change Ordered use _ (next r) (heldBy (owner s') i)
      rw [hmoves.heldBy_self]
      exact (h.running ht).2 r
  | @ret i call a ht =>
      have howner := K.leave c.state i call a
      refine h.setTask ?_ fun j _ => by rw [howner]
      change heldBy (owner (M.leave c.state i call a)) i = ∅
      rw [howner]
      exact h.running ht
  | @env e s' he =>
      intro i
      change (c.tasks i).elim (heldBy (owner s') i = ∅) fun p =>
        Ordered use _ p.2 (heldBy (owner s') i)
      rw [K.env _ e s' he]
      exact h i

theorem reaches (K : Locking M π use owner) (h : Disciplined use owner c)
    (hr : M.Reaches π c c') : Disciplined use owner c' :=
  hr.induct h fun _ _ _ hc _ hs => hc.step K hs

/-- A thread that does not rest can go on, or one that holds what it waits for can. -/
theorem exists_step [WellFoundedGT L] (K : Locking M π use owner) (h : Disciplined use owner c)
    {i : Tid} (hi : ¬Resting use (c.tasks i)) :
    ∃ j call t s' t', c.tasks j = some (call, t) ∧
      (∀ p, t' = some p → ∃ op next r, t = .perform op next ∧ p = (call, next r)) ∧
      M.Reaches π c (c.setTask s' j t') := by
  have hgo : ∀ j call op next, c.tasks j = some (call, .perform op next) →
      (use op).Ready j (owner c.state) → ∃ j call t s' t', c.tasks j = some (call, t) ∧
      (∀ p, t' = some p → ∃ op next r, t = .perform op next ∧ p = (call, next r)) ∧
      M.Reaches π c (c.setTask s' j t') := by
    intro j call op next ht hready
    obtain ⟨x, r, s', hp, hπ⟩ := K.runs c.state j op hready
    refine ⟨j, call, _, s', some (call, next r), ht, ?_, .tail (.step j x) (.refl c) ?_ ?_⟩
    · rintro p ⟨rfl⟩
      exact ⟨op, next, r, rfl, rfl⟩
    · simpa only [Policy.Permits, ht] using hπ
    · simp only [Machine.step, ht, hp, Option.map_some]
  cases ht : c.tasks i with
  | none =>
      rw [ht] at hi
      exact absurd trivial hi
  | some p =>
      obtain ⟨call, t⟩ := p
      cases t with
      | done a =>
          refine ⟨i, call, _, M.leave c.state i call a, none, ht, fun _ hn => ?_,
            .tail (.ret i) (.refl c) trivial ?_⟩
          · cases hn
          · simp only [Machine.step, ht]
      | perform op next =>
          rw [ht] at hi
          have hallowed := (h.running ht).1
          have hready : (use op).Ready i (owner c.state) ∨
              ∃ lock j, owner c.state lock = some j := by
            cases hu : use op with
            | acquire lock =>
                cases hj : owner c.state lock with
                | none => exact .inl hj
                | some j => exact .inr ⟨lock, j, hj⟩
            | release lock =>
                rw [hu] at hallowed
                exact .inl hallowed
            | wait => exact absurd hu hi
            | other => exact .inl trivial
          rcases hready with hready | ⟨lock, j, hj⟩
          · exact hgo i call op next ht hready
          · obtain ⟨k, _, call', op', next', _, _, hk, hready⟩ := h.exists_ready lock j hj
            exact hgo k call' op' next' hk hready

end Disciplined

/-- Only finitely many threads are running at any point of a run. -/
theorem exists_threads [DecidableEq Tid] {M : Machine Tid E State Call Out Choice Env}
    {π : Policy Tid E State Call Choice Env} {s : State} {c : Config Tid E State Call Out}
    (hr : M.Reaches π (Config.quiet s) c) :
    ∃ threads : Finset Tid, ∀ i, i ∉ threads → c.tasks i = none := by
  refine hr.induct (I := fun c => ∃ threads : Finset Tid, ∀ i, i ∉ threads → c.tasks i = none)
    ⟨∅, fun _ _ => rfl⟩ fun c e c' h _ hs => ?_
  obtain ⟨threads, hidle⟩ := h
  have hset : ∀ (s' : State) (j : Tid) (t : Option (Call × Task E Out)) (i : Tid),
      i ∉ insert j threads → (c.setTask s' j t).tasks i = none := by
    intro s' j t i hi
    rw [Finset.mem_insert, not_or] at hi
    rw [Config.setTask_of_ne c s' t hi.1]
    exact hidle i hi.2
  cases Machine.moves_of_step hs with
  | @call j call s' _ _ => exact ⟨insert j threads, hset _ j _⟩
  | @step j x call op next r s' _ _ => exact ⟨insert j threads, hset _ j _⟩
  | @ret j call a _ => exact ⟨insert j threads, hset _ j _⟩
  | env _ => exact ⟨threads, hidle⟩

/-- What is left of a task after its next operation. -/
def Remains {α : Type} (t' t : Task E α) : Prop :=
  ∃ op next r, t = .perform op next ∧ t' = next r

theorem remains_wellFounded (α : Type) : WellFounded (Remains (E := E) (α := α)) := by
  refine ⟨fun t => ?_⟩
  induction t with
  | done a =>
      refine ⟨_, fun t' h => ?_⟩
      obtain ⟨op, next, r, heq, _⟩ := h
      cases heq
  | perform op next ih =>
      refine ⟨_, fun t' h => ?_⟩
      obtain ⟨op', next', r, heq, rfl⟩ := h
      cases heq
      exact ih r

/-- The tasks of the given threads. -/
def workload (threads : Multiset Tid) (c : Config Tid E State Call Out) :
    Multiset (Task E Out) :=
  (threads.map c.tasks).filterMap (Option.map Prod.snd)

theorem workload_setTask [DecidableEq Tid] {threads : Multiset Tid} (hnodup : threads.Nodup)
    {c : Config Tid E State Call Out} {i : Tid} {call : Call} {t : Task E Out} (s' : State)
    {t' : Option (Call × Task E Out)} (hmem : i ∈ threads) (ht : c.tasks i = some (call, t))
    (ht' : ∀ p, t' = some p → Remains p.2 t) :
    Relation.CutExpand Remains (workload threads (c.setTask s' i t')) (workload threads c) := by
  obtain ⟨rest, rfl⟩ := Multiset.exists_cons_of_mem hmem
  have hi : i ∉ rest := (Multiset.nodup_cons.mp hnodup).1
  have hrest : workload rest (c.setTask s' i t') = workload rest c := by
    refine congrArg (Multiset.filterMap _) (Multiset.map_congr rfl fun j hj => ?_)
    have hji : j ≠ i := fun he => hi (he ▸ hj)
    exact Config.setTask_of_ne c s' t' hji
  have hbefore : workload (i ::ₘ rest) c = t ::ₘ workload rest c := by
    rw [workload, Multiset.map_cons, ht]
    exact Multiset.filterMap_cons_some _ _ _ rfl
  rw [hbefore]
  cases t' with
  | none =>
      have hafter : workload (i ::ₘ rest) (c.setTask s' i none) = workload rest c := by
        rw [← hrest, workload, Multiset.map_cons, Config.setTask_self]
        exact Multiset.filterMap_cons_none _ _ rfl
      rw [hafter]
      exact ⟨0, t, by simp, by rw [add_zero, Multiset.add_comm]; rfl⟩
  | some p =>
      have hafter : workload (i ::ₘ rest) (c.setTask s' i (some p)) =
          p.2 ::ₘ workload rest c := by
        rw [← hrest, workload, Multiset.map_cons, Config.setTask_self]
        exact Multiset.filterMap_cons_some _ _ _ rfl
      rw [hafter]
      have hcut := Relation.cutExpand_add_single (workload rest c) (ht' p rfl)
      rwa [Multiset.add_comm, Multiset.add_comm _ {t}] at hcut

/-- A configuration with finitely many threads can be run on until all of them rest,
and then no mutex is held. -/
theorem Disciplined.drains [PartialOrder L] [WellFoundedGT L] [DecidableEq L] [DecidableEq Tid]
    {M : Machine Tid E State Call Out Choice Env} {π : Policy Tid E State Call Choice Env}
    {use : E.Op → LockUse L} {owner : State → L → Option Tid} (K : Locking M π use owner)
    (threads : Finset Tid) (c : Config Tid E State Call Out) (h : Disciplined use owner c)
    (hidle : ∀ i, i ∉ threads → c.tasks i = none) :
    ∃ c', M.Reaches π c c' ∧ (∀ i, Resting use (c'.tasks i)) ∧
      ∀ lock, owner c'.state lock = none := by
  induction hw : workload threads.val c using
    (remains_wellFounded (E := E) Out).cutExpand.induction generalizing c with
  | _ w ih =>
      by_cases hrest : ∀ i, Resting use (c.tasks i)
      · refine ⟨c, .refl c, hrest, fun lock => ?_⟩
        cases ho : owner c.state lock with
        | none => rfl
        | some i =>
            obtain ⟨call, op, next, ht, hwait⟩ := h.owner_running ho
            have hi := hrest i
            rw [ht] at hi
            exact absurd hi hwait
      · obtain ⟨i, hi⟩ := not_forall.mp hrest
        obtain ⟨j, call, t, s', t', ht, hremains, hr⟩ := h.exists_step K hi
        have hmem : j ∈ threads := by
          by_contra hj
          rw [hidle j hj] at ht
          cases ht
        have hcut := workload_setTask threads.nodup s' hmem ht fun p hp => by
          obtain ⟨op, next, r, rfl, rfl⟩ := hremains p hp
          exact ⟨op, next, r, rfl, rfl⟩
        rw [hw] at hcut
        obtain ⟨c', hr', hend⟩ := ih _ hcut (c.setTask s' j t') (h.reaches K hr)
          (fun k hk => by
            have hkj : k ≠ j := fun he => hk (he ▸ hmem)
            rw [Config.setTask_of_ne c s' t' hkj]
            exact hidle k hk) rfl
        exact ⟨c', hr.trans hr', hend⟩

/-- So can every configuration of a run. -/
theorem Locking.completes [PartialOrder L] [WellFoundedGT L] [DecidableEq L] [DecidableEq Tid]
    {M : Machine Tid E State Call Out Choice Env} {π : Policy Tid E State Call Choice Env}
    {use : E.Op → LockUse L} {owner : State → L → Option Tid} (K : Locking M π use owner)
    {s : State} (hs : ∀ lock, owner s lock = none) {c : Config Tid E State Call Out}
    (hr : M.Reaches π (Config.quiet s) c) :
    ∃ c', M.Reaches π c c' ∧ (∀ i, Resting use (c'.tasks i)) ∧
      ∀ lock, owner c'.state lock = none := by
  obtain ⟨threads, hidle⟩ := exists_threads hr
  exact ((Disciplined.quiet s hs).reaches K hr).drains K threads c hidle

end
end Concurrency

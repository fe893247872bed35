import Mathlib.Data.List.Nodup
import Mathlib.Logic.Function.Basic

/-!
Versioned values that are changed in two steps: a check of the version, and a
change made later.

The ledger is what a history of such changes has to record. A thread is `checked`
between a check that has passed and its change, and `wrote` between its change
and the new version. As long as a check only passes when no change is without its
version, and no change is made while another thread is checked, every change is
made to the value that carried the version its thread had checked, and no two
changes go back to the same version.
-/
namespace Concurrency

structure Ledger (Tid M : Type) where
  expecting : Tid → Nat
  checked : Tid → Bool
  made : Tid → Option M
  wrote : Tid → Bool
  carried : Nat → Option M
  successes : List (Nat × Option M)

namespace Ledger
variable {Tid M : Type}

/-- Before the first call, with the first version in place. -/
def start (now : Nat) (current : M) : Ledger Tid M where
  expecting _ := 0
  checked _ := false
  made _ := none
  wrote _ := false
  carried v := if v = now then some current else none
  successes := []

variable [DecidableEq Tid]

def begin (L : Ledger Tid M) (i : Tid) (expected : Nat) : Ledger Tid M :=
  { L with
    expecting := Function.update L.expecting i expected
    checked := Function.update L.checked i false
    made := Function.update L.made i none }

/-- The check of a thread that expects a version compares it with `seen`. -/
def compare (L : Ledger Tid M) (i : Tid) (seen : Nat) : Ledger Tid M :=
  { L with checked := Function.update L.checked i (decide (seen = L.expecting i)) }

def abandon (L : Ledger Tid M) (i : Tid) : Ledger Tid M :=
  { L with checked := Function.update L.checked i false }

/-- The value before the change is remembered. -/
def change (L : Ledger Tid M) (i : Tid) (before : M) : Ledger Tid M :=
  { L with
    checked := Function.update L.checked i false
    made := Function.update L.made i (some before)
    wrote := Function.update L.wrote i true }

def release (L : Ledger Tid M) (i : Tid) (version : Nat) (current : M) : Ledger Tid M :=
  { L with
    wrote := Function.update L.wrote i false
    carried := Function.update L.carried version (some current) }

/-- The call has succeeded; it counts when it expected a version. -/
def succeed (L : Ledger Tid M) (i : Tid) : Ledger Tid M :=
  { L with
    made := Function.update L.made i none
    successes := if L.expecting i = 0 then L.successes
      else (L.expecting i, L.made i) :: L.successes }

def finish {ε α : Type} (L : Ledger Tid M) (i : Tid) : Except ε α → Ledger Tid M
  | .ok _ => L.succeed i
  | .error _ => L.abandon i

omit [DecidableEq Tid] in
/-- Every success was a change of the value that carried its version, and no two
successes were for one version. -/
def Swaps (L : Ledger Tid M) : Prop :=
  (∀ p ∈ L.successes, p.2.isSome = true ∧ p.2 = L.carried p.1) ∧
    (L.successes.map Prod.fst).Nodup

def Clean (L : Ledger Tid M) : Prop := ∀ i, L.wrote i = false

/-- The thread expected a version and has changed `m`. -/
def Swapped (L : Ledger Tid M) (i : Tid) (m : M) : Prop :=
  L.expecting i ≠ 0 ∧ L.made i = some m

/-- `now` is the version in place and `current` the value. -/
structure Sound (L : Ledger Tid M) (now : Nat) (current : M) : Prop where
  current : L.Clean → L.carried now = some current
  checked : ∀ i, L.checked i = true → L.expecting i = now ∧ L.Clean
  made : ∀ i m, L.Swapped i m → L.carried (L.expecting i) = some m ∧
    (L.expecting i < now ∨ L.expecting i = now ∧ L.wrote i = true)
  distinct : ∀ i j m m', L.Swapped i m → L.Swapped j m' →
    L.expecting i = L.expecting j → i = j
  successes : ∀ p ∈ L.successes, p.2.isSome = true ∧ p.2 = L.carried p.1 ∧ p.1 < now
  fresh : ∀ i m, L.Swapped i m → L.expecting i ∉ L.successes.map Prod.fst
  nodup : (L.successes.map Prod.fst).Nodup

omit [DecidableEq Tid] in
theorem Sound.swaps {L : Ledger Tid M} {now : Nat} {current : M}
    (h : L.Sound now current) : L.Swaps :=
  ⟨fun p hp => ⟨(h.successes p hp).1, (h.successes p hp).2.1⟩, h.nodup⟩

omit [DecidableEq Tid] in
theorem sound_start (now : Nat) (current : M) :
    (start now current : Ledger Tid M).Sound now current where
  current _ := by simp [start]
  checked i h := by simp [start] at h
  made i m h := by simp [start, Swapped] at h
  distinct i j m m' h := by simp [start, Swapped] at h
  successes p h := by simp [start] at h
  fresh i m h := by simp [start, Swapped] at h
  nodup := List.nodup_nil

/-- What the steps of the other threads leave alone. -/
def Own (i : Tid) (L L' : Ledger Tid M) : Prop :=
  L'.expecting i = L.expecting i ∧ L'.checked i = L.checked i ∧
    L'.made i = L.made i ∧ L'.wrote i = L.wrote i

variable {L L' : Ledger Tid M} {now : Nat} {current : M} {i : Tid}

omit [DecidableEq Tid] in
/-- Threads may drop what they have checked or made. -/
theorem Sound.forget (h : L.Sound now current) (hcarried : L'.carried = L.carried)
    (hsuccesses : L'.successes = L.successes) (hwrote : L'.wrote = L.wrote)
    (hchecked : ∀ j, L'.checked j = true → L.checked j = true ∧ L'.expecting j = L.expecting j)
    (hmade : ∀ j m, L'.Swapped j m → L.Swapped j m ∧ L'.expecting j = L.expecting j) :
    L'.Sound now current := by
  have hclean : L'.Clean ↔ L.Clean := by simp [Clean, hwrote]
  constructor
  · intro hc
    rw [hcarried]
    exact h.current (hclean.1 hc)
  · intro j hj
    obtain ⟨hj', he⟩ := hchecked j hj
    obtain ⟨hnow, hc⟩ := h.checked j hj'
    exact ⟨he.trans hnow, hclean.2 hc⟩
  · intro j m hj
    obtain ⟨hj', he⟩ := hmade j m hj
    rw [hcarried, he, hwrote]
    exact h.made j m hj'
  · intro j k m m' hj hk heq
    obtain ⟨hj', hej⟩ := hmade j m hj
    obtain ⟨hk', hek⟩ := hmade k m' hk
    exact h.distinct j k m m' hj' hk' (by rw [← hej, ← hek, heq])
  · rw [hsuccesses, hcarried]
    exact h.successes
  · intro j m hj
    obtain ⟨hj', he⟩ := hmade j m hj
    rw [he, hsuccesses]
    exact h.fresh j m hj'
  · rw [hsuccesses]
    exact h.nodup

theorem Sound.begin (h : L.Sound now current) (expected : Nat) :
    (L.begin i expected).Sound now current := by
  refine h.forget rfl rfl rfl ?_ ?_
  · intro j hj
    by_cases hji : j = i
    · simp [Ledger.begin, hji] at hj
    · simpa [Ledger.begin, hji] using hj
  · intro j m hj
    by_cases hji : j = i
    · simp [Ledger.begin, Swapped, hji] at hj
    · simpa [Ledger.begin, Swapped, hji] using hj

theorem Sound.abandon (h : L.Sound now current) : (L.abandon i).Sound now current := by
  refine h.forget rfl rfl rfl ?_ fun j m hj => ⟨hj, rfl⟩
  intro j hj
  by_cases hji : j = i
  · simp [Ledger.abandon, hji] at hj
  · simpa [Ledger.abandon, hji] using hj

/-- A check may pass when every change has its version. -/
theorem Sound.compare (h : L.Sound now current) {seen : Nat}
    (hseen : seen = L.expecting i → seen = now ∧ L.Clean) :
    (L.compare i seen).Sound now current := by
  refine { h with checked := ?_ }
  intro j hj
  by_cases hji : j = i
  · subst hji
    have heq : seen = L.expecting j := by simpa [Ledger.compare] using hj
    obtain ⟨hnow, hc⟩ := hseen heq
    exact ⟨heq.symm.trans hnow, hc⟩
  · exact h.checked j (by simpa [Ledger.compare, hji] using hj)

omit [DecidableEq Tid] in
/-- When every change has its version, the versions changed are in the past. -/
theorem Sound.below (h : L.Sound now current) {m : M} (hm : L.Swapped i m) (hc : L.Clean) :
    L.expecting i < now := by
  rcases (h.made i m hm).2 with hlt | ⟨_, hw⟩
  · exact hlt
  · rw [hc i] at hw
    cases hw

theorem swapped_of_change {j : Tid} {m : M} (hj : j ≠ i)
    (h : (L.change i current).Swapped j m) : L.Swapped j m :=
  ⟨h.1, by simpa [Ledger.change, hj] using h.2⟩

/-- A thread that changes the value in place of a version had checked that version. -/
theorem Sound.swapped_change (h : L.Sound now current)
    (hchecked : L.expecting i ≠ 0 → L.checked i = true) {m : M}
    (hm : (L.change i current).Swapped i m) : m = current ∧ L.expecting i = now ∧ L.Clean := by
  have hmade : current = m := by simpa [Ledger.change] using hm.2
  exact ⟨hmade.symm, h.checked i (hchecked hm.1)⟩

theorem Sound.change_apart (h : L.Sound now current)
    (hchecked : L.expecting i ≠ 0 → L.checked i = true) {j : Tid} {m m' : M} (hj : j ≠ i)
    (hm : (L.change i current).Swapped i m) (hm' : (L.change i current).Swapped j m') :
    L.expecting j < L.expecting i := by
  obtain ⟨_, hnow, hclean⟩ := h.swapped_change hchecked hm
  rw [hnow]
  exact h.below (swapped_of_change hj hm') hclean

/-- A change may be made when no other thread stands between its check and its
change. -/
theorem Sound.change (h : L.Sound now current) (hothers : ∀ j, j ≠ i → L.checked j = false)
    (hchecked : L.expecting i ≠ 0 → L.checked i = true) (next : M) :
    (L.change i current).Sound now next := by
  have hi : (L.change i current).wrote i = true := by simp [Ledger.change]
  constructor
  · intro hc
    rw [hc i] at hi
    cases hi
  · intro j hj
    by_cases hji : j = i
    · simp [Ledger.change, hji] at hj
    · simp [Ledger.change, hji, hothers j hji] at hj
  · intro j m hj
    by_cases hji : j = i
    · subst hji
      obtain ⟨rfl, hnow, hclean⟩ := h.swapped_change hchecked hj
      refine ⟨?_, .inr ⟨hnow, hi⟩⟩
      change L.carried (L.expecting j) = some m
      rw [hnow]
      exact h.current hclean
    · simpa [Ledger.change, hji] using h.made j m (swapped_of_change hji hj)
  · intro j k m m' hj hk heq
    change L.expecting j = L.expecting k at heq
    by_cases hji : j = i
    · subst hji
      by_contra hjk
      exact Nat.ne_of_gt (h.change_apart hchecked (Ne.symm hjk) hj hk) heq
    · by_cases hki : k = i
      · subst hki
        exact absurd heq (Nat.ne_of_lt (h.change_apart hchecked hji hk hj))
      · exact h.distinct j k m m' (swapped_of_change hji hj) (swapped_of_change hki hk) heq
  · exact h.successes
  · intro j m hj
    by_cases hji : j = i
    · subst hji
      intro hmem
      obtain ⟨p, hp, hpv⟩ := List.mem_map.1 hmem
      have hlt := (h.successes p hp).2.2
      have hnow := (h.swapped_change hchecked hj).2.1
      change p.1 = L.expecting j at hpv
      omega
    · exact h.fresh j m (swapped_of_change hji hj)
  · exact h.nodup

/-- The new version is larger than all before. -/
theorem Sound.release (h : L.Sound now current) (hi : L.wrote i = true) {version : Nat}
    (hv : now < version) : (L.release i version current).Sound version current := by
  have hle : ∀ j m, L.Swapped j m → L.expecting j ≤ now := by
    intro j m hm
    rcases (h.made j m hm).2 with hlt | ⟨heq, _⟩ <;> omega
  constructor
  · intro _
    simp [Ledger.release]
  · intro j hj
    have hc := (h.checked j hj).2 i
    rw [hi] at hc
    cases hc
  · intro j m hj
    have hj' := hle j m hj
    refine ⟨?_, .inl (Nat.lt_of_le_of_lt hj' hv)⟩
    have hne : L.expecting j ≠ version := by omega
    simpa [Ledger.release, hne] using (h.made j m hj).1
  · exact h.distinct
  · intro p hp
    obtain ⟨hsome, hcarried, hlt⟩ := h.successes p hp
    have hne : p.1 ≠ version := by omega
    refine ⟨hsome, ?_, Nat.lt_trans hlt hv⟩
    simpa [Ledger.release, hne] using hcarried
  · exact h.fresh
  · exact h.nodup

/-- A thread succeeds after its change has its version. -/
theorem Sound.succeed (h : L.Sound now current) (hw : L.wrote i = false)
    (hm : L.expecting i ≠ 0 → (L.made i).isSome = true) :
    (L.succeed i).Sound now current := by
  have hother : ∀ j m, (L.succeed i).Swapped j m → j ≠ i ∧ L.Swapped j m := by
    rintro j m ⟨hne, hj⟩
    by_cases hji : j = i
    · simp [Ledger.succeed, hji] at hj
    · exact ⟨hji, hne, by simpa [Ledger.succeed, hji] using hj⟩
  by_cases hzero : L.expecting i = 0
  · refine h.forget rfl (by simp [Ledger.succeed, hzero]) rfl (fun j hj => ⟨hj, rfl⟩) ?_
    intro j m hj
    exact ⟨(hother j m hj).2, rfl⟩
  · obtain ⟨m, hmi⟩ := Option.isSome_iff_exists.1 (hm hzero)
    have hi : L.Swapped i m := ⟨hzero, hmi⟩
    have hpush : (L.succeed i).successes = (L.expecting i, some m) :: L.successes := by
      simp [Ledger.succeed, hzero, hmi]
    refine { h with made := ?_, distinct := ?_, successes := ?_, fresh := ?_, nodup := ?_ }
    · intro j m' hj
      exact h.made j m' (hother j m' hj).2
    · intro j k m₁ m₂ hj hk heq
      exact h.distinct j k m₁ m₂ (hother j m₁ hj).2 (hother k m₂ hk).2 heq
    · intro p hp
      rw [hpush] at hp
      rcases List.mem_cons.1 hp with rfl | hp
      · obtain ⟨hcarried, hlt | ⟨_, hw'⟩⟩ := h.made i m hi
        · exact ⟨rfl, hcarried.symm, hlt⟩
        · rw [hw] at hw'
          cases hw'
      · exact h.successes p hp
    · intro j m' hj hmem
      obtain ⟨hji, hmj⟩ := hother j m' hj
      rw [hpush, List.map_cons] at hmem
      rcases List.mem_cons.1 hmem with heq | hmem
      · exact hji (h.distinct j i m' m hmj hi heq)
      · exact h.fresh j m' hmj hmem
    · rw [hpush, List.map_cons]
      exact List.nodup_cons.2 ⟨h.fresh i m hi, h.nodup⟩

/-- How far a thread is with a call that expects a version. -/
inductive Stage where
  | idle
  | entered (expected : Nat)
  | checked (expected : Nat)
  | wrote (expected : Nat)
  | made (expected : Nat)

def At (L : Ledger Tid M) (i : Tid) : Stage → Prop
  | .idle => L.checked i = false ∧ L.made i = none ∧ L.wrote i = false
  | .entered v => L.expecting i = v ∧ L.made i = none ∧ L.wrote i = false
  | .checked v => L.expecting i = v ∧ L.made i = none ∧ L.wrote i = false ∧
      (v ≠ 0 → L.checked i = true)
  | .wrote v => L.expecting i = v ∧ L.checked i = false ∧ L.wrote i = true ∧
      (L.made i).isSome = true
  | .made v => L.expecting i = v ∧ L.checked i = false ∧ L.wrote i = false ∧
      (L.made i).isSome = true

/-- Where a call that returns leaves its thread. -/
def Stage.returned {ε α : Type} (v : Nat) : Except ε α → Stage
  | .ok _ => .made v
  | .error _ => .entered v

omit [DecidableEq Tid] in
theorem Own.at (h : Own i L L') {stage : Stage} (hi : L.At i stage) : L'.At i stage := by
  obtain ⟨he, hc, hm, hw⟩ := h
  cases stage <;> simpa only [At, he, hc, hm, hw] using hi

omit [DecidableEq Tid] in
theorem At.entered {v : Nat} (h : L.At i (.checked v)) : L.At i (.entered v) :=
  ⟨h.1, h.2.1, h.2.2.1⟩

omit [DecidableEq Tid] in
/-- Nothing is expected, so there is nothing to check. -/
theorem At.unchecked (h : L.At i (.entered 0)) : L.At i (.checked 0) :=
  ⟨h.1, h.2.1, h.2.2, fun h0 => absurd rfl h0⟩

theorem At.begin (h : L.At i .idle) (v : Nat) : (L.begin i v).At i (.entered v) := by
  simpa [At, Ledger.begin] using h.2.2

theorem At.compare {v : Nat} (h : L.At i (.entered v)) (seen : Nat) :
    (L.compare i seen).At i (if seen = v then .checked v else .entered v) := by
  obtain ⟨he, hm, hw⟩ := h
  split
  · next heq => simp [At, Ledger.compare, he, hm, hw, heq]
  · exact ⟨he, hm, hw⟩

theorem At.change {v : Nat} (h : L.At i (.checked v)) (before : M) :
    (L.change i before).At i (.wrote v) := by
  exact ⟨h.1, by simp [Ledger.change], by simp [Ledger.change], by simp [Ledger.change]⟩

theorem At.release {v : Nat} (h : L.At i (.wrote v)) (version : Nat) (current : M) :
    (L.release i version current).At i (.made v) := by
  obtain ⟨he, hc, _, hm⟩ := h
  exact ⟨he, hc, by simp [Ledger.release], hm⟩

theorem At.finish {ε α : Type} {v : Nat} {out : Except ε α}
    (h : L.At i (.returned v out)) : (L.finish i out).At i .idle := by
  cases out with
  | ok a => exact ⟨h.2.1, by simp [Ledger.finish, Ledger.succeed], h.2.2.1⟩
  | error e => exact ⟨by simp [Ledger.finish, Ledger.abandon], h.2.1, h.2.2⟩

theorem Sound.finish {ε α : Type} {v : Nat} {out : Except ε α} (hs : L.Sound now current)
    (h : L.At i (.returned v out)) : (L.finish i out).Sound now current := by
  cases out with
  | ok a => exact hs.succeed h.2.2.1 fun _ => h.2.2.2
  | error e => exact hs.abandon

section
variable {j : Tid} (hj : j ≠ i)
include hj

theorem own_begin (v : Nat) : Own j L (L.begin i v) := by
  simp [Own, Ledger.begin, hj]

theorem own_compare (seen : Nat) : Own j L (L.compare i seen) := by
  simp [Own, Ledger.compare, hj]

theorem own_change (before : M) : Own j L (L.change i before) := by
  simp [Own, Ledger.change, hj]

theorem own_release (version : Nat) (current : M) : Own j L (L.release i version current) := by
  simp [Own, Ledger.release, hj]

theorem own_finish {ε α : Type} (out : Except ε α) : Own j L (L.finish i out) := by
  cases out <;> simp [Own, finish, Ledger.succeed, Ledger.abandon, hj]

end

end Ledger
end Concurrency

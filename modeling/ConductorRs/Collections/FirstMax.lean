import Mathlib.Data.List.Induction
import Mathlib.Order.Lattice

/-!
The first of the greatest elements of a list, under a key. Adding an element at
the end replaces it only by a strictly greater one.
-/
namespace Collections

section
variable {α κ : Type} [LinearOrder κ] (key : α → κ)

/-- `none` for the empty list; otherwise everything before the element is smaller
and nothing after it is greater. -/
def FirstMax (l : List α) : Option α → Prop
  | none => l = []
  | some a => ∃ before after, l = before ++ a :: after ∧
      (∀ b ∈ before, key b < key a) ∧ ∀ b ∈ after, key b ≤ key a

/-- Take a new element if it is greater. -/
def raise : Option α → α → Option α
  | none, b => some b
  | some a, b => if key a < key b then some b else some a

variable {key} {l : List α}

theorem FirstMax.le {a b : α} (h : FirstMax key l (some a)) (hb : b ∈ l) : key b ≤ key a := by
  obtain ⟨before, after, rfl, hbefore, hafter⟩ := h
  rcases List.mem_append.mp hb with hb | hb
  · exact (hbefore b hb).le
  · rcases List.mem_cons.mp hb with rfl | hb
    · exact le_refl _
    · exact hafter b hb

theorem FirstMax.mem {a : α} (h : FirstMax key l (some a)) : a ∈ l := by
  obtain ⟨before, after, rfl, _, _⟩ := h
  simp

theorem FirstMax.keep {a b : α} (h : FirstMax key l (some a)) (hle : key b ≤ key a) :
    FirstMax key (l ++ [b]) (some a) := by
  obtain ⟨before, after, rfl, hbefore, hafter⟩ := h
  refine ⟨before, after ++ [b], by simp, hbefore, fun c hc => ?_⟩
  rcases List.mem_append.mp hc with hc | hc
  · exact hafter c hc
  · rw [List.mem_singleton.mp hc]
    exact hle

theorem FirstMax.replace {m : Option α} {b : α} (h : FirstMax key l m)
    (hlt : ∀ a, m = some a → key a < key b) : FirstMax key (l ++ [b]) (some b) := by
  refine ⟨l, [], rfl, fun c hc => ?_, fun c hc => absurd hc (by simp)⟩
  cases m with
  | none =>
      rw [show l = [] from h] at hc
      cases hc
  | some a => exact (h.le hc).trans_lt (hlt a rfl)

theorem FirstMax.raise {m : Option α} (h : FirstMax key l m) (b : α) :
    FirstMax key (l ++ [b]) (raise key m b) := by
  cases m with
  | none => exact h.replace fun a ha => by cases ha
  | some a =>
      simp only [Collections.raise]
      split
      · next hlt =>
          refine h.replace fun c hc => ?_
          cases hc
          exact hlt
      · next hlt => exact h.keep (le_of_not_gt hlt)

/-- Raising from nothing finds the first maximum. -/
theorem firstMax_foldl_raise (l : List α) : FirstMax key l (l.foldl (raise key) none) := by
  induction l using List.reverseRecOn with
  | nil => rfl
  | append_singleton l b ih =>
      rw [List.foldl_append]
      exact ih.raise b

/-- A longer list has a first maximum that is not smaller. -/
theorem FirstMax.mono {l' : List α} {a : α} {m : Option α} (h : FirstMax key l (some a))
    (h' : FirstMax key l' m) (hsub : l ⊆ l') : ∃ b, m = some b ∧ key a ≤ key b := by
  have ha : a ∈ l' := hsub h.mem
  cases m with
  | none =>
      rw [show l' = [] from h'] at ha
      cases ha
  | some b => exact ⟨b, rfl, h'.le ha⟩

end
end Collections

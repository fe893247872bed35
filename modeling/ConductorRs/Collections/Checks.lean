import Mathlib.Logic.Basic

/-!
Programs that check and go on. Such a program succeeds exactly when each of its
checks does, so a result of it is read off step by step.
-/
namespace Collections

section

variable {ε α β : Type}

theorem bind_eq_ok {x : Except ε α} {f : α → Except ε β} {b : β} :
    x >>= f = .ok b ↔ ∃ a, x = .ok a ∧ f a = .ok b := by
  cases x with
  | error e =>
      constructor
      · intro h
        cases h
      · rintro ⟨a, h, _⟩
        cases h
  | ok a =>
      constructor
      · intro h
        exact ⟨a, rfl, h⟩
      · rintro ⟨_, h, hf⟩
        cases h
        exact hf

theorem mapM_map_ok {f : α → Except ε β} {g : β → α} (h : ∀ b, f (g b) = .ok b) (l : List β) :
    (l.map g).mapM f = .ok l := by
  induction l with
  | nil => rfl
  | cons b l ih =>
      rw [List.map_cons, List.mapM_cons, h b, ih]
      rfl

/-- A condition that stops the program at its end. -/
theorem throw_eq_ok {c : Prop} [Decidable c] {e : ε} {x : Except ε β} {b : β} :
    (if c then throw e else x) = .ok b ↔ ¬ c ∧ x = .ok b := by
  by_cases hc : c
  · rw [if_pos hc]
    constructor
    · intro h
      cases h
    · intro h
      exact absurd hc h.1
  · rw [if_neg hc]
    exact ⟨fun h => ⟨hc, h⟩, fun h => h.2⟩

/-- A condition that stops the program before its end. -/
theorem stop_eq_ok {c : Prop} [Decidable c] {e : ε} {k : α → Except ε β} {x : Except ε β} {b : β} :
    (if c then throw e >>= k else x) = .ok b ↔ ¬ c ∧ x = .ok b :=
  throw_eq_ok

/-- The result holds what it should, or the error is one that may be given. -/
def Checked (fails : ε → Prop) (holds : α → Prop) : Except ε α → Prop
  | .ok a => holds a
  | .error e => fails e

namespace Checked

variable {fails : ε → Prop}

theorem bind {P : α → Prop} {Q : β → Prop} {x : Except ε α} {f : α → Except ε β}
    (hx : Checked fails P x) (hf : ∀ a, P a → Checked fails Q (f a)) :
    Checked fails Q (x >>= f) := by
  cases x with
  | error e => exact hx
  | ok a => exact hf a hx

theorem imp {P Q : α → Prop} {x : Except ε α} (hx : Checked fails P x) (h : ∀ a, P a → Q a) :
    Checked fails Q x := by
  cases x with
  | error e => exact hx
  | ok a => exact h a hx

/-- Without a result there is an error that may be given. -/
theorem error_of_not {P : α → Prop} {x : Except ε α} (hx : Checked fails P x)
    (h : ∀ a, ¬ P a) : ∃ e, x = .error e ∧ fails e := by
  cases x with
  | error e => exact ⟨e, rfl, hx⟩
  | ok a => exact absurd hx (h a)

end Checked

end

end Collections

import Mathlib.Data.List.Infix

/-!
Bounded channels with one receiver.

The bound on the queue is a field, so no operation can exceed it. Sending never
waits: a channel that is full or has lost its receiver refuses. Receiving waits
for a value as long as a sender is left and yields nothing once there is none.
-/
namespace Concurrency

structure Channel (α : Type) (capacity : Nat) where
  queue : List α
  bounded : queue.length ≤ capacity
  receiver : Bool

namespace Channel
variable {α : Type} {capacity : Nat}

def new : Channel α capacity := ⟨[], Nat.zero_le _, true⟩

def refuses (c : Channel α capacity) : Bool := !c.receiver || c.queue.length == capacity

theorem append_bounded {queue : List α} (h : queue.length < capacity) (a : α) :
    (queue ++ [a]).length ≤ capacity := by
  rw [List.length_append, List.length_singleton]
  exact h

/-- Put a value into the queue, or refuse it. -/
def trySend (c : Channel α capacity) (a : α) : Bool × Channel α capacity :=
  if h : c.queue.length < capacity then
    if c.receiver then (true, ⟨c.queue ++ [a], append_bounded h a, true⟩) else (false, c)
  else (false, c)

/-- Take the first value. Without a value the receiver waits while a sender is
left. -/
def recv (c : Channel α capacity) (connected : Bool) : Option (Option α × Channel α capacity) :=
  match h : c.queue with
  | a :: rest =>
      some (some a, ⟨rest, by have hb := c.bounded; rw [h] at hb; simp at hb; omega, c.receiver⟩)
  | [] => if connected then none else some (none, c)

/-- What is still in the queue is lost with the receiver. -/
def dropReceiver (_ : Channel α capacity) : Channel α capacity := ⟨[], Nat.zero_le _, false⟩

theorem trySend_of_refuses {c : Channel α capacity} {a : α} (h : c.refuses = true) :
    c.trySend a = (false, c) := by
  have hfull : c.receiver = false ∨ c.queue.length = capacity := by
    simpa [refuses] using h
  simp only [trySend]
  cases hfull with
  | inl hgone => simp [hgone]
  | inr hlength => rw [dif_neg (by omega)]

theorem trySend_of_accepts {c : Channel α capacity} {a : α} (h : c.refuses = false) :
    (c.trySend a).1 = true ∧ (c.trySend a).2.queue = c.queue ++ [a] ∧
      (c.trySend a).2.receiver = true ∧ c.receiver = true := by
  have hroom : c.receiver = true ∧ c.queue.length ≠ capacity := by
    simpa [refuses] using h
  have hb := c.bounded
  simp only [trySend]
  rw [dif_pos (by omega), if_pos hroom.1]
  exact ⟨rfl, rfl, rfl, hroom.1⟩

theorem recv_some {c c' : Channel α capacity} {connected : Bool} {a : α}
    (h : c.recv connected = some (some a, c')) :
    c.queue = a :: c'.queue ∧ c'.receiver = c.receiver := by
  simp only [recv] at h
  split at h
  · next b rest hq =>
      cases h
      exact ⟨hq, rfl⟩
  · split at h <;> cases h

end Channel
end Concurrency

import Mathlib.Data.List.Range
import ConductorRs.Collections.BTreeMap

/-!
Maps whose keys are consecutive numbers. Removing keys at either end and adding
keys after the last one keeps them consecutive.
-/
namespace Collections

theorem filter_lt_range' (first n k : Nat) :
    (List.range' first n).filter (fun x => decide (x < k)) =
      List.range' first (min n (k - first)) := by
  induction n generalizing first with
  | zero => simp
  | succ n ih =>
      rw [List.range'_succ, List.filter_cons, ih]
      by_cases hk : first < k
      · have hmin : min (n + 1) (k - first) = min n (k - (first + 1)) + 1 := by omega
        simp [hk, hmin, List.range'_succ]
      · have hleft : min n (k - (first + 1)) = 0 := by omega
        have hright : min (n + 1) (k - first) = 0 := by omega
        simp [hk, hleft, hright]

theorem filter_gt_range' (first n k : Nat) :
    (List.range' first n).filter (fun x => decide (k < x)) =
      List.range' (max first (k + 1)) (first + n - max first (k + 1)) := by
  induction n generalizing first with
  | zero =>
      have hzero : first - max first (k + 1) = 0 := by omega
      simp [hzero]
  | succ n ih =>
      rw [List.range'_succ, List.filter_cons, ih]
      by_cases hk : k < first
      · have hleft : max (first + 1) (k + 1) = first + 1 := by omega
        have hright : max first (k + 1) = first := by omega
        have hn : first + (n + 1) - first = n + 1 := by omega
        rw [hright, hn, hleft]
        simp [hk, List.range'_succ]
      · have hmax : max (first + 1) (k + 1) = max first (k + 1) := by omega
        have hn : first + 1 + n = first + (n + 1) := by omega
        simp [hk, hmax, hn]

namespace BTreeMap
variable {ν : Type}

/-- The keys are `first, first + 1, …`, `n` of them. -/
def Consecutive (m : BTreeMap Nat ν) (first n : Nat) : Prop := m.keys = List.range' first n

variable {m : BTreeMap Nat ν} {first n : Nat}

theorem Consecutive.retain_lt (h : m.Consecutive first n) (k : Nat) :
    (m.retain fun x => decide (x < k)).Consecutive first (min n (k - first)) := by
  rw [Consecutive, keys_retain, h, filter_lt_range']

theorem Consecutive.retain_gt (h : m.Consecutive first n) (k : Nat) :
    (m.retain fun x => decide (k < x)).Consecutive (max first (k + 1))
      (first + n - max first (k + 1)) := by
  rw [Consecutive, keys_retain, h, filter_gt_range']

theorem Consecutive.insert (h : m.Consecutive first n) (v : ν) :
    (m.insert (first + n) v).Consecutive first (n + 1) := by
  have hlt : ∀ k ∈ m.keys, k < first + n := by
    intro k hk
    rw [h, List.mem_range'_1] at hk
    exact hk.2
  rw [Consecutive, keys_insert_of_forall_lt m _ v hlt, h, List.range'_concat]
  simp

theorem Consecutive.insertAll (h : m.Consecutive first n) {entries : List (Nat × ν)}
    (he : entries.map Prod.fst = List.range' (first + n) entries.length) :
    (entries.foldl (fun m e => m.insert e.1 e.2) m).Consecutive first
      (n + entries.length) := by
  induction entries generalizing m n with
  | nil => exact h
  | cons e rest ih =>
      simp only [List.map_cons, List.length_cons, List.range'_succ, List.cons.injEq] at he
      obtain ⟨hkey, hrest⟩ := he
      have hstep := h.insert e.2
      rw [← hkey] at hstep
      have hlen : n + (e :: rest).length = n + 1 + rest.length := by
        simp only [List.length_cons]
        omega
      rw [List.foldl_cons, hlen]
      refine ih hstep ?_
      rw [hrest, Nat.add_assoc]

theorem Consecutive.lastKey?_succ (h : m.Consecutive first (n + 1)) :
    m.lastKey? = some (first + n) := by
  rw [lastKey?, h, List.range'_concat]
  simp

theorem Consecutive.lastKey?_zero (h : m.Consecutive first 0) : m.lastKey? = none := by
  rw [lastKey?, h]
  rfl

end BTreeMap
end Collections

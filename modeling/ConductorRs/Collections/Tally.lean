import Mathlib.Data.List.Induction
import ConductorRs.Collections.BTreeMap

/-!
Maps that count. An entry is made on its first use and updated in place, so after
any number of updates the map holds the keys that were used, each with what its
own updates made of the default.
-/
namespace Collections
namespace BTreeMap

variable {κ ν : Type} [LinearOrder κ]

/-- `*map.entry(key).or_insert(default) = update(..)`. -/
def upsert (m : BTreeMap κ ν) (k : κ) (default : ν) (update : ν → ν) : BTreeMap κ ν :=
  m.insert k (update ((m.get? k).getD default))

theorem mem_keys_insert {m : BTreeMap κ ν} {k k' : κ} {v : ν} :
    k' ∈ (m.insert k v).keys ↔ k' = k ∨ k' ∈ m.keys := by
  constructor
  · intro h
    obtain ⟨entry, hentry, rfl⟩ := List.mem_map.mp h
    rcases mem_insertEntry hentry with rfl | hentry
    · exact .inl rfl
    · exact .inr (List.mem_map_of_mem hentry)
  · intro h
    by_cases hk : k' = k
    · subst hk
      exact List.mem_map.mpr ⟨(k', v), mem_insertEntry_self k' v m.entries, rfl⟩
    · obtain ⟨entry, hentry, rfl⟩ := List.mem_map.mp (h.resolve_left hk)
      exact List.mem_map_of_mem (mem_insertEntry_of_ne hentry hk)

theorem forall_keys_upsert {m : BTreeMap κ ν} {k : κ} {default : ν} {update : ν → ν}
    {P : κ → Prop} :
    (∀ k' ∈ (m.upsert k default update).keys, P k') ↔ P k ∧ ∀ k' ∈ m.keys, P k' := by
  constructor
  · intro h
    exact ⟨h k (mem_keys_insert.mpr (.inl rfl)),
      fun k' hk' => h k' (mem_keys_insert.mpr (.inr hk'))⟩
  · rintro ⟨hk, hm⟩ k' hk'
    rcases mem_keys_insert.mp hk' with rfl | hk'
    · exact hk
    · exact hm k' hk'

theorem nodup_keys (m : BTreeMap κ ν) : m.keys.Nodup := by
  refine List.pairwise_map.mpr (m.sorted.imp ?_)
  intro a b hlt heq
  exact absurd hlt (heq ▸ lt_irrefl _)

/-- How often each key was used, in 64 bits. -/
def tally (keys : List κ) : BTreeMap κ UInt64 :=
  keys.foldl (fun m k => m.upsert k 0 (· + 1)) empty

theorem tally_concat (keys : List κ) (k : κ) :
    tally (keys ++ [k]) = (tally keys).upsert k 0 (· + 1) := by
  simp [tally]

theorem get?_upsert (m : BTreeMap κ ν) (k k' : κ) (default : ν) (update : ν → ν) :
    (m.upsert k default update).get? k' =
      if k' = k then some (update ((m.get? k).getD default)) else m.get? k' :=
  get?_insert m k k' _

section
variable {α : Type}

/-- Each key with what its observations made of the default. -/
def gather (default : ν) (update : α → ν → ν) (l : List (κ × α)) : BTreeMap κ ν :=
  l.foldl (fun m o => m.upsert o.1 default (update o.2)) empty

/-- The observations under one key, in their order. -/
def under (k : κ) (l : List (κ × α)) : List α := (l.filter fun o => o.1 = k).map Prod.snd

theorem gather_concat (default : ν) (update : α → ν → ν) (l : List (κ × α)) (o : κ × α) :
    gather default update (l ++ [o]) =
      (gather default update l).upsert o.1 default (update o.2) := by
  simp [gather]

theorem under_concat_self (k : κ) (l : List (κ × α)) (a : α) :
    under k (l ++ [(k, a)]) = under k l ++ [a] := by
  simp [under]

theorem under_concat_of_ne {k k' : κ} (h : k' ≠ k) (l : List (κ × α)) (a : α) :
    under k (l ++ [(k', a)]) = under k l := by
  simp [under, h]

theorem get?_gather (default : ν) (update : α → ν → ν) (l : List (κ × α)) (k : κ) :
    (gather default update l).get? k =
      if under k l = [] then none
      else some ((under k l).foldl (fun v a => update a v) default) := by
  induction l using List.reverseRecOn with
  | nil => rfl
  | append_singleton l o ih =>
      obtain ⟨k', a⟩ := o
      rw [gather_concat, get?_upsert]
      by_cases hk : k = k'
      · subst hk
        have hne : under k l ++ [a] ≠ [] := by simp
        rw [if_pos rfl, ih, under_concat_self, if_neg hne, List.foldl_append]
        by_cases hnil : under k l = []
        · simp [hnil]
        · simp [hnil]
      · rw [if_neg hk, ih, under_concat_of_ne (Ne.symm hk)]

/-- A key is there as soon as it has been used. -/
theorem getD_gather (default : ν) (update : α → ν → ν) (l : List (κ × α)) (k : κ) :
    ((gather default update l).get? k).getD default =
      (under k l).foldl (fun v a => update a v) default := by
  rw [get?_gather]
  split
  · next h => rw [h]; rfl
  · rfl

end

end BTreeMap
end Collections

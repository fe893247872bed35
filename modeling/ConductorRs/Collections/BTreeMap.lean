import Mathlib.Order.Lattice
import Mathlib.Data.List.Pairwise

/-!
Ordered maps as strictly increasing association lists. The order is a field of
the map, so every operation below hands on a map in key order and equality of
maps is equality of their entries.
-/
namespace Collections

structure BTreeMap (κ ν : Type) [LinearOrder κ] where
  entries : List (κ × ν)
  sorted : entries.Pairwise fun a b => a.1 < b.1

namespace BTreeMap
variable {κ ν : Type} [LinearOrder κ]

instance [DecidableEq ν] : DecidableEq (BTreeMap κ ν) := fun a b =>
  decidable_of_iff (a.entries = b.entries) (by cases a; cases b; simp)

def empty : BTreeMap κ ν := ⟨[], .nil⟩

def keys (m : BTreeMap κ ν) : List κ := m.entries.map Prod.fst

def values (m : BTreeMap κ ν) : List ν := m.entries.map Prod.snd

def get? (m : BTreeMap κ ν) (k : κ) : Option ν := m.entries.lookup k

def lastKey? (m : BTreeMap κ ν) : Option κ := m.keys.getLast?

def insertEntry (k : κ) (v : ν) : List (κ × ν) → List (κ × ν)
  | [] => [(k, v)]
  | (k', v') :: rest =>
      if k < k' then (k, v) :: (k', v') :: rest
      else if k = k' then (k, v) :: rest
      else (k', v') :: insertEntry k v rest

theorem mem_insertEntry {k : κ} {v : ν} {a : κ × ν} {l : List (κ × ν)}
    (h : a ∈ insertEntry k v l) : a = (k, v) ∨ a ∈ l := by
  induction l with
  | nil => simpa [insertEntry] using h
  | cons b rest ih =>
      simp only [insertEntry] at h
      split at h
      · simpa using h
      · split at h
        · rcases List.mem_cons.mp h with h | h
          · exact .inl h
          · exact .inr (List.mem_cons_of_mem _ h)
        · rcases List.mem_cons.mp h with h | h
          · exact .inr (h ▸ List.mem_cons_self)
          · exact (ih h).imp_right (List.mem_cons_of_mem _)

theorem mem_insertEntry_self (k : κ) (v : ν) (l : List (κ × ν)) :
    (k, v) ∈ insertEntry k v l := by
  induction l with
  | nil => simp [insertEntry]
  | cons b rest ih =>
      simp only [insertEntry]
      split
      · exact List.mem_cons_self
      · split
        · exact List.mem_cons_self
        · exact List.mem_cons_of_mem b ih

theorem mem_insertEntry_of_ne {k : κ} {v : ν} {a : κ × ν} {l : List (κ × ν)} (h : a ∈ l)
    (hne : a.1 ≠ k) : a ∈ insertEntry k v l := by
  induction l with
  | nil => cases h
  | cons b rest ih =>
      simp only [insertEntry]
      split
      · exact List.mem_cons_of_mem _ h
      · split
        · next heq =>
            cases List.mem_cons.mp h with
            | inl hb => exact absurd (by rw [hb, heq]) hne
            | inr hrest => exact List.mem_cons_of_mem _ hrest
        · cases List.mem_cons.mp h with
          | inl hb => exact hb ▸ List.mem_cons_self
          | inr hrest => exact List.mem_cons_of_mem b (ih hrest)

theorem insertEntry_sorted (k : κ) (v : ν) {l : List (κ × ν)}
    (h : l.Pairwise fun a b => a.1 < b.1) :
    (insertEntry k v l).Pairwise fun a b => a.1 < b.1 := by
  induction l with
  | nil => simp [insertEntry]
  | cons b rest ih =>
      obtain ⟨hb, hrest⟩ := List.pairwise_cons.mp h
      simp only [insertEntry]
      split
      · next hlt =>
          refine List.pairwise_cons.mpr ⟨fun a ha => ?_, h⟩
          rcases List.mem_cons.mp ha with rfl | ha
          · exact hlt
          · exact lt_trans hlt (hb a ha)
      · next hge =>
          split
          · next heq =>
              subst heq
              exact List.pairwise_cons.mpr ⟨hb, hrest⟩
          · next hne =>
              refine List.pairwise_cons.mpr ⟨fun a ha => ?_, ih hrest⟩
              rcases mem_insertEntry ha with rfl | ha
              · exact lt_of_le_of_ne (not_lt.mp hge) (Ne.symm hne)
              · exact hb a ha

def insert (m : BTreeMap κ ν) (k : κ) (v : ν) : BTreeMap κ ν :=
  ⟨insertEntry k v m.entries, insertEntry_sorted k v m.sorted⟩

/-- Keep the entries whose key satisfies the predicate. -/
def retain (m : BTreeMap κ ν) (p : κ → Bool) : BTreeMap κ ν :=
  ⟨m.entries.filter fun e => p e.1, m.sorted.filter _⟩

def erase (m : BTreeMap κ ν) (k : κ) : BTreeMap κ ν :=
  m.retain fun k' => decide (k' ≠ k)

/-- A key has one value. -/
theorem value_unique {m : BTreeMap κ ν} {k : κ} {v w : ν} (hv : (k, v) ∈ m.entries)
    (hw : (k, w) ∈ m.entries) : v = w := by
  obtain ⟨l, hl⟩ := m
  induction l with
  | nil => cases hv
  | cons b rest ih =>
      obtain ⟨hb, hrest⟩ := List.pairwise_cons.mp hl
      cases List.mem_cons.mp hv with
      | inl hv =>
          cases List.mem_cons.mp hw with
          | inl hw => exact congrArg Prod.snd (hv.trans hw.symm)
          | inr hw => exact absurd (hb _ hw) (by rw [← hv]; exact lt_irrefl k)
      | inr hv =>
          cases List.mem_cons.mp hw with
          | inl hw => exact absurd (hb _ hv) (by rw [← hw]; exact lt_irrefl k)
          | inr hw => exact ih hrest hv hw

theorem mem_insert {m : BTreeMap κ ν} {k : κ} {v : ν} {a : κ × ν} :
    a ∈ (m.insert k v).entries ↔ a = (k, v) ∨ (a ∈ m.entries ∧ a.1 ≠ k) := by
  have hself : (k, v) ∈ (m.insert k v).entries := mem_insertEntry_self k v m.entries
  refine ⟨fun h => ?_, fun h => ?_⟩
  · by_cases hk : a.1 = k
    · obtain ⟨k', w⟩ := a
      cases hk
      exact .inl (by rw [value_unique h hself])
    · exact (mem_insertEntry h).imp_right fun hold => ⟨hold, hk⟩
  · cases h with
    | inl heq => exact heq ▸ hself
    | inr hold => exact mem_insertEntry_of_ne hold.1 hold.2

@[simp] theorem get?_empty (k : κ) : (empty : BTreeMap κ ν).get? k = none := rfl

theorem lookup_entry (k : κ) (b : κ × ν) (rest : List (κ × ν)) :
    (b :: rest).lookup k = if k = b.1 then some b.2 else rest.lookup k := by
  obtain ⟨k', v⟩ := b
  rw [List.lookup_cons]
  by_cases hk : k = k'
  · rw [if_pos hk, beq_iff_eq.mpr hk]
  · rw [if_neg hk, beq_eq_false_iff_ne.mpr hk]

theorem lookup_insertEntry (k k' : κ) (v : ν) (l : List (κ × ν)) :
    (insertEntry k v l).lookup k' = if k' = k then some v else l.lookup k' := by
  induction l with
  | nil => exact lookup_entry k' (k, v) []
  | cons b rest ih =>
      simp only [insertEntry]
      split
      · exact lookup_entry k' (k, v) _
      · split
        · next heq =>
            rw [lookup_entry, lookup_entry, heq]
            by_cases hk : k' = b.1
            · rw [if_pos hk, if_pos hk]
            · rw [if_neg hk, if_neg hk, if_neg hk]
        · next hne =>
            rw [lookup_entry, lookup_entry, ih]
            by_cases hk : k' = k
            · rw [if_pos hk, if_neg (hk ▸ hne), if_pos hk]
            · rw [if_neg hk, if_neg hk]

theorem get?_insert (m : BTreeMap κ ν) (k k' : κ) (v : ν) :
    (m.insert k v).get? k' = if k' = k then some v else m.get? k' :=
  lookup_insertEntry k k' v m.entries

theorem mem_of_get? {m : BTreeMap κ ν} {k : κ} {v : ν} (h : m.get? k = some v) :
    (k, v) ∈ m.entries := by
  obtain ⟨before, after, hsplit, _⟩ := List.lookup_eq_some_iff.mp h
  rw [hsplit]
  simp

theorem keys_retain (m : BTreeMap κ ν) (p : κ → Bool) :
    (m.retain p).keys = m.keys.filter p := by
  simp only [keys, retain, List.filter_map]
  rfl

/-- A key above all others goes to the end. -/
theorem entries_insert_of_forall_lt (m : BTreeMap κ ν) (k : κ) (v : ν)
    (h : ∀ e ∈ m.entries, e.1 < k) : (m.insert k v).entries = m.entries ++ [(k, v)] := by
  obtain ⟨l, hl⟩ := m
  simp only [insert] at h ⊢
  clear hl
  induction l with
  | nil => rfl
  | cons b rest ih =>
      have hb : b.1 < k := h b List.mem_cons_self
      have hrest := ih fun a ha => h a (List.mem_cons_of_mem _ ha)
      simp only [insertEntry, if_neg (not_lt.mpr hb.le), if_neg hb.ne', hrest,
        List.cons_append]

theorem entries_insertAll (m : BTreeMap κ ν) (l : List (κ × ν))
    (h : (m.entries ++ l).Pairwise fun a b => a.1 < b.1) :
    (l.foldl (fun m e => m.insert e.1 e.2) m).entries = m.entries ++ l := by
  induction l generalizing m with
  | nil => exact (List.append_nil _).symm
  | cons e rest ih =>
      have hlt : ∀ b ∈ m.entries, b.1 < e.1 := fun b hb =>
        (List.pairwise_append.mp h).2.2 b hb e List.mem_cons_self
      have hstep := entries_insert_of_forall_lt m e.1 e.2 hlt
      have hsplit : m.entries ++ e :: rest = (m.insert e.1 e.2).entries ++ rest := by
        rw [hstep, List.append_assoc]
        rfl
      rw [hsplit] at h ⊢
      exact ih (m.insert e.1 e.2) h

theorem keys_insert_of_forall_lt (m : BTreeMap κ ν) (k : κ) (v : ν)
    (h : ∀ k' ∈ m.keys, k' < k) : (m.insert k v).keys = m.keys ++ [k] := by
  have hlt : ∀ e ∈ m.entries, e.1 < k := fun e he => h e.1 (List.mem_map_of_mem he)
  simp only [keys, entries_insert_of_forall_lt m k v hlt, List.map_append, List.map_cons,
    List.map_nil]

end BTreeMap

inductive Bound (κ : Type) where
  | included (k : κ)
  | excluded (k : κ)
  | unbounded

structure Bounds (κ : Type) where
  start : Bound κ
  stop : Bound κ

namespace Bounds
variable {κ ν : Type} [LinearOrder κ]

def contains (b : Bounds κ) (k : κ) : Bool :=
  (match b.start with
    | .included a => decide (a ≤ k)
    | .excluded a => decide (a < k)
    | .unbounded => true) &&
  match b.stop with
    | .included a => decide (k ≤ a)
    | .excluded a => decide (k < a)
    | .unbounded => true

/-- The start lies after the end, or both are one key that is excluded. -/
def inverted (b : Bounds κ) : Bool :=
  match b.start, b.stop with
  | .excluded a, .excluded c => decide (c ≤ a)
  | .included a, .included c | .included a, .excluded c | .excluded a, .included c => decide (c < a)
  | .unbounded, _ | _, .unbounded => false

/-- The entries in a range. There is no answer for an inverted range. -/
def entries (b : Bounds κ) (m : BTreeMap κ ν) : Option (List (κ × ν)) :=
  if b.inverted then none else some (m.entries.filter fun e => b.contains e.1)

end Bounds
end Collections

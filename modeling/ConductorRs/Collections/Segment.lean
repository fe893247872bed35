import ConductorRs.Collections.Consecutive

/-!
A segment of a log: elements with consecutive indexes, from a first one on.

A segment is extended at its end and cut at either end. A map holds a segment if
its entries are the encoded elements in their order; what extends or cuts the
segment then does the same to the map.
-/
namespace Collections

section
variable {α ν : Type} {index : α → Nat}

variable (index) in
theorem map_filter_index (p : Nat → Bool) (l : List α) :
    (l.filter fun a => p (index a)).map index = (l.map index).filter p := by
  rw [List.filter_map]
  rfl

theorem consecutive_of_range' {l : List α} {first n : Nat}
    (h : l.map index = List.range' first n) : l.map index = List.range' first l.length := by
  have hlength := congrArg List.length h
  rw [List.length_map, List.length_range'] at hlength
  rw [h, hlength]

variable (index) in
structure Segment where
  first : Nat
  elems : List α
  consecutive : elems.map index = List.range' first elems.length

namespace Segment
variable (g : Segment index)

def empty (index : α → Nat) (first : Nat) : Segment index := ⟨first, [], rfl⟩

/-- The index after the last element. -/
def next : Nat := g.first + g.elems.length

theorem consecutive_append {elems : List α}
    (h : elems.map index = List.range' g.next elems.length) :
    (g.elems ++ elems).map index = List.range' g.first (g.elems ++ elems).length := by
  rw [List.map_append, g.consecutive, h, List.length_append, next, List.range'_append_1]

theorem consecutive_before (k : Nat) :
    (g.elems.filter fun a => index a < k).map index =
      List.range' g.first (g.elems.filter fun a => index a < k).length := by
  have hrange := map_filter_index index (fun n => n < k) g.elems
  rw [g.consecutive, filter_lt_range'] at hrange
  exact consecutive_of_range' hrange

theorem consecutive_above (k : Nat) (h : g.first ≤ k + 1) :
    (g.elems.filter fun a => k < index a).map index =
      List.range' (k + 1) (g.elems.filter fun a => k < index a).length := by
  have hrange := map_filter_index index (fun n => k < n) g.elems
  rw [g.consecutive, filter_gt_range', Nat.max_eq_right h] at hrange
  exact consecutive_of_range' hrange

def append (elems : List α) (h : elems.map index = List.range' g.next elems.length) :
    Segment index :=
  ⟨g.first, g.elems ++ elems, g.consecutive_append h⟩

/-- Cut off everything from an index on. -/
def before (k : Nat) : Segment index :=
  ⟨g.first, g.elems.filter fun a => index a < k, g.consecutive_before k⟩

/-- Cut off everything up to an index, which may lie beyond the end. -/
def above (k : Nat) (h : g.first ≤ k + 1) : Segment index :=
  ⟨k + 1, g.elems.filter fun a => k < index a, g.consecutive_above k h⟩

theorem pairwise_index : g.elems.Pairwise fun a b => index a < index b := by
  have hsorted : (g.elems.map index).Pairwise (· < ·) := by
    rw [g.consecutive]
    exact List.pairwise_lt_range'
  exact List.pairwise_map.mp hsorted

/-- The index of the last element is the one before the next. -/
theorem next_of_getLast? {a : α} (h : g.elems.getLast? = some a) : g.next = index a + 1 := by
  obtain ⟨rest, hsplit⟩ := List.getLast?_eq_some_iff.mp h
  have hrange := g.consecutive
  rw [hsplit, List.map_append, List.length_append, List.length_singleton,
    List.range'_concat] at hrange
  have hlast := (List.append_inj_right' hrange rfl)
  simp only [List.map_cons, List.map_nil, List.cons.injEq, and_true] at hlast
  rw [next, hsplit, List.length_append, List.length_singleton, hlast]
  omega

variable (encode : α → ν)

def Stored (m : BTreeMap Nat ν) : Prop :=
  m.entries = g.elems.map fun a => (index a, encode a)

variable {g encode} {m : BTreeMap Nat ν}

theorem stored_empty (first : Nat) : (empty index first).Stored encode (.empty : BTreeMap Nat ν) :=
  rfl

theorem Stored.append (h : g.Stored encode m) {elems : List α}
    (he : elems.map index = List.range' g.next elems.length) :
    (g.append elems he).Stored encode
      ((elems.map fun a => (index a, encode a)).foldl (fun m e => m.insert e.1 e.2) m) := by
  have hall : m.entries ++ elems.map (fun a => (index a, encode a)) =
      (g.append elems he).elems.map fun a => (index a, encode a) := by
    rw [show m.entries = _ from h, ← List.map_append]
    rfl
  have hsorted : (m.entries ++ elems.map fun a => (index a, encode a)).Pairwise
      fun a b => a.1 < b.1 := by
    rw [hall]
    exact List.pairwise_map.mpr (g.append elems he).pairwise_index
  exact (m.entries_insertAll _ hsorted).trans hall

theorem Stored.before (h : g.Stored encode m) (k : Nat) :
    (g.before k).Stored encode (m.retain fun n => n < k) := by
  simp only [Stored, BTreeMap.retain, Segment.before, show m.entries = _ from h, List.filter_map]
  rfl

theorem Stored.above (h : g.Stored encode m) (k : Nat) (hk : g.first ≤ k + 1) :
    (g.above k hk).Stored encode (m.retain fun n => k < n) := by
  simp only [Stored, BTreeMap.retain, Segment.above, show m.entries = _ from h, List.filter_map]
  rfl

theorem Stored.range (h : g.Stored encode m) (b : Bounds Nat) :
    b.entries m = if b.inverted then none else
      some ((g.elems.filter fun a => b.contains (index a)).map fun a => (index a, encode a)) := by
  rw [Bounds.entries, show m.entries = _ from h, List.filter_map]
  rfl

theorem Stored.getLast? (h : g.Stored encode m) :
    m.entries.getLast? = g.elems.getLast?.map fun a => (index a, encode a) := by
  rw [show m.entries = _ from h, List.getLast?_map]

end Segment
end
end Collections

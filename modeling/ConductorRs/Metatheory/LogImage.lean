import ConductorRs.Collections.Consecutive
import ConductorRs.Metatheory.PersistLock

/-!
The log in memory and the log in the file.

`purge` records its log id in one step and removes entries in the next, and
`persist_to_disk` reads the recorded id and the log in two steps. The history of
a run says, for each task, whether a purge has recorded an id since the task has
last read the recorded one, and whether the log has been changed after that.
Nothing in the code reads it. An image read while this has happened has lost the
entries between the two ids; the results here are about images that were not.
-/
namespace ConductorRs.MemoryRaftStore.LogImage
open Concurrency Collections

section
variable {T : TypeConfig}

/-- The keys are consecutive, and the first one does not lie beyond the first
index that has not been purged. -/
def GapFree (purged : Option (LogId T)) (log : BTreeMap Nat String) : Prop :=
  ∃ first n, log.Consecutive first n ∧ (0 < n → first ≤ LogId.nextIndex T purged)

/-- The index openraft appends at. -/
def nextLogIndex (purged : Option (LogId T)) (log : BTreeMap Nat String) : Nat :=
  match log.lastKey? with
  | some index => index + 1
  | none => LogId.nextIndex T purged

theorem gapFree_empty (purged : Option (LogId T)) : GapFree purged (.empty : BTreeMap Nat String) :=
  ⟨0, 0, rfl, fun h => absurd h (Nat.lt_irrefl 0)⟩

variable {purged purged' : Option (LogId T)} {log : BTreeMap Nat String}

theorem GapFree.record (h : GapFree purged log)
    (hle : LogId.nextIndex T purged ≤ LogId.nextIndex T purged') : GapFree purged' log := by
  obtain ⟨first, n, hkeys, hfirst⟩ := h
  exact ⟨first, n, hkeys, fun hn => (hfirst hn).trans hle⟩

theorem GapFree.truncate (h : GapFree purged log) (start : Nat) :
    GapFree purged (log.retain fun index => decide (index < start)) := by
  obtain ⟨first, n, hkeys, hfirst⟩ := h
  exact ⟨first, _, hkeys.retain_lt start, fun hn => hfirst (by omega)⟩

theorem GapFree.remove (h : GapFree purged log) {index : Nat}
    (hle : index + 1 ≤ LogId.nextIndex T purged) :
    GapFree purged (log.retain fun index' => decide (index < index')) := by
  obtain ⟨first, n, hkeys, hfirst⟩ := h
  refine ⟨_, _, hkeys.retain_gt index, fun hn => ?_⟩
  have hbound := hfirst (by omega)
  omega

/-- Entries are appended after the last one, or from an index on that has been purged. -/
theorem GapFree.append (h : GapFree purged log)
    (hle : LogId.nextIndex T purged' ≤ LogId.nextIndex T purged) {entries : List (Nat × String)}
    (he : entries.map Prod.fst = List.range' (nextLogIndex purged' log) entries.length) :
    GapFree purged (entries.foldl (fun log e => log.insert e.1 e.2) log) := by
  obtain ⟨first, n, hkeys, hfirst⟩ := h
  cases n with
  | zero =>
      -- an empty log is consecutive from any index on
      have hnext : nextLogIndex purged' log = LogId.nextIndex T purged' := by
        simp [nextLogIndex, hkeys.lastKey?_zero]
      have hempty : log.Consecutive (LogId.nextIndex T purged') 0 := hkeys
      rw [hnext] at he
      exact ⟨_, _, hempty.insertAll he, fun _ => hle⟩
  | succ n =>
      have hnext : nextLogIndex purged' log = first + (n + 1) := by
        simp [nextLogIndex, hkeys.lastKey?_succ, Nat.add_assoc]
      rw [hnext] at he
      exact ⟨_, _, hkeys.insertAll he, fun _ => hfirst (Nat.succ_pos n)⟩

end

section
variable {T : TypeConfig} {Bytes : Type}

structure Purges where
  recorded : StoreTask → Bool
  torn : StoreTask → Bool

namespace Purges

def none : Purges := ⟨fun _ => false, fun _ => false⟩

def reopen (h : Purges) (i : StoreTask) : Purges where
  recorded := Function.update h.recorded i false
  torn := Function.update h.torn i false

def record (h : Purges) : Purges := { h with recorded := fun _ => true }

def change (h : Purges) : Purges := { h with torn := fun j => h.torn j || h.recorded j }

def after (h : Purges) (i : StoreTask) : StoreOp T Bytes → Purges
  | .read .lastPurgedLogId => h.reopen i
  | .write .lastPurgedLogId _ => h.record
  | op => if op.target = some .log then h.change else h

end Purges

def watch : Watch T Bytes StoreTask Purges where
  begin _ h _ _ := h
  after _ _ h i op _ := h.after i op
  finish _ h _ _ _ := h

abbrev Sys (T : TypeConfig) (Bytes : Type) := Watched T Bytes StoreTask Purges

def lastPurged (s : Sys T Bytes) : Option (LogId T) := s.store.fields .lastPurgedLogId

def currentLog (s : Sys T Bytes) : BTreeMap Nat String := s.store.fields .log

/-- openraft's calling rules: entries are appended one after another, and purges
move forward, up to what a snapshot covers. -/
def Rules (s : Sys T Bytes) : StoreCall T Bytes → Prop
  | .append entries => entries.map (fun entry => entry.logId.index) =
      List.range' (nextLogIndex (lastPurged s) (currentLog s)) entries.length
  | .purge logId => LogId.nextIndex T (lastPurged s) ≤ logId.index + 1 ∧
      logId.index + 1 ≤ LogId.nextIndex T s.store.snapshotLogId
  | _ => True

instance (s : Sys T Bytes) : (call : StoreCall T Bytes) → Decidable (Rules s call)
  | .append _ => inferInstanceAs (Decidable (_ = _))
  | .purge _ => inferInstanceAs (Decidable (_ ∧ _))
  | .saveVote _ | .saveCommitted _ | .truncateAfter _ | .buildSnapshot | .apply _
  | .installSnapshot _ _ => .isTrue trivial

def rules : Policy StoreTask (StoreOps T Bytes) (Sys T Bytes) (StoreCall T Bytes)
    (FileChoice Bytes) Empty where
  call s i call := call.task = i ∧ Rules s call
  step _ _ _ _ := True
  env _ _ := True

/-- No purge records its id and removes entries between the two reads of one
image. -/
def policy : Policy StoreTask (StoreOps T Bytes) (Sys T Bytes) (StoreCall T Bytes)
    (FileChoice Bytes) Empty where
  call := rules.call
  step s i op _ := match op with
    | .read .log => s.hist.torn i = false
    | _ => True
  env _ _ := True

end
end ConductorRs.MemoryRaftStore.LogImage

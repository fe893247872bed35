import ConductorRs.Collections.Checks
import ConductorRs.Collections.Segment
import ConductorRs.Core.LogReader
import ConductorRs.Metatheory.PayloadHops
import ConductorRs.Metatheory.StoreAlone

/-!
The raft log that the store keeps.

A raft log is the last purged id with the entries after it. The store represents
it in its memory, and between calls in its file as well; every call does to the
store what it does to the log, and the two readers read the log.
-/
namespace ConductorRs
open Concurrency Collections

def Entry.index {T : TypeConfig} (entry : Entry T) : Nat := entry.logId.index

structure RaftLog (T : TypeConfig) where
  purged : Option (LogId T)
  segment : Segment (Entry.index (T := T))
  first : segment.first = LogId.nextIndex T purged

namespace RaftLog
variable {T : TypeConfig} {Bytes : Type} (log : RaftLog T)

def empty : RaftLog T := ⟨none, .empty Entry.index 0, rfl⟩

/-- The entries that survive, in their order. -/
def entries : List (Entry T) := log.segment.elems

def lastLogId : Option (LogId T) := (log.entries.getLast?.map Entry.logId).or log.purged

theorem next_eq : log.segment.next = LogId.nextIndex T log.lastLogId := by
  unfold lastLogId entries
  cases hlast : log.segment.elems.getLast? with
  | none =>
      rw [Segment.next, List.getLast?_eq_none_iff.mp hlast, log.first]
      rfl
  | some entry => exact log.segment.next_of_getLast? hlast

/-- openraft's rules: entries follow the last log id one after another, and purges
do not go back. Where a truncation starts makes no difference here. -/
def Allows : StoreCall T Bytes → Prop
  | .append entries => entries.map Entry.index =
      List.range' (LogId.nextIndex T log.lastLogId) entries.length
  | .purge logId => LogId.nextIndex T log.purged ≤ logId.index + 1
  | _ => True

theorem append_next {entries : List (Entry T)}
    (h : log.Allows (.append entries : StoreCall T Bytes)) :
    entries.map Entry.index = List.range' log.segment.next entries.length := by
  rw [log.next_eq]
  exact h

theorem purge_first {logId : LogId T} (h : log.Allows (.purge logId : StoreCall T Bytes)) :
    log.segment.first ≤ logId.index + 1 := by
  rw [log.first]
  exact h

def after : (call : StoreCall T Bytes) → log.Allows call → RaftLog T
  | .append entries, h => ⟨log.purged, log.segment.append entries (log.append_next h), log.first⟩
  | .truncateAfter lastLogId, _ =>
      ⟨log.purged, log.segment.before (LogId.nextIndex T lastLogId), log.first⟩
  | .purge logId, h => ⟨some logId, log.segment.above logId.index (log.purge_first h), rfl⟩
  | .saveVote _, _ | .saveCommitted _, _ | .buildSnapshot, _ | .apply _, _
  | .installSnapshot _ _, _ => log

/-- The fields of a store that keep the log. -/
def Represents (codec : Codec T Bytes) (f : StoreFields T Bytes) : Prop :=
  f .lastPurgedLogId = log.purged ∧ log.segment.Stored codec.entry (f .log)

variable {log} {codec : Codec T Bytes} {f : StoreFields T Bytes}

theorem Represents.same (h : log.Represents codec f) {g : StoreFields T Bytes}
    (hpurged : g .lastPurgedLogId = f .lastPurgedLogId) (hlog : g .log = f .log) :
    log.Represents codec g := by
  refine ⟨hpurged.trans h.1, ?_⟩
  rw [hlog]
  exact h.2

/-- Every call does to the store what it does to the log. -/
theorem Represents.memory (h : log.Represents codec f) (call : StoreCall T Bytes)
    (hallows : log.Allows call) :
    (log.after call hallows).Represents codec (call.memory codec f) := by
  cases call with
  | append entries => exact ⟨h.1, h.2.append (log.append_next hallows)⟩
  | truncateAfter lastLogId => exact ⟨h.1, h.2.before (LogId.nextIndex T lastLogId)⟩
  | purge logId => exact ⟨rfl, h.2.above logId.index (log.purge_first hallows)⟩
  | saveVote _ | saveCommitted _ | buildSnapshot | apply _ => exact h.same rfl rfl
  | installSnapshot snapshotMeta data =>
      simp only [after, StoreCall.memory, StoreFields.install]
      cases codec.decodeSm data with
      | error err => exact h
      | ok sm => exact h.same rfl rfl

end RaftLog

namespace MemoryRaftStore
variable {T : TypeConfig} {Bytes : Type}

/-- A store and its log, from an empty path on. Calls follow one another. A store
may be opened again between two calls, or after one that failed or was cut; that
call counts if it got as far as replacing the file. -/
inductive LogHistory (codec : Codec T Bytes) (path : StorePath) :
    StoreState T Bytes Unit → RaftLog T → Prop where
  | fresh : LogHistory codec path (.opened codec (.default T Bytes)) .empty
  | call {s t : StoreState T Bytes Unit} {log : RaftLog T}
      {out : Option (UnsafeHeadSnapshot T Bytes)} (call : StoreCall T Bytes)
      (h : log.Allows call) : LogHistory codec path s log →
      Runs Cluster.perform (body codec (some path) call) s (.ok out) t →
      LogHistory codec path t (log.after call h)
  | reopen {s : StoreState T Bytes Unit} {log : RaftLog T} {image : PersistedRaftStore T Bytes} :
      LogHistory codec path s log → load codec s.file = .ok image →
      LogHistory codec path (.opened codec image) log
  | lost {s t : StoreState T Bytes Unit} {log : RaftLog T} {image : PersistedRaftStore T Bytes}
      (call : StoreCall T Bytes) (h : log.Allows call) : LogHistory codec path s log →
      Cut Cluster.perform (body codec (some path) call) s t → t.file = s.file →
      load codec t.file = .ok image → LogHistory codec path (.opened codec image) log
  | kept {s t : StoreState T Bytes Unit} {log : RaftLog T} {image : PersistedRaftStore T Bytes}
      (call : StoreCall T Bytes) (h : log.Allows call) : LogHistory codec path s log →
      Cut Cluster.perform (body codec (some path) call) s t → t.file ≠ s.file →
      load codec t.file = .ok image →
      LogHistory codec path (.opened codec image) (log.after call h)

/-- Between calls: the memory represents the log and the file holds the memory. -/
structure KeepsLog (codec : Codec T Bytes) (s : StoreState T Bytes Unit) (log : RaftLog T) :
    Prop where
  memory : log.Represents codec s.fields
  owner : s.persistOwner = none
  file : s.file = Alone.saved codec s.fields

variable {codec : Codec T Bytes} {path : StorePath} {s : StoreState T Bytes Unit}
variable {log : RaftLog T}

theorem keepsLog_opened (hc : codec.Lawful) {f : StoreFields T Bytes}
    (h : log.Represents codec f) {image : PersistedRaftStore T Bytes}
    (hload : load codec (Alone.saved codec f) = .ok image) :
    KeepsLog codec (.opened codec image) log := by
  obtain ⟨hfields, howner, hfile⟩ := Alone.opened_at hc hload
  refine ⟨?_, howner, ?_⟩
  · rw [hfields]
    exact h
  · rw [hfields]
    exact hfile

theorem LogHistory.keepsLog (hc : codec.Lawful) (h : LogHistory codec path s log) :
    KeepsLog codec s log := by
  induction h with
  | fresh => exact ⟨⟨rfl, Segment.stored_empty 0⟩, rfl, rfl⟩
  | call call hallows _ hrun ih =>
      obtain ⟨hfields, howner, hfile⟩ := Alone.runs_ok ih.owner hrun
      refine ⟨?_, howner, ?_⟩
      · rw [hfields]
        exact ih.memory.memory call hallows
      · rw [hfields]
        exact hfile
  | reopen _ hload ih =>
      rw [ih.file] at hload
      exact keepsLog_opened hc ih.memory hload
  | lost call hallows _ hcut hsame hload ih =>
      rw [hsame, ih.file] at hload
      exact keepsLog_opened hc ih.memory hload
  | kept call hallows _ hcut hnew hload ih =>
      rcases Alone.cut_file ih.owner hcut with hsame | hfile
      · exact absurd hsame hnew
      · rw [hfile] at hload
        exact keepsLog_opened hc (ih.memory.memory call hallows) hload

variable {decode : String → Except IoError (Entry T)}

theorem KeepsLog.tryGetLogEntries (h : KeepsLog codec s log)
    (hdecode : ∀ entry, decode (codec.entry entry) = .ok entry) (range : Bounds Nat)
    {r : Option (Except IoError (List (Entry T)))} {t : StoreState T Bytes Unit} :
    Runs Cluster.perform (tryGetLogEntries decode range) s r t ↔
      (r = if range.inverted then none else
        some (.ok (log.entries.filter fun entry => range.contains entry.logId.index))) ∧
      t = s := by
  have hread : (range.entries (s.fields .log)).map (fun found => found.mapM fun e => decode e.2) =
      if range.inverted then none else
        some (.ok (log.entries.filter fun entry => range.contains entry.logId.index)) := by
    rw [h.memory.2.range]
    split
    · rfl
    · exact congrArg some (mapM_map_ok (f := fun e => decode e.2)
        (g := fun entry => (entry.index, codec.entry entry)) hdecode _)
  rw [← hread]
  exact runs_read.trans runs_done

theorem KeepsLog.getLogState (h : KeepsLog codec s log)
    (hdecode : ∀ entry, decode (codec.entry entry) = .ok entry)
    {r : Except IoError (LogState T)} {t : StoreState T Bytes Unit} :
    Runs Cluster.perform (getLogState decode) s r t ↔
      r = .ok ⟨log.purged, log.lastLogId⟩ ∧ t = s := by
  have hlast : (BTreeMap.entries (s.fields .log)).getLast?.mapM (fun e => decode e.2) =
      .ok log.entries.getLast? := by
    rw [h.memory.2.getLast?]
    change (log.entries.getLast?.map _).mapM _ = _
    cases log.entries.getLast? with
    | none => rfl
    | some entry =>
        change Option.some <$> decode (codec.entry entry) = .ok (some entry)
        rw [hdecode entry]
        rfl
  refine (runs_lift.trans runs_read).trans ?_
  rw [hlast]
  refine (runs_lift.trans runs_read).trans ?_
  rw [h.memory.1]
  exact runs_done

/-- After every history the readers answer as the log does: the entries in a range,
in increasing order, and the last purged and the last log id. -/
theorem log_store_refines (codec : Codec T Bytes) (hc : codec.Lawful)
    (decode : String → Except IoError (Entry T))
    (hdecode : ∀ entry, decode (codec.entry entry) = .ok entry) (path : StorePath)
    (s : StoreState T Bytes Unit) (log : RaftLog T) (h : LogHistory codec path s log) :
    (∀ range r t, Runs Cluster.perform (tryGetLogEntries decode range) s r t ↔
      (r = if range.inverted then none else
        some (.ok (log.entries.filter fun entry => range.contains entry.logId.index))) ∧
      t = s) ∧
    (log.entries.Pairwise fun a b => a.logId.index < b.logId.index) ∧
    ∀ r t, Runs Cluster.perform (getLogState decode) s r t ↔
      r = .ok ⟨log.purged, log.lastLogId⟩ ∧ t = s := by
  have hkeeps := h.keepsLog hc
  exact ⟨fun range _ _ => hkeeps.tryGetLogEntries hdecode range, log.segment.pairwise_index,
    fun _ _ => hkeeps.getLogState hdecode⟩

def payloadValue : EntryPayload .single → Value
  | .blank => .null
  | .membership _ => .bool true
  | .normal (.commitUnsafePayload payload) => .array [payload.raw]

def entryValue (entry : Entry .single) : Value :=
  .array [.string (String.ofList (List.replicate entry.logId.index 'i')),
    payloadValue entry.payload]

theorem payloadValue_injective : Function.Injective payloadValue := by
  intro p q h
  cases p with
  | blank => cases q <;> simp_all [payloadValue]
  | membership m =>
      cases q with
      | membership m' => rfl
      | blank => cases h
      | normal command =>
          obtain ⟨payload⟩ := command
          cases h
  | normal command =>
      obtain ⟨⟨raw⟩⟩ := command
      cases q with
      | normal command' =>
          obtain ⟨⟨raw'⟩⟩ := command'
          simp_all [payloadValue]
      | _ => simp [payloadValue] at h

theorem entryValue_injective : Function.Injective entryValue := by
  rintro ⟨⟨⟨⟩, i⟩, p⟩ ⟨⟨⟨⟩, j⟩, q⟩ h
  simp only [entryValue, Value.array.injEq, List.cons.injEq, Value.string.injEq, and_true] at h
  obtain ⟨hindex, hpayload⟩ := h
  have hij : i = j := List.replicate_left_injective 'i' (String.ofList_injective hindex)
  rw [hij, payloadValue_injective hpayload]

def textCodec : Codec .single (Document .single) :=
  { Codec.document .single with entry := fun entry => (entryValue entry).render }

theorem textCodec_lawful : textCodec.Lawful := ⟨fun _ => rfl, fun _ => rfl, fun _ => rfl⟩

theorem textCodec_entry_injective : Function.Injective textCodec.entry := by
  intro a b h
  have hread : Value.read (entryValue a).render = Value.read (entryValue b).render :=
    congrArg Value.read h
  rw [Value.read_render, Value.read_render] at hread
  exact entryValue_injective (Except.ok.inj hread)

def blank (index : Nat) : Entry .single := ⟨⟨(), index⟩, .blank⟩

theorem exists_decode : ∃ decode : String → Except IoError (Entry .single),
    ∀ entry, decode (textCodec.entry entry) = .ok entry := by
  have : Nonempty (Entry .single) := ⟨blank 0⟩
  refine ⟨fun text => .ok (Function.invFun textCodec.entry text), fun entry => ?_⟩
  exact congrArg Except.ok (Function.leftInverse_invFun textCodec_entry_injective entry)

/-- Two entries are appended, the store is opened again, and the second is read. -/
theorem reopened_log_reads :
    ∃ decode s, ∃ log : RaftLog .single, LogHistory textCodec ⟨false⟩ s log ∧
      (∀ r t, Runs Cluster.perform (tryGetLogEntries decode ⟨.included 1, .unbounded⟩) s r t ↔
        r = some (.ok [blank 1]) ∧ t = s) ∧
      ∀ r t, Runs Cluster.perform (getLogState decode) s r t ↔
        r = .ok ⟨none, some ⟨(), 1⟩⟩ ∧ t = s := by
  obtain ⟨decode, hdecode⟩ := exists_decode
  have happend : (execute Cluster.perform (.smooth _)
      (body textCodec (some ⟨false⟩) (.append [blank 0, blank 1]))
      (.opened textCodec (.default _ _))).any (fun q => q.1.toOption.isSome) = true := by
    decide
  obtain ⟨out, t, hrun, hok⟩ := runs_of_execute happend
  cases out with
  | error err => cases hok
  | ok out =>
      have hfile := (Alone.runs_ok rfl hrun).2.2
      have hallows : RaftLog.empty.Allows
          (.append [blank 0, blank 1] : StoreCall .single (Document .single)) := rfl
      have hhistory := LogHistory.reopen (.call _ hallows .fresh hrun) (by rw [hfile]; rfl)
      have hreads :=
        log_store_refines textCodec textCodec_lawful decode hdecode ⟨false⟩ _ _ hhistory
      exact ⟨_, _, _, hhistory, hreads.1 ⟨.included 1, .unbounded⟩, hreads.2.2⟩

end MemoryRaftStore
end ConductorRs

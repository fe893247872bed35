import Mathlib.Data.List.Induction
import ConductorRs.Collections.BTreeMap
import ConductorRs.Concurrency.Task
import ConductorRs.Core.Errors

/-!
The persistent raft store. Each of its fields sits behind a lock of its own; one
operation is one acquisition, with what the code does while it holds the lock.
The persist lock is held across operations and has its own. The types that
openraft supplies, and the JSON encodings, are parameters.
-/
namespace ConductorRs
open Concurrency Collections

/-- What `declare_raft_types` and openraft fix for this cluster. -/
structure TypeConfig where
  LeaderId : Type
  displayLeaderId : LeaderId → String
  Vote : Type
  Membership : Type
  emptyMembership : Membership

inductive IoErrorKind where
  | notFound
  | invalidData
  | other
deriving DecidableEq

structure IoError where
  kind : IoErrorKind
  message : String
deriving DecidableEq

def ioInvalid (message : String) : IoError := ⟨.invalidData, message⟩

inductive RaftCommand where
  | commitUnsafePayload (payload : PayloadEnvelope)

structure RaftCommandResponse where
  previous : Option PayloadEnvelope

def RaftCommandResponse.default : RaftCommandResponse := ⟨none⟩

section
variable (T : TypeConfig)

/-- Indexes are `u64` in openraft; here they are those of logs in which `index + 1`
does not overflow. -/
structure LogId where
  leaderId : T.LeaderId
  index : Nat

/-- The index after a log id, or the first index of all. -/
def LogId.nextIndex : Option (LogId T) → Nat
  | none => 0
  | some logId => logId.index + 1

inductive EntryPayload where
  | blank
  | normal (command : RaftCommand)
  | membership (membership : T.Membership)

structure Entry where
  logId : LogId T
  payload : EntryPayload T

structure StoredMembership where
  logId : Option (LogId T)
  membership : T.Membership

structure UnsafeHeadStateMachine where
  lastAppliedLog : Option (LogId T)
  lastMembership : StoredMembership T
  latestUnsafePayload : Option PayloadEnvelope

def UnsafeHeadStateMachine.default : UnsafeHeadStateMachine T :=
  ⟨none, ⟨none, T.emptyMembership⟩, none⟩

structure SnapshotMeta where
  lastLogId : Option (LogId T)
  lastMembership : StoredMembership T
  snapshotId : String

structure UnsafeHeadSnapshot (Bytes : Type) where
  snapshotMeta : SnapshotMeta T
  data : Bytes

structure PersistedRaftStore (Bytes : Type) where
  lastPurgedLogId : Option (LogId T)
  committed : Option (LogId T)
  log : BTreeMap Nat String
  vote : Option T.Vote
  sm : UnsafeHeadStateMachine T
  currentSnapshot : Option (UnsafeHeadSnapshot T Bytes)
  snapshotIdx : Nat

def PersistedRaftStore.default (Bytes : Type) : PersistedRaftStore T Bytes :=
  ⟨none, none, .empty, none, .default T, none, 0⟩

/-- The encodings that serde derives. -/
structure Codec (Bytes : Type) where
  isEmpty : Bytes → Bool
  entry : Entry T → String
  sm : UnsafeHeadStateMachine T → Bytes
  decodeSm : Bytes → Except IoError (UnsafeHeadStateMachine T)
  store : PersistedRaftStore T Bytes → Bytes
  decodeStore : Bytes → Except IoError (PersistedRaftStore T Bytes)

structure Codec.Lawful {Bytes : Type} (codec : Codec T Bytes) : Prop where
  sm : ∀ sm, codec.decodeSm (codec.sm sm) = .ok sm
  store : ∀ image, codec.decodeStore (codec.store image) = .ok image
  store_ne_empty : ∀ image, codec.isEmpty (codec.store image) = false

end

section
variable {T : TypeConfig} {Bytes : Type}

namespace UnsafeHeadStateMachine

def shouldUpdate (previous : Option PayloadEnvelope) (payload : PayloadEnvelope) : Bool :=
  match previous.bind fun payload => payload.blockNumber.toOption with
  | none => true
  | some previousNumber =>
      match payload.blockNumber with
      | .ok number => number > previousNumber
      | .error _ => false

/-- One entry of the stream. The log id is recorded before the payload is
checked, and stays recorded when the check fails. -/
def applyEntry (sm : UnsafeHeadStateMachine T) (entry : Entry T) :
    Except IoError RaftCommandResponse × UnsafeHeadStateMachine T :=
  let sm := { sm with lastAppliedLog := some entry.logId }
  match entry.payload with
  | .blank => (.ok .default, sm)
  | .normal (.commitUnsafePayload payload) =>
      match payload.blockNumber, payload.blockHash with
      | .error err, _ => (.error (ioInvalid err.display), sm)
      | .ok _, .error err => (.error (ioInvalid err.display), sm)
      | .ok _, .ok _ =>
          let previous := sm.latestUnsafePayload
          if shouldUpdate previous payload then
            (.ok ⟨previous⟩, { sm with latestUnsafePayload := some payload })
          else (.ok ⟨previous⟩, sm)
  | .membership membership =>
      (.ok .default, { sm with lastMembership := ⟨some entry.logId, membership⟩ })

@[simp] theorem applyEntry_lastAppliedLog (sm : UnsafeHeadStateMachine T) (entry : Entry T) :
    (sm.applyEntry entry).2.lastAppliedLog = some entry.logId := by
  simp only [applyEntry]
  split
  · rfl
  · split
    · rfl
    · rfl
    · split <;> rfl
  · rfl

abbrev Responder := Nat

/-- The loop of `apply`, under the write lock: it stops at the first item that is
an error or cannot be applied, and keeps what it has done so far. -/
def applyStream (sm : UnsafeHeadStateMachine T) :
    List (Except IoError (Entry T × Option Responder)) →
      Except IoError (List (Option Responder × RaftCommandResponse)) ×
        UnsafeHeadStateMachine T
  | [] => (.ok [], sm)
  | .error err :: _ => (.error err, sm)
  | .ok (entry, responder) :: rest =>
      match sm.applyEntry entry with
      | (.error err, sm) => (.error err, sm)
      | (.ok response, sm) =>
          match sm.applyStream rest with
          | (.ok responses, sm) => (.ok ((responder, response) :: responses), sm)
          | (.error err, sm) => (.error err, sm)

def applyAll (sm : UnsafeHeadStateMachine T) (entries : List (Entry T)) :
    UnsafeHeadStateMachine T :=
  entries.foldl (fun sm entry => (sm.applyEntry entry).2) sm

def streamEntries (items : List (Except IoError (Entry T × Option Responder))) :
    List (Entry T) :=
  items.filterMap fun item => item.toOption.map Prod.fst

/-- However it ends, the loop has applied the first entries of its stream. -/
theorem applyStream_state (sm : UnsafeHeadStateMachine T)
    (items : List (Except IoError (Entry T × Option Responder))) :
    ∃ entries, entries <+: streamEntries items ∧
      (sm.applyStream items).2 = sm.applyAll entries := by
  induction items generalizing sm with
  | nil => exact ⟨[], List.nil_prefix, rfl⟩
  | cons item rest ih =>
      cases item with
      | error err => exact ⟨[], List.nil_prefix, rfl⟩
      | ok p =>
          have hitems : streamEntries (.ok p :: rest) = p.1 :: streamEntries rest := rfl
          have hone : [p.1] <+: p.1 :: streamEntries rest := ⟨streamEntries rest, rfl⟩
          rw [hitems]
          match happly : sm.applyEntry p.1 with
          | (.error err, sm') =>
              refine ⟨[p.1], hone, ?_⟩
              simp [applyStream, applyAll, happly]
          | (.ok response, sm') =>
              obtain ⟨entries, hpre, hstate⟩ := ih sm'
              refine ⟨p.1 :: entries, List.cons_prefix_cons.mpr ⟨rfl, hpre⟩, ?_⟩
              have hall : sm.applyAll (p.1 :: entries) = sm'.applyAll entries := by
                simp [applyAll, happly]
              rw [hall, ← hstate]
              simp only [applyStream, happly]
              cases sm'.applyStream rest with
              | mk r sm'' => cases r <;> rfl

theorem applyAll_lastAppliedLog (sm : UnsafeHeadStateMachine T) (entries : List (Entry T)) :
    (sm.applyAll entries).lastAppliedLog =
      (entries.getLast?.map Entry.logId).or sm.lastAppliedLog := by
  induction entries using List.reverseRecOn with
  | nil => rfl
  | append_singleton entries entry _ => simp [applyAll]

/-- Entries beyond what has been applied do not take the state machine back. -/
theorem applyStream_applied (sm : UnsafeHeadStateMachine T)
    (items : List (Except IoError (Entry T × Option Responder)))
    (h : ∀ entry ∈ streamEntries items,
      LogId.nextIndex T sm.lastAppliedLog ≤ entry.logId.index) :
    LogId.nextIndex T sm.lastAppliedLog ≤
      LogId.nextIndex T (sm.applyStream items).2.lastAppliedLog := by
  obtain ⟨entries, hpre, hstate⟩ := sm.applyStream_state items
  rw [hstate, applyAll_lastAppliedLog]
  cases hlast : entries.getLast? with
  | none => exact Nat.le_refl _
  | some entry =>
      have hle := h entry (hpre.subset (List.mem_of_getLast? hlast))
      exact hle.trans (Nat.le_succ _)

end UnsafeHeadStateMachine

namespace MemoryRaftStore

/-- The reading half of `open`. -/
def load (codec : Codec T Bytes) : Option Bytes → Except IoError (PersistedRaftStore T Bytes)
  | none => .ok (.default T Bytes)
  | some data => if codec.isEmpty data then .ok (.default T Bytes) else codec.decodeStore data

/-- A file that was written out is read back. -/
theorem load_store {codec : Codec T Bytes} (hc : codec.Lawful)
    (image : PersistedRaftStore T Bytes) : load codec (some (codec.store image)) = .ok image := by
  simp [load, hc.store_ne_empty, hc.store]

def snapshotId (lastAppliedLog : Option (LogId T)) (snapshotIdx : Nat) : String :=
  match lastAppliedLog with
  | some logId => T.displayLeaderId logId.leaderId ++ "-" ++ toString logId.index ++ "-" ++
      toString snapshotIdx
  | none => "empty-" ++ toString snapshotIdx

end MemoryRaftStore
end

/-- Contents of a file or of a snapshot, before they are turned into bytes. -/
inductive Document (T : TypeConfig) where
  | sm (sm : UnsafeHeadStateMachine T)
  | store (image : PersistedRaftStore T (Document T))

def Codec.document (T : TypeConfig) : Codec T (Document T) where
  isEmpty _ := false
  entry entry := toString entry.logId.index
  sm := .sm
  decodeSm
    | .sm sm => .ok sm
    | .store _ => .error (ioInvalid "not a state machine")
  store := .store
  decodeStore
    | .store image => .ok image
    | .sm _ => .error (ioInvalid "not a store")

theorem Codec.document_lawful (T : TypeConfig) : (Codec.document T).Lawful where
  sm _ := rfl
  store _ := rfl
  store_ne_empty _ := rfl

/-- A cluster in which one node leads every term. -/
def TypeConfig.single : TypeConfig where
  LeaderId := Unit
  displayLeaderId _ := "T1-N1"
  Vote := Nat
  Membership := Unit
  emptyMembership := ()

end ConductorRs

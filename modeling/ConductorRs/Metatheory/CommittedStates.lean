import ConductorRs.Collections.FirstMax
import ConductorRs.Core.Cluster

/-!
The state machine after a prefix of the committed log.

The prefix is determined by the last applied log id, applying the next entries
extends it, and the latest payload is the first of the highest ones in it.
-/
namespace ConductorRs
open Collections

/-- One commit to the unsafe-head register. -/
def register (latest : Option PayloadEnvelope) (payload : PayloadEnvelope) :
    Option PayloadEnvelope :=
  if payload.Valid then raise PayloadEnvelope.number latest payload else latest

def ValidLatest (latest : Option PayloadEnvelope) : Prop := ∀ p, latest = some p → p.Valid

theorem validLatest_none : ValidLatest none := by
  intro p hp
  cases hp

theorem ValidLatest.register {latest : Option PayloadEnvelope} (h : ValidLatest latest)
    (payload : PayloadEnvelope) : ValidLatest (register latest payload) := by
  unfold ConductorRs.register
  split
  · next hvalid =>
      cases latest with
      | none =>
          intro p hp
          cases hp
          exact hvalid
      | some current =>
          intro p hp
          simp only [raise] at hp
          split at hp <;> cases hp
          · exact hvalid
          · exact h current rfl
  · exact h

theorem foldl_register_firstMax (payloads : List PayloadEnvelope) :
    FirstMax PayloadEnvelope.number (payloads.filter fun p => p.Valid)
      (payloads.foldl register none) := by
  have h : FirstMax PayloadEnvelope.number (payloads.filter fun p => p.Valid) _ :=
    firstMax_foldl_raise (payloads.filter fun p => p.Valid)
  rw [List.foldl_filter] at h
  simp only [decide_eq_true_eq] at h
  exact h

theorem Entry.valid_iff {T : TypeConfig} {entry : Entry T} {payload : PayloadEnvelope}
    (h : entry.payload? = some payload) : entry.Valid ↔ payload.Valid := by
  simp [Entry.Valid, h]

namespace UnsafeHeadStateMachine
variable {T : TypeConfig}

theorem shouldUpdate_iff {previous payload : PayloadEnvelope} (hprevious : previous.Valid)
    (hpayload : payload.Valid) :
    shouldUpdate (some previous) payload = true ↔ previous.number < payload.number := by
  obtain ⟨-, hprev, -⟩ := PayloadEnvelope.valid_iff.mp hprevious
  obtain ⟨-, hnew, -⟩ := PayloadEnvelope.valid_iff.mp hpayload
  simp [shouldUpdate, hprev, hnew, Except.toOption]

theorem applyEntry_latest (sm : UnsafeHeadStateMachine T) {entry : Entry T}
    (hvalid : entry.Valid) :
    (sm.applyEntry entry).2.latestUnsafePayload =
      match entry.payload? with
      | none => sm.latestUnsafePayload
      | some payload =>
          if shouldUpdate sm.latestUnsafePayload payload then some payload
          else sm.latestUnsafePayload := by
  obtain ⟨logId, content⟩ := entry
  cases content with
  | blank | membership m => rfl
  | normal command =>
      obtain ⟨payload⟩ := command
      obtain ⟨hash, hn, hh⟩ := PayloadEnvelope.valid_iff.mp (hvalid payload rfl)
      simp only [applyEntry, Entry.payload?, hn, hh]
      split <;> rfl

/-- A valid entry is processed completely. -/
theorem applyEntry_of_valid (sm : UnsafeHeadStateMachine T) {entry : Entry T}
    (h : entry.Valid) :
    ∃ response, sm.applyEntry entry = (.ok response, (sm.applyEntry entry).2) := by
  obtain ⟨logId, content⟩ := entry
  cases content with
  | blank | membership m => exact ⟨_, rfl⟩
  | normal command =>
      obtain ⟨payload⟩ := command
      obtain ⟨hash, hn, hh⟩ := PayloadEnvelope.valid_iff.mp (h payload rfl)
      simp only [applyEntry, hn, hh]
      split <;> exact ⟨_, rfl⟩

/-- Any other entry leaves nothing but its log id. -/
theorem applyEntry_of_not_valid (sm : UnsafeHeadStateMachine T) {entry : Entry T}
    (h : ¬entry.Valid) :
    ∃ err, sm.applyEntry entry =
      (.error err, { sm with lastAppliedLog := some entry.logId }) := by
  obtain ⟨logId, content⟩ := entry
  cases content with
  | blank | membership m => exact absurd (fun payload hp => by cases hp) h
  | normal command =>
      obtain ⟨payload⟩ := command
      simp only [applyEntry]
      cases hn : payload.blockNumber with
      | error err => exact ⟨_, rfl⟩
      | ok number =>
          cases hh : payload.blockHash with
          | error err => exact ⟨_, rfl⟩
          | ok hash =>
              refine absurd (fun payload' hp => ?_) h
              cases hp
              exact PayloadEnvelope.valid_iff.mpr
                ⟨hash, by rw [PayloadEnvelope.number_eq hn, hn], hh⟩

theorem applyEntry_isOk (sm : UnsafeHeadStateMachine T) (entry : Entry T) :
    (sm.applyEntry entry).1.isOk ↔ entry.Valid := by
  by_cases h : entry.Valid
  · obtain ⟨response, hok⟩ := sm.applyEntry_of_valid h
    rw [hok]
    exact iff_of_true rfl h
  · obtain ⟨err, herr⟩ := sm.applyEntry_of_not_valid h
    rw [herr]
    exact iff_of_false (by simp [Except.isOk, Except.toBool]) h

theorem shouldUpdate_raise {latest : Option PayloadEnvelope} {payload : PayloadEnvelope}
    (hlatest : ValidLatest latest) (hpayload : payload.Valid) :
    (if shouldUpdate latest payload then some payload else latest) =
      raise PayloadEnvelope.number latest payload := by
  cases latest with
  | none => rfl
  | some current =>
      simp only [raise, shouldUpdate_iff (hlatest current rfl) hpayload]

/-- `apply` commits to the register. -/
theorem applyEntry_register (sm : UnsafeHeadStateMachine T)
    (hlatest : ValidLatest sm.latestUnsafePayload) (entry : Entry T) :
    (sm.applyEntry entry).2.latestUnsafePayload =
      entry.payload?.toList.foldl register sm.latestUnsafePayload := by
  by_cases hvalid : entry.Valid
  · rw [applyEntry_latest sm hvalid]
    cases hpayload : entry.payload? with
    | none => rfl
    | some payload =>
        have hp := hvalid payload hpayload
        simp only [Option.toList_some, List.foldl_cons, List.foldl_nil, register, if_pos hp]
        exact shouldUpdate_raise hlatest hp
  · obtain ⟨payload, hpayload, hp⟩ : ∃ payload, entry.payload? = some payload ∧ ¬payload.Valid := by
      simpa [Entry.Valid] using hvalid
    obtain ⟨err, herr⟩ := sm.applyEntry_of_not_valid hvalid
    rw [herr, hpayload]
    simp only [Option.toList_some, List.foldl_cons, List.foldl_nil, register, if_neg hp]

theorem applyAll_register (sm : UnsafeHeadStateMachine T)
    (hlatest : ValidLatest sm.latestUnsafePayload) (entries : List (Entry T)) :
    (sm.applyAll entries).latestUnsafePayload =
      (entries.filterMap Entry.payload?).foldl register sm.latestUnsafePayload := by
  induction entries generalizing sm with
  | nil => rfl
  | cons entry entries ih =>
      have hstep := sm.applyEntry_register hlatest entry
      have hnext : ValidLatest (sm.applyEntry entry).2.latestUnsafePayload := by
        rw [hstep]
        cases entry.payload? with
        | none => exact hlatest
        | some payload => exact hlatest.register payload
      have hrest := ih (sm.applyEntry entry).2 hnext
      rw [hstep] at hrest
      refine hrest.trans ?_
      cases hpayload : entry.payload? with
      | none =>
          rw [List.filterMap_cons_none hpayload]
          rfl
      | some payload =>
          rw [List.filterMap_cons_some hpayload]
          rfl

/-- Valid entries leave the first of the highest payloads. -/
theorem applyAll_latest (entries : List (Entry T)) (hvalid : ∀ entry ∈ entries, entry.Valid) :
    FirstMax PayloadEnvelope.number (entries.filterMap Entry.payload?)
      ((default T).applyAll entries).latestUnsafePayload := by
  have hall : (entries.filterMap Entry.payload?).filter (fun p => p.Valid) =
      entries.filterMap Entry.payload? := by
    rw [List.filter_eq_self]
    intro payload hp
    obtain ⟨entry, he, hpayload⟩ := List.mem_filterMap.mp hp
    exact decide_eq_true (hvalid entry he payload hpayload)
  have hmax := foldl_register_firstMax (entries.filterMap Entry.payload?)
  rw [hall] at hmax
  rw [applyAll_register _ validLatest_none]
  exact hmax

end UnsafeHeadStateMachine

namespace CommittedLog
variable {T : TypeConfig} (log : CommittedLog T)

theorem state_latest (k : Nat) :
    FirstMax PayloadEnvelope.number (log.payloads k) (log.state k).latestUnsafePayload :=
  UnsafeHeadStateMachine.applyAll_latest _ fun entry he =>
    log.valid entry (List.mem_of_mem_take he)

/-- The prefix that has been applied can be read off the last applied log id. -/
theorem state_nextIndex {k : Nat} (hk : k ≤ log.entries.length) :
    LogId.nextIndex T (log.state k).lastAppliedLog = k := by
  rw [state, UnsafeHeadStateMachine.applyAll_lastAppliedLog]
  cases k with
  | zero => rfl
  | succ k =>
      have hlast : (log.entries.take (k + 1)).getLast? = log.entries[k]? := by
        rw [List.getLast?_eq_getElem?, List.length_take, Nat.min_eq_left hk,
          List.getElem?_take_of_lt (by omega), Nat.add_sub_cancel]
      cases hentry : log.entries[k]? with
      | none =>
          have := List.getElem?_eq_none_iff.mp hentry
          omega
      | some entry =>
          have hindex := log.indexed k entry hentry
          rw [hlast, hentry]
          simp [LogId.nextIndex, hindex]

theorem state_apply {k : Nat} {entries : List (Entry T)}
    (h : entries <+: log.entries.drop k) :
    (log.state k).applyAll entries = log.state (k + entries.length) := by
  have htake : log.entries.take (k + entries.length) = log.entries.take k ++ entries := by
    rw [List.take_add, ← List.prefix_iff_eq_take.mp h]
  simp only [state, htake, UnsafeHeadStateMachine.applyAll, List.foldl_append]

theorem payloads_subset {k k' : Nat} (h : k ≤ k') : log.payloads k ⊆ log.payloads k' := by
  intro payload hp
  obtain ⟨entry, he, hpayload⟩ := List.mem_filterMap.mp hp
  refine List.mem_filterMap.mpr ⟨entry, ?_, hpayload⟩
  exact (List.take_subset_take_left log.entries h) he

theorem payloads_push (k : Nat) (leaderId : T.LeaderId) (payload : EntryPayload T)
    (hvalid : Entry.Valid ⟨⟨leaderId, log.entries.length⟩, payload⟩) :
    log.payloads k ⊆ (log.push leaderId payload hvalid).payloads k := by
  intro p hp
  obtain ⟨entry, he, hpayload⟩ := List.mem_filterMap.mp hp
  refine List.mem_filterMap.mpr ⟨entry, ?_, hpayload⟩
  simp only [push, List.take_append]
  exact List.mem_append_left _ he

theorem mem_payloads {k index : Nat} {entry : Entry T} {payload : PayloadEnvelope}
    (hentry : log.entries[index]? = some entry) (hpayload : entry.payload? = some payload)
    (hlt : index < k) : payload ∈ log.payloads k := by
  refine List.mem_filterMap.mpr ⟨entry, ?_, hpayload⟩
  refine List.mem_of_getElem? (i := index) ?_
  rw [List.getElem?_take_of_lt hlt, hentry]

theorem valid_of_mem_payloads {k : Nat} {payload : PayloadEnvelope}
    (h : payload ∈ log.payloads k) : payload.Valid := by
  obtain ⟨entry, he, hpayload⟩ := List.mem_filterMap.mp h
  exact log.valid entry (List.mem_of_mem_take he) payload hpayload

end CommittedLog
end ConductorRs

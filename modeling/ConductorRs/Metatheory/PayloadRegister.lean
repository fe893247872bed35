import ConductorRs.Core.PayloadStore
import ConductorRs.Metatheory.CommittedStates
import ConductorRs.Metatheory.PayloadHops

/-!
The unsafe-head register, and the two components that implement it.

A valid payload replaces the latest one if its block number is higher; every
other payload changes nothing. `apply` does that for the payloads of its entries,
and so does `LocalConsensus` over a file store when nothing fails.
-/
namespace ConductorRs
open Concurrency Collections

namespace FilePayloadStore
variable (json : JsonText) (path : Path)

theorem execute_disk (o : DiskOp) {s s' : LocalState}
    (h : s.performDisk (.smooth String) o = some (.ok (), s')) :
    execute LocalState.performSmooth () (disk o).run s = some (.ok (), s') := by
  change ((s.performDisk (.smooth String) o).bind fun p =>
    some (p.1.mapError fun err => StoreError.io err.message, p.2)) = some (.ok (), s')
  rw [h]
  rfl

theorem execute_check {α : Type} {r : Except StoreError α} {a : α} (h : r = .ok a)
    (s : LocalState) :
    execute LocalState.performSmooth () (check r).run s = some (.ok a, s) := by
  rw [h]
  rfl

theorem execute_parsed {α : Type} {r : Except TypeError α} {a : α} (h : r = .ok a)
    (s : LocalState) :
    execute LocalState.performSmooth () (parsed r).run s = some (.ok a, s) := by
  rw [h]
  rfl

/-- The temporary file is gone and the file holds the text. -/
theorem execute_writeFile (text : String) (s : LocalState) :
    execute LocalState.performSmooth () (writeFile path text).run s =
      some (.ok (), (s.put (path.withExtension "tmp") none).put path (some text)) := by
  unfold writeFile
  rw [execute_bindExcept (execute_disk _ rfl), execute_bindExcept (execute_disk _ rfl),
    execute_bindExcept (execute_disk _ rfl), execute_bindExcept (execute_disk _ rfl),
    execute_bindExcept (execute_disk _ rfl)]
  apply execute_disk
  simp [LocalState.performDisk, FileChoice.smooth]

theorem encode_of_valid {payload : PayloadEnvelope} (h : payload.Valid) :
    ∃ v, encode json payload = .ok (json.print v) ∧
      PersistedPayload.serde.decode v = .ok ⟨1, payload⟩ := by
  obtain ⟨members, hraw⟩ := h.object
  obtain ⟨raw⟩ := payload
  cases hraw
  exact ⟨_, rfl, rfl⟩

theorem execute_createParent (s : LocalState) :
    execute LocalState.performSmooth () (createParent path).run s = some (.ok (), s) := by
  unfold createParent
  cases path.parent <;> rfl

theorem execute_persist {payload : PayloadEnvelope} {text : String}
    (h : encode json payload = .ok text) (s : LocalState) :
    execute LocalState.performSmooth () (persist json path payload).run s =
      some (.ok (), (s.put (path.withExtension "tmp") none).put path (some text)) := by
  have hsync : ∀ t, execute LocalState.performSmooth () (syncParent path) t = some ((), t) := by
    intro t
    unfold syncParent
    cases path.parent <;> rfl
  unfold persist
  rw [execute_bindExcept (execute_createParent path s), execute_bindExcept (execute_check h s),
    execute_bindExcept (execute_writeFile path text s)]
  exact execute_lift (hsync _)

theorem execute_replace {payload : PayloadEnvelope} {text : String}
    (h : encode json payload = .ok text) (s : LocalState) :
    execute LocalState.performSmooth () (replace json path payload).run s =
      some (.ok (), { (s.put (path.withExtension "tmp") none).put path (some text) with
        latest := some payload }) := by
  unfold replace
  rw [execute_bindExcept (execute_persist json path h s)]
  rfl

theorem execute_commit_of_not_valid {payload : PayloadEnvelope} (h : ¬payload.Valid)
    (s : LocalState) :
    ∃ err, execute LocalState.performSmooth () (commit json path payload).run s =
      some (.error err, s) := by
  unfold commit
  cases hnumber : payload.blockNumber with
  | error err => exact ⟨.payload err, execute_stop rfl⟩
  | ok number =>
      rw [execute_bindExcept (execute_parsed rfl s)]
      cases hhash : payload.blockHash with
      | error err => exact ⟨.payload err, execute_stop rfl⟩
      | ok hash =>
          refine absurd (PayloadEnvelope.valid_iff.mpr ⟨hash, ?_, hhash⟩) h
          rw [PayloadEnvelope.number_eq hnumber, hnumber]

theorem execute_commit_of_lt {payload : PayloadEnvelope} (h : payload.Valid) (s : LocalState)
    (hlatest : ValidLatest s.latest)
    (hlt : ∀ current, s.latest = some current → current.number < payload.number) :
    execute LocalState.performSmooth () (commit json path payload).run s =
      execute LocalState.performSmooth () (replace json path payload).run s := by
  obtain ⟨hash, hnumber, hhash⟩ := PayloadEnvelope.valid_iff.mp h
  have hread : execute LocalState.performSmooth () (op .latest) s = some (s.latest, s) := rfl
  unfold commit
  rw [execute_bindExcept (execute_parsed hnumber s), execute_bindExcept (execute_parsed hhash s),
    execute_bindExcept (execute_lift hread)]
  cases hcurrent : s.latest with
  | none => rfl
  | some current =>
      obtain ⟨-, hold, -⟩ := PayloadEnvelope.valid_iff.mp (hlatest current hcurrent)
      dsimp only
      rw [execute_bindExcept (execute_parsed hold s),
        if_neg (Nat.not_le.mpr (hlt current hcurrent))]

theorem execute_commit_of_le {payload current : PayloadEnvelope} (h : payload.Valid)
    (s : LocalState) (hcurrent : s.latest = some current) (hvalid : current.Valid)
    (hle : payload.number ≤ current.number) :
    execute LocalState.performSmooth () (commit json path payload).run s = some (.ok (), s) := by
  obtain ⟨hash, hnumber, hhash⟩ := PayloadEnvelope.valid_iff.mp h
  obtain ⟨-, hold, -⟩ := PayloadEnvelope.valid_iff.mp hvalid
  have hread : execute LocalState.performSmooth () (op .latest) s = some (some current, s) := by
    rw [← hcurrent]
    rfl
  unfold commit
  rw [execute_bindExcept (execute_parsed hnumber s), execute_bindExcept (execute_parsed hhash s),
    execute_bindExcept (execute_lift hread)]
  dsimp only
  rw [execute_bindExcept (execute_parsed hold s), if_pos hle]
  rfl

theorem execute_commit {payload : PayloadEnvelope} (h : payload.Valid) (s : LocalState)
    (hlatest : ValidLatest s.latest) :
    ∃ t, execute LocalState.performSmooth () (commit json path payload).run s =
      some (.ok (), t) ∧ t.leader = s.leader ∧
      t.latest = raise PayloadEnvelope.number s.latest payload := by
  obtain ⟨v, htext, -⟩ := encode_of_valid json h
  have hreplace := execute_replace json path htext s
  cases hcurrent : s.latest with
  | none =>
      rw [execute_commit_of_lt json path h s hlatest (by simp [hcurrent]), hreplace]
      exact ⟨_, rfl, rfl, rfl⟩
  | some current =>
      simp only [raise]
      by_cases hlt : current.number < payload.number
      · rw [execute_commit_of_lt json path h s hlatest (by simp [hcurrent, hlt]), hreplace]
        exact ⟨_, rfl, rfl, (if_pos hlt).symm⟩
      · rw [execute_commit_of_le json path h s hcurrent (hlatest current hcurrent)
          (Nat.le_of_not_lt hlt)]
        exact ⟨s, rfl, rfl, hcurrent.trans (if_neg hlt).symm⟩

end FilePayloadStore

namespace LocalConsensus
variable (json : JsonText) (path : Path)

theorem execute_leader (payload : PayloadEnvelope) (s : LocalState) (hleader : s.leader = true) :
    execute LocalState.performSmooth () (commitUnsafePayload json path payload) s =
      (execute LocalState.performSmooth () (FilePayloadStore.commit json path payload).run s).map
        fun p => (p.1.mapError ConsensusError.store, p.2) := by
  have hread : execute LocalState.performSmooth () (FilePayloadStore.op .leader) s =
      some (true, s) := by
    rw [← hleader]
    rfl
  refine (execute_bind (FilePayloadStore.op .leader) _ s).trans ?_
  rw [hread]
  refine (execute_bind (FilePayloadStore.commit json path payload).run _ s).trans ?_
  cases execute LocalState.performSmooth () (FilePayloadStore.commit json path payload).run s <;>
    rfl

/-- A leader commits to the register, and rejects what does not parse. -/
theorem execute_commitUnsafePayload (payload : PayloadEnvelope) (s : LocalState)
    (hleader : s.leader = true) (hlatest : ValidLatest s.latest) :
    ∃ r t, execute LocalState.performSmooth () (commitUnsafePayload json path payload) s =
        some (r, t) ∧ (r.isOk ↔ payload.Valid) ∧ t.leader = true ∧
      t.latest = register s.latest payload := by
  by_cases hvalid : payload.Valid
  · obtain ⟨t, hrun, hleads, hraised⟩ := FilePayloadStore.execute_commit json path hvalid s hlatest
    rw [execute_leader json path payload s hleader, hrun]
    exact ⟨_, t, rfl, iff_of_true rfl hvalid, hleads.trans hleader,
      hraised.trans (if_pos hvalid).symm⟩
  · obtain ⟨err, hrun⟩ := FilePayloadStore.execute_commit_of_not_valid json path hvalid s
    rw [execute_leader json path payload s hleader, hrun]
    refine ⟨_, _, rfl, iff_of_false ?_ hvalid, hleader, (if_neg hvalid).symm⟩
    simp [Except.isOk, Except.toBool, Except.mapError]

theorem execute_each (payloads : List PayloadEnvelope) (s : LocalState)
    (hleader : s.leader = true) (hlatest : ValidLatest s.latest) :
    ∃ results t, execute LocalState.performSmooth ()
        (Task.each (commitUnsafePayload json path) payloads) s = some (results, t) ∧
      List.Forall₂ (fun payload r => r.isOk ↔ payload.Valid) payloads results ∧
      t.latest = payloads.foldl register s.latest := by
  induction payloads generalizing s with
  | nil => exact ⟨[], s, rfl, .nil, rfl⟩
  | cons payload payloads ih =>
      obtain ⟨r, t, hrun, hok, hleads, hstep⟩ :=
        execute_commitUnsafePayload json path payload s hleader hlatest
      have hnext : ValidLatest t.latest := by
        rw [hstep]
        exact hlatest.register payload
      obtain ⟨results, t', hruns, hoks, hall⟩ := ih t hleads hnext
      refine ⟨r :: results, t', ?_, .cons hok hoks, ?_⟩
      · refine (execute_bind _ _ s).trans ?_
        rw [hrun]
        refine (execute_bind _ _ t).trans ?_
        rw [hruns]
        rfl
      · rw [hall, hstep]
        rfl

end LocalConsensus
end ConductorRs

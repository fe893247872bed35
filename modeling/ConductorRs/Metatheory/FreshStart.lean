import ConductorRs.Core.ConductorMemory
import ConductorRs.Core.Stack
import ConductorRs.Metatheory.CommittedStates
import ConductorRs.Metatheory.StartControl

/-!
What a start has read of the committed log.

Next to the calls of one conductor the cluster commits entries, this node applies
them, leadership moves, and commits are acknowledged here or on another node. An
acknowledgement here comes after the entry has been applied here. A linearizable
read succeeds only on a leader that has applied everything committed before the
request. Every read of the local state machine is recorded with the payloads that
had been acknowledged anywhere by then, and whether the run had left it undisturbed:
the node led when `latest_unsafe_payload` read its leader flag, and no other node has
acknowledged a commit since.
-/
namespace ConductorRs.Conductor.FreshStart
open Concurrency RaftConsensus

structure Reading where
  payload : Option PayloadEnvelope
  acked : List PayloadEnvelope
  undisturbed : Bool

structure Sys (T : TypeConfig) (Tid : Type) where
  mem : Memory Tid
  log : CommittedLog T
  applied : Nat
  leading : Bool
  asked : Tid → Option Nat
  acked : List PayloadEnvelope
  undisturbed : Tid → Bool
  reading : Tid → Option Reading

/-- The node's and the probes' answers, and the outcome of a linearizable read. -/
structure Choice where
  oracle : Oracle
  linearizable : Except String Unit

inductive Env (T : TypeConfig) where
  | lead (leading : Bool)
  | commit (leaderId : T.LeaderId) (payload : EntryPayload T)
  | apply (applied : Nat)
  | acknowledge (here : Bool) (index : Nat)

abbrev Stack : Interface := Shared.sum ReadOps

namespace Sys
variable {T : TypeConfig} {Tid : Type}

/-- How far an acknowledgement can reach: a node acknowledges what it has applied,
which elsewhere is anything committed. -/
def known (s : Sys T Tid) (here : Bool) : Nat :=
  if here then s.applied else s.log.entries.length

variable [DecidableEq Tid]

/-- An operation of the conductor. -/
def own (s : Sys T Tid) (i : Tid) (x : Choice) : (o : Op) → Option (o.Reply × Sys T Tid)
  | .consensus .leader => some (s.leading, s)
  | o =>
      if o.external then some (x.oracle o, s)
      else (s.mem.perform i o).map fun p => (p.1, { s with mem := p.2 })

/-- An operation of `latest_unsafe_payload`. -/
def read (s : Sys T Tid) (i : Tid) (x : Choice) : (o : ReadOp) → Option (o.Reply × Sys T Tid)
  | .leader => some (s.leading, { s with
      asked := Function.update s.asked i none
      undisturbed := Function.update s.undisturbed i s.leading
      reading := Function.update s.reading i none })
  | .requestLinearizable => some ((), { s with
      asked := Function.update s.asked i (some s.log.entries.length) })
  | .awaitLinearizable =>
      match x.linearizable with
      | .error err => some (.error err, s)
      | .ok _ =>
          if s.leading && (s.asked i).any (· ≤ s.applied) then some (.ok (), s) else none
  | .latestPayload =>
      let payload := (s.log.state s.applied).latestUnsafePayload
      some (payload, { s with
        reading := Function.update s.reading i (some ⟨payload, s.acked, s.undisturbed i⟩) })

def perform (s : Sys T Tid) (i : Tid) :
    (o : Stack.Op) → Choice → Option (Stack.Reply o × Sys T Tid)
  | .inl o, x => s.own i x o
  | .inr o, x => s.read i x o

/-- `commit_unsafe_payload` lets only valid payloads into the log. -/
def env (s : Sys T Tid) : Env T → Option (Sys T Tid)
  | .lead leading => some { s with leading }
  | .commit leaderId payload =>
      if h : Entry.Valid ⟨⟨leaderId, s.log.entries.length⟩, payload⟩ then
        some { s with log := s.log.push leaderId payload h }
      else none
  | .apply applied =>
      if s.applied ≤ applied ∧ applied ≤ s.log.entries.length then some { s with applied }
      else none
  | .acknowledge here index =>
      if index < s.known here then
        (s.log.entries[index]?.bind Entry.payload?).map fun payload =>
          { s with
            acked := payload :: s.acked
            undisturbed := fun i => here && s.undisturbed i }
      else none

end Sys

section
variable {T : TypeConfig} {Tid : Type} [DecidableEq Tid]

def machine (T : TypeConfig) (Tid : Type) [DecidableEq Tid] (cfg : ConductorConfig) :
    Machine Tid Stack (Sys T Tid) Call Outcome Choice (Env T) where
  body call := (body cfg call).interp throughRaft
  enter s i _ := some { s with reading := Function.update s.reading i none }
  perform := Sys.perform
  leave s _ _ _ := s
  env := Sys.env

end

section
variable {T : TypeConfig} {Tid : Type}

/-- Everything acknowledged is committed, and where an undisturbed read has asked for
linearizability it has been applied or had been committed when the read asked. -/
structure Inv (s : Sys T Tid) : Prop where
  committed : s.acked ⊆ s.log.payloads s.log.entries.length
  undisturbed : ∀ i n, s.undisturbed i = true → s.asked i = some n →
    s.acked ⊆ s.log.payloads (max n s.applied)

/-- The reading of a payload that, if it was undisturbed, no acknowledged payload
exceeds. -/
def Fresh (payload : PayloadEnvelope) (reading : Reading) : Prop :=
  reading.payload = some payload ∧ payload.Valid ∧
    (reading.undisturbed = true → ∀ q ∈ reading.acked, q.number ≤ payload.number)

/-- The start of thread `i` follows from a fresh reading. -/
def Started (i : Tid) (payload : PayloadEnvelope) (s : Sys T Tid) : Prop :=
  ∃ reading, s.reading i = some reading ∧ Fresh payload reading

def outline : Outline Tid Stack (Sys T Tid) where
  inv := Inv
  rely i s s' := s'.reading i = s.reading i ∧ s'.asked i = s.asked i ∧
    (s'.undisturbed i = true → s.undisturbed i = true) ∧ s.applied ≤ s'.applied
  idle _ _ := True
  check i s
    | .inl (.sequencer (.startSequencer _)) => ∃ payload, Started i payload s
    | _ => True

theorem coherent : (outline : Outline Tid Stack (Sys T Tid)).Coherent where
  refl _ _ := ⟨rfl, rfl, id, Nat.le_refl _⟩
  trans := by
    intro i s s' s'' h h'
    exact ⟨h'.1.trans h.1, h'.2.1.trans h.2.1, fun hc => h.2.2.1 (h'.2.2.1 hc),
      Nat.le_trans h.2.2.2 h'.2.2.2⟩
  idle := by
    intros
    trivial

theorem true_stable (i : Tid) : (outline (T := T)).Stable i fun _ => True :=
  fun _ _ _ _ _ => trivial

/-- An undisturbed read of thread `i` has been granted what it asked for. -/
def Granted (i : Tid) (s : Sys T Tid) : Prop :=
  s.undisturbed i = true → ∃ n, s.asked i = some n ∧ n ≤ s.applied

theorem granted_stable (i : Tid) : (outline (T := T)).Stable i (Granted i) := by
  intro s s' h hr _ hc
  obtain ⟨n, hasked, hle⟩ := h (hr.2.2.1 hc)
  exact ⟨n, hr.2.1.trans hasked, Nat.le_trans hle hr.2.2.2⟩

theorem started_stable (i : Tid) (payload : PayloadEnvelope) :
    (outline (T := T)).Stable i (Started i payload) := by
  rintro s s' ⟨reading, hreading, hfresh⟩ hr _
  exact ⟨reading, hr.1.trans hreading, hfresh⟩

theorem commit_keeps {s : Sys T Tid} (hi : Inv s) (leaderId : T.LeaderId)
    (payload : EntryPayload T)
    (hvalid : Entry.Valid ⟨⟨leaderId, s.log.entries.length⟩, payload⟩) :
    Inv { s with log := s.log.push leaderId payload hvalid } := by
  have hpush := fun k => s.log.payloads_push k leaderId payload hvalid
  refine ⟨List.Subset.trans hi.committed (List.Subset.trans (hpush _) ?_), fun i n hc hn => ?_⟩
  · exact CommittedLog.payloads_subset _ (by simp [CommittedLog.push])
  · exact List.Subset.trans (hi.undisturbed i n hc hn) (hpush _)

/-- An acknowledgement here is of an applied entry; one elsewhere disturbs every read. -/
theorem acknowledge_keeps {s : Sys T Tid} (hi : Inv s) {here : Bool} {index : Nat}
    {entry : Entry T} {payload : PayloadEnvelope}
    (hindex : index < s.known here)
    (hentry : s.log.entries[index]? = some entry) (hpayload : entry.payload? = some payload) :
    Inv { s with
      acked := payload :: s.acked
      undisturbed := fun i => here && s.undisturbed i } := by
  have hlength : index < s.log.entries.length := (List.getElem?_eq_some_iff.mp hentry).1
  refine ⟨List.cons_subset.mpr ⟨s.log.mem_payloads hentry hpayload hlength, hi.committed⟩, ?_⟩
  intro i n hc hn
  simp only [Bool.and_eq_true] at hc
  obtain ⟨rfl, hc⟩ := hc
  refine List.cons_subset.mpr ⟨s.log.mem_payloads hentry hpayload ?_, hi.undisturbed i n hc hn⟩
  exact Nat.lt_of_lt_of_le hindex (Nat.le_max_right _ _)

theorem env_keeps {s s' : Sys T Tid} {e : Env T} (hi : Inv s) (he : s.env e = some s') :
    Inv s' ∧ ∀ j, outline.rely j s s' := by
  cases e with
  | lead leading =>
      cases he
      exact ⟨⟨hi.committed, hi.undisturbed⟩, fun j => coherent.refl j s⟩
  | commit leaderId payload =>
      simp only [Sys.env] at he
      split at he
      · next hvalid =>
          cases he
          exact ⟨commit_keeps hi leaderId payload hvalid, fun j => coherent.refl j s⟩
      · cases he
  | apply applied =>
      simp only [Sys.env] at he
      split at he
      · next h =>
          cases he
          refine ⟨⟨hi.committed, fun i n hc hn => ?_⟩, fun j => ⟨rfl, rfl, id, h.1⟩⟩
          refine List.Subset.trans (hi.undisturbed i n hc hn) (s.log.payloads_subset ?_)
          have := h.1
          simp only
          omega
      · cases he
  | acknowledge here index =>
      simp only [Sys.env] at he
      split at he
      · next hindex =>
          obtain ⟨payload, hbind, rfl⟩ := Option.map_eq_some_iff.mp he
          obtain ⟨entry, hentry, hpayload⟩ := Option.bind_eq_some_iff.mp hbind
          refine ⟨acknowledge_keeps hi hindex hentry hpayload, fun j => ?_⟩
          refine ⟨rfl, rfl, fun hc => ?_, Nat.le_refl _⟩
          simp only [Bool.and_eq_true] at hc
          exact hc.2
      · cases he

end
end ConductorRs.Conductor.FreshStart

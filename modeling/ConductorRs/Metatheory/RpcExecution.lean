import ConductorRs.Collections.Checks
import ConductorRs.Metatheory.RpcFraming

/-!
Which values are executed.

A request that does not decode is answered without an operation; one that
decodes is dispatched and counted. The decoder takes objects and arrays, so the
only values that are executed without being request objects are arrays of the
fields of a request.
-/
namespace ConductorRs.Rpc
open Concurrency

/-- What a payload hands to `handle_request_value`. -/
def requestsOf : Value → List Value
  | .array requests => requests
  | v => [v]

def replyOf : Value → List (Option Value) → Option Value
  | .array [], _ =>
      some (responseValue none (.error (invalidRequest "batch request must not be empty")))
  | .array _, outs => batchReply outs.reduceOption
  | _, outs => outs.head?.join

/-- A payload is its requests, one after the other. -/
theorem handlePayload_eq (proxy : Bool) (payload : Value) :
    handlePayload proxy payload =
      (Task.each (handleRequestValue proxy) (requestsOf payload)).bind fun outs =>
        .done (replyOf payload outs) := by
  cases payload with
  | array requests =>
      cases requests with
      | nil => rfl
      | cons request requests => exact handlePayload_array proxy (by simp)
  | _ =>
      simp only [requestsOf, Task.each, Task.bind_bind]
      exact (Task.bind_done _).symm

/-- An object with a text as its method. -/
def RequestObject (v : Value) : Prop :=
  ∃ members method, v = .object members ∧ members.lookup "method" = some (.string method)

/-- An array of the fields of a request, the last of them optional. -/
def RequestSequence (v : Value) : Prop :=
  ∃ jsonrpc method rest, v = .array (jsonrpc :: .string method :: rest) ∧ rest.length ≤ 1 ∧
    (jsonrpc = .null ∨ ∃ version, jsonrpc = .string version)

/-- The value is answered with an invalid request, and nothing is done. -/
def Rejected (proxy : Bool) (v : Value) : Prop :=
  ∃ message, handleRequestValue proxy v =
    .done (some (responseValue (v.get "id") (.error (invalidRequest message))))

def OnlyRequestObjects (proxy : Bool) (payload : Value) : Prop :=
  ∀ v ∈ requestsOf payload, RequestObject v ∨ Rejected proxy v

namespace Request

theorem readString_ok {v : Value} {s : String} (h : readString v = .ok s) : v = .string s := by
  cases v with
  | string t =>
      cases h
      rfl
  | _ => cases h

theorem readOptionString_ok {v : Value} {o : Option String} (h : readOptionString v = .ok o) :
    v = .null ∨ ∃ s, v = .string s := by
  cases v with
  | null => exact .inl rfl
  | string s => exact .inr ⟨s, rfl⟩
  | _ => cases h

theorem ofMembers_ok {members : List (String × Value)} {request : Request}
    (h : ofMembers members = .ok request) :
    members.lookup "method" = some (.string request.method) := by
  obtain ⟨jsonrpc, -, h⟩ := Collections.bind_eq_ok.mp h
  obtain ⟨method, hmethod, h⟩ := Collections.bind_eq_ok.mp h
  cases h
  cases hm : members.lookup "method" with
  | none =>
      rw [hm] at hmethod
      cases hmethod
  | some v =>
      rw [hm] at hmethod
      rw [readString_ok hmethod]

theorem ofItems_ok {items : List Value} {request : Request} (h : ofItems items = .ok request) :
    RequestSequence (.array items) := by
  cases items with
  | nil => cases h
  | cons jsonrpc items =>
      cases items with
      | nil =>
          obtain ⟨version, -, h⟩ := Collections.bind_eq_ok.mp h
          cases h
      | cons method rest =>
          obtain ⟨version, hversion, h⟩ := Collections.bind_eq_ok.mp h
          obtain ⟨name, hname, h⟩ := Collections.bind_eq_ok.mp h
          have hlength : rest.length ≤ 1 := by
            cases rest with
            | nil => simp
            | cons params rest =>
                cases rest with
                | nil => simp
                | cons _ _ => cases h
          rw [readString_ok hname]
          exact ⟨jsonrpc, name, rest, rfl, hlength, readOptionString_ok hversion⟩

theorem fromValue_ok {v : Value} {request : Request} (h : fromValue v = .ok request) :
    RequestObject v ∨ RequestSequence v := by
  cases v with
  | object members => exact .inl ⟨members, _, rfl, ofMembers_ok h⟩
  | array items => exact .inr (ofItems_ok h)
  | _ => cases h

theorem fromValue_sequence {v : Value} (h : RequestSequence v) :
    ∃ request, fromValue v = .ok request := by
  obtain ⟨jsonrpc, method, rest, rfl, hlength, hjsonrpc⟩ := h
  have hversion : ∃ o, readOptionString jsonrpc = .ok o := by
    cases hjsonrpc with
    | inl hnull => exact ⟨none, by rw [hnull]; rfl⟩
    | inr hstring =>
        obtain ⟨version, rfl⟩ := hstring
        exact ⟨some version, rfl⟩
  obtain ⟨version, hversion⟩ := hversion
  cases rest with
  | nil =>
      simp only [fromValue, ofItems, hversion]
      exact ⟨⟨version, method, .null⟩, rfl⟩
  | cons params rest =>
      cases rest with
      | nil =>
          simp only [fromValue, ofItems, hversion]
          exact ⟨⟨version, method, params⟩, rfl⟩
      | cons _ _ => simp at hlength

end Request

theorem rejected_of_error {proxy : Bool} {v : Value} {err : String}
    (h : Request.fromValue v = .error err) : Rejected proxy v :=
  ⟨"invalid request: " ++ err, by simp only [handleRequestValue, h]⟩

theorem bind_ne_done {α β : Type} {t : Task Server α} {f : α → Task Server β} {b : β}
    (hf : ∀ a b, f a ≠ .done b) : t.bind f ≠ .done b := by
  cases t with
  | done a => exact hf a b
  | perform op next => intro h; cases h

/-- A request that decodes is counted, whatever comes of it. -/
theorem not_rejected_of_ok {proxy : Bool} {v : Value} {request : Request}
    (h : Request.fromValue v = .ok request) : ¬ Rejected proxy v := by
  rintro ⟨message, hdone⟩
  simp only [handleRequestValue, h] at hdone
  refine bind_ne_done ?_ hdone
  intro response out
  split <;> (intro h; cases h)

/-- A request is rejected, an object with a method, or an array of fields. -/
theorem rejected_iff {proxy : Bool} {v : Value} (h : ¬ RequestObject v) :
    Rejected proxy v ↔ ¬ RequestSequence v := by
  constructor
  · intro hrejected hsequence
    obtain ⟨request, hok⟩ := Request.fromValue_sequence hsequence
    exact not_rejected_of_ok hok hrejected
  · intro hsequence
    cases hv : Request.fromValue v with
    | error err => exact rejected_of_error hv
    | ok request =>
        cases Request.fromValue_ok hv with
        | inl hobject => exact absurd hobject h
        | inr hseq => exact absurd hseq hsequence

theorem RequestSequence.not_object {v : Value} (h : RequestSequence v) : ¬ RequestObject v := by
  rintro ⟨members, method, rfl, -⟩
  obtain ⟨_, _, _, hv, -⟩ := h
  cases hv

/-- A payload runs its requests in order, and only its request objects are
executed exactly when none of its requests is an array of the fields of one. -/
theorem only_request_objects_iff (proxy : Bool) (payload : Value) :
    (handlePayload proxy payload =
      (Task.each (handleRequestValue proxy) (requestsOf payload)).bind fun outs =>
        .done (replyOf payload outs)) ∧
    (OnlyRequestObjects proxy payload ↔ ∀ v ∈ requestsOf payload, ¬ RequestSequence v) := by
  refine ⟨handlePayload_eq proxy payload, ?_, ?_⟩
  · intro honly v hv hsequence
    cases honly v hv with
    | inl hobject => exact hsequence.not_object hobject
    | inr hrejected => exact (rejected_iff hsequence.not_object).mp hrejected hsequence
  · intro hnone v hv
    by_cases hobject : RequestObject v
    · exact .inl hobject
    · exact .inr ((rejected_iff hobject).mpr (hnone v hv))

def pauseSequence : Value := .array [.string "2.0", .string "conductor_pause"]

/-- An array inside a batch pauses the conductor. -/
theorem sequence_element_pauses :
    ¬ RequestObject pauseSequence ∧ ¬ OnlyRequestObjects false (.array [pauseSequence]) ∧
      ∃ reply s', Runs alone (handlePayload false (.array [pauseSequence])) started reply s' ∧
        isPaused (reply, s') = true := by
  have hsequence : RequestSequence pauseSequence :=
    ⟨.string "2.0", "conductor_pause", [], rfl, by simp, .inr ⟨"2.0", rfl⟩⟩
  refine ⟨hsequence.not_object, ?_, runs_of_execute (x := ()) (by decide +kernel)⟩
  intro honly
  cases honly pauseSequence List.mem_cons_self with
  | inl hobject => exact hsequence.not_object hobject
  | inr hrejected => exact (rejected_iff hsequence.not_object).mp hrejected hsequence

end ConductorRs.Rpc

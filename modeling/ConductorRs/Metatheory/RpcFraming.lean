import ConductorRs.Concurrency.Sequential
import ConductorRs.Core.ConductorMemory
import ConductorRs.Core.RpcServer
import Mathlib.Data.List.ReduceOption

/-!
Framing of JSON-RPC payloads.

A payload is a list of requests: the elements of an array, or itself. Its task
is the tasks of its requests one after the other, so whatever is known of one
request is known of a batch by induction over it.
-/
namespace ConductorRs.Rpc
open Concurrency

/-- No reply at all when every request was a notification. -/
def batchReply (responses : List Value) : Option Value :=
  if responses.isEmpty then none else some (.array responses)

theorem handleBatch_eq (proxy : Bool) (requests responses : List Value) :
    handleBatch proxy requests responses =
      (Task.each (handleRequestValue proxy) requests).bind fun outs =>
        .done (responses ++ outs.reduceOption) := by
  induction requests generalizing responses with
  | nil =>
      change Task.done responses = Task.done (responses ++ [])
      rw [List.append_nil]
  | cons request requests ih =>
      simp only [handleBatch, Task.each, Task.bind_bind]
      apply congrArg ((handleRequestValue proxy request).bind ·)
      funext out
      cases out with
      | none =>
          simp only [ih]
          rfl
      | some response =>
          simp only [ih, List.append_assoc]
          rfl

theorem handlePayload_array (proxy : Bool) {requests : List Value} (hne : requests ≠ []) :
    handlePayload proxy (.array requests) =
      (Task.each (handleRequestValue proxy) requests).bind fun outs =>
        .done (batchReply outs.reduceOption) := by
  cases requests with
  | nil => exact absurd rfl hne
  | cons request requests =>
      change (handleBatch proxy (request :: requests) []).bind _ = _
      rw [handleBatch_eq, Task.bind_bind]
      apply congrArg ((Task.each (handleRequestValue proxy) (request :: requests)).bind ·)
      funext outs
      simp only [List.nil_append, batchReply]
      cases outs.reduceOption <;> rfl

theorem handlePayload_single (proxy : Bool) {v : Value} (h : ∀ items, v ≠ .array items) :
    handlePayload proxy v = handleRequestValue proxy v := by
  cases v with
  | array items => exact absurd rfl (h items)
  | _ => rfl

/-- A request that gets no response: an object that decodes and has no id. -/
def Silent (v : Value) : Prop :=
  (∃ members, v = .object members ∧ members.lookup "id" = none) ∧
    ∃ request, Request.fromValue v = .ok request

structure Answers (request response : Value) : Prop where
  jsonrpc : response.get "jsonrpc" = some (.string "2.0")
  id : response.get "id" = some ((request.get "id").getD .null)
  one : (response.get "result").isSome ≠ (response.get "error").isSome

def Framed (request : Value) : Option Value → Prop
  | none => Silent request
  | some response => ¬ Silent request ∧ Answers request response

/-- The code of an error response. -/
def responseCode (response : Value) : Option Value := (response.get "error").bind (Value.get "code")

theorem isNotification_iff (v : Value) :
    isNotification v = true ↔ ∃ members, v = .object members ∧ members.lookup "id" = none := by
  cases v <;> simp [isNotification]

theorem responseValue_answers (request : Value) (response : Except RpcError Value) :
    Answers request (responseValue (request.get "id") response) := by
  cases response <;> constructor <;>
    simp [responseValue, Response.toValue, Value.get, List.lookup_cons]

section
variable {State Choice : Type}
variable {perform : State → (op : Server.Op) → Choice → Option (Server.Reply op × State)}

theorem handleRequestValue_framed {proxy : Bool} {v : Value} {s s' : State} {out : Option Value}
    (h : Runs perform (handleRequestValue proxy v) s out s') : Framed v out := by
  simp only [handleRequestValue] at h
  cases hv : Request.fromValue v with
  | error err =>
      rw [hv] at h
      cases h
      refine ⟨?_, responseValue_answers v _⟩
      rintro ⟨-, request, hreq⟩
      rw [hv] at hreq
      cases hreq
  | ok request =>
      rw [hv] at h
      obtain ⟨response, s₁, -, h⟩ := h.of_bind
      cases hn : isNotification v with
      | true =>
          rw [if_pos hn] at h
          obtain ⟨_, s₂, -, h⟩ := h.of_bind
          cases h
          exact ⟨(isNotification_iff v).mp hn, request, hv⟩
      | false =>
          rw [if_neg (by simp [hn])] at h
          obtain ⟨_, s₂, -, h⟩ := h.of_bind
          cases h
          refine ⟨fun hs => ?_, responseValue_answers v _⟩
          rw [(isNotification_iff v).mpr hs.1] at hn
          cases hn

theorem framed_each {proxy : Bool} {requests : List Value} {s s' : State}
    {outs : List (Option Value)}
    (h : RunsEach perform (handleRequestValue proxy) requests s outs s') :
    List.Forall₂ Framed requests outs := by
  induction h with
  | nil s => exact .nil
  | cons hx _ ih => exact .cons (handleRequestValue_framed hx) ih

theorem runs_payload_array {proxy : Bool} {requests : List Value} (hne : requests ≠ [])
    {s s' : State} {reply : Option Value} :
    Runs perform (handlePayload proxy (.array requests)) s reply s' ↔
      ∃ outs, RunsEach perform (handleRequestValue proxy) requests s outs s' ∧
        reply = batchReply outs.reduceOption := by
  rw [handlePayload_array proxy hne]
  constructor
  · intro h
    obtain ⟨outs, s₁, hruns, h⟩ := h.of_bind
    cases h
    exact ⟨outs, runs_each_iff.mp hruns, rfl⟩
  · rintro ⟨outs, hruns, rfl⟩
    exact (runs_each_iff.mpr hruns).bind (.done _ _)

/-- The elements of a batch are run by themselves in order, and their responses
make up the reply. -/
def OneByOne (perform : State → (op : Server.Op) → Choice → Option (Server.Reply op × State))
    (handle : Value → Task Server (Option Value)) (requests : List Value) (s : State)
    (reply : Option Value) (s' : State) : Prop :=
  ∃ outs, RunsEach perform handle requests s outs s' ∧ List.Forall₂ Framed requests outs ∧
    reply = batchReply outs.reduceOption

/-- An error response to something that has no id. -/
def Refusal (code : Int) (response : Value) : Prop :=
  Answers .null response ∧ responseCode response = some (ofInt code)

theorem refusal_of_error (error : RpcError) :
    Refusal error.code (responseValue none (.error error)) :=
  ⟨responseValue_answers .null (.error error), rfl⟩

theorem runsEach_single {proxy : Bool} {requests : List Value}
    (h : ∀ v ∈ requests, ∀ items, v ≠ .array items) {s s' : State} {outs : List (Option Value)} :
    RunsEach perform (handlePayload proxy) requests s outs s' ↔
      RunsEach perform (handleRequestValue proxy) requests s outs s' := by
  induction requests generalizing s outs with
  | nil => constructor <;> (intro hruns; cases hruns; exact .nil _)
  | cons request requests ih =>
      have hfirst := handlePayload_single proxy (h request List.mem_cons_self)
      have hrest := fun v hv => h v (List.mem_cons_of_mem request hv)
      constructor
      · intro hruns
        cases hruns with
        | cons hx hxs => exact .cons (hfirst ▸ hx) ((ih hrest).mp hxs)
      · intro hruns
        cases hruns with
        | cons hx hxs => exact .cons (hfirst ▸ hx) ((ih hrest).mpr hxs)

/-- Batches, the empty batch and bytes that are no JSON. An element that is an
array is one request of its batch; sent alone it would be a batch. -/
theorem batch_framing
    (perform : State → (op : Server.Op) → Choice → Option (Server.Reply op × State))
    (proxy : Bool) (requests : List Value) (hne : requests ≠ []) (s s' : State)
    (reply : Option Value) :
    (Runs perform (handlePayload proxy (.array requests)) s reply s' ↔
      OneByOne perform (handleRequestValue proxy) requests s reply s') ∧
    ((∀ v ∈ requests, ∀ items, v ≠ .array items) →
      (Runs perform (handlePayload proxy (.array requests)) s reply s' ↔
        OneByOne perform (handlePayload proxy) requests s reply s')) ∧
    (∃ response, handlePayload proxy (.array []) = .done (some response) ∧
      Refusal (-32600) response) ∧
    ∀ fromSlice body err, fromSlice body = .error err →
      ∃ response, handleBytes fromSlice proxy body = .done (some response) ∧
        Refusal (-32700) response := by
  have hbatch : Runs perform (handlePayload proxy (.array requests)) s reply s' ↔
      OneByOne perform (handleRequestValue proxy) requests s reply s' := by
    rw [runs_payload_array hne]
    constructor
    · rintro ⟨outs, hruns, hreply⟩
      exact ⟨outs, hruns, framed_each hruns, hreply⟩
    · rintro ⟨outs, hruns, -, hreply⟩
      exact ⟨outs, hruns, hreply⟩
  refine ⟨hbatch, fun hflat => ?_, ⟨_, rfl, refusal_of_error _⟩, ?_⟩
  · rw [hbatch]
    simp only [OneByOne, runsEach_single hflat]
  · intro fromSlice body err herr
    refine ⟨responseValue none (.error (parseError ("parse error: " ++ err))), ?_,
      refusal_of_error _⟩
    simp only [handleBytes, herr]

end

/-- The memory of a conductor answers; what lies outside refuses. -/
def alone (m : Conductor.Memory Unit) : (op : Server.Op) → Unit →
    Option (Server.Reply op × Conductor.Memory Unit)
  | .inl o, _ => if o.external then some (Conductor.Oracle.refuse o, m) else m.perform () o
  | .inr .loadLeaderOverride, _ => some (false, m)
  | .inr (.storeLeaderOverride _), _ => some ((), m)
  | .inr .leaderWithId, _ => some (⟨"", "", .voter⟩, m)
  | .inr (.changeMembership _), _ => some (.error .notLeader, m)
  | .inr (.commitUnsafePayload _), _ => some (.error .notLeader, m)
  | .inr (.backend _ _ _), _ => some (.error .missingResult, m)
  | .inr (.recordNotification _), _ => some ((), m)
  | .inr (.recordRequest _ _ _ _), _ => some ((), m)

def started : Conductor.Memory Unit := .new .default true

def pauseRequest : Value :=
  .object [("id", .number (.posInt 1)), ("jsonrpc", .string "2.0"),
    ("method", .string "conductor_pause")]

def pauseNotification : Value :=
  .object [("jsonrpc", .string "2.0"), ("method", .string "conductor_pause")]

def isPaused (r : Option Value × Conductor.Memory Unit) : Bool := r.2.flags .paused

def pausedRequest : Value :=
  .object [("id", .number (.posInt 1)), ("jsonrpc", .string "2.0"),
    ("method", .string "conductor_paused")]

/-- A notification, a request and a value that is no request. -/
def mixedBatch : List Value := [pauseNotification, pausedRequest, .null]

def mixedReply : String :=
  "[\x7b\"id\":1,\"jsonrpc\":\"2.0\",\"result\":true\x7d," ++
    "\x7b\"error\":\x7b\"code\":-32600,\"message\":" ++
    "\"invalid request: invalid type: null, expected struct Request\"\x7d," ++
    "\"id\":null,\"jsonrpc\":\"2.0\"\x7d]"

def repliesMixed (r : Option Value × Conductor.Memory Unit) : Bool :=
  r.2.flags .paused && r.1.map Value.render == some mixedReply

/-- The notification pauses and has no answer, the request after it is answered with
the pause, and the rest with a refusal. -/
theorem mixed_batch_framing : ∃ reply s',
    Runs alone (handlePayload false (.array mixedBatch)) started reply s' ∧
      OneByOne alone (handlePayload false) mixedBatch started reply s' ∧
      s'.flags .paused = true ∧ reply.map Value.render = some mixedReply := by
  have hrun : ∃ reply s', Runs alone (handlePayload false (.array mixedBatch)) started
      reply s' ∧ repliesMixed (reply, s') = true :=
    runs_of_execute (x := ()) (by decide +kernel)
  obtain ⟨reply, s', hrun, hreply⟩ := hrun
  obtain ⟨hpaused, htext⟩ := Bool.and_eq_true_iff.mp hreply
  have hframing := batch_framing alone false mixedBatch (List.cons_ne_nil _ _) started s' reply
  refine ⟨reply, s', hrun, (hframing.2.1 ?_).mp hrun, hpaused, beq_iff_eq.mp htext⟩
  intro v hv items h
  simp only [mixedBatch, List.mem_cons, List.not_mem_nil, or_false] at hv
  rcases hv with rfl | rfl | rfl <;> cases h

/-- A batch inside a batch is refused as one request; sent alone it runs. -/
theorem nested_batch_not_unpacked :
    (∀ reply s', Runs alone (handlePayload false (.array [.array [pauseRequest]])) started
      reply s' → isPaused (reply, s') = false) ∧
    ∃ reply s', Runs alone (handlePayload false (.array [pauseRequest])) started reply s' ∧
      isPaused (reply, s') = true := by
  refine ⟨fun reply s' h => ?_, runs_of_execute (x := ()) (by decide +kernel)⟩
  obtain ⟨outs, hruns, -⟩ := (runs_payload_array (by simp)).mp h
  cases hruns with
  | cons hx hxs =>
      cases hxs
      cases hx
      rfl

end ConductorRs.Rpc

import ConductorRs.Core.RpcClient
import ConductorRs.Metatheory.RpcFraming

/-!
A call of the client, answered by the server.

The request the client writes is the request the server dispatches, and the
response the server writes is the outcome the client reads, so a call over the
wire is the dispatch of its method with the outcome passed through the error
format.
-/
namespace ConductorRs.Rpc
open Concurrency

def I64 (i : Int) : Prop := -9223372036854775808 ≤ i ∧ i ≤ 9223372036854775807

theorem i64_of_asI64 {v : Value} {i : Int} (h : v.asI64 = some i) : I64 i := by
  cases v with
  | number n =>
      obtain ⟨-, hi⟩ := Option.filter_eq_some_iff.mp h
      have hbounds := of_decide_eq_true hi
      exact hbounds
  | _ => cases h

theorem asI64_ofInt {i : Int} (h : I64 i) : (ofInt i).asI64 = some i := by
  have hasInt : ∃ n, ofInt i = .number n ∧ n.asInt = some i := by
    cases i with
    | ofNat n =>
        have hn : (UInt64.ofNat n).toNat = n := by
          have hle : (n : Int) ≤ 9223372036854775807 := h.2
          exact UInt64.toNat_ofNat_of_lt' (by change n < 18446744073709551616; omega)
        refine ⟨_, rfl, ?_⟩
        change some (((UInt64.ofNat n).toNat : Nat) : Int) = some (n : Int)
        rw [hn]
    | negSucc n =>
        have hn : n % 9223372036854775808 = n := by
          have hle : -9223372036854775808 ≤ Int.negSucc n := h.1
          exact Nat.mod_eq_of_lt (by omega)
        refine ⟨_, rfl, ?_⟩
        change some (Int.negSucc (n % 9223372036854775808)) = some (Int.negSucc n)
        rw [hn]
  obtain ⟨n, hof, hn⟩ := hasInt
  have hbounds : -9223372036854775808 ≤ i ∧ i ≤ 9223372036854775807 := h
  rw [hof]
  exact Option.filter_eq_some_iff.mpr ⟨hn, decide_eq_true hbounds⟩

/-- What the client reads of an outcome of the server. -/
def overWire : Except RpcError Value → Except RpcClientError Value
  | .ok result => .ok result
  | .error error => .error (readError error.toValue)

theorem readError_toValue {error : RpcError} (h : I64 error.code) :
    readError error.toValue = .jsonRpc error.code error.message none := by
  have hcode : ((error.toValue.get "code").bind Value.asI64) = some error.code := asI64_ofInt h
  rw [readError, hcode]
  rfl

theorem i64_of_readError (err : Value) :
    ∃ code message data, readError err = .jsonRpc code message data ∧ I64 code := by
  refine ⟨_, _, _, rfl, ?_⟩
  cases hcode : (err.get "code").bind Value.asI64 with
  | none => exact ⟨by decide, by decide⟩
  | some code =>
      obtain ⟨v, -, hv⟩ := Option.bind_eq_some_iff.mp hcode
      exact i64_of_asI64 hv

theorem readResponse_responseValue (id : UInt64) (outcome : Except RpcError Value) :
    readResponse id (responseValue (some (.number (.posInt id))) outcome) = overWire outcome := by
  have hid : checkId id (some (.number (.posInt id))) = .ok () := if_pos rfl
  cases outcome with
  | ok result =>
      simp only [readResponse, responseValue, Response.toValue]
      change (checkId id (some (.number (.posInt id)))).bind _ = _
      rw [hid]
      rfl
  | error error =>
      simp only [readResponse, responseValue, Response.toValue]
      change (checkId id (some (.number (.posInt id)))).bind _ = _
      rw [hid]
      rfl

theorem handlePayload_requestValue (proxy : Bool) (id : UInt64) (method : String)
    (params : Value) :
    handlePayload proxy (requestValue id method params) =
      (dispatch proxy ⟨some "2.0", method, params⟩).run.bind fun outcome =>
        (server (.recordRequest method (encodedSize params) (errorCode outcome)
          (resultSize outcome))).bind fun _ =>
        .done (some (responseValue (some (.number (.posInt id))) outcome)) :=
  rfl

/-- A client in front of a conductor: its requests are the payloads of the server,
and a response without a body is an error of the HTTP client. -/
def remote (proxy : Bool) (id : UInt64) (noContent : String) :
    (op : HttpOp Unit) → Task Server op.Reply
  | .fetchAddNextId _ => .done id
  | .post _ request => (handlePayload proxy request).bind fun response =>
      .done (response.elim (.error noContent) .ok)

theorem interp_remote {α : Type} (decode : Value → Except String α) (proxy : Bool)
    (id : UInt64) (noContent method : String) (params : Value) :
    (call decode () method params).interp (remote proxy id noContent) =
      (dispatch proxy ⟨some "2.0", method, params⟩).run.bind fun outcome =>
        (server (.recordRequest method (encodedSize params) (errorCode outcome)
          (resultSize outcome))).bind fun _ =>
        .done ((overWire outcome).bind (decodeResult decode)) := by
  have hposted : ∀ k : Except String Value → Task Server (Except RpcClientError α),
      (remote proxy id noContent (.post () (requestValue id method params))).bind k =
        (dispatch proxy ⟨some "2.0", method, params⟩).run.bind fun outcome =>
          (server (.recordRequest method (encodedSize params) (errorCode outcome)
            (resultSize outcome))).bind fun _ =>
          k (.ok (responseValue (some (.number (.posInt id))) outcome)) := by
    intro k
    simp only [remote, handlePayload_requestValue, Task.bind_bind]
    rfl
  refine (hposted _).trans ?_
  apply congrArg ((dispatch proxy ⟨some "2.0", method, params⟩).run.bind ·)
  funext outcome
  rw [← readResponse_responseValue id outcome]
  rfl

/-- A call over the wire is the dispatch of its method, counted once, with its
outcome passed through the format of a response. Errors arrive with their code
and their text. -/
theorem remote_call_is_dispatch {α : Type} (decode : Value → Except String α) (proxy : Bool)
    (id : UInt64) (noContent method : String) (params : Value) :
    (call decode () method params).interp (remote proxy id noContent) =
      ((dispatch proxy ⟨some "2.0", method, params⟩).run.bind fun outcome =>
        (server (.recordRequest method (encodedSize params) (errorCode outcome)
          (resultSize outcome))).bind fun _ =>
        .done ((overWire outcome).bind (decodeResult decode))) ∧
    ∀ error : RpcError, I64 error.code →
      overWire (.error error) = .error (.jsonRpc error.code error.message none) :=
  ⟨interp_remote decode proxy id noContent method params,
    fun _ h => congrArg Except.error (readError_toValue h)⟩

theorem method_not_found_over_wire :
    overWire (.error methodNotFound) = .error (.jsonRpc (-32601) "method not found" none) :=
  (remote_call_is_dispatch Except.ok false 1 "no content" "conductor_uptime" .null).2
    methodNotFound ⟨by decide, by decide⟩

end ConductorRs.Rpc

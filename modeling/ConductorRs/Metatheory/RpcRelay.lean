import ConductorRs.Metatheory.ProxyParams
import ConductorRs.Metatheory.RpcWire

/-!
Proxied calls, from the caller to the backend and back.

A proxied method is routed to one of two backends with its parameters checked and
rewritten. The answer crosses two wires and is the same at the end: a result is
passed on unchanged by a leader, an error of the backend keeps its code and its
text and loses its data, and whatever else goes wrong between the conductor and
its backend is reported as an error of the conductor.
-/
namespace ConductorRs.Rpc
open Concurrency

structure Route where
  target : ProxyTarget
  check : Value → Except RpcError Value
  leaderOnly : Bool

def withoutParams (params : Value) : Except RpcError Value := do
  noParams params
  return .array []

def routes : String → Option Route
  | "eth_getBlockByNumber" => some ⟨.execution, ethGetBlockByNumberProxyParams, true⟩
  | "miner_setMaxDASize" => some ⟨.execution, minerSetMaxDaSizeProxyParams, false⟩
  | "optimism_syncStatus" => some ⟨.node, withoutParams, true⟩
  | "optimism_outputAtBlock" => some ⟨.node, outputAtBlockProxyParams, true⟩
  | "optimism_rollupConfig" => some ⟨.node, withoutParams, true⟩
  | "admin_sequencerActive" => some ⟨.node, withoutParams, true⟩
  | _ => none

theorem withoutParams_forwards : Forwards [] withoutParams := by
  intro params out
  constructor
  · intro h
    obtain ⟨⟨⟩, hnone, hout⟩ := Collections.bind_eq_ok.mp h
    cases hout
    obtain ⟨items, hitems, hempty⟩ := Collections.bind_eq_ok.mp hnone
    cases items with
    | nil => exact ⟨[], [], arrayParams_ok.mp hitems, .nil, rfl⟩
    | cons _ _ => cases hempty
  · rintro ⟨items, outs, hitems, hpass, rfl⟩
    cases hpass
    simp only [withoutParams, noParams, arrayParams_ok.mpr hitems]
    rfl

theorem routes_forward {method : String} {route : Route} (h : routes method = some route) :
    ∃ forms, Forwards forms route.check := by
  unfold routes at h
  split at h
  case h_7 => cases h
  all_goals cases h
  · exact ⟨_, ethGetBlockByNumberProxyParams_forwards⟩
  · exact ⟨_, minerSetMaxDaSizeProxyParams_forwards⟩
  · exact ⟨_, withoutParams_forwards⟩
  · exact ⟨_, outputAtBlockProxyParams_forwards⟩
  · exact ⟨_, withoutParams_forwards⟩
  · exact ⟨_, withoutParams_forwards⟩

/-- The handler of a route, once its parameters are checked. -/
def Route.handler (route : Route) (method : String) (sent : Value) : Handler Value :=
  if route.leaderOnly then proxyToLeader true route.target method sent
  else proxyToBackend true route.target method sent

theorem query_route (method : String) (params : Value) :
    (Handler.check (noParams params) >>= fun _ =>
        proxyToLeader true .node method (.array [])).run =
      (Handler.check (withoutParams params) >>=
        Route.handler ⟨.node, withoutParams, true⟩ method).run := by
  unfold withoutParams
  cases noParams params with
  | error e => rfl
  | ok u => rfl

theorem dispatch_route {method : String} {route : Route} (h : routes method = some route)
    (params : Value) :
    (dispatch true ⟨some "2.0", method, params⟩).run =
      (Handler.check (route.check params) >>= route.handler method).run := by
  unfold routes at h
  split at h
  case h_7 => cases h
  all_goals cases h
  · rfl
  · rfl
  · exact query_route _ params
  · rfl
  · exact query_route _ params
  · exact query_route _ params

@[reducible] def Relaying : Interface := Server.sum (Http ProxyTarget)

def ask (target : ProxyTarget) (method : String) (params : Value) :
    Task Relaying (Except RpcClientError Value) :=
  (call Except.ok target method params).interp fun o => Task.call (E := Relaying) (.inr o)

/-- The proxy calls its backends with clients of its own. -/
def backends : (op : Server.Op) → Task Relaying (Server.Reply op)
  | .inr (.backend target method params) => ask target method params
  | op => Task.call (E := Relaying) (.inl op)

/-- What the server answers, given the answer of the backend. -/
def proxied (isLeader : Bool) (answer : Except RpcClientError Value) : Except RpcError Value :=
  match answer with
  | .ok result =>
      if isLeader then .ok result
      else .error (internal "refusing to proxy request to non-leader sequencer")
  | .error error => .error (proxyError error)

/-- What the caller reads, given the answer of the backend. -/
def relayed (isLeader : Bool) : Except RpcClientError Value → Except RpcClientError Value
  | .ok result =>
      if isLeader then .ok result
      else .error (.jsonRpc (-32000) "refusing to proxy request to non-leader sequencer" none)
  | .error (.jsonRpc code message _) => .error (.jsonRpc code message none)
  | .error other => .error (.jsonRpc (-32000) other.display none)

/-- Leadership is asked for once there is a result to pass on. -/
def Route.leads (route : Route) : Except RpcClientError Value → Task Relaying Bool
  | .ok _ => if route.leaderOnly then leader.interp backends else .done true
  | .error _ => .done true

/-- An answer with a code that fits the wire. -/
def Portable : Except RpcClientError Value → Prop
  | .error (.jsonRpc code _ _) => I64 code
  | _ => True

theorem checkId_cases (id : UInt64) (actual : Option Value) :
    checkId id actual = .ok () ∨
      ∃ message, checkId id actual = .error (.invalidResponse message) := by
  unfold checkId
  split
  · split
    · split
      · exact .inl rfl
      · exact .inr ⟨_, rfl⟩
    · exact .inr ⟨_, rfl⟩
  · exact .inr ⟨_, rfl⟩

theorem portable_readResponse (id : UInt64) (response : Value) :
    Portable ((readResponse id response).bind (decodeResult Except.ok)) := by
  unfold readResponse
  by_cases hversion : (response.get "jsonrpc").bind Value.asStr ≠ some "2.0"
  · rw [if_pos hversion]
    trivial
  · rw [if_neg hversion]
    rcases checkId_cases id (response.get "id") with hid | ⟨message, hid⟩
    · simp only [hid]
      cases response.get "error" with
      | some err =>
          obtain ⟨code, message, data, heq, hcode⟩ := i64_of_readError err
          change Portable (.error (readError err))
          rw [heq]
          exact hcode
      | none =>
          cases response.get "result" with
          | some result => trivial
          | none => trivial
    · simp only [hid]
      trivial

/-- Only portable answers come out of a call. -/
theorem ask_congr {α : Type} {f g : Except RpcClientError Value → Task Relaying α}
    (h : ∀ answer, Portable answer → f answer = g answer) (target : ProxyTarget)
    (method : String) (params : Value) :
    (ask target method params).bind f = (ask target method params).bind g := by
  refine congrArg (Task.perform _) (funext fun id => congrArg (Task.perform _) (funext ?_))
  intro reply
  cases reply with
  | error err => exact h (.error (.http err)) trivial
  | ok response => exact h _ (portable_readResponse id response)

theorem i64_internal (message : String) : I64 (internal message).code := by
  have hcode : I64 (-32000) := ⟨by decide, by decide⟩
  exact hcode

theorem overWire_proxied (isLeader : Bool) {answer : Except RpcClientError Value}
    (h : Portable answer) : overWire (proxied isLeader answer) = relayed isLeader answer := by
  have hinternal : ∀ message,
      overWire (.error (internal message)) = .error (.jsonRpc (-32000) message none) :=
    fun message => congrArg Except.error (readError_toValue (i64_internal message))
  cases answer with
  | ok result =>
      cases isLeader with
      | true => rfl
      | false => exact hinternal _
  | error error =>
      cases error with
      | jsonRpc code message data => exact congrArg Except.error (readError_toValue h)
      | http _ | missingResult | invalidResponse _ | type _ => exact hinternal _

theorem server_interp {α : Type} (o : ServerOp) (k : o.Reply → Task Server α) :
    ((server o).bind k).interp backends =
      (backends (.inr o)).bind fun r => (k r).interp backends :=
  rfl

theorem proxyToBackend_interp (target : ProxyTarget) (method : String) {sent : Value}
    (hsent : normalizeProxyParams sent = sent) :
    (proxyToBackend true target method sent).run.interp backends =
      (ask target method sent).bind fun answer => .done (answer.mapError proxyError) := by
  refine (server_interp (.backend target method (normalizeProxyParams sent)) fun answer =>
    .done (answer.mapError proxyError)).trans ?_
  rw [hsent]
  rfl

/-- The rest of `proxy_to_leader`, once the backend has answered. -/
theorem leader_check (result : Value) :
    ((ExceptT.lift leader : Handler Bool) >>= fun isLeader => do
        if !isLeader then
          throw (internal "refusing to proxy request to non-leader sequencer")
        return result).run =
      leader.bind fun isLeader => .done (proxied isLeader (.ok result)) := by
  refine (Task.bind_bind leader _ _).trans ?_
  apply congrArg (leader.bind ·)
  funext isLeader
  cases isLeader with
  | true => rfl
  | false => rfl

theorem handler_interp (route : Route) (method : String) {sent : Value}
    (hsent : normalizeProxyParams sent = sent) :
    (route.handler method sent).run.interp backends =
      (ask route.target method sent).bind fun answer =>
        (route.leads answer).bind fun isLeader => .done (proxied isLeader answer) := by
  unfold Route.handler
  cases hleader : route.leaderOnly with
  | false =>
      rw [if_neg Bool.false_ne_true, proxyToBackend_interp _ _ hsent]
      apply congrArg ((ask route.target method sent).bind ·)
      funext answer
      cases answer with
      | ok result => simp only [Route.leads, hleader, Bool.false_eq_true, if_false]; rfl
      | error error => rfl
  | true =>
      rw [if_pos rfl]
      refine (Task.interp_bind backends (proxyToBackend true route.target method sent).run
        _).trans ?_
      rw [proxyToBackend_interp _ _ hsent, Task.bind_bind]
      apply congrArg ((ask route.target method sent).bind ·)
      funext answer
      cases answer with
      | ok result =>
          simp only [Route.leads, hleader, if_true]
          refine Eq.trans (congrArg (Task.interp backends) (leader_check result)) ?_
          exact Task.interp_bind backends leader _
      | error error => rfl

/-- A proxied call reaches its backend with parameters of the same meaning, and the
caller reads the answer of the backend as `relayed` describes it. -/
theorem proxied_call_is_relayed {α : Type} (decode : Value → Except String α) (id : UInt64)
    (noContent : String) {method : String} {route : Route} (hroute : routes method = some route)
    {params sent : Value} (hsent : route.check params = .ok sent) :
    SameParams params sent ∧
    ((call decode () method params).interp (remote true id noContent)).interp backends =
      (ask route.target method sent).bind fun answer =>
        (route.leads answer).bind fun isLeader =>
        (Task.call (E := Relaying) (.inl (.inr (.recordRequest method (encodedSize params)
          (errorCode (proxied isLeader answer)) (resultSize (proxied isLeader answer)))))).bind
          fun _ => .done ((relayed isLeader answer).bind (decodeResult decode)) := by
  obtain ⟨forms, hforwards⟩ := routes_forward hroute
  have hsame := hforwards.same hsent
  refine ⟨hsame, ?_⟩
  have hnormal : normalizeProxyParams sent = sent := by
    obtain ⟨items, outs, -, rfl, -⟩ := hsame
    rfl
  have hdispatch : (dispatch true ⟨some "2.0", method, params⟩).run =
      (route.handler method sent).run := by
    rw [dispatch_route hroute, hsent]
    rfl
  rw [interp_remote, hdispatch, Task.interp_bind, handler_interp route method hnormal,
    Task.bind_bind]
  refine ask_congr (fun answer hanswer => ?_) _ _ _
  rw [Task.bind_bind]
  apply congrArg ((route.leads answer).bind ·)
  funext isLeader
  rw [← overWire_proxied isLeader hanswer]
  rfl

/-- A block number in capitals reaches the execution client in lower case. -/
theorem block_request_relayed :
    routes "eth_getBlockByNumber" = some ⟨.execution, ethGetBlockByNumberProxyParams, true⟩ ∧
    ethGetBlockByNumberProxyParams (.array [.string "0X2A", .bool false]) =
      .ok (.array [.string "0x2a", .bool false]) ∧
    SameParams (.array [.string "0X2A", .bool false]) (.array [.string "0x2a", .bool false]) := by
  have hroute : routes "eth_getBlockByNumber" =
      some ⟨.execution, ethGetBlockByNumberProxyParams, true⟩ := rfl
  have hsent : ethGetBlockByNumberProxyParams (.array [.string "0X2A", .bool false]) =
      .ok (.array [.string "0x2a", .bool false]) := rfl
  exact ⟨hroute, hsent, (proxied_call_is_relayed Except.ok 1 "no content" hroute hsent).1⟩

end ConductorRs.Rpc

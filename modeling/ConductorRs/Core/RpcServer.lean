import ConductorRs.Core.Conductor
import ConductorRs.Core.RpcRequest

/-!
The JSON-RPC server in front of the conductor. What a method does to the
conductor is the conductor's own task, lifted to the operations of the server;
the calls that only pass through to consensus, the leader override, the proxied
backends and the counters of the server are operations beside them. The time a
request took is not modelled.
-/
namespace ConductorRs.Rpc
open Concurrency

inductive ProxyTarget where
  | execution
  | node
deriving DecidableEq

inductive ServerOp where
  | loadLeaderOverride
  | storeLeaderOverride (overrideLeader : Bool)
  | leaderWithId
  | changeMembership (call : MembershipCall)
  | commitUnsafePayload (payload : PayloadEnvelope)
  | backend (target : ProxyTarget) (method : String) (params : Value)
  | recordNotification (method : String)
  | recordRequest (method : String) (paramsSize : Nat) (errorCode : Option Int)
      (resultSize : Option Nat)

@[reducible] def ServerOp.Reply : ServerOp → Type
  | .loadLeaderOverride => Bool
  | .leaderWithId => ServerInfo
  | .changeMembership _ | .commitUnsafePayload _ => Except ConsensusError Unit
  | .backend _ _ _ => Except RpcClientError Value
  | .storeLeaderOverride _ | .recordNotification _ | .recordRequest _ _ _ _ => Unit

@[reducible] def ServerOps : Interface where
  Op := ServerOp
  Reply := ServerOp.Reply

/-- What a request may do: run a task of the conductor, or an operation of the
server. -/
@[reducible] def Server : Interface := Conductor.Shared.sum ServerOps

def conductor {α : Type} (t : Task Conductor.Shared α) : Task Server α :=
  t.interp fun o => Task.call (E := Server) (.inl o)

def server (o : ServerOp) : Task Server o.Reply := Task.call (E := Server) (.inr o)

abbrev Handler := ExceptT RpcError (Task Server)

def Handler.check {α : Type} (r : Except RpcError α) : Handler α := ExceptT.mk (.done r)

/-- A call of the conductor whose error is printed. -/
def Handler.attempt (t : Task Server Conductor.Outcome) : Handler Value := ExceptT.mk do
  return ((← t).map fun _ => Value.null).mapError fun err => internal err.display

/-- A call that the conductor passes on to consensus. -/
def passOn (o : Task Server (Except ConsensusError Unit)) : Task Server Conductor.Outcome := do
  return (← o).mapError ConductorError.consensus

def leader : Task Server Bool := do
  if ← server .loadLeaderOverride then return true
  conductor (Conductor.op (.consensus .leader))

def leaderWithId : Task Server ServerInfo := do
  if ← server .loadLeaderOverride then
    return ⟨"N/A (Leader overridden)", "N/A", .voter⟩
  server .leaderWithId

def clusterMembership : Handler ClusterMembership := ExceptT.mk do
  let membership ← conductor (Conductor.op (.consensus .membership))
  return (membership.mapError ConductorError.consensus).mapError fun err => internal err.display

def suffrageValue : ServerSuffrage → Value
  | .voter => .number (.posInt 0)
  | .nonvoter => .number (.posInt 1)

def serverInfoValue (info : ServerInfo) : Value :=
  .object [("addr", .string info.addr), ("id", .string info.id),
    ("suffrage", suffrageValue info.suffrage)]

def clusterMembershipValue (membership : ClusterMembership) : Value :=
  .object [("servers", .array (membership.servers.map serverInfoValue)),
    ("version", .number (.posInt (UInt64.ofNat membership.version)))]

def cargoPkgVersion : String := "0.1.0"

def rpcModules (proxyEnabled : Bool) : Value :=
  let modules :=
    if proxyEnabled then ["admin", "conductor", "eth", "health", "miner", "optimism", "rpc"]
    else ["conductor", "health", "rpc"]
  .object (modules.map fun name => (name, .string "1.0"))

def isProxyMethod (method : String) : Bool :=
  method ∈ ["eth_getBlockByNumber", "miner_setMaxDASize", "optimism_syncStatus",
    "optimism_outputAtBlock", "optimism_rollupConfig", "admin_sequencerActive"]

def proxyToBackend (proxy : Bool) (target : ProxyTarget) (method : String) (params : Value) :
    Handler Value := do
  if !proxy then throw methodNotFound
  ExceptT.mk do
    return (← server (.backend target method (normalizeProxyParams params))).mapError proxyError

/-- The backend is asked first and leadership is read afterwards. -/
def proxyToLeader (proxy : Bool) (target : ProxyTarget) (method : String) (params : Value) :
    Handler Value := do
  let response ← proxyToBackend proxy target method params
  if !(← ExceptT.lift leader) then
    throw (internal "refusing to proxy request to non-leader sequencer")
  return response

/-- A method without parameters whose answer cannot fail. -/
def query (params : Value) (answer : Task Server Value) : Handler Value := do
  .check (noParams params)
  ExceptT.lift answer

/-- A method without parameters that is a call of the conductor. -/
def command (params : Value) (t : Task Server Conductor.Outcome) : Handler Value := do
  .check (noParams params)
  .attempt t

def dispatch (proxy : Bool) (request : Request) : Handler Value := do
  if request.jsonrpc ≠ some "2.0" then throw (invalidRequest "jsonrpc must be 2.0")
  if !proxy && isProxyMethod request.method then throw methodNotFound
  let params := request.params
  match request.method with
  | "rpc_modules" => query params (.done (rpcModules proxy))
  | "health_status" => query params (.done (.string cargoPkgVersion))
  | "conductor_leader" => query params do return .bool (← leader)
  | "conductor_leaderWithID" => query params do return serverInfoValue (← leaderWithId)
  | "conductor_leaderOverridden" =>
      query params do return .bool (← server .loadLeaderOverride)
  | "conductor_overrideLeader" =>
      let overrideLeader ← .check (boolParam params)
      ExceptT.lift (server (.storeLeaderOverride overrideLeader))
      return .null
  | "conductor_paused" =>
      query params do return .bool (← conductor (Conductor.op (.load .paused)))
  | "conductor_pause" => command params (conductor Conductor.pause)
  | "conductor_resume" => command params (conductor Conductor.resume)
  | "conductor_stopped" =>
      query params do return .bool (← conductor (Conductor.op (.load .stopped)))
  | "conductor_stop" => command params (conductor Conductor.stop)
  | "conductor_active" => query params do return .bool (← conductor Conductor.active)
  | "conductor_sequencerHealthy" =>
      query params do return .bool (← conductor (Conductor.op .cloneHealthy)).isHealthy
  | "conductor_clusterMembership" =>
      .check (noParams params)
      return clusterMembershipValue (← clusterMembership)
  | "conductor_transferLeader" => command params (conductor Conductor.transferLeader)
  | "conductor_transferLeaderToServer" =>
      let (id, addr) ← .check (stringStringParams params)
      .attempt (passOn (conductor (Conductor.op (.consensus (.transferLeaderTo id addr)))))
  | "conductor_addServerAsVoter" =>
      let (id, addr, version) ← .check (membershipChangeParams params)
      .attempt (passOn (server (.changeMembership (.addVoter id addr version))))
  | "conductor_addServerAsNonvoter" =>
      let (id, addr, version) ← .check (membershipChangeParams params)
      .attempt (passOn (server (.changeMembership (.addNonVoter id addr version))))
  | "conductor_removeServer" =>
      let (id, version) ← .check (idVersionParams params)
      .attempt (passOn (server (.changeMembership (.removeServer id version))))
  | "conductor_demoteVoter" =>
      let (id, version) ← .check (idVersionParams params)
      .attempt (passOn (server (.changeMembership (.demoteVoter id version))))
  | "conductor_commitUnsafePayload" =>
      let payload ← .check (unsafePayloadParam params)
      .attempt (passOn (server (.commitUnsafePayload payload)))
  | "eth_getBlockByNumber" =>
      let params ← .check (ethGetBlockByNumberProxyParams params)
      proxyToLeader proxy .execution "eth_getBlockByNumber" params
  | "miner_setMaxDASize" =>
      let params ← .check (minerSetMaxDaSizeProxyParams params)
      proxyToBackend proxy .execution "miner_setMaxDASize" params
  | "optimism_syncStatus" =>
      .check (noParams params)
      proxyToLeader proxy .node "optimism_syncStatus" (.array [])
  | "optimism_outputAtBlock" =>
      let params ← .check (outputAtBlockProxyParams params)
      proxyToLeader proxy .node "optimism_outputAtBlock" params
  | "optimism_rollupConfig" =>
      .check (noParams params)
      proxyToLeader proxy .node "optimism_rollupConfig" (.array [])
  | "admin_sequencerActive" =>
      .check (noParams params)
      proxyToLeader proxy .node "admin_sequencerActive" (.array [])
  | _ => throw methodNotFound

/-- An object without an id; other values are never notifications. -/
def isNotification : Value → Bool
  | .object members => (members.lookup "id").isNone
  | _ => false

/-- `serde_json::to_vec(..).len()`. -/
def encodedSize (v : Value) : Nat := v.render.utf8ByteSize

def errorCode : Except RpcError Value → Option Int
  | .ok _ => none
  | .error error => some error.code

def resultSize : Except RpcError Value → Option Nat
  | .ok result => some (encodedSize result)
  | .error _ => none

def handleRequestValue (proxy : Bool) (value : Value) : Task Server (Option Value) :=
  match Request.fromValue value with
  | .error err =>
      .done (some (responseValue (value.get "id")
        (.error (invalidRequest ("invalid request: " ++ err)))))
  | .ok request => do
      let response ← (dispatch proxy request).run
      if isNotification value then
        server (.recordNotification request.method)
        return none
      else
        server (.recordRequest request.method (encodedSize request.params)
          (errorCode response) (resultSize response))
        return some (responseValue (value.get "id") response)

/-- The loop over a batch, with the responses pushed so far. -/
def handleBatch (proxy : Bool) : List Value → List Value → Task Server (List Value)
  | [], responses => .done responses
  | request :: requests, responses => do
      match ← handleRequestValue proxy request with
      | some response => handleBatch proxy requests (responses ++ [response])
      | none => handleBatch proxy requests responses

def handlePayload (proxy : Bool) : Value → Task Server (Option Value)
  | .array [] =>
      .done (some (responseValue none
        (.error (invalidRequest "batch request must not be empty"))))
  | .array requests => do
      match ← handleBatch proxy requests [] with
      | [] => return none
      | responses => return some (.array responses)
  | request => handleRequestValue proxy request

/-- `fromSlice` is the parser of serde_json. -/
def handleBytes (fromSlice : List UInt8 → Except String Value) (proxy : Bool)
    (body : List UInt8) : Task Server (Option Value) :=
  match fromSlice body with
  | .ok payload => handlePayload proxy payload
  | .error err => .done (some (responseValue none (.error (parseError ("parse error: " ++ err)))))

end ConductorRs.Rpc

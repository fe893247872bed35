import ConductorRs.Core.RpcRequest
import ConductorRs.Core.Sequencer

/-!
The JSON-RPC client, and the typed clients of the rollup node and of the
execution client over it. A call takes an id from the counter of its client,
posts one request and reads the response. The counter and the HTTP exchange are
operations; everything that is read from a response is a function of its value.
-/
namespace ConductorRs

def Number.asInt : Number → Option Int
  | .posInt n => some n.toNat
  | .negInt n => some (.negSucc n)
  | .float _ => none

def Number.asI64 (n : Number) : Option Int :=
  n.asInt.filter fun i => -9223372036854775808 ≤ i ∧ i ≤ 9223372036854775807

def Value.asI64 : Value → Option Int
  | .number n => n.asI64
  | _ => none

/-- A member of a derived decoder: its names are one field, which is read once. -/
def readField {α : Type} (name : String) (read : Value → Except String α) (v : Value) :
    Option α → Except String (Option α)
  | some _ => .error ("duplicate field `" ++ name ++ "`")
  | none => (read v).map some

def requiredField {α : Type} (name : String) : Option α → Except String α
  | some a => .ok a
  | none => .error ("missing field `" ++ name ++ "`")

def invalidLength {α : Type} (length : Nat) (expected : String) : Except String α :=
  .error ("invalid length " ++ toString length ++ ", expected " ++ expected)

def invalidType {α : Type} (v : Value) (expected : String) : Except String α :=
  .error ("invalid type: " ++ v.unexpected ++ ", expected " ++ expected)

def readUnit : Value → Except String Unit
  | .null => .ok ()
  | v => invalidType v "unit"

def readBool : Value → Except String Bool
  | .bool b => .ok b
  | v => invalidType v "a boolean"

def deserializeQuantity (v : Value) : Except String Nat :=
  (parseQuantity v).mapError TypeError.display

def Hash.fromValue : Value → Except String Hash
  | .string raw => (Hash.parse raw).mapError TypeError.display
  | v => invalidType v "a string"

/-- `Option<Hash>`. -/
def Hash.optionFromValue : Value → Except String (Option Hash)
  | .null => .ok none
  | v => (Hash.fromValue v).map some

namespace L2BlockRef

/-- The fields read so far. -/
structure Fields where
  hash : Option (Option Hash) := none
  number : Option Nat := none
  time : Option Nat := none

def readMember (fields : Fields) : String × Value → Except String Fields
  | ("hash", v) => do
      return { fields with hash := ← readField "hash" Hash.optionFromValue v fields.hash }
  | ("number", v) => do
      return { fields with number := ← readField "number" deserializeQuantity v fields.number }
  | ("timestamp", v) | ("time", v) => do
      return { fields with time := ← readField "timestamp" deserializeQuantity v fields.time }
  | _ => return fields

def ofMembers (members : List (String × Value)) : Except String L2BlockRef := do
  let fields ← members.foldlM readMember {}
  let number ← requiredField "number" fields.number
  let time ← requiredField "timestamp" fields.time
  return ⟨fields.hash.getD none, number, time⟩

/-- Only the first field has a default, so a shorter array is never enough. -/
def ofItems : List Value → Except String L2BlockRef
  | [] => invalidLength 1 "struct L2BlockRef with 3 elements"
  | hash :: rest => do
      let hash ← Hash.optionFromValue hash
      match rest with
      | [] => invalidLength 1 "struct L2BlockRef with 3 elements"
      | number :: rest =>
          let number ← deserializeQuantity number
          match rest with
          | [] => invalidLength 2 "struct L2BlockRef with 3 elements"
          | time :: rest =>
              let time ← deserializeQuantity time
              if rest.isEmpty then return ⟨hash, number, time⟩
              else invalidLength (3 + rest.length) "fewer elements in array"

def fromValue : Value → Except String L2BlockRef
  | .object members => ofMembers members
  | .array items => ofItems items
  | v => invalidType v "struct L2BlockRef"

/-- `Serialize`, with the members sorted by name. -/
def toValue (ref : L2BlockRef) : Value :=
  .object [("hash", (ref.hash.map fun hash => Value.string hash.display).getD .null),
    ("number", .number (.posInt (UInt64.ofNat ref.number))),
    ("timestamp", .number (.posInt (UInt64.ofNat ref.time)))]

end L2BlockRef

namespace SyncStatus

structure Fields where
  unsafeL2 : Option L2BlockRef := none
  safeL2 : Option L2BlockRef := none

def readMember (fields : Fields) : String × Value → Except String Fields
  | ("unsafe_l2", v) | ("unsafeL2", v) => do
      let unsafeL2 ← readField "unsafe_l2" L2BlockRef.fromValue v fields.unsafeL2
      return { fields with unsafeL2 }
  | ("safe_l2", v) | ("safeL2", v) => do
      return { fields with safeL2 := ← readField "safe_l2" L2BlockRef.fromValue v fields.safeL2 }
  | _ => return fields

def ofMembers (members : List (String × Value)) : Except String SyncStatus := do
  let fields ← members.foldlM readMember {}
  let unsafeL2 ← requiredField "unsafe_l2" fields.unsafeL2
  let safeL2 ← requiredField "safe_l2" fields.safeL2
  return ⟨unsafeL2, safeL2⟩

def ofItems : List Value → Except String SyncStatus
  | [] => invalidLength 0 "struct SyncStatus with 2 elements"
  | unsafeL2 :: rest => do
      let unsafeL2 ← L2BlockRef.fromValue unsafeL2
      match rest with
      | [] => invalidLength 1 "struct SyncStatus with 2 elements"
      | safeL2 :: rest =>
          let safeL2 ← L2BlockRef.fromValue safeL2
          if rest.isEmpty then return ⟨unsafeL2, safeL2⟩
          else invalidLength (2 + rest.length) "fewer elements in array"

def fromValue : Value → Except String SyncStatus
  | .object members => ofMembers members
  | .array items => ofItems items
  | v => invalidType v "struct SyncStatus"

def toValue (status : SyncStatus) : Value :=
  .object [("safe_l2", status.safeL2.toValue), ("unsafe_l2", status.unsafeL2.toValue)]

end SyncStatus

namespace PeerStats

def readMember (connected : Option Nat) : String × Value → Except String (Option Nat)
  | ("connected", v) | ("Connected", v) => readField "connected" deserializeQuantity v connected
  | _ => return connected

def ofMembers (members : List (String × Value)) : Except String PeerStats := do
  let connected ← requiredField "connected" (← members.foldlM readMember none)
  return ⟨connected⟩

def ofItems : List Value → Except String PeerStats
  | [] => invalidLength 0 "struct PeerStats with 1 element"
  | connected :: rest => do
      let connected ← deserializeQuantity connected
      if rest.isEmpty then return ⟨connected⟩
      else invalidLength (1 + rest.length) "fewer elements in array"

def fromValue : Value → Except String PeerStats
  | .object members => ofMembers members
  | .array items => ofItems items
  | v => invalidType v "struct PeerStats"

def toValue (stats : PeerStats) : Value :=
  .object [("connected", .number (.posInt (UInt64.ofNat stats.connected)))]

end PeerStats

namespace Rpc
open Concurrency

section
variable {Client : Type}

inductive HttpOp (Client : Type) where
  | fetchAddNextId (client : Client)
  | post (client : Client) (request : Value)

/-- The exchange gives the JSON body of a successful response, or the error of
the HTTP client. -/
@[reducible] def HttpOp.Reply : HttpOp Client → Type
  | .fetchAddNextId _ => UInt64
  | .post _ _ => Except String Value

@[reducible] def Http (Client : Type) : Interface where
  Op := HttpOp Client
  Reply := HttpOp.Reply

def requestValue (id : UInt64) (method : String) (params : Value) : Value :=
  .object [("id", .number (.posInt id)), ("jsonrpc", .string "2.0"), ("method", .string method),
    ("params", params)]

def checkId (id : UInt64) : Option Value → Except RpcClientError Unit
  | some actual =>
      let mismatch : Except RpcClientError Unit :=
        .error (.invalidResponse ("json-rpc response id mismatch: expected " ++
          toString id.toNat ++ ", got " ++ actual.render))
      match actual with
      | .number (.posInt n) => if n = id then .ok () else mismatch
      | _ => mismatch
  | none => .error (.invalidResponse "json-rpc response is missing id")

def readError (err : Value) : RpcClientError :=
  .jsonRpc (((err.get "code").bind Value.asI64).getD 0)
    (((err.get "message").bind Value.asStr).getD "unknown json-rpc error") (err.get "data")

/-- An `error` member decides the outcome, whatever its value is. -/
def readResponse (id : UInt64) (response : Value) : Except RpcClientError Value := do
  if (response.get "jsonrpc").bind Value.asStr ≠ some "2.0" then
    throw (.invalidResponse "json-rpc response is missing jsonrpc 2.0")
  checkId id (response.get "id")
  match response.get "error" with
  | some err => throw (readError err)
  | none =>
      match response.get "result" with
      | some result => return result
      | none => throw .missingResult

def decodeResult {α : Type} (decode : Value → Except String α) (result : Value) :
    Except RpcClientError α :=
  (decode result).mapError .invalidResponse

/-- `JsonRpcHttpClient::call`. -/
def call {α : Type} (decode : Value → Except String α) (client : Client) (method : String)
    (params : Value) : Task (Http Client) (Except RpcClientError α) := do
  let id ← Task.call (E := Http Client) (.fetchAddNextId client)
  match ← Task.call (E := Http Client) (.post client (requestValue id method params)) with
  | .error err => return .error (.http err)
  | .ok response => return (readResponse id response).bind (decodeResult decode)

end

inductive Endpoint where
  | node
  | execution
deriving DecidableEq

namespace RollupNodeClient

def startSequencerWithHash (hash : Hash) : Task (Http Endpoint) (Except RpcClientError Unit) :=
  call readUnit .node "admin_startSequencer" (.array [.string hash.display])

def startSequencerParameterless : Task (Http Endpoint) (Except RpcClientError Unit) :=
  call readUnit .node "admin_startSequencer" (.array [])

def stopSequencer : Task (Http Endpoint) (Except RpcClientError Hash) :=
  call Hash.fromValue .node "admin_stopSequencer" (.array [])

def sequencerActive : Task (Http Endpoint) (Except RpcClientError Bool) :=
  call readBool .node "admin_sequencerActive" (.array [])

def conductorEnabled : Task (Http Endpoint) (Except RpcClientError Bool) :=
  call readBool .node "admin_conductorEnabled" (.array [])

def syncStatus : Task (Http Endpoint) (Except RpcClientError SyncStatus) :=
  call SyncStatus.fromValue .node "optimism_syncStatus" (.array [])

def peerStats : Task (Http Endpoint) (Except RpcClientError PeerStats) :=
  call PeerStats.fromValue .node "opp2p_peerStats" (.array [])

def postUnsafePayload (payload : PayloadEnvelope) :
    Task (Http Endpoint) (Except RpcClientError Unit) :=
  call readUnit .node "admin_postUnsafePayload" (.array [payload.raw])

end RollupNodeClient

namespace ExecutionClient

def readBlock (raw : Value) : Except TypeError BlockInfo := do
  let some text := (raw.get "hash").bind Value.asStr | throw (.missingField "hash")
  let hash ← Hash.parse text
  let some number := raw.get "number" | throw (.missingField "number")
  return ⟨hash, ← parseQuantity number⟩

def blockByNumberParam (number : Value) :
    Task (Http Endpoint) (Except RpcClientError BlockInfo) := do
  let raw ← call Except.ok .execution "eth_getBlockByNumber" (.array [number, .bool false])
  return raw.bind fun raw => (readBlock raw).mapError .type

def latestUnsafeBlock : Task (Http Endpoint) (Except RpcClientError BlockInfo) :=
  blockByNumberParam (.string "latest")

def blockByNumber (number : Nat) : Task (Http Endpoint) (Except RpcClientError BlockInfo) :=
  blockByNumberParam (.string (hexQuantity number))

end ExecutionClient

/-- The calls of the sequencer controller, as requests. -/
def clients : (op : RpcOp) → Task (Http Endpoint) (RpcClients.Reply op)
  | .latestUnsafeBlock => ExecutionClient.latestUnsafeBlock
  | .blockByNumber number => ExecutionClient.blockByNumber number
  | .startSequencerWithHash hash => RollupNodeClient.startSequencerWithHash hash
  | .startSequencerParameterless => RollupNodeClient.startSequencerParameterless
  | .stopSequencer => RollupNodeClient.stopSequencer
  | .sequencerActive => RollupNodeClient.sequencerActive
  | .conductorEnabled => RollupNodeClient.conductorEnabled
  | .syncStatus => RollupNodeClient.syncStatus
  | .peerStats => RollupNodeClient.peerStats
  | .postUnsafePayload payload => RollupNodeClient.postUnsafePayload payload

end Rpc
end ConductorRs

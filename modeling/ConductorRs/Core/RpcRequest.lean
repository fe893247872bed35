import ConductorRs.Core.Errors

/-!
Requests and responses of the JSON-RPC server, and how the parameters of each
method are read. A request is decoded by a derived decoder, which takes an
object by the names of its members and also an array of the fields in the order
of their declaration.
-/
namespace ConductorRs.Rpc

structure Request where
  jsonrpc : Option String
  method : String
  params : Value

namespace Request

def readString : Value → Except String String
  | .string s => .ok s
  | v => .error ("invalid type: " ++ v.unexpected ++ ", expected a string")

def readOptionString : Value → Except String (Option String)
  | .null => .ok none
  | v => (readString v).map some

def jsonrpcField : Option Value → Except String (Option String)
  | none => .ok none
  | some v => readOptionString v

def methodField : Option Value → Except String String
  | none => .error "missing field `method`"
  | some v => readString v

/-- Members with other names are ignored. -/
def ofMembers (members : List (String × Value)) : Except String Request := do
  let jsonrpc ← jsonrpcField (members.lookup "jsonrpc")
  let method ← methodField (members.lookup "method")
  return ⟨jsonrpc, method, (members.lookup "params").getD .null⟩

/-- Only the last field has a default. -/
def ofItems : List Value → Except String Request
  | [] => throw "invalid length 0, expected struct Request with 3 elements"
  | [jsonrpc] => do
      let _ ← readOptionString jsonrpc
      throw "invalid length 1, expected struct Request with 3 elements"
  | jsonrpc :: method :: rest => do
      let jsonrpc ← readOptionString jsonrpc
      let method ← readString method
      match rest with
      | [] => return ⟨jsonrpc, method, .null⟩
      | [params] => return ⟨jsonrpc, method, params⟩
      | _ =>
          throw ("invalid length " ++ toString (2 + rest.length) ++
            ", expected fewer elements in array")

def fromValue : Value → Except String Request
  | .object members => ofMembers members
  | .array items => ofItems items
  | v => .error ("invalid type: " ++ v.unexpected ++ ", expected struct Request")

end Request

structure RpcError where
  code : Int
  message : String
deriving DecidableEq

def invalidRequest (message : String) : RpcError := ⟨-32600, message⟩

def methodNotFound : RpcError := ⟨-32601, "method not found"⟩

def parseError (message : String) : RpcError := ⟨-32700, message⟩

def invalidParams (message : String) : RpcError := ⟨-32602, message⟩

/-- Given the text the error prints. -/
def internal (message : String) : RpcError := ⟨-32000, message⟩

def proxyError : RpcClientError → RpcError
  | .jsonRpc code message _ => ⟨code, message⟩
  | other => internal other.display

/-- An `i64`. -/
def ofInt : Int → Value
  | .ofNat n => .number (.posInt (UInt64.ofNat n))
  | .negSucc n => .number (.negInt (Fin.ofNat 9223372036854775808 n))

def RpcError.toValue (error : RpcError) : Value :=
  .object [("code", ofInt error.code), ("message", .string error.message)]

structure Response where
  jsonrpc : String
  id : Option Value
  result : Option Value
  error : Option RpcError

/-- The members are sorted by name; an absent result or error is skipped, an
absent id is `null`. -/
def Response.toValue (response : Response) : Value :=
  .object ((response.error.map fun error => ("error", error.toValue)).toList ++
    [("id", response.id.getD .null), ("jsonrpc", .string response.jsonrpc)] ++
    (response.result.map fun result => ("result", result)).toList)

def responseValue (id : Option Value) (response : Except RpcError Value) : Value :=
  match response with
  | .ok result => Response.toValue ⟨"2.0", id, some result, none⟩
  | .error error => Response.toValue ⟨"2.0", id, none, some error⟩

def arrayParams : Value → Except RpcError (List Value)
  | .array items => .ok items
  | .null => .ok []
  | _ => .error (invalidParams "expected params array")

def noParams (params : Value) : Except RpcError Unit := do
  match ← arrayParams params with
  | [] => return ()
  | _ => throw (invalidParams "expected no params")

def boolParam (params : Value) : Except RpcError Bool := do
  match ← arrayParams params with
  | [.bool value] => return value
  | _ => throw (invalidParams "expected boolean override flag")

def stringParam (value : Value) (name : String) : Except RpcError String :=
  match value.asStr with
  | some s => .ok s
  | none => .error (invalidParams ("expected string " ++ name))

def versionParam (value : Value) : Except RpcError Nat :=
  (parseQuantity value).mapError fun err => invalidParams err.display

def membershipChangeParams (params : Value) : Except RpcError (String × String × Nat) := do
  match ← arrayParams params with
  | [id, addr, version] =>
      return (← stringParam id "id", ← stringParam addr "addr", ← versionParam version)
  | _ => throw (invalidParams "expected id, addr, version")

def stringStringParams (params : Value) : Except RpcError (String × String) := do
  match ← arrayParams params with
  | [id, addr] => return (← stringParam id "id", ← stringParam addr "addr")
  | _ => throw (invalidParams "expected id, addr")

def idVersionParams (params : Value) : Except RpcError (String × Nat) := do
  match ← arrayParams params with
  | [id, version] => return (← stringParam id "id", ← versionParam version)
  | _ => throw (invalidParams "expected id, version")

def unsafePayloadParam (params : Value) : Except RpcError PayloadEnvelope := do
  match ← arrayParams params with
  | [] => throw (invalidParams "missing payload")
  | [raw] =>
      let payload : PayloadEnvelope := ⟨raw⟩
      let _ ← payload.blockNumber.mapError fun err => invalidParams err.display
      let _ ← payload.blockHash.mapError fun err => invalidParams err.display
      return payload
  | _ => throw (invalidParams "expected single payload")

def asciiHexDigit (c : Char) : Bool := (toDigit 16 c).isSome

/-- The digits after the sign of a hexadecimal number, in lower case. -/
def canonicalHexDigits (raw name : String) : Except RpcError (List Char) :=
  match (stripPrefix "0x" raw).or (stripPrefix "0X" raw) with
  | none => throw (invalidParams ("expected 0x-prefixed " ++ name))
  | some [] => throw (invalidParams ("invalid " ++ name ++ " " ++ raw))
  | some ('0' :: _ :: _) => throw (invalidParams "hex number with leading zero digits")
  | some hex =>
      if hex.all asciiHexDigit then return hex.map Char.toLower
      else throw (invalidParams ("invalid " ++ name ++ " " ++ raw))

def canonicalHexQuantity (raw name : String) : Except RpcError String := do
  return "0x" ++ String.ofList (← canonicalHexDigits raw name)

def decodeHexQuantity (raw : String) : Except RpcError Nat := do
  match u64FromStrRadix 16 (← canonicalHexDigits raw "block number") with
  | some block => return block
  | none => throw (invalidParams ("invalid block number " ++ raw))

/-- A number in lower case hexadecimal, as `0x{:x}` prints it. -/
def hexQuantity (n : Nat) : String := "0x" ++ String.ofList (Nat.toDigits 16 n)

def blockTag (raw : String) : Bool :=
  raw ∈ ["earliest", "latest", "pending", "safe", "finalized"]

/-- `i64::MAX`. -/
def i64Max : Nat := 9223372036854775807

def ethGetBlockByNumberProxyParams (params : Value) : Except RpcError Value := do
  match ← arrayParams params with
  | [number, fullTx] =>
      let some raw := number.asStr | throw (invalidParams "expected block number string")
      let block ←
        if blockTag raw then pure raw
        else do
          let block ← decodeHexQuantity raw
          if block > i64Max then
            throw (invalidParams ("block number out of range " ++ raw))
          pure (hexQuantity block)
      let .bool full := fullTx | throw (invalidParams "expected full transaction flag")
      return .array [.string block, .bool full]
  | _ => throw (invalidParams "expected block number and full transaction flag")

def outputAtBlockProxyParams (params : Value) : Except RpcError Value := do
  match ← arrayParams params with
  | [number] =>
      let some raw := number.asStr | throw (invalidParams "expected hex block number string")
      return .array [.string (hexQuantity (← decodeHexQuantity raw))]
  | _ => throw (invalidParams "expected block number")

def minerSetMaxDaSizeProxyParams (params : Value) : Except RpcError Value := do
  match ← arrayParams params with
  | [txSize, blockSize] =>
      let some maxTxSize := txSize.asStr | throw (invalidParams "expected hex max tx size")
      let some maxBlockSize := blockSize.asStr
        | throw (invalidParams "expected hex max block size")
      return .array [.string (← canonicalHexQuantity maxTxSize "max tx size"),
        .string (← canonicalHexQuantity maxBlockSize "max block size")]
  | _ => throw (invalidParams "expected max tx size and max block size")

def normalizeProxyParams : Value → Value
  | .null => .array []
  | other => other

end ConductorRs.Rpc

import ConductorRs.Core.Json

/-!
Hashes, block references and the payload envelope. The envelope keeps the raw
JSON document; its block hash and number are parsed again at every use, so every
reader below goes through the two fallible accessors.
-/
namespace ConductorRs

inductive TypeError where
  | invalidHash (text : String)
  | missingField (field : String)
  | invalidBlockNumber (text : String)
  | missingExecutionPayload
deriving DecidableEq, Repr

def TypeError.display : TypeError → String
  | .invalidHash text => "expected 0x-prefixed 32-byte hash, got " ++ text
  | .missingField field => "missing field " ++ field
  | .invalidBlockNumber text => "invalid block number " ++ text
  | .missingExecutionPayload => "payload is missing executionPayload"

structure Hash where
  bytes : List UInt8
  size : bytes.length = 32
deriving DecidableEq

def decodeHexBytes : List Char → Option (List UInt8)
  | [] => some []
  | [_] => none
  | high :: low :: rest => do
      let h ← toDigit 16 high
      let l ← toDigit 16 low
      let tail ← decodeHexBytes rest
      return UInt8.ofNat (h * 16 + l) :: tail

namespace Hash

def zero : Hash := ⟨List.replicate 32 0, List.length_replicate⟩

/-- `Hash::from_str`. The length test counts bytes; the last test is the size
check of `hex::decode_to_slice`. -/
def parse (value : String) : Except TypeError Hash :=
  match stripPrefix "0x" value with
  | none => .error (.invalidHash value)
  | some stripped =>
      if (String.ofList stripped).utf8ByteSize ≠ 64 then .error (.invalidHash value)
      else match decodeHexBytes stripped with
        | none => .error (.invalidHash value)
        | some bytes =>
            if size : bytes.length = 32 then .ok ⟨bytes, size⟩
            else .error (.invalidHash value)

def display (hash : Hash) : String :=
  "0x" ++ String.join (hash.bytes.map fun b =>
    String.ofList [Nat.digitChar (b.toNat / 16), Nat.digitChar (b.toNat % 16)])

end Hash

structure BlockInfo where
  hash : Hash
  number : Nat
deriving DecidableEq

structure L2BlockRef where
  hash : Option Hash
  number : Nat
  time : Nat
deriving DecidableEq

structure SyncStatus where
  unsafeL2 : L2BlockRef
  safeL2 : L2BlockRef
deriving DecidableEq

structure PeerStats where
  connected : Nat
deriving DecidableEq

def parseQuantity (value : Value) : Except TypeError Nat :=
  match value with
  | .number n =>
      match n.asU64 with
      | some quantity => .ok quantity
      | none => .error (.invalidBlockNumber value.render)
  | .string s =>
      let parsed :=
        match stripPrefix "0x" s with
        | some hex => u64FromStrRadix 16 hex
        | none => u64FromStrRadix 10 s.toList
      match parsed with
      | some quantity => .ok quantity
      | none => .error (.invalidBlockNumber s)
  | _ => .error (.invalidBlockNumber value.render)

structure PayloadEnvelope where
  raw : Value

namespace PayloadEnvelope

def executionPayload (payload : PayloadEnvelope) : Except TypeError Value :=
  match (payload.raw.get "executionPayload").or (payload.raw.get "execution_payload") with
  | some value => .ok value
  | none => .error .missingExecutionPayload

def blockHash (payload : PayloadEnvelope) : Except TypeError Hash := do
  let execution ← payload.executionPayload
  match ((execution.get "blockHash").or (execution.get "block_hash")).bind Value.asStr with
  | some raw => Hash.parse raw
  | none => throw (.missingField "executionPayload.blockHash")

def blockNumber (payload : PayloadEnvelope) : Except TypeError Nat := do
  let execution ← payload.executionPayload
  match (execution.get "blockNumber").or (execution.get "block_number") with
  | some value => parseQuantity value
  | none => throw (.missingField "executionPayload.blockNumber")

/-- A payload that carries nothing but the header fields read here. -/
def ofBlock (info : BlockInfo) : PayloadEnvelope where
  raw := .object [("executionPayload", .object
    [("blockHash", .string info.hash.display),
      ("blockNumber", .number (.posInt (UInt64.ofNat info.number)))])]

/-- Both accessors succeed: what a commit checks before it replicates. -/
def Valid (payload : PayloadEnvelope) : Prop :=
  payload.blockNumber.isOk ∧ payload.blockHash.isOk

/-- The block number of a valid payload. -/
def number (payload : PayloadEnvelope) : Nat := payload.blockNumber.toOption.getD 0

theorem number_eq {payload : PayloadEnvelope} {n : Nat} (h : payload.blockNumber = .ok n) :
    payload.number = n := by
  rw [number, h]
  rfl

theorem valid_iff {payload : PayloadEnvelope} :
    payload.Valid ↔ ∃ hash, payload.blockNumber = .ok payload.number ∧
      payload.blockHash = .ok hash := by
  simp only [Valid, number]
  cases payload.blockNumber with
  | error err => simp [Except.isOk, Except.toBool]
  | ok n => cases payload.blockHash <;> simp [Except.isOk, Except.toBool, Except.toOption]

end PayloadEnvelope
end ConductorRs

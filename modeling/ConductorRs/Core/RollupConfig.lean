import ConductorRs.Core.RpcRequest

/-!
`validate_rollup_config_json`. A field is found by the names on its path, none of
which is an index of an array. An error is the text of its outermost context.
-/
namespace ConductorRs.RollupConfig

open Rpc (asciiHexDigit)

/-- `Value::pointer`, and `Value::get` for a path of one name. -/
def pointer (config : Value) (path : List String) : Option Value :=
  path.foldlM (fun value name => value.get name) config

def numericValue (value : Option Value) (name : String) : Except String Nat :=
  match value with
  | some (.number number) =>
      match number.asU64 with
      | some n => .ok n
      | none => .error (name ++ " must be a positive integer")
  | some (.string raw) =>
      match u64FromStrRadix 10 raw.toList with
      | some n => .ok n
      | none => .error (name ++ " must be a positive integer")
  | _ => .error ("missing " ++ name)

def nonZeroU64 (value : Option Value) (name : String) : Except String Nat := do
  let n ← numericValue value name
  if n = 0 then throw (name ++ " must be non-zero")
  return n

/-- Bytes in hexadecimal, as many as the number of digits says. -/
def nonZeroHex (digits : Nat) (kind : String) (value : Option Value) (name : String) :
    Except String Unit := do
  let some raw := value.bind Value.asStr | throw ("missing " ++ name)
  let some hex := (stripPrefix "0x" raw).or (stripPrefix "0X" raw)
    | throw (name ++ " must be 0x-prefixed")
  if (String.ofList hex).utf8ByteSize ≠ digits ∨ hex.all asciiHexDigit = false then
    throw (name ++ " must be a " ++ kind)
  if hex.all (· = '0') then throw (name ++ " must be non-zero")

def nonEmptyHash := nonZeroHex 64 "32-byte hex value"

def nonZeroAddress := nonZeroHex 40 "20-byte hex address"

/-- The two hashes are compared when both are known to be texts. -/
def validateRollupConfigJson (config : Value) : Except String Unit := do
  nonEmptyHash (pointer config ["genesis", "l1", "hash"]) "genesis.l1.hash"
  nonEmptyHash (pointer config ["genesis", "l2", "hash"]) "genesis.l2.hash"
  if (pointer config ["genesis", "l1", "hash"]).bind Value.asStr =
      (pointer config ["genesis", "l2", "hash"]).bind Value.asStr then
    throw "genesis L1 and L2 hashes must differ"
  let _ ← nonZeroU64 (pointer config ["genesis", "l2_time"]) "genesis.l2_time"
  nonZeroAddress (pointer config ["genesis", "system_config", "batcherAddr"])
    "genesis.system_config.batcherAddr"
  nonEmptyHash (pointer config ["genesis", "system_config", "scalar"])
    "genesis.system_config.scalar"
  let _ ← nonZeroU64 (pointer config ["genesis", "system_config", "gasLimit"])
    "genesis.system_config.gasLimit"
  let _ ← nonZeroU64 (config.get "block_time") "block_time"
  let _ ← nonZeroU64 (config.get "channel_timeout") "channel_timeout"
  let _ ← nonZeroU64 (config.get "max_sequencer_drift") "max_sequencer_drift"
  let seqWindowSize ← numericValue (config.get "seq_window_size") "seq_window_size"
  if seqWindowSize < 2 then throw "seq_window_size must be at least 2"
  let l1ChainId ← numericValue (config.get "l1_chain_id") "l1_chain_id"
  let l2ChainId ← numericValue (config.get "l2_chain_id") "l2_chain_id"
  if l1ChainId = 0 ∨ l2ChainId = 0 then throw "chain IDs must be positive"
  if l1ChainId = l2ChainId then throw "l1_chain_id and l2_chain_id must differ"
  nonZeroAddress (config.get "batch_inbox_address") "batch_inbox_address"
  nonZeroAddress (config.get "deposit_contract_address") "deposit_contract_address"

end ConductorRs.RollupConfig

import ConductorRs.Core.Membership
import ConductorRs.Core.RaftStore
import ConductorRs.Core.RaftTransport

/-!
How a payload travels as JSON: from `commit_unsafe_payload` into the log, to the
peers, into the persisted image and into snapshots.

The envelope is flattened, so its encoding is that of the members of an object
and fails for other shapes. The documents around it are openraft's (entries and
append requests) or derived here (state machine and image); each carries the
encoding of the payload at one place. The other parts of a document are left to
it.
-/
namespace ConductorRs
open Concurrency Collections

/-- A derived pair whose encoder may fail. -/
structure TrySerde (α : Type) where
  encode : α → Except String Value
  decode : Value → Except String α

namespace TrySerde
variable {α : Type}

def option (serde : TrySerde α) : TrySerde (Option α) where
  encode
    | none => .ok .null
    | some x => serde.encode x
  decode
    | .null => .ok none
    | v => (serde.decode v).map some

end TrySerde

/-- What serde calls a value it cannot flatten. -/
def Value.unsupported : Value → String
  | .null => "unit"
  | .bool _ => "a boolean"
  | .number (.float _) => "a float"
  | .number _ => "an integer"
  | .string _ => "a string"
  | .array _ => "a sequence"
  | .object _ => "a map"

/-- The members of an object go in place; `null` has none. -/
def flattenValue : Value → Except String (List (String × Value))
  | .object members => .ok members
  | .null => .ok []
  | v => .error ("can only flatten structs and maps (got " ++ v.unsupported ++ ")")

def PayloadEnvelope.serde : TrySerde PayloadEnvelope where
  encode payload := (flattenValue payload.raw).map .object
  decode
    | .object members => .ok ⟨.object members⟩
    | v => .error ("invalid type: " ++ v.unexpected ++ ", expected struct PayloadEnvelope")

/-- A variant that holds one value is an object with the variant's name as its
only member. -/
def RaftCommand.serde : TrySerde RaftCommand where
  encode
    | .commitUnsafePayload payload => do
        let v ← PayloadEnvelope.serde.encode payload
        return .object [("CommitUnsafePayload", v)]
  decode
    | .object [(variant, v)] =>
        if variant = "CommitUnsafePayload" then
          (PayloadEnvelope.serde.decode v).map .commitUnsafePayload
        else .error ("unknown variant `" ++ variant ++ "`, expected `CommitUnsafePayload`")
    | .object _ => .error "invalid value: map, expected map with a single key"
    | .string _ => .error "invalid type: unit variant, expected newtype variant"
    | v => .error ("invalid type: " ++ v.unexpected ++ ", expected enum RaftCommand")

/-- A document with a place for one value. -/
structure Carrier where
  wrap : Value → Value
  unwrap : Value → Except String Value

def Carrier.Lawful (carrier : Carrier) : Prop := ∀ v, carrier.unwrap (carrier.wrap v) = .ok v

/-- One field of a derived struct, with the fields before and after it. -/
def Carrier.field (before : List (String × Value)) (key : String)
    (after : List (String × Value)) : Carrier where
  wrap v := .object (before ++ (key, v) :: after)
  unwrap
    | .object members =>
        match members.lookup key with
        | some v => .ok v
        | none => .error ("missing field `" ++ key ++ "`")
    | v => .error ("invalid type: " ++ v.unexpected ++ ", expected struct")

/-- The document of the inner carrier at the place of the outer one. -/
def Carrier.inside (inner outer : Carrier) : Carrier where
  wrap v := outer.wrap (inner.wrap v)
  unwrap doc := do inner.unwrap (← outer.unwrap doc)

/-- The printer and the parser of serde_json. What `parse` returns is the document
as its text has it, with the members in their order there and a float as its
text: the typed decoders take the members as they come, and a payload's own value
is ordered by its map before it is first printed. -/
structure JsonText where
  print : Value → String
  parse : String → Except String Value

/-- A document, its members in the order it was printed with, is read back. -/
def JsonText.Lawful (json : JsonText) : Prop := ∀ v, json.parse (json.print v) = .ok v

/-- The text of one document is a string of another: an entry in the log of the
image. -/
def Carrier.quoted (json : JsonText) (inner : Carrier) : Carrier where
  wrap v := .string (json.print (inner.wrap v))
  unwrap
    | .string text => do inner.unwrap (← json.parse text)
    | v => .error ("invalid type: " ++ v.unexpected ++ ", expected a string")

/-- The fields of a state machine next to its payload. -/
def stateMachineCarrier (lastAppliedLog lastMembership : Value) : Carrier :=
  .field [("last_applied_log", lastAppliedLog), ("last_membership", lastMembership)]
    "latest_unsafe_payload" []

/-- What a persisted image holds next to its log and its state machine. -/
structure ImageParts where
  lastPurgedLogId : Value
  committed : Value
  log : Value
  vote : Value
  sm : Value
  currentSnapshot : Value
  snapshotIdx : Value

def ImageParts.smCarrier (image : ImageParts) : Carrier :=
  .field [("last_purged_log_id", image.lastPurgedLogId), ("committed", image.committed),
      ("log", image.log), ("vote", image.vote)] "sm"
    [("current_snapshot", image.currentSnapshot), ("snapshot_idx", image.snapshotIdx)]

def ImageParts.logCarrier (image : ImageParts) : Carrier :=
  .field [("last_purged_log_id", image.lastPurgedLogId), ("committed", image.committed)] "log"
    [("vote", image.vote), ("sm", image.sm), ("current_snapshot", image.currentSnapshot),
      ("snapshot_idx", image.snapshotIdx)]

/-- One way from an encoder to a decoder. The carriers of an entry and of an
append request are openraft's. -/
inductive Hop where
  | logStore (entry : Carrier)
  | appendEntries (entry request : Carrier)
  | imageLog (entry : Carrier) (image : ImageParts) (before : List (String × Value))
      (index : String) (after : List (String × Value))
  | imageState (image : ImageParts) (lastAppliedLog lastMembership : Value)
  | snapshot (lastAppliedLog lastMembership : Value)

/-- What openraft and the keys of a log promise of a hop's documents. -/
def Hop.Lawful : Hop → Prop
  | .logStore entry => entry.Lawful
  | .appendEntries entry request => entry.Lawful ∧ request.Lawful
  | .imageLog entry _ before index _ => entry.Lawful ∧ before.lookup index = none
  | .imageState _ _ _ | .snapshot _ _ => True

/-- `encode_json` at one end and `decode_json` at the other. -/
def travel {α : Type} (json : JsonText) (carrier : Carrier) (serde : TrySerde α) (x : α) :
    Except String α := do
  let v ← serde.encode x
  let doc ← json.parse (json.print (carrier.wrap v))
  serde.decode (← carrier.unwrap doc)

def RaftCommand.payload : RaftCommand → PayloadEnvelope
  | .commitUnsafePayload payload => payload

/-- A payload inside a command. -/
def passCommand (json : JsonText) (carrier : Carrier) (payload : PayloadEnvelope) :
    Except String PayloadEnvelope := do
  let command ← travel json carrier RaftCommand.serde (.commitUnsafePayload payload)
  return command.payload

/-- A payload inside a state machine; one that decodes to nothing is lost. -/
def passState (json : JsonText) (carrier : Carrier) (payload : PayloadEnvelope) :
    Except String PayloadEnvelope := do
  match ← travel json carrier PayloadEnvelope.serde.option (some payload) with
  | some payload => return payload
  | none => throw "payload lost"

def Hop.pass (json : JsonText) : Hop → PayloadEnvelope → Except String PayloadEnvelope
  | .logStore entry => passCommand json entry
  | .appendEntries entry request => passCommand json (entry.inside request)
  | .imageLog entry image before index after =>
      passCommand json
        (((entry.quoted json).inside (.field before index after)).inside image.logCarrier)
  | .imageState image lastAppliedLog lastMembership =>
      passState json
        ((stateMachineCarrier lastAppliedLog lastMembership).inside image.smCarrier)
  | .snapshot lastAppliedLog lastMembership =>
      passState json (stateMachineCarrier lastAppliedLog lastMembership)

def passAll (json : JsonText) (hops : List Hop) (payload : PayloadEnvelope) :
    Except String PayloadEnvelope :=
  hops.foldlM (fun payload hop => hop.pass json payload) payload

namespace RaftConsensus

inductive WriteOp where
  | clientWrite (command : RaftCommand)

@[reducible] def WriteOps : Interface where
  Op := WriteOp
  Reply _ := Except ClientWriteError RaftCommandResponse

def commitUnsafePayload (payload : PayloadEnvelope) :
    Task WriteOps (Except ConsensusError Unit) :=
  match payload.blockNumber, payload.blockHash with
  | .error err, _ => .done (.error (.invalidPayload err.display))
  | .ok _, .error err => .done (.error (.invalidPayload err.display))
  | .ok _, .ok _ => do
      let written ← Task.call (E := WriteOps) (.clientWrite (.commitUnsafePayload payload))
      return (written.map fun _ => ()).mapError mapClientWriteError

/-- The payload gets past the checks and is handed to the raft node. -/
def Accepts (payload : PayloadEnvelope) : Prop :=
  ∃ next, commitUnsafePayload payload =
    .perform (.clientWrite (.commitUnsafePayload payload)) next

end RaftConsensus
end ConductorRs

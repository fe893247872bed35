import Mathlib.Logic.Function.Basic
import ConductorRs.Core.PayloadEncoding
import ConductorRs.Core.StoreMachine

/-!
`FilePayloadStore`, and `LocalConsensus` as far as it commits payloads to it.

A commit holds the write lock of `latest` from its first look at it to its last
change, so commits run one after another and the lock itself is not modelled.
Every file system call may fail. A call that fails on a file leaves it with
unknown contents; a rename is atomic. Where a file is depends on the path alone:
the temporary file of a store is the path with another extension.
-/
namespace ConductorRs
open Concurrency

/-- A path with a file name. -/
structure Path where
  parent : Option String
  stem : String
  extension : Option String
deriving DecidableEq

def Path.withExtension (path : Path) (extension : String) : Path :=
  { path with extension := some extension }

structure PersistedPayload where
  version : Nat
  payload : PayloadEnvelope

namespace PersistedPayload

/-- A number of type `u8`. -/
def readVersion : Value → Except String Nat
  | .number (.posInt n) =>
      if n.toNat < 256 then .ok n.toNat
      else .error ("invalid value: integer `" ++ toString n.toNat ++ "`, expected u8")
  | v => .error ("invalid type: " ++ v.unexpected ++ ", expected u8")

def field {α : Type} (name : String) (decode : Value → Except String α) :
    Option Value → Except String α
  | some v => decode v
  | none => .error ("missing field `" ++ name ++ "`")

def serde : TrySerde PersistedPayload where
  encode persisted := do
    let payload ← PayloadEnvelope.serde.encode persisted.payload
    return .object [("version", .number (.posInt (UInt64.ofNat persisted.version))),
      ("payload", payload)]
  decode
    | .object members => do
        let version ← field "version" readVersion (members.lookup "version")
        let payload ← field "payload" PayloadEnvelope.serde.decode (members.lookup "payload")
        return ⟨version, payload⟩
    | .array [version, payload] => do
        return ⟨← readVersion version, ← PayloadEnvelope.serde.decode payload⟩
    | .array items =>
        .error ("invalid length " ++ toString items.length ++
          ", expected struct PersistedPayload with 2 elements")
    | v => .error ("invalid type: " ++ v.unexpected ++ ", expected struct PersistedPayload")

end PersistedPayload

inductive DiskOp where
  | createDirAll (directory : String)
  | create (file : Path)
  | setLen (file : Path)
  | write (file : Path) (text : String)
  | openRead (file : Path)
  | syncAll (file : Path)
  | rename (source target : Path)
  | openDirectory (directory : String)
  | syncDirectory (directory : String)

inductive LocalOp where
  | leader
  | latest
  | setLatest (payload : PayloadEnvelope)
  | readFile (file : Path)
  | disk (op : DiskOp)

@[reducible] def LocalOp.Reply : LocalOp → Type
  | .leader => Bool
  | .latest => Option PayloadEnvelope
  | .setLatest _ => Unit
  | .readFile _ => Except IoError String
  | .disk _ => Except IoError Unit

@[reducible] def LocalOps : Interface where
  Op := LocalOp
  Reply := LocalOp.Reply

namespace FilePayloadStore

def op (o : LocalOp) : Task LocalOps o.Reply := Task.call (E := LocalOps) o

abbrev Attempt := ExceptT StoreError (Task LocalOps)

def check {α : Type} (r : Except StoreError α) : Attempt α := ExceptT.mk (.done r)

def parsed {α : Type} (r : Except TypeError α) : Attempt α := check (r.mapError .payload)

/-- A file system call whose error is passed on. -/
def disk (o : DiskOp) : Attempt Unit := ExceptT.mk do
  return (← op (.disk o)).mapError fun err => .io err.message

variable (json : JsonText) (path : Path)

/-- The payload that a store starts with. -/
def openStore : Task LocalOps (Except StoreError (Option PayloadEnvelope)) := do
  match ← op (.readFile path) with
  | .ok text =>
      match json.parse text >>= PersistedPayload.serde.decode with
      | .ok persisted => return .ok (some persisted.payload)
      | .error message => return .error (.serde message)
  | .error err =>
      if err.kind = .notFound then return .ok none
      else return .error (.io err.message)

def createParent : Attempt Unit :=
  match path.parent with
  | some parent => disk (.createDirAll parent)
  | none => pure ()

/-- Errors of the last sync are ignored. -/
def syncParent : Task LocalOps Unit :=
  match path.parent with
  | some parent => do
      match ← op (.disk (.openDirectory parent)) with
      | .ok _ => discard (op (.disk (.syncDirectory parent)))
      | .error _ => return ()
  | none => return ()

def encode (payload : PayloadEnvelope) : Except StoreError String :=
  ((PersistedPayload.serde.encode ⟨1, payload⟩).map json.print).mapError .serde

def writeFile (text : String) : Attempt Unit := do
  let tmp := path.withExtension "tmp"
  disk (.create tmp)
  disk (.setLen tmp)
  disk (.write tmp text)
  disk (.openRead tmp)
  disk (.syncAll tmp)
  disk (.rename tmp path)

def persist (payload : PayloadEnvelope) : Attempt Unit := do
  createParent path
  let text ← check (encode json payload)
  writeFile path text
  ExceptT.lift (syncParent path)

/-- The payload is written out before it is the latest one. -/
def replace (payload : PayloadEnvelope) : Attempt Unit := do
  persist json path payload
  ExceptT.lift (op (.setLatest payload))

def commit (payload : PayloadEnvelope) : Attempt Unit := do
  let newNumber ← parsed payload.blockNumber
  let _ ← parsed payload.blockHash
  match ← ExceptT.lift (op .latest) with
  | some current =>
      let currentNumber ← parsed current.blockNumber
      if currentNumber ≥ newNumber then return ()
      else replace json path payload
  | none => replace json path payload

end FilePayloadStore

/-- `LocalConsensus::commit_unsafe_payload` over a `FilePayloadStore`. -/
def LocalConsensus.commitUnsafePayload (json : JsonText) (path : Path)
    (payload : PayloadEnvelope) : Task LocalOps (Except ConsensusError Unit) := do
  if ← FilePayloadStore.op .leader then
    return (← (FilePayloadStore.commit json path payload).run).mapError .store
  else return .error .notLeader

structure LocalState where
  leader : Bool
  latest : Option PayloadEnvelope
  files : Path → Option String

namespace LocalState

def empty : LocalState := ⟨true, none, fun _ => none⟩

/-- The files that a crash leaves, with a store opened on them. -/
def reopened (s : LocalState) (latest : Option PayloadEnvelope) : LocalState :=
  { s with latest := latest }

def put (s : LocalState) (file : Path) (text : Option String) : LocalState :=
  { s with files := Function.update s.files file text }

@[simp] theorem put_files_self (s : LocalState) (file : Path) (text : Option String) :
    (s.put file text).files file = text := by
  simp [put]

theorem put_files_of_ne (s : LocalState) {file other : Path} (text : Option String)
    (h : other ≠ file) : (s.put file text).files other = s.files other := by
  simp [put, h]

@[simp] theorem put_put (s : LocalState) (file : Path) (text text' : Option String) :
    (s.put file text).put file text' = s.put file text' := by
  simp [put]

def performDisk (s : LocalState) (x : FileChoice String) :
    DiskOp → Option (Except IoError Unit × LocalState)
  | .create file | .setLen file =>
      match x.error with
      | none => some (.ok (), s.put file (some ""))
      | some err => some (.error err, s.put file x.junk)
  | .write file text =>
      match x.error with
      | none => some (.ok (), s.put file (some text))
      | some err => some (.error err, s.put file x.junk)
  | .rename source target =>
      match x.error, s.files source with
      | none, some text => some (.ok (), (s.put source none).put target (some text))
      | none, none => none
      | some err, _ => some (.error err, s)
  | .createDirAll _ | .openRead _ | .syncAll _ | .openDirectory _ | .syncDirectory _ =>
      some (x.error.elim (.ok ()) .error, s)

/-- A file that is there is never reported as missing. -/
def readFile (s : LocalState) (x : FileChoice String) (file : Path) :
    Option (Except IoError String) :=
  match s.files file, x.error with
  | none, _ => some (.error ⟨.notFound, "entity not found"⟩)
  | some text, none => some (.ok text)
  | some _, some err => if err.kind = .notFound then none else some (.error err)

def perform (s : LocalState) :
    (op : LocalOp) → FileChoice String → Option (op.Reply × LocalState)
  | .leader, _ => some (s.leader, s)
  | .latest, _ => some (s.latest, s)
  | .setLatest payload, _ => some ((), { s with latest := some payload })
  | .readFile file, x => (s.readFile x file).map fun r => (r, s)
  | .disk op, x => s.performDisk x op

/-- Nothing fails. -/
def performSmooth (s : LocalState) (op : LocalOp) (_ : Unit) : Option (op.Reply × LocalState) :=
  s.perform op (.smooth String)

end LocalState
end ConductorRs

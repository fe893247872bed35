import ConductorRs.Core.RaftStore

/-!
The storage traits of openraft over `MemoryRaftStore`. Every program is broken at
its lock acquisitions and at its file system calls. Encoding to JSON does not
fail here.
-/
namespace ConductorRs
open Concurrency Collections

inductive StoreField where
  | lastPurgedLogId
  | committed
  | log
  | vote
  | sm
  | currentSnapshot
  | snapshotIdx
deriving DecidableEq

@[reducible] def StoreField.Val (T : TypeConfig) (Bytes : Type) : StoreField → Type
  | .lastPurgedLogId | .committed => Option (LogId T)
  | .log => BTreeMap Nat String
  | .vote => Option T.Vote
  | .sm => UnsafeHeadStateMachine T
  | .currentSnapshot => Option (UnsafeHeadSnapshot T Bytes)
  | .snapshotIdx => Nat

def PersistedRaftStore.get {T : TypeConfig} {Bytes : Type} (image : PersistedRaftStore T Bytes) :
    (field : StoreField) → field.Val T Bytes
  | .lastPurgedLogId => image.lastPurgedLogId
  | .committed => image.committed
  | .log => image.log
  | .vote => image.vote
  | .sm => image.sm
  | .currentSnapshot => image.currentSnapshot
  | .snapshotIdx => image.snapshotIdx

inductive FileOp (Bytes : Type) where
  | createDirAll
  | createTmp
  | setLen
  | writeTmp (data : Bytes)
  | openTmp
  | syncTmp
  | rename
  | openParent
  | syncParent

inductive StoreOp (T : TypeConfig) (Bytes : Type) where
  | read (field : StoreField)
  | write (field : StoreField) (value : field.Val T Bytes)
  | insertLog (entries : List (Nat × String))
  | removeLogFrom (start : Nat)
  | removeLogUpTo (index : Nat)
  | applySm (entries : List (Except IoError (Entry T × Option UnsafeHeadStateMachine.Responder)))
  | nextSnapshotIdx
  | lockPersist
  | unlockPersist
  | file (op : FileOp Bytes)
  | ioCompleted (result : Except IoError Unit)
  | respond (responder : UnsafeHeadStateMachine.Responder) (response : RaftCommandResponse)

@[reducible] def StoreOp.Reply {T : TypeConfig} {Bytes : Type} : StoreOp T Bytes → Type
  | .read field => field.Val T Bytes
  | .applySm _ =>
      Except IoError (List (Option UnsafeHeadStateMachine.Responder × RaftCommandResponse))
  | .nextSnapshotIdx => Nat
  | .file _ => Except IoError Unit
  | .write _ _ | .insertLog _ | .removeLogFrom _ | .removeLogUpTo _ | .lockPersist
  | .unlockPersist | .ioCompleted _ | .respond _ _ => Unit

@[reducible] def StoreOps (T : TypeConfig) (Bytes : Type) : Interface where
  Op := StoreOp T Bytes
  Reply := StoreOp.Reply

/-- The path of a store on disk; only whether it has a parent directory matters. -/
structure StorePath where
  hasParent : Bool

namespace MemoryRaftStore
variable {T : TypeConfig} {Bytes : Type}

def op (o : StoreOp T Bytes) : Task (StoreOps T Bytes) o.Reply :=
  Task.call (E := StoreOps T Bytes) o

def file (o : FileOp Bytes) : ExceptT IoError (Task (StoreOps T Bytes)) Unit :=
  ExceptT.mk (op (T := T) (.file o))

/-- The fields are read one after another. -/
def readImage : Task (StoreOps T Bytes) (PersistedRaftStore T Bytes) := do
  let lastPurgedLogId ← op (.read .lastPurgedLogId)
  let committed ← op (.read .committed)
  let log ← op (.read .log)
  let vote ← op (.read .vote)
  let sm ← op (.read .sm)
  let currentSnapshot ← op (.read .currentSnapshot)
  let snapshotIdx ← op (.read .snapshotIdx)
  return ⟨lastPurgedLogId, committed, log, vote, sm, currentSnapshot, snapshotIdx⟩

def writeFile (path : StorePath) (data : Bytes) :
    ExceptT IoError (Task (StoreOps T Bytes)) Unit := do
  if path.hasParent then file .createDirAll
  file .createTmp
  file .setLen
  file (.writeTmp data)
  file .openTmp
  file .syncTmp
  file .rename

/-- Errors of the last sync are ignored. -/
def syncParent (path : StorePath) : Task (StoreOps T Bytes) Unit := do
  if path.hasParent then
    match ← op (.file .openParent) with
    | .ok _ => discard (op (.file .syncParent))
    | .error _ => return ()

def persistLocked (codec : Codec T Bytes) (path : StorePath) :
    Task (StoreOps T Bytes) (Except IoError Unit) := do
  let image ← readImage
  match ← (writeFile path (codec.store image)).run with
  | .ok _ =>
      syncParent path
      return .ok ()
  | .error err => return .error err

def persistToDisk (codec : Codec T Bytes) :
    Option StorePath → Task (StoreOps T Bytes) (Except IoError Unit)
  | none => return .ok ()
  | some path => do
      op .lockPersist
      let result ← persistLocked codec path
      op .unlockPersist
      return result

variable (codec : Codec T Bytes) (path : Option StorePath)

def saveVote (vote : T.Vote) : Task (StoreOps T Bytes) (Except IoError Unit) := do
  op (.write .vote (some vote))
  persistToDisk codec path

def saveCommitted (committed : Option (LogId T)) :
    Task (StoreOps T Bytes) (Except IoError Unit) := do
  op (.write .committed committed)
  persistToDisk codec path

def append (entries : List (Entry T)) : Task (StoreOps T Bytes) (Except IoError Unit) := do
  op (.insertLog (entries.map fun entry => (entry.logId.index, codec.entry entry)))
  match ← persistToDisk codec path with
  | .error err =>
      op (.ioCompleted (.error err))
      return .error err
  | .ok _ =>
      op (.ioCompleted (.ok ()))
      return .ok ()

def truncateAfter (lastLogId : Option (LogId T)) :
    Task (StoreOps T Bytes) (Except IoError Unit) := do
  op (.removeLogFrom ((lastLogId.map fun logId => logId.index + 1).getD 0))
  persistToDisk codec path

def purge (logId : LogId T) : Task (StoreOps T Bytes) (Except IoError Unit) := do
  op (.write .lastPurgedLogId (some logId))
  op (.removeLogUpTo logId.index)
  persistToDisk codec path

def buildSnapshot :
    Task (StoreOps T Bytes) (Except IoError (UnsafeHeadSnapshot T Bytes)) := do
  let sm ← op (.read .sm)
  let snapshotIdx ← op .nextSnapshotIdx
  let snapshot : UnsafeHeadSnapshot T Bytes :=
    ⟨⟨sm.lastAppliedLog, sm.lastMembership, snapshotId sm.lastAppliedLog snapshotIdx⟩,
      codec.sm sm⟩
  op (.write .currentSnapshot (some snapshot))
  match ← persistToDisk codec path with
  | .error err => return .error err
  | .ok _ => return .ok snapshot

def respondAll :
    List (Option UnsafeHeadStateMachine.Responder × RaftCommandResponse) →
      Task (StoreOps T Bytes) Unit
  | [] => return ()
  | (none, _) :: rest => respondAll rest
  | (some responder, response) :: rest => do
      op (.respond responder response)
      respondAll rest

def apply (entries : List (Except IoError (Entry T × Option UnsafeHeadStateMachine.Responder))) :
    Task (StoreOps T Bytes) (Except IoError Unit) := do
  match ← op (.applySm entries) with
  | .error err => return .error err
  | .ok responses =>
      match ← persistToDisk codec path with
      | .error err => return .error err
      | .ok _ =>
          respondAll responses
          return .ok ()

def installSnapshot (snapshotMeta : SnapshotMeta T) (data : Bytes) :
    Task (StoreOps T Bytes) (Except IoError Unit) := do
  match codec.decodeSm data with
  | .error err => return .error err
  | .ok sm =>
      op (.write .sm sm)
      op (.write .currentSnapshot (some ⟨snapshotMeta, data⟩))
      persistToDisk codec path

end MemoryRaftStore
end ConductorRs

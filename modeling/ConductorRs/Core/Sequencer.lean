import ConductorRs.Concurrency.Task
import ConductorRs.Core.Errors

/-!
The sequencer controller over the two JSON-RPC clients of its node. The calls of
the clients are the operations; `SequencerControl` is the trait the conductor
drives, and the controller gives each of its calls a meaning as client calls.
-/
namespace ConductorRs
open Concurrency

inductive SequencerStartMode where
  | hashParam
  | parameterless
  | auto
deriving DecidableEq

inductive SequencerOp where
  | latestUnsafeBlock
  | blockByNumber (number : Nat)
  | startSequencer (expectedHash : Hash)
  | stopSequencer
  | sequencerActive
  | syncStatus
  | peerStats
  | postUnsafePayload (payload : PayloadEnvelope)
  | conductorEnabled

@[reducible] def SequencerOp.Result : SequencerOp → Type
  | .latestUnsafeBlock | .blockByNumber _ => BlockInfo
  | .startSequencer _ | .postUnsafePayload _ => Unit
  | .stopSequencer => Hash
  | .sequencerActive | .conductorEnabled => Bool
  | .syncStatus => SyncStatus
  | .peerStats => PeerStats

@[reducible] def SequencerControl : Interface where
  Op := SequencerOp
  Reply op := Except SequencerError op.Result

inductive RpcOp where
  | latestUnsafeBlock
  | blockByNumber (number : Nat)
  | startSequencerWithHash (hash : Hash)
  | startSequencerParameterless
  | stopSequencer
  | sequencerActive
  | conductorEnabled
  | syncStatus
  | peerStats
  | postUnsafePayload (payload : PayloadEnvelope)

@[reducible] def RpcOp.Result : RpcOp → Type
  | .latestUnsafeBlock | .blockByNumber _ => BlockInfo
  | .startSequencerWithHash _ | .startSequencerParameterless | .postUnsafePayload _ => Unit
  | .stopSequencer => Hash
  | .sequencerActive | .conductorEnabled => Bool
  | .syncStatus => SyncStatus
  | .peerStats => PeerStats

@[reducible] def RpcClients : Interface where
  Op := RpcOp
  Reply op := Except RpcClientError op.Result

namespace SequencerController

/-- A client call whose error is wrapped as `SequencerError::Rpc`. -/
def rpc (op : RpcOp) : ExceptT SequencerError (Task RpcClients) op.Result :=
  ExceptT.mk do return (← Task.call (E := RpcClients) op).mapError .rpc

def assertLatestUnsafe (expectedHash : Hash) :
    ExceptT SequencerError (Task RpcClients) BlockInfo := do
  let block ← rpc .latestUnsafeBlock
  if block.hash ≠ expectedHash then
    throw (.unsafeHeadMismatch expectedHash block.hash block.number)
  return block

def startParameterlessAfterCheck (expectedHash : Hash) :
    ExceptT SequencerError (Task RpcClients) Unit := do
  let _ ← assertLatestUnsafe expectedHash
  rpc .startSequencerParameterless

def startSequencer (startMode : SequencerStartMode) (expectedHash : Hash) :
    Task RpcClients (Except SequencerError Unit) :=
  match startMode with
  | .hashParam => (rpc (.startSequencerWithHash expectedHash)).run
  | .parameterless => (startParameterlessAfterCheck expectedHash).run
  | .auto => do
      match ← Task.call (E := RpcClients) (.startSequencerWithHash expectedHash) with
      | .ok () => return .ok ()
      | .error err =>
          if err.isInvalidParams then (startParameterlessAfterCheck expectedHash).run
          else return .error (.rpc err)

/-- `impl SequencerControl for SequencerController`. -/
def handle (startMode : SequencerStartMode) :
    (op : SequencerOp) → Task RpcClients (SequencerControl.Reply op)
  | .latestUnsafeBlock => (rpc .latestUnsafeBlock).run
  | .blockByNumber number => (rpc (.blockByNumber number)).run
  | .startSequencer expectedHash => startSequencer startMode expectedHash
  | .stopSequencer => (rpc .stopSequencer).run
  | .sequencerActive => (rpc .sequencerActive).run
  | .syncStatus => (rpc .syncStatus).run
  | .peerStats => (rpc .peerStats).run
  | .postUnsafePayload payload => (rpc (.postUnsafePayload payload)).run
  | .conductorEnabled => (rpc .conductorEnabled).run

end SequencerController
end ConductorRs

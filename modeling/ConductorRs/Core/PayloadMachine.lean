import ConductorRs.Concurrency.Guarded
import ConductorRs.Core.PayloadStore

/-!
The callers of one `FilePayloadStore`, next to each other.

A commit holds the write lock of `latest` over everything it does to the memory
and the file; a read takes the read lock for as long as it takes to copy the
payload, so it waits for no other reader. A payload whose number or hash does not
parse is rejected before the lock is asked for and is not a call here.
-/
namespace ConductorRs
open Concurrency

namespace FilePayloadStore

inductive StoreCall where
  | commit (payload : { payload : PayloadEnvelope // payload.Valid })
  | latest

inductive StoreAnswer where
  | committed (result : Except StoreError Unit)
  | latest (result : Except StoreError (Option PayloadEnvelope))

variable (json : JsonText) (path : Path)

def sections : StoreCall → Section LocalOps StoreAnswer
  | .commit payload => .exclusive do
      return .committed (← (commit json path payload.val).run)
  | .latest => .once LocalOp.latest fun latest => .latest (.ok latest)

def storeMachine (Tid : Type) [DecidableEq Tid] :
    Machine Tid (Guarded LocalOps StoreCall StoreAnswer)
      (GuardState Tid LocalState StoreCall StoreAnswer) StoreCall StoreAnswer
      (FileChoice String) Empty :=
  guardMachine (sections json path) LocalState.perform

end FilePayloadStore
end ConductorRs

import ConductorRs.Concurrency.Loop
import ConductorRs.Core.RpcServer

/-!
The two ways into the JSON-RPC server: `handle` for a POST and `handle_ws` for a
websocket. The socket gives the next message and takes one to send; both may fail.
The parser and the printer of serde_json are parameters.
-/
namespace ConductorRs.Rpc
open Concurrency

structure Serde where
  fromSlice : List UInt8 → Except String Value
  toText : Value → Option String

/-- What a POST is answered with. -/
inductive PostResponse where
  | json (body : Value)
  | noContent

def handle (serde : Serde) (proxy : Bool) (body : List UInt8) : Task Server PostResponse := do
  match ← handleBytes serde.fromSlice proxy body with
  | some response => return .json response
  | none => return .noContent

inductive Message where
  | text (text : String)
  | binary (bytes : List UInt8)
  | ping (bytes : List UInt8)
  | pong (bytes : List UInt8)
  | close (frame : Option (Nat × String))

/-- The end of the stream, a message, or an error of the connection; and whether a
message has been sent. -/
inductive SocketOp where
  | next
  | send (message : Message)

@[reducible] def SocketOp.Reply : SocketOp → Type
  | .next => Option (Except Unit Message)
  | .send _ => Bool

@[reducible] def SocketOps : Interface where
  Op := SocketOp
  Reply := SocketOp.Reply

@[reducible] def Connection : Interface := Server.sum SocketOps

def onServer {α : Type} (t : Task Server α) : Task Connection α :=
  t.interp fun o => Task.call (E := Connection) (.inl o)

section
variable (serde : Serde) (proxy : Bool)

end
end ConductorRs.Rpc

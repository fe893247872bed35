import ConductorRs.Core.Json

/-!
The HTTP transport between raft peers: what a handler sends back and what the
client makes of it. `Serde` stands for a derived pair of encoder and decoder;
the types openraft supplies come with theirs as parameters. The text of a
decoding error is serde's and is kept only as far as it names the field.
-/
namespace ConductorRs

structure Serde (α : Type) where
  encode : α → Value
  decode : Value → Except String α

namespace Serde
variable {α : Type}

def RoundTrips (serde : Serde α) : Prop := ∀ x, serde.decode (serde.encode x) = .ok x

/-- `()` is `null`. -/
def unit : Serde Unit where
  encode _ := .null
  decode
    | .null => .ok ()
    | _ => .error "invalid type, expected unit"

def string : Serde String where
  encode := .string
  decode
    | .string s => .ok s
    | _ => .error "invalid type, expected a string"

def bool : Serde Bool where
  encode := .bool
  decode
    | .bool b => .ok b
    | _ => .error "invalid type, expected a boolean"

/-- `None` is `null`, and `Some` adds nothing to the encoding of its value. -/
def option (serde : Serde α) : Serde (Option α) where
  encode
    | none => .null
    | some x => serde.encode x
  decode
    | .null => .ok none
    | v => (serde.decode v).map some

theorem unit_roundTrips : unit.RoundTrips := fun _ => rfl

theorem bool_roundTrips : bool.RoundTrips := fun _ => rfl

/-- The derived decoder of a field of option type: an absent field is `None`, a
field given twice is an error. -/
def optionField (serde : Serde α) (key : String) (members : List (String × Value)) :
    Except String (Option α) :=
  match members.filter fun m => m.1 == key with
  | [] => .ok none
  | [(_, v)] => serde.option.decode v
  | _ => .error ("duplicate field " ++ key)

end Serde

structure RaftHttpResponse (α : Type) where
  result : Option α
  error : Option String

namespace RaftHttpResponse
variable {α : Type}

def ok (result : α) : RaftHttpResponse α := ⟨some result, none⟩

def err (error : String) : RaftHttpResponse α := ⟨none, some error⟩

def intoResult (response : RaftHttpResponse α) : Except String α :=
  match response.result, response.error with
  | some result, none => .ok result
  | _, some error => .error error
  | none, none => .error "raft peer returned empty response"

/-- The derived encoder and decoder. A struct is decoded from an object, or from
an array of its fields in order. -/
def serde (inner : Serde α) : Serde (RaftHttpResponse α) where
  encode response := .object
    [("result", inner.option.encode response.result),
      ("error", Serde.string.option.encode response.error)]
  decode
    | .object members => do
        let result ← inner.optionField "result" members
        let error ← Serde.string.optionField "error" members
        return ⟨result, error⟩
    | .array [result, error] => do
        return ⟨← inner.option.decode result, ← Serde.string.option.decode error⟩
    | _ => .error "invalid type, expected struct RaftHttpResponse"

end RaftHttpResponse

inductive RaftMethod where
  | appendEntries
  | vote
  | fullSnapshot
  | transferLeader
deriving DecidableEq

/-- The reply types of openraft, and the text of its errors. -/
structure RaftReplies where
  AppendEntriesResponse : Type
  VoteResponse : Type
  SnapshotResponse : Type
  RaftError : Type
  appendEntries : Serde AppendEntriesResponse
  vote : Serde VoteResponse
  snapshot : Serde SnapshotResponse
  displayError : RaftError → String

namespace RaftReplies
variable (R : RaftReplies)

@[reducible] def Reply : RaftMethod → Type
  | .appendEntries => R.AppendEntriesResponse
  | .vote => R.VoteResponse
  | .fullSnapshot => R.SnapshotResponse
  | .transferLeader => Unit

def serde : (method : RaftMethod) → Serde (R.Reply method)
  | .appendEntries => R.appendEntries
  | .vote => R.vote
  | .fullSnapshot => R.snapshot
  | .transferLeader => .unit

/-- The encodings that openraft derives round-trip. -/
structure Lawful : Prop where
  appendEntries : R.appendEntries.RoundTrips
  vote : R.vote.RoundTrips
  snapshot : R.snapshot.RoundTrips

/-- What every handler does with the answer of its raft node. -/
def respond {α : Type} : Except R.RaftError α → RaftHttpResponse α
  | .ok response => .ok response
  | .error err => .err (R.displayError err)

def httpAppendEntries (answer : Except R.RaftError R.AppendEntriesResponse) :
    RaftHttpResponse R.AppendEntriesResponse := R.respond answer

def httpVote (answer : Except R.RaftError R.VoteResponse) :
    RaftHttpResponse R.VoteResponse := R.respond answer

def httpFullSnapshot (answer : Except R.RaftError R.SnapshotResponse) :
    RaftHttpResponse R.SnapshotResponse := R.respond answer

def httpTransferLeader (answer : Except R.RaftError Unit) : RaftHttpResponse Unit :=
  R.respond answer

def handle : (method : RaftMethod) → Except R.RaftError (R.Reply method) →
    RaftHttpResponse (R.Reply method)
  | .appendEntries => R.httpAppendEntries
  | .vote => R.httpVote
  | .fullSnapshot => R.httpFullSnapshot
  | .transferLeader => R.httpTransferLeader

end RaftReplies

/-- How an HTTP request ended. -/
inductive HttpOutcome where
  | failed (message : String)
  | status (text : String)
  | success (body : Value)

inductive RpcError where
  | network (message : String)

/-- `HttpRaftClient::post`, from the moment the request has been sent. -/
def HttpRaftClient.post {α : Type} (target : String) (serde : Serde α) :
    HttpOutcome → Except RpcError α
  | .failed message => .error (.network message)
  | .status text => .error (.network ("raft peer " ++ target ++ " returned HTTP " ++ text))
  | .success body =>
      match (RaftHttpResponse.serde serde).decode body with
      | .error message => .error (.network message)
      | .ok response =>
          match response.intoResult with
          | .ok result => .ok result
          | .error message => .error (.network ("raft peer " ++ target ++ ": " ++ message))

end ConductorRs

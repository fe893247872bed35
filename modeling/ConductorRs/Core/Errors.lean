import ConductorRs.Core.Types

/-!
The error types of the RPC clients, the sequencer controller, the consensus
layer and the conductor, with the texts they print. The control path inspects
these texts: an already running or already stopped sequencer and a transfer in
progress are recognised by substrings.
-/
namespace ConductorRs

inductive RpcClientError where
  | http (message : String)
  | jsonRpc (code : Int) (message : String) (data : Option Value)
  | missingResult
  | invalidResponse (message : String)
  | type (error : TypeError)

namespace RpcClientError

def display : RpcClientError → String
  | .http message => "http error: " ++ message
  | .jsonRpc code message _ => "json-rpc error " ++ toString code ++ ": " ++ message
  | .missingResult => "json-rpc response is missing result and error"
  | .invalidResponse message => "invalid response: " ++ message
  | .type error => "type error: " ++ error.display

def isInvalidParams : RpcClientError → Bool
  | .jsonRpc code _ _ => code == -32602
  | _ => false

end RpcClientError

inductive SequencerError where
  | rpc (error : RpcClientError)
  | unsafeHeadMismatch (expected actual : Hash) (number : Nat)

namespace SequencerError

def display : SequencerError → String
  | .rpc error => "rpc error: " ++ error.display
  | .unsafeHeadMismatch expected actual number =>
      "unsafe head mismatch: expected " ++ expected.display ++ ", node has " ++
        actual.display ++ " at block " ++ toString number

def messageContains (needles : List String) : SequencerError → Bool
  | .rpc (.jsonRpc _ message _) => needles.any (containsText message)
  | .rpc (.invalidResponse message) => needles.any (containsText message)
  | _ => false

def isSequencerAlreadyStarted (error : SequencerError) : Bool :=
  error.messageContains
    ["sequencer already running", "sequencer already started", "already started"]

def isSequencerAlreadyStopped (error : SequencerError) : Bool :=
  error.messageContains
    ["sequencer not running", "sequencer already stopped", "already stopped"]

end SequencerError

inductive StoreError where
  | payload (error : TypeError)
  | io (message : String)
  | serde (message : String)

def StoreError.display : StoreError → String
  | .payload error => "payload error: " ++ error.display
  | .io message => "io error: " ++ message
  | .serde message => "serialization error: " ++ message

inductive ConsensusError where
  | notLeader
  | serverNotFound (id : String)
  | serverAddrMismatch (id expected actual : String)
  | versionMismatch (expected actual : Nat)
  | invalidPayload (message : String)
  | raft (message : String)
  | store (error : StoreError)

namespace ConsensusError

def display : ConsensusError → String
  | .notLeader => "node is not the leader"
  | .serverNotFound id => "server " ++ id ++ " not found"
  | .serverAddrMismatch id expected actual =>
      "server " ++ id ++ " has addr " ++ actual ++ ", not requested addr " ++ expected
  | .versionMismatch expected actual =>
      "configuration changed since " ++ toString expected ++
        " (latest is " ++ toString actual ++ ")"
  | .invalidPayload message => "invalid unsafe payload: " ++ message
  | .raft message => "raft error: " ++ message
  | .store error => "store error: " ++ error.display

def isLeadershipTransferInProgress : ConsensusError → Bool
  | .raft message => containsText message "leadership transfer already in progress"
  | _ => false

end ConsensusError

inductive ConductorError where
  | stopped
  | noUnsafeHead
  | unsafeHeadMismatch
  | consensus (error : ConsensusError)
  | sequencer (error : SequencerError)
  | waitingForHealthRecovery
  | stopAndTransfer (stop transfer : String)

def ConductorError.display : ConductorError → String
  | .stopped => "conductor is stopped"
  | .noUnsafeHead => "no unsafe head"
  | .unsafeHeadMismatch => "unsafe head mismatch"
  | .consensus error => "consensus error: " ++ error.display
  | .sequencer error => "sequencer error: " ++ error.display
  | .waitingForHealthRecovery => "waiting for sequencing to become healthy by itself"
  | .stopAndTransfer stop transfer =>
      "failed to stop sequencer and transfer leadership: stop=" ++ stop ++
        "; transfer=" ++ transfer

end ConductorRs

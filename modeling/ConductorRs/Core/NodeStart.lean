import ConductorRs.Core.Startup

/-!
Opening the raft node: `RaftConsensus::new_http`.

The calls to openraft and to the store are operations. What a node keeps on disk is
reduced to whether its storage has been initialized: openraft takes a storage without
a vote and without a log for a new one, `initialize` succeeds on such a storage only,
and what it has written is there after a restart. A node may also be initialized by a
leader that adds it to a cluster.
-/
namespace ConductorRs.RaftConsensus
open Concurrency

/-- The part of openraft's configuration that is not a default. -/
structure RaftConfig where
  heartbeatInterval : Nat
  electionTimeoutMin : Nat
  electionTimeoutMax : Nat
  maxInSnapshotLogToKeep : Nat
deriving DecidableEq

/-- At most `u64::MAX`. -/
def millis (duration : Duration) : Nat := min (duration / 1000000) (UInt64.size - 1)

def openraftConfig (config : RaftConsensusConfig) : RaftConfig where
  heartbeatInterval := millis config.heartbeatInterval
  electionTimeoutMin := millis config.electionTimeoutMin
  electionTimeoutMax := millis config.electionTimeoutMax
  maxInSnapshotLogToKeep := config.trailingLogs

inductive BootOp where
  | openStore (storageDir serverId : String)
  | validate (config : RaftConfig)
  | raftNew (id : String) (config : RaftConfig)
  | isInitialized
  | raftInitialize (members : List (String × String))
  | spawnSnapshotLoop (interval : Duration) (threshold : Nat)

@[reducible] def BootOp.Reply : BootOp → Type
  | .openStore _ _ | .validate _ | .raftNew _ _ | .raftInitialize _ => Except String Unit
  | .isInitialized => Except String Bool
  | .spawnSnapshotLoop _ _ => Unit

@[reducible] def Boot : Interface where
  Op := BootOp
  Reply := BootOp.Reply

def bootOp (o : BootOp) : Task Boot o.Reply := Task.call (E := Boot) o

/-- A reply whose error is turned into one of consensus. -/
def raftResult {α : Type} (t : Task Boot (Except String α)) :
    ExceptT ConsensusError (Task Boot) α :=
  ExceptT.mk do return (← t).mapError .raft

def startSnapshotLoop (interval : Duration) (threshold : Nat) : Task Boot Unit :=
  if interval = 0 ∨ threshold = 0 then pure ()
  else bootOp (.spawnSnapshotLoop interval threshold)

def checkIdentity (config : RaftConsensusConfig) : Except ConsensusError Unit :=
  if config.serverId = "" then .error (.raft "missing raft server id")
  else if config.advertisedAddr = "" then .error (.raft "missing raft advertised address")
  else .ok ()

/-- A cluster of this node alone, if the storage is new. -/
def bootstrapNode (config : RaftConsensusConfig) : ExceptT ConsensusError (Task Boot) Bool :=
  if config.bootstrap then do
    let initialized ← raftResult (bootOp .isInitialized)
    if initialized then pure false
    else do
      raftResult (bootOp (.raftInitialize [(config.serverId, config.advertisedAddr)]))
      pure true
  else pure false

/-- Whether the node has been bootstrapped by this call. -/
def newHttp (config : RaftConsensusConfig) : ExceptT ConsensusError (Task Boot) Bool := do
  ExceptT.mk (.done (checkIdentity config))
  raftResult (bootOp (.openStore config.storageDir config.serverId))
  raftResult (bootOp (.validate (openraftConfig config)))
  raftResult (bootOp (.raftNew config.serverId (openraftConfig config)))
  let bootstrapped ← bootstrapNode config
  ExceptT.lift (startSnapshotLoop config.snapshotInterval config.snapshotThreshold)
  return bootstrapped

/-- Whether a node has a vote or a log on its disk. -/
structure Ground where
  initialized : Bool
deriving DecidableEq

/-- What the raft core answers, and whether a leader has initialized the node by the
end of the operation. -/
structure Whim where
  answer : (o : BootOp) → o.Reply
  joined : BootOp → Bool
  refusal : String

/-- A node can be initialized from outside once its raft core runs. -/
def Ground.perform (g : Ground) : (o : BootOp) → Whim → Option (o.Reply × Ground)
  | .openStore dir id, x => some (x.answer (.openStore dir id), g)
  | .validate config, x => some (x.answer (.validate config), g)
  | .raftInitialize members, x =>
      if g.initialized then some (.error x.refusal, g)
      else
        match x.answer (.raftInitialize members) with
        | .ok _ => some (.ok (), ⟨true⟩)
        | .error err => some (.error err, ⟨x.joined (.raftInitialize members)⟩)
  | .isInitialized, x =>
      some ((x.answer .isInitialized).map fun _ => g.initialized,
        ⟨g.initialized || x.joined .isInitialized⟩)
  | o, x => some (x.answer o, ⟨g.initialized || x.joined o⟩)

end ConductorRs.RaftConsensus

import ConductorRs.Core.Membership
import ConductorRs.Core.Sequencer

/-!
The conductor's control path. Every access to an atomic, every acquisition of a
mutex and every call to the consensus layer, the sequencer or a health probe is
one operation, so another call may run between any two of them. A mutex that is
released before the next await is taken and released inside one operation.
Elapsed times recorded as metrics are not modelled.
-/
namespace ConductorRs
open Concurrency Collections

inductive ConsensusOp where
  | serverId
  | leader
  | setLeaderForTests (leader : Bool)
  | membership
  | transferLeader
  | transferLeaderTo (id addr : String)
  | latestUnsafePayload
  | shutdown

@[reducible] def ConsensusOp.Reply : ConsensusOp → Type
  | .serverId => String
  | .leader => Bool
  | .setLeaderForTests _ => Unit
  | .membership => Except ConsensusError ClusterMembership
  | .transferLeader | .transferLeaderTo _ _ | .shutdown => Except ConsensusError Unit
  | .latestUnsafePayload => Except ConsensusError (Option PayloadEnvelope)

inductive RollupBoostHealthStatus where
  | healthy
  | partially
  | unhealthy
deriving DecidableEq

inductive ProbeOp where
  | supervisor
  | executionP2pPeerCount
  | rollupBoost

/-- The failure of a probe is the text its error prints. -/
@[reducible] def ProbeOp.Reply : ProbeOp → Type
  | .supervisor => Except String Unit
  | .executionP2pPeerCount => Except String Nat
  | .rollupBoost => Except String RollupBoostHealthStatus

/-- Intervals in seconds, as `Duration::as_secs` reads them. -/
structure RollupBoostPartialHealthTolerance where
  limit : Nat
  interval : Nat
deriving DecidableEq

structure ConductorConfig where
  startPaused : Bool
  unsafeRepairDepth : Nat
  roundRobinLeaderTransfer : Bool
  healthcheckUnsafeInterval : Nat
  healthcheckSafeEnabled : Bool
  healthcheckSafeInterval : Nat
  healthcheckMinPeerCount : Nat
  executionP2pMinPeerCount : Option Nat
  supervisorHealth : Bool
  rollupBoostHealth : Bool
  rollupBoostPartialHealthTolerance : Option RollupBoostPartialHealthTolerance

def ConductorConfig.default : ConductorConfig where
  startPaused := false
  unsafeRepairDepth := 1
  roundRobinLeaderTransfer := false
  healthcheckUnsafeInterval := 60
  healthcheckSafeEnabled := false
  healthcheckSafeInterval := 1200
  healthcheckMinPeerCount := 1
  executionP2pMinPeerCount := none
  supervisorHealth := false
  rollupBoostHealth := false
  rollupBoostPartialHealthTolerance := none

inductive Health where
  | healthy
  | unhealthy (reason : String)
  | sequencerConnectionDown (reason : String)
  | supervisorConnectionDown (reason : String)
  | executionP2pConnectionDown (reason : String)
  | rollupBoostConnectionDown (reason : String)
  | rollupBoostPartiallyHealthy (reason : String)
deriving DecidableEq

namespace Health

def isHealthy : Health → Bool
  | .healthy => true
  | _ => false

def preventsNewLeaderStart : Health → Bool
  | .sequencerConnectionDown _ => true
  | _ => false

def preventsHealthRecoveryWait : Health → Bool
  | .sequencerConnectionDown _ | .rollupBoostPartiallyHealthy _ => true
  | _ => false

def rollupBoostNotHealthy : String := "rollup boost is not healthy"

def sequencerConnectionDownError : String := "cannot connect to sequencer rpc endpoints"

def metricError : Health → String
  | .healthy => ""
  | .unhealthy reason =>
      if reason = rollupBoostNotHealthy then reason else "sequencer is not healthy"
  | .sequencerConnectionDown _ => sequencerConnectionDownError
  | .supervisorConnectionDown _ => "cannot connect to supervisor rpc endpoint"
  | .executionP2pConnectionDown reason => reason
  | .rollupBoostConnectionDown _ => "cannot connect to rollup boost rpc endpoints"
  | .rollupBoostPartiallyHealthy _ =>
      "rollup boost is partially healthy, meaning that rbuilder is not healthy but the " ++
        "execution client is healthy"

end Health

structure TimeBoundedCounter where
  buckets : BTreeMap Nat Nat
deriving DecidableEq

namespace TimeBoundedCounter

def default : TimeBoundedCounter := ⟨.empty⟩

def bucket (now intervalSecs : Nat) : Nat := now / intervalSecs

def currentValue (counter : TimeBoundedCounter) (now intervalSecs : Nat) : Nat :=
  (counter.buckets.get? (bucket now intervalSecs)).getD 0

def increment (counter : TimeBoundedCounter) (now intervalSecs : Nat) :
    Nat × TimeBoundedCounter :=
  let latest := counter.currentValue now intervalSecs + 1
  let buckets := counter.buckets.insert (bucket now intervalSecs) latest
  if buckets.entries.length > 1000 then
    (latest, ⟨BTreeMap.empty.insert (bucket now intervalSecs) latest⟩)
  else (latest, ⟨buckets⟩)

end TimeBoundedCounter

namespace Conductor

structure State where
  leader : Bool
  healthy : Bool
  active : Bool
deriving DecidableEq

inductive Flag where
  | paused
  | stopping
  | stopped
  | seqActive
deriving DecidableEq

inductive Lock where
  | action
  | stop
deriving DecidableEq

inductive Metric where
  | stateChange (leader healthy active : Bool)
  | startSequencer (success : Bool)
  | stopSequencer (success : Bool)
  | leaderTransfer (success : Bool)
  | healthCheck (healthy : Bool) (error : String)
  | loopExecutionTime
deriving DecidableEq

inductive Op where
  | load (flag : Flag)
  | store (flag : Flag) (value : Bool)
  | lock (lock : Lock)
  | unlock (lock : Lock)
  | cloneHealthy
  | setHealthy (health : Health)
  | copyPrevious
  | setPrevious (state : State)
  | updatePrevious (state : State)
  | nextActionSeq
  | sendAction (seq : Nat)
  | sendStopped
  | tolerate (now : Nat) (tolerance : RollupBoostPartialHealthTolerance)
  | consensus (op : ConsensusOp)
  | sequencer (op : SequencerOp)
  | probe (op : ProbeOp)
  | metric (metric : Metric)

@[reducible] def Op.Reply : Op → Type
  | .load _ | .updatePrevious _ | .tolerate _ _ => Bool
  | .cloneHealthy => Health
  | .copyPrevious => State
  | .nextActionSeq => Nat
  | .consensus op => op.Reply
  | .sequencer op => SequencerControl.Reply op
  | .probe op => op.Reply
  | .store _ _ | .lock _ | .unlock _ | .setHealthy _ | .setPrevious _ | .sendAction _
  | .sendStopped | .metric _ => Unit

@[reducible] def Shared : Interface where
  Op := Op
  Reply := Op.Reply

abbrev Outcome := Except ConductorError Unit

def op (o : Op) : Task Shared o.Reply := Task.call (E := Shared) o

/-- A trait call whose error is wrapped with `#[from]`. -/
def sequencer (o : SequencerOp) : ExceptT ConductorError (Task Shared) o.Result :=
  ExceptT.mk do return (← op (.sequencer o)).mapError .sequencer

def stoppingOrStopped : Task Shared Bool := do
  if ← op (.load .stopping) then return true
  op (.load .stopped)

def active : Task Shared Bool := do
  if ← op (.load .paused) then return false
  return !(← op (.load .stopped))

def queueAction : Task Shared Unit := do
  let next ← op .nextActionSeq
  op (.sendAction next)

def refreshSequencerActive : Task Shared Outcome := ExceptT.run do
  let active ← sequencer .sequencerActive
  op (.store .seqActive active)

def seedPreviousStateFromCurrent : Task Shared Unit := do
  let health ← op .cloneHealthy
  let leader ← op (.consensus .leader)
  let active ← op (.load .seqActive)
  op (.setPrevious ⟨leader, health.isHealthy, active⟩)

def initializeStartupState : Task Shared Outcome := ExceptT.run do
  Task.attempt refreshSequencerActive
  seedPreviousStateFromCurrent

def stopSequencer : Task Shared Outcome := do
  match ← op (.sequencer .stopSequencer) with
  | .ok _ =>
      op (.store .seqActive false)
      op (.metric (.stopSequencer true))
      return .ok ()
  | .error err =>
      if err.isSequencerAlreadyStopped then
        op (.store .seqActive false)
        op (.metric (.stopSequencer false))
        return .ok ()
      else
        op (.metric (.stopSequencer false))
        return .error (.sequencer err)

/-- The hash to start from, once the node's head has been compared with the
committed payload. -/
def startHash (cfg : ConductorConfig) (unsafePayload : PayloadEnvelope)
    (consensusHash : Hash) (consensusNumber : Nat) (nodeHead : BlockInfo) :
    ExceptT ConductorError (Task Shared) Hash := do
  if nodeHead.hash = consensusHash then
    return consensusHash
  else if consensusNumber > nodeHead.number ∧
      consensusNumber - nodeHead.number ≤ cfg.unsafeRepairDepth then
    sequencer (.postUnsafePayload unsafePayload)
    return consensusHash
  else if nodeHead.number > consensusNumber then
    let ancestor ← sequencer (.blockByNumber consensusNumber)
    if ancestor.hash ≠ consensusHash then throw .unsafeHeadMismatch
    return nodeHead.hash
  else
    throw .unsafeHeadMismatch

/-- The start command itself; the result tells an already running sequencer. -/
def sendStart (hash : Hash) : Task Shared (Except ConductorError Bool) := do
  match ← op (.sequencer (.startSequencer hash)) with
  | .ok _ =>
      op (.store .seqActive true)
      return .ok false
  | .error err =>
      if err.isSequencerAlreadyStarted then
        op (.store .seqActive true)
        return .ok true
      else return .error (.sequencer err)

def startBody (cfg : ConductorConfig) : ExceptT ConductorError (Task Shared) Bool := do
  let latest ← ExceptT.mk do
    return (← op (.consensus .latestUnsafePayload)).mapError ConductorError.consensus
  let some unsafePayload := latest | throw .noUnsafeHead
  let consensusHash ← ExceptT.mk (Task.done
    (unsafePayload.blockHash.mapError fun _ => ConductorError.unsafeHeadMismatch))
  let consensusNumber ← ExceptT.mk (Task.done
    (unsafePayload.blockNumber.mapError fun _ => ConductorError.unsafeHeadMismatch))
  let nodeHead ← sequencer .latestUnsafeBlock
  let hash ← startHash cfg unsafePayload consensusHash consensusNumber nodeHead
  Task.attempt (sendStart hash)

def startSequencer (cfg : ConductorConfig) : Task Shared Outcome := do
  match ← (startBody cfg).run with
  | .ok alreadyStarted =>
      op (.metric (.startSequencer !alreadyStarted))
      return .ok ()
  | .error err =>
      op (.metric (.startSequencer false))
      return .error err

/-- The candidates of a round-robin transfer are tried in turn. -/
def tryTargets : List ServerInfo → Task Shared Bool
  | [] => return false
  | target :: rest => do
      match ← op (.consensus (.transferLeaderTo target.id target.addr)) with
      | .ok _ => return true
      | .error err =>
          if err.isLeadershipTransferInProgress then return true else tryTargets rest

def idLe (left right : ServerInfo) : Bool := decide (left.id ≤ right.id)

/-- The voters after the current one, wrapping around. -/
def rotation (voters : List ServerInfo) (current : Nat) : List ServerInfo :=
  (List.range' 1 (voters.length - 1)).filterMap fun offset =>
    voters[(current + offset) % voters.length]?

def transferLeader : Task Shared Outcome := do
  return (← op (.consensus .transferLeader)).mapError ConductorError.consensus

def transferLeaderRoundRobin : Task Shared Outcome := ExceptT.run do
  let membership ← ExceptT.mk do
    return (← op (.consensus .membership)).mapError ConductorError.consensus
  let voters := membership.servers.filter fun server => server.suffrage = .voter
  if voters.length ≤ 1 then return ()
  let voters := voters.mergeSort idLe
  let serverId ← (op (.consensus .serverId) : Task Shared String)
  let some current := voters.findIdx? fun server => server.id = serverId
    | throw (.consensus (.serverNotFound serverId))
  if ← tryTargets (rotation voters current) then return ()
  Task.attempt transferLeader

def transferLeaderInternal (cfg : ConductorConfig) : Task Shared Outcome := do
  let wasConsensusLeader ← op (.consensus .leader)
  if !wasConsensusLeader then
    op (.metric (.leaderTransfer false))
    return .ok ()
  let transferred ← if cfg.roundRobinLeaderTransfer then transferLeaderRoundRobin
    else transferLeader
  match transferred with
  | .ok _ =>
      op (.consensus (.setLeaderForTests false))
      op (.metric (.leaderTransfer true))
      return .ok ()
  | .error err =>
      op (.metric (.leaderTransfer false))
      return .error err

def stopAndTransferLeader (cfg : ConductorConfig) : Task Shared Outcome := do
  let stopResult ← stopSequencer
  let transferResult ← transferLeaderInternal cfg
  match stopResult, transferResult with
  | .ok _, .ok _ => return .ok ()
  | .error err, .ok _ | .ok _, .error err => return .error err
  | .error stop, .error transfer =>
      return .error (.stopAndTransfer stop.display transfer.display)

/-- Remember the state once its action has succeeded. -/
def settle (status : State) (result : Outcome) : Task Shared Outcome := do
  if result.isOk then
    if ← op (.updatePrevious status) then
      op (.metric (.stateChange status.leader status.healthy status.active))
  return result

def shouldWaitForHealthRecovery (health : Health) : Task Shared Bool := do
  let prev ← op .copyPrevious
  return prev.leader && !prev.healthy && !prev.active && !health.preventsHealthRecoveryWait

/-- The reaction of `action_locked` to the state it has observed. -/
def react (cfg : ConductorConfig) (health : Health) (status : State) :
    Task Shared Outcome := do
  match status with
  | ⟨false, _, true⟩ => settle status (← stopSequencer)
  | ⟨true, true, false⟩ => settle status (← startSequencer cfg)
  | ⟨true, false, false⟩ =>
      let prev ← op .copyPrevious
      if !prev.leader && !prev.active && !health.preventsNewLeaderStart then
        match ← startSequencer cfg with
        | .ok _ => settle status (.ok ())
        | .error _ => settle status (← transferLeaderInternal cfg)
      else settle status (← transferLeaderInternal cfg)
  | ⟨true, false, true⟩ =>
      if ← shouldWaitForHealthRecovery health then
        return .error .waitingForHealthRecovery
      else settle status (← stopAndTransferLeader cfg)
  | _ => settle status (.ok ())

def actionLocked (cfg : ConductorConfig) : Task Shared Outcome := do
  if ← op (.load .paused) then return .ok ()
  if ← stoppingOrStopped then return .ok ()
  let health ← op .cloneHealthy
  let leader ← op (.consensus .leader)
  let active ← op (.load .seqActive)
  react cfg health ⟨leader, health.isHealthy, active⟩

def action (cfg : ConductorConfig) : Task Shared Outcome := do
  op (.lock .action)
  let result ← actionLocked cfg
  op (.unlock .action)
  return result

def updateHealth (cfg : ConductorConfig) (health : Health) : Task Shared Outcome := do
  op (.setHealthy health)
  action cfg

def checkSupervisor (cfg : ConductorConfig) : Task Shared (Option Health) := do
  if !cfg.supervisorHealth then return none
  match ← op (.probe .supervisor) with
  | .ok _ => return none
  | .error err => return some (.supervisorConnectionDown ("supervisor sync status: " ++ err))

def checkSyncStatus (cfg : ConductorConfig) (now : Nat) (status : SyncStatus) :
    Option Health :=
  let unsafeLag := now - status.unsafeL2.time
  let safeLag := now - status.safeL2.time
  if unsafeLag > cfg.healthcheckUnsafeInterval then
    some (.unhealthy ("unsafe head is " ++ toString unsafeLag ++ "s behind, above " ++
      toString cfg.healthcheckUnsafeInterval ++ "s interval"))
  else if cfg.healthcheckSafeEnabled ∧ safeLag > cfg.healthcheckSafeInterval then
    some (.unhealthy ("safe head is " ++ toString safeLag ++ "s behind, above " ++
      toString cfg.healthcheckSafeInterval ++ "s interval"))
  else none

def checkPeerStats (cfg : ConductorConfig) (stats : PeerStats) : Option Health :=
  if stats.connected < cfg.healthcheckMinPeerCount then
    some (.unhealthy ("peer count " ++ toString stats.connected ++ " below minimum " ++
      toString cfg.healthcheckMinPeerCount))
  else none

def checkExecutionP2p (cfg : ConductorConfig) : Task Shared (Option Health) := do
  match cfg.executionP2pMinPeerCount with
  | none => return none
  | some minPeerCount =>
      match ← op (.probe .executionP2pPeerCount) with
      | .ok peerCount =>
          if peerCount < minPeerCount then
            return some (.unhealthy ("execution p2p peer count " ++ toString peerCount ++
              " below minimum " ++ toString minPeerCount))
          else return none
      | .error err =>
          return some (.executionP2pConnectionDown ("execution p2p peer count: " ++ err))

def tolerateRollupBoostPartialHealth (cfg : ConductorConfig) (now : Nat) :
    Task Shared Bool := do
  match cfg.rollupBoostPartialHealthTolerance with
  | none => return false
  | some tolerance =>
      if tolerance.limit = 0 ∨ tolerance.interval = 0 then return false
      else op (.tolerate now tolerance)

def checkRollupBoost (cfg : ConductorConfig) (now : Nat) : Task Shared (Option Health) := do
  if !cfg.rollupBoostHealth then return none
  match ← op (.probe .rollupBoost) with
  | .ok .healthy => return none
  | .ok .partially =>
      if ← tolerateRollupBoostPartialHealth cfg now then return none
      else return some (.rollupBoostPartiallyHealthy "rollup boost is partially healthy")
  | .ok .unhealthy => return some (.unhealthy Health.rollupBoostNotHealthy)
  | .error err => return some (.rollupBoostConnectionDown ("rollup boost: " ++ err))

def checkHealthAt (cfg : ConductorConfig) (now : Nat) : Task Shared Health := do
  match ← op (.sequencer .syncStatus) with
  | .error err => return .sequencerConnectionDown ("sync status: " ++ err.display)
  | .ok status =>
      if let some health ← checkSupervisor cfg then return health
      if let some health := checkSyncStatus cfg now status then return health
      match ← op (.sequencer .peerStats) with
      | .error err => return .sequencerConnectionDown ("peer stats: " ++ err.display)
      | .ok stats =>
          if let some health := checkPeerStats cfg stats then return health
          if let some health ← checkExecutionP2p cfg then return health
          return (← checkRollupBoost cfg now).getD .healthy

def tick (cfg : ConductorConfig) (now : Nat) : Task Shared Outcome := do
  if ← stoppingOrStopped then
    op (.metric .loopExecutionTime)
    return .ok ()
  let result ← match ← refreshSequencerActive with
    | .ok _ => do
        let health ← checkHealthAt cfg now
        op (.metric (.healthCheck health.isHealthy health.metricError))
        updateHealth cfg health
    | .error err => do
        op (.metric (.healthCheck false Health.sequencerConnectionDownError))
        updateHealth cfg (.sequencerConnectionDown err.display)
  op (.metric .loopExecutionTime)
  return result

def pause : Task Shared Outcome := do
  if ← op (.load .stopped) then return .error .stopped
  op (.lock .action)
  op (.store .paused true)
  op (.unlock .action)
  return .ok ()

def resume : Task Shared Outcome := ExceptT.run do
  if ← (op (.load .stopped) : Task Shared Bool) then throw .stopped
  let active ← sequencer .sequencerActive
  op (.store .seqActive active)
  op (.store .paused false)
  queueAction

def stop : Task Shared Outcome := do
  op (.lock .stop)
  if ← op (.load .stopped) then
    op (.unlock .stop)
    return .ok ()
  op (.store .stopping true)
  op (.lock .action)
  match ← op (.consensus .shutdown) with
  | .error err =>
      op (.unlock .action)
      op (.unlock .stop)
      return .error (.consensus err)
  | .ok _ =>
      op (.store .stopped true)
      op .sendStopped
      op (.unlock .action)
      op (.unlock .stop)
      return .ok ()

end Conductor
end ConductorRs

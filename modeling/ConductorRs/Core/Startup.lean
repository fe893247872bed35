import ConductorRs.Core.Conductor
import ConductorRs.Core.PayloadEncoding
import ConductorRs.Core.RollupConfig

/-!
`main`: from parsed arguments to the end of the process.

Everything that leaves the process is one operation: reading the rollup config,
resolving and binding addresses, opening the raft node, the calls to the node, and
the `select!` over the services, which ends with the first of them. An error is the
chain of its contexts, the outermost first; of an error in the rollup config the
outermost context is kept. Arguments that only the logger reads are left out, and so
are the overrides of fork times, which nothing reads.
-/
namespace ConductorRs
open Concurrency

def RpcClientError.isMethodNotFound : RpcClientError → Bool
  | .jsonRpc code message _ => code == -32601 || containsText message.toLower "method not found"
  | _ => false

/-- In nanoseconds. -/
abbrev Duration := Nat

def Duration.fromSecs (seconds : Nat) : Duration := seconds * 1000000000

def Duration.asSecs (d : Duration) : Nat := d / 1000000000

inductive ExecutionP2pCheckApi where
  | net
  | admin
deriving DecidableEq

inductive PprofProfile where
  | cpu
  | heap
  | goroutine
  | threadcreate
  | block
  | mutex
  | allocs
deriving DecidableEq

structure ExecutionP2pHealthConfig (Url : Type) where
  rpc : Url
  checkApi : ExecutionP2pCheckApi
  minPeerCount : Nat

inductive RollupBoostHealthConfig (Url : Type) where
  | statusCode (baseUrl : Url) (timeout : Duration)
  | json (url : String) (timeout : Duration)

/-- The arguments with their defaults. -/
structure Args (Url : Type) where
  nodeRpc : Url
  executionRpc : Url
  network : Option String := none
  rollupConfig : Option String := none
  supervisorRpc : Option String := none
  serverId : String
  storageDir : String
  raftBootstrap : Bool := false
  consensusAddr : String := "127.0.0.1"
  consensusPort : Int := 50050
  consensusAdvertised : Option String := none
  raftSnapshotInterval : Duration := Duration.fromSecs 120
  raftSnapshotThreshold : Nat := 8192
  raftTrailingLogs : Nat := 10240
  raftHeartbeatTimeout : Duration := 1000000000
  raftLeaseTimeout : Duration := 500000000
  rpcAddr : String := "0.0.0.0"
  rpcPort : Int := 8545
  rpcEnableProxy : Bool := true
  metricsEnabled : Bool := false
  metricsAddr : String := "0.0.0.0"
  metricsPort : Int := 7300
  pprofEnabled : Bool := false
  pprofAddr : String := "0.0.0.0"
  pprofPort : Int := 6060
  pprofPath : Option String := none
  pprofType : Option PprofProfile := none
  rollupboostWsUrl : Option String := none
  websocketServerPort : Int := 8546
  paused : Bool := false
  startMode : SequencerStartMode := .hashParam
  unsafeRepairDepth : Nat := 1
  raftRoundRobinLeaderTransfer : Bool := false
  healthcheckInterval : Option Duration := none
  healthcheckUnsafeInterval : Option Duration := none
  healthcheckSafeEnabled : Bool := false
  healthcheckSafeInterval : Duration := Duration.fromSecs 1200
  healthcheckMinPeerCount : Option Nat := none
  healthcheckExecutionP2pEnabled : Bool := false
  healthcheckExecutionP2pMinPeerCount : Nat := 0
  healthcheckExecutionP2pRpcUrl : Option String := none
  healthcheckExecutionP2pCheckApi : String := "net"
  rollupBoostEnabled : Bool := false
  rollupBoostHealthcheckTimeout : Duration := Duration.fromSecs 5
  rollupBoostNextEnabled : Bool := false
  rollupBoostNextHealthcheckUrl : Option String := none
  rollupBoostPartialHealthinessToleranceLimit : Nat := 0
  rollupBoostPartialHealthinessToleranceIntervalSeconds : Nat := 0

structure RaftConsensusConfig where
  serverId : String
  advertisedAddr : String
  storageDir : String
  bootstrap : Bool
  snapshotInterval : Duration
  heartbeatInterval : Duration
  electionTimeoutMin : Duration
  electionTimeoutMax : Duration
  snapshotThreshold : Nat
  trailingLogs : Nat

/-- The configuration of the conductor with the clients it talks to. -/
structure ConductorSettings (Url : Type) where
  startPaused : Bool
  unsafeRepairDepth : Nat
  roundRobinLeaderTransfer : Bool
  healthcheckUnsafeInterval : Duration
  healthcheckSafeEnabled : Bool
  healthcheckSafeInterval : Duration
  healthcheckMinPeerCount : Nat
  executionP2pHealth : Option (ExecutionP2pHealthConfig Url)
  supervisorHealth : Option Url
  rollupBoostHealth : Option (RollupBoostHealthConfig Url)
  rollupBoostPartialHealthTolerance : Option RollupBoostPartialHealthTolerance

/-- The configuration as the control path reads it. -/
def ConductorSettings.config {Url : Type} (s : ConductorSettings Url) : ConductorConfig where
  startPaused := s.startPaused
  unsafeRepairDepth := s.unsafeRepairDepth
  roundRobinLeaderTransfer := s.roundRobinLeaderTransfer
  healthcheckUnsafeInterval := Duration.asSecs s.healthcheckUnsafeInterval
  healthcheckSafeEnabled := s.healthcheckSafeEnabled
  healthcheckSafeInterval := Duration.asSecs s.healthcheckSafeInterval
  healthcheckMinPeerCount := s.healthcheckMinPeerCount
  executionP2pMinPeerCount := s.executionP2pHealth.map ExecutionP2pHealthConfig.minPeerCount
  supervisorHealth := s.supervisorHealth.isSome
  rollupBoostHealth := s.rollupBoostHealth.isSome
  rollupBoostPartialHealthTolerance := s.rollupBoostPartialHealthTolerance

/-- What the `select!` is started with. The flashblocks server, if there is one,
reads its port when it starts. -/
structure Services (Url Addr : Type) where
  settings : ConductorSettings Url
  rpcAddr : Addr
  consensusAddr : Addr
  metricsAddr : Option Addr
  pprofAddr : Option Addr
  rollupboostWsUrl : Option Url
  websocketServerPort : Int
  proxy : Option (Url × Url)
  healthcheckInterval : Duration

namespace Startup

/-- The contexts of an error, the outermost first. -/
abbrev Failure := List String

inductive StartOp (Url Addr : Type) where
  | readToString (path : String)
  | toSocketAddrs (host : String) (port : Nat)
  | bind (addr : Addr)
  | localAddr
  | newHttp (config : RaftConsensusConfig)
  | conductorEnabled
  | sleep
  | initializeStartupState (settings : ConductorSettings Url)
  | startCpuFileProfiler (path : Option String)
  | recordUp
  | select (services : Services Url Addr)
  | stop
  | finishProfiler

/-- A raft node tells whether it has just been bootstrapped, and the profiler where
its profile goes. -/
@[reducible] def StartOp.Reply {Url Addr : Type} : StartOp Url Addr → Type
  | .readToString _ => Except String String
  | .toSocketAddrs _ _ => Except String (List Addr)
  | .bind _ | .startCpuFileProfiler _ | .finishProfiler => Except String Unit
  | .localAddr => Except String Addr
  | .newHttp _ => Except ConsensusError Bool
  | .conductorEnabled => Except SequencerError Bool
  | .sleep | .recordUp => Unit
  | .initializeStartupState _ | .stop => Except ConductorError Unit
  | .select _ => Except Failure Unit

@[reducible] def Env (Url Addr : Type) : Interface where
  Op := StartOp Url Addr
  Reply := StartOp.Reply

/-- Parsing and printing that other crates do. -/
structure Platform (Url Addr : Type) where
  parseUrl : String → Except String Url
  parseSocketAddr : String → Option Addr
  display : Addr → String
  debug : String → String
  json : JsonText

section
variable {Url Addr : Type}

abbrev Attempt (Url Addr : Type) := ExceptT Failure (Task (Env Url Addr))

def op (o : StartOp Url Addr) : Task (Env Url Addr) o.Reply := Task.call (E := Env Url Addr) o

def check {α : Type} (r : Except Failure α) : Attempt Url Addr α := ExceptT.mk (.done r)

def context {α ε : Type} (text : String) (display : ε → Failure) (r : Except ε α) :
    Except Failure α :=
  r.mapError fun err => text :: display err

/-- A reply whose error is wrapped in a context. -/
def attempt {α ε : Type} (text : String) (display : ε → String)
    (t : Task (Env Url Addr) (Except ε α)) : Attempt Url Addr α := ExceptT.mk do
  return context text (fun err => [display err]) (← t)

/-- `char::is_whitespace`. -/
def isWhitespace (c : Char) : Bool :=
  (9 ≤ c.toNat && c.toNat ≤ 13) || c.toNat == 32 || c.toNat == 0x85 || c.toNat == 0xA0 ||
    c.toNat == 0x1680 || (0x2000 ≤ c.toNat && c.toNat ≤ 0x200A) || c.toNat == 0x2028 ||
    c.toNat == 0x2029 || c.toNat == 0x202F || c.toNat == 0x205F || c.toNat == 0x3000

def trim (raw : String) : String :=
  String.ofList (((raw.toList.dropWhile isWhitespace).reverse.dropWhile isWhitespace).reverse)

def optionalString (raw : Option String) : Option String :=
  raw.filter fun value => value ≠ ""

def knownRollupNetworks : List String :=
  ["arena-z-mainnet", "arena-z-sepolia", "automata-mainnet", "base-devnet-0-sepolia-dev-0",
    "base-mainnet", "base-sepolia", "bob-mainnet", "camp-sepolia",
    "creator-chain-testnet-sepolia", "cyber-mainnet", "cyber-sepolia", "ethernity-mainnet",
    "ethernity-sepolia", "fraxtal-mainnet", "funki-mainnet", "funki-sepolia",
    "hashkeychain-mainnet", "ink-mainnet", "ink-sepolia", "lisk-mainnet", "lisk-sepolia",
    "lyra-mainnet", "metal-mainnet", "metal-sepolia", "mint-mainnet", "mode-mainnet",
    "mode-sepolia", "op-mainnet", "op-sepolia", "oplabs-devnet-0-sepolia-dev-0",
    "orderly-mainnet", "ozean-sepolia", "pivotal-sepolia", "polynomial-mainnet", "race-mainnet",
    "race-sepolia", "radius_testnet-sepolia", "redstone-mainnet",
    "rehearsal-0-bn-0-rehearsal-0-bn", "rehearsal-0-bn-1-rehearsal-0-bn",
    "settlus-mainnet-mainnet", "settlus-sepolia-sepolia", "shape-mainnet", "shape-sepolia",
    "silent-data-mainnet-mainnet", "snax-mainnet", "soneium-mainnet", "soneium-minato-sepolia",
    "sseed-mainnet", "swan-mainnet", "swell-mainnet", "tbn-mainnet", "tbn-sepolia",
    "unichain-mainnet", "unichain-sepolia", "worldchain-mainnet", "worldchain-sepolia",
    "xterio-eth-mainnet", "zora-mainnet", "zora-sepolia"]

variable (p : Platform Url Addr) (args : Args Url)

def validateNetworkName (raw : String) : Except Failure Unit :=
  let normalized := match (trim raw).toLower with
    | "mainnet" => "op-mainnet"
    | "sepolia" => "op-sepolia"
    | other => other
  if knownRollupNetworks.any fun network => network.toLower == normalized.toLower then .ok ()
  else .error ["invalid network: " ++ p.debug raw]

def validateRollupConfigSource : Attempt Url Addr Unit :=
  match args.network.filter fun network => trim network ≠ "" with
  | some network => check (validateNetworkName p network)
  | none => do
      let some path := args.rollupConfig
        | throw ["failed to load rollup config: missing network or rollup.config"]
      let raw ← attempt ("failed to read rollup config " ++ path) id (op (.readToString path))
      let config ← check (context ("failed to decode rollup config " ++ path) (fun err => [err])
        (p.json.parse raw))
      check (context ("invalid rollup config " ++ path) (fun err => [err])
        (RollupConfig.validateRollupConfigJson config))

/-- A port that is given as any integer. -/
def port (message : String) (port : Int) : Except Failure Nat :=
  if 0 ≤ port ∧ port ≤ 65535 then .ok port.toNat else .error [message]

def rpcPort := port "invalid RPC port"

def observabilityPort (value : Int) (name : String) : Except Failure Nat :=
  port ("invalid " ++ name ++ " port") value

def websocketServerPort (value : Int) : Except Failure Nat :=
  port ("WebSocket server port invalid: " ++ toString value) value

def ensure (condition : Bool) (message : String) : Except Failure Unit :=
  if condition then .ok () else .error [message]

def required {α : Type} (flag : String) (value : Option α) : Except Failure α :=
  value.elim (.error ["flag " ++ flag ++ " is required"]) .ok

/-- A port that matters only for a server that is enabled. -/
def onlyIf (enabled : Bool) (port : Except Failure Nat) : Except Failure Unit :=
  if enabled then port.map fun _ => () else .ok ()

/-- The checks before the rollup config is looked at. -/
def validateModes : Except Failure Unit := do
  ensure (!(args.rollupBoostEnabled && args.rollupBoostNextEnabled))
    "only one of rollup-boost or rollup-boost next healthchecks can be enabled"
  ensure (!(args.rollupBoostNextEnabled &&
      (optionalString args.rollupBoostNextHealthcheckUrl).isNone))
    "missing rollup-boost next healthcheck URL"

/-- The checks after it. -/
def validateValues : Except Failure Unit := do
  ensure (args.consensusAddr ≠ "") "missing consensus address"
  let _ ← rpcPort args.consensusPort
  let _ ← rpcPort args.rpcPort
  ensure (args.serverId ≠ "") "missing raft server ID"
  ensure (args.storageDir ≠ "") "missing raft storage directory"
  let healthcheckInterval ← required "healthcheck.interval" args.healthcheckInterval
  let _ ← required "healthcheck.unsafe-interval" args.healthcheckUnsafeInterval
  let healthcheckMinPeerCount ← required "healthcheck.min-peer-count" args.healthcheckMinPeerCount
  ensure (healthcheckInterval ≠ 0) "missing health check interval"
  ensure (args.healthcheckSafeInterval ≠ 0) "missing safe interval"
  ensure (healthcheckMinPeerCount ≠ 0) "missing minimum peer count"
  ensure (!(args.healthcheckExecutionP2pEnabled &&
      args.healthcheckExecutionP2pMinPeerCount == 0)) "missing minimum el p2p peers"
  ensure (!(args.healthcheckExecutionP2pEnabled &&
      trim args.healthcheckExecutionP2pCheckApi == "")) "missing el p2p check api"
  ensure (!(args.healthcheckExecutionP2pEnabled &&
      !(args.healthcheckExecutionP2pCheckApi == "net" ||
        args.healthcheckExecutionP2pCheckApi == "admin"))) "invalid el p2p check api"
  ensure (decide (args.rollupBoostPartialHealthinessToleranceLimit = 0) ==
      decide (args.rollupBoostPartialHealthinessToleranceIntervalSeconds = 0))
    ("only one of RollupBoostPartialHealthinessToleranceLimit or " ++
      "RollupBoostPartialHealthinessToleranceIntervalSeconds found to be defined. " ++
      "Either define both of them or none.")
  onlyIf args.metricsEnabled (observabilityPort args.metricsPort "metrics")
  onlyIf args.pprofEnabled (observabilityPort args.pprofPort "pprof")
  onlyIf (optionalString args.rollupboostWsUrl).isSome
    (websocketServerPort args.websocketServerPort)

def validateArgs : Attempt Url Addr Unit := do
  check (validateModes args)
  validateRollupConfigSource p args
  check (validateValues args)

def parseOptionalUrl (raw : Option String) (flag : String) : Except Failure (Option Url) :=
  match optionalString raw with
  | none => .ok none
  | some raw => (context ("invalid " ++ flag ++ ": " ++ p.debug raw) (fun err => [err])
      (p.parseUrl raw)).map some

def parseExecutionP2pCheckApi (raw : String) : Except Failure ExecutionP2pCheckApi :=
  if raw = "net" then .ok .net
  else if raw = "admin" then .ok .admin
  else .error ["invalid execution p2p check api: " ++ raw]

def executionP2pHealthConfig : Except Failure (Option (ExecutionP2pHealthConfig Url)) := do
  if !args.healthcheckExecutionP2pEnabled then return none
  let rpc ← parseOptionalUrl p args.healthcheckExecutionP2pRpcUrl
    "healthcheck.execution-p2p-rpc-url"
  let checkApi ← parseExecutionP2pCheckApi args.healthcheckExecutionP2pCheckApi
  return some ⟨rpc.getD args.executionRpc, checkApi, args.healthcheckExecutionP2pMinPeerCount⟩

def rollupBoostHealthConfig : Except Failure (Option (RollupBoostHealthConfig Url)) := do
  if args.rollupBoostEnabled then
    return some (.statusCode args.executionRpc args.rollupBoostHealthcheckTimeout)
  if args.rollupBoostNextEnabled then
    let some url := optionalString args.rollupBoostNextHealthcheckUrl
      | throw ["missing rollup-boost next healthcheck URL"]
    return some (.json url args.rollupBoostHealthcheckTimeout)
  return none

def partialHealthTolerance : Except Failure (Option RollupBoostPartialHealthTolerance) :=
  let limit := args.rollupBoostPartialHealthinessToleranceLimit
  let interval := args.rollupBoostPartialHealthinessToleranceIntervalSeconds
  if limit = 0 ∧ interval = 0 then .ok none
  else if limit ≠ 0 ∧ interval ≠ 0 then
    .ok (some ⟨limit, Duration.asSecs (Duration.fromSecs interval)⟩)
  else
    .error ["rollup-boost partial-health tolerance limit and interval must be set together"]

def listenAddr (text hostOrAddr : String) (port : Nat) : Attempt Url Addr Addr :=
  match p.parseSocketAddr hostOrAddr with
  | some addr => return addr
  | none => do
      let addrs ← ExceptT.mk do
        return context text (fun err => ["resolving listen address", err])
          (← op (.toSocketAddrs hostOrAddr port))
      let some addr := addrs.head?
        | throw [text, "listen address resolved to no socket addresses"]
      return addr

/-- The address of a server that may be disabled. -/
def serverAddr (enabled : Bool) (name host : String) (port : Int) :
    Attempt Url Addr (Option Addr) := do
  if enabled then
    let port ← check (observabilityPort port name)
    let addr ← listenAddr p ("parsing " ++ name ++ " listen address") host port
    return some addr
  else return none

/-- The answer settles the question, or its error may be followed by another
attempt. -/
def settles : Except SequencerError Bool → Except SequencerError (Except Failure Unit)
  | .ok true => .ok (.ok ())
  | .ok false => .ok (.error ["conductor is not enabled on sequencer"])
  | .error (.rpc err) => if err.isMethodNotFound then .ok (.ok ()) else .error (.rpc err)
  | .error err => .error err

/-- The attempts after this one are counted down. -/
def askConductorEnabled : Nat → Attempt Url Addr Unit
  | 0 => do
      match settles (← ExceptT.lift (op .conductorEnabled)) with
      | .ok result => check result
      | .error err => throw ["checking sequencer conductor mode", err.display]
  | later + 1 => do
      match settles (← ExceptT.lift (op .conductorEnabled)) with
      | .ok result => check result
      | .error _ => do
          ExceptT.lift (op .sleep)
          askConductorEnabled later

def waitForConductorEnabled (attempts : Nat) : Attempt Url Addr Unit :=
  askConductorEnabled (max attempts 1 - 1)

/-- Whether a profile is being written. -/
def startPprofFileProfiler : Attempt Url Addr Bool :=
  match args.pprofType with
  | some .cpu => do
      ExceptT.mk do
        return (← op (.startCpuFileProfiler args.pprofPath)).mapError fun err => [err]
      return true
  | _ => return false

def finishPprofFileProfile (profiling : Bool) : Attempt Url Addr Unit := do
  if profiling then
    ExceptT.mk do return (← op .finishProfiler).mapError fun err => [err]

/-- Everything up to the services, with whether a profile is being written. -/
def prepare : Attempt Url Addr (Services Url Addr × Bool) := do
  validateArgs p args
  let healthcheckInterval ← check (required "healthcheck.interval" args.healthcheckInterval)
  let healthcheckUnsafeInterval ←
    check (required "healthcheck.unsafe-interval" args.healthcheckUnsafeInterval)
  let healthcheckMinPeerCount ←
    check (required "healthcheck.min-peer-count" args.healthcheckMinPeerCount)
  let tolerance ← check (partialHealthTolerance args)
  let executionP2pHealth ← check (executionP2pHealthConfig p args)
  let supervisorRpc ← check (parseOptionalUrl p args.supervisorRpc "supervisor.rpc")
  let rollupboostWsUrl ← check (parseOptionalUrl p args.rollupboostWsUrl "rollupboost.ws-url")
  let rollupBoostHealth ← check (rollupBoostHealthConfig args)
  let consensusPort ← check (rpcPort args.consensusPort)
  let consensusListenAddr ←
    listenAddr p "parsing consensus listen address" args.consensusAddr consensusPort
  attempt "binding consensus listen address" id (op (.bind consensusListenAddr))
  let consensusBoundAddr ← attempt "reading consensus bound address" id (op .localAddr)
  let consensusAdvertised :=
    (optionalString args.consensusAdvertised).getD (p.display consensusBoundAddr)
  let rpcPort ← check (rpcPort args.rpcPort)
  let rpcAddr ← listenAddr p "parsing rpc listen address" args.rpcAddr rpcPort
  let bootstrapped ← attempt "opening raft consensus" ConsensusError.display (op (.newHttp {
    serverId := args.serverId
    advertisedAddr := consensusAdvertised
    storageDir := args.storageDir
    bootstrap := args.raftBootstrap
    snapshotInterval := args.raftSnapshotInterval
    heartbeatInterval := max (args.raftHeartbeatTimeout / 3) 1000000
    electionTimeoutMin := args.raftHeartbeatTimeout
    electionTimeoutMax := args.raftHeartbeatTimeout + args.raftLeaseTimeout
    snapshotThreshold := args.raftSnapshotThreshold
    trailingLogs := args.raftTrailingLogs }))
  waitForConductorEnabled 60
  let settings : ConductorSettings Url := {
    startPaused := args.paused || bootstrapped
    unsafeRepairDepth := args.unsafeRepairDepth
    roundRobinLeaderTransfer := args.raftRoundRobinLeaderTransfer
    healthcheckUnsafeInterval := healthcheckUnsafeInterval
    healthcheckSafeEnabled := args.healthcheckSafeEnabled
    healthcheckSafeInterval := args.healthcheckSafeInterval
    healthcheckMinPeerCount := healthcheckMinPeerCount
    executionP2pHealth := executionP2pHealth
    supervisorHealth := supervisorRpc
    rollupBoostHealth := rollupBoostHealth
    rollupBoostPartialHealthTolerance := tolerance }
  attempt "failed to initialize sequencer active status" ConductorError.display
    (op (.initializeStartupState settings))
  let metricsAddr ← serverAddr p args.metricsEnabled "metrics" args.metricsAddr args.metricsPort
  let pprofAddr ← serverAddr p args.pprofEnabled "pprof" args.pprofAddr args.pprofPort
  let profiling ← startPprofFileProfiler args
  let services : Services Url Addr := {
    settings := settings
    rpcAddr := rpcAddr
    consensusAddr := consensusBoundAddr
    metricsAddr := metricsAddr
    pprofAddr := pprofAddr
    rollupboostWsUrl := rollupboostWsUrl
    websocketServerPort := args.websocketServerPort
    proxy := if args.rpcEnableProxy then some (args.executionRpc, args.nodeRpc) else none
    healthcheckInterval := healthcheckInterval }
  return (services, profiling)

/-- Errors of the stop and of the profile are logged when the services have failed. -/
def finalizeRuntimeExit (runtimeResult : Except Failure Unit) (profiling : Bool) :
    Attempt Url Addr Unit :=
  match runtimeResult with
  | .error err => do
      let _ ← ExceptT.lift (op .stop)
      let _ ← ExceptT.lift (finishPprofFileProfile profiling).run
      throw err
  | .ok _ => do
      attempt "stopping conductor" ConductorError.display (op .stop)
      finishPprofFileProfile profiling

def main : Attempt Url Addr Unit := do
  let (services, profiling) ← prepare p args
  ExceptT.lift (op .recordUp)
  let runtimeResult ← ExceptT.lift (op (.select services))
  finalizeRuntimeExit runtimeResult profiling

end
end Startup
end ConductorRs

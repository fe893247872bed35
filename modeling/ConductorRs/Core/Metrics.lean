import Mathlib.Data.Prod.Lex
import Mathlib.Data.String.Basic
import ConductorRs.Collections.Tally

/-!
The metrics of the conductor and how they are rendered. Counters wrap at 64 bits.
A duration is given in seconds, as a number of the type that stands for `f64`;
the text is built line by line, and the model lists the lines.
-/
namespace ConductorRs.Metrics
open Collections

/-- What the metrics do with an `f64`. -/
class F64 (F : Type) extends OfScientific F where
  zero : F
  add : F → F → F
  le : F → F → Bool
  display : F → String

section

variable {F : Type} [F64 F]

def loopExecutionBuckets : List F :=
  [0.005, 0.01, 0.025, 0.05, 0.1, 0.25, 0.5, 1.0, 2.5, 5.0, 10.0]

variable (F) in
structure Counters where
  healthchecks : BTreeMap (Bool ×ₗ String) UInt64
  leaderTransfers : BTreeMap Bool UInt64
  sequencerStarts : BTreeMap Bool UInt64
  sequencerStops : BTreeMap Bool UInt64
  stateChanges : BTreeMap (Bool ×ₗ Bool ×ₗ Bool) UInt64
  rollupBoostConnectionAttempts : BTreeMap (Bool ×ₗ String) UInt64
  loopExecutionBuckets : List UInt64
  loopExecutionCount : UInt64
  loopExecutionSum : F
  rpcServerRequests : BTreeMap String UInt64
  rpcServerResponses : BTreeMap (String ×ₗ String) UInt64
  rpcServerParamsSize : BTreeMap String UInt64
  rpcServerResultsSize : BTreeMap String UInt64
  rpcServerRequestBuckets : BTreeMap String (List UInt64)
  rpcServerRequestCount : BTreeMap String UInt64
  rpcServerRequestSum : BTreeMap String F
  rpcNotificationsReceived : BTreeMap String UInt64

variable (F) in
structure ConductorMetrics where
  version : String
  up : UInt64
  websocketClients : UInt64
  counters : Counters F

/-- Entries of buckets, all at zero. -/
def emptyBuckets (F : Type) [F64 F] : List UInt64 :=
  List.replicate (loopExecutionBuckets (F := F)).length 0

/-- The loop over the buckets: those that the duration does not exceed are counted. -/
def countBuckets (seconds : F) (buckets : List UInt64) : List UInt64 :=
  List.zipWith (fun bucket count => if F64.le seconds bucket then count + 1 else count)
    loopExecutionBuckets buckets

namespace ConductorMetrics

def new (version : String) : ConductorMetrics F where
  version := version
  up := 0
  websocketClients := 0
  counters :=
    { healthchecks := .empty
      leaderTransfers := .empty
      sequencerStarts := .empty
      sequencerStops := .empty
      stateChanges := .empty
      rollupBoostConnectionAttempts := .empty
      loopExecutionBuckets := emptyBuckets F
      loopExecutionCount := 0
      loopExecutionSum := F64.zero
      rpcServerRequests := .empty
      rpcServerResponses := .empty
      rpcServerParamsSize := .empty
      rpcServerResultsSize := .empty
      rpcServerRequestBuckets := .empty
      rpcServerRequestCount := .empty
      rpcServerRequestSum := .empty
      rpcNotificationsReceived := .empty }

/-- What is done under the lock of the counters. -/
def withCounters (m : ConductorMetrics F) (f : Counters F → Counters F) : ConductorMetrics F :=
  { m with counters := f m.counters }

def recordUp (m : ConductorMetrics F) : ConductorMetrics F := { m with up := 1 }

def recordHealthCheck (m : ConductorMetrics F) (success : Bool) (error : String) :
    ConductorMetrics F :=
  m.withCounters fun c =>
    { c with healthchecks := c.healthchecks.upsert (toLex (success, error)) 0 (· + 1) }

def recordLeaderTransfer (m : ConductorMetrics F) (success : Bool) : ConductorMetrics F :=
  m.withCounters fun c => { c with leaderTransfers := c.leaderTransfers.upsert success 0 (· + 1) }

def recordStartSequencer (m : ConductorMetrics F) (success : Bool) : ConductorMetrics F :=
  m.withCounters fun c => { c with sequencerStarts := c.sequencerStarts.upsert success 0 (· + 1) }

def recordStopSequencer (m : ConductorMetrics F) (success : Bool) : ConductorMetrics F :=
  m.withCounters fun c => { c with sequencerStops := c.sequencerStops.upsert success 0 (· + 1) }

def recordStateChange (m : ConductorMetrics F) (leader healthy active : Bool) :
    ConductorMetrics F :=
  m.withCounters fun c =>
    { c with
      stateChanges := c.stateChanges.upsert (toLex (leader, toLex (healthy, active))) 0 (· + 1) }

def recordRollupBoostConnectionAttempt (m : ConductorMetrics F) (success : Bool)
    (source : String) : ConductorMetrics F :=
  m.withCounters fun c =>
    { c with
      rollupBoostConnectionAttempts :=
        c.rollupBoostConnectionAttempts.upsert (toLex (success, source)) 0 (· + 1) }

def recordLoopExecutionTime (m : ConductorMetrics F) (seconds : F) : ConductorMetrics F :=
  m.withCounters fun c =>
    { c with
      loopExecutionBuckets := countBuckets seconds c.loopExecutionBuckets
      loopExecutionCount := c.loopExecutionCount + 1
      loopExecutionSum := F64.add c.loopExecutionSum seconds }

def recordWebsocketClientCount (m : ConductorMetrics F) (count : UInt64) : ConductorMetrics F :=
  { m with websocketClients := count }

def recordRpcServerNotification (m : ConductorMetrics F) (method : String) :
    ConductorMetrics F :=
  m.withCounters fun c =>
    { c with rpcNotificationsReceived := c.rpcNotificationsReceived.upsert method 0 (· + 1) }

def responseError : Option Int → String
  | some code => "rpc_" ++ toString code
  | none => "<nil>"

def recordRpcServerRequest (m : ConductorMetrics F) (method : String) (paramsSize : UInt64)
    (seconds : F) (errorCode : Option Int) (resultSize : Option UInt64) : ConductorMetrics F :=
  m.withCounters fun c =>
    { c with
      rpcServerRequests := c.rpcServerRequests.upsert method 0 (· + 1)
      rpcServerParamsSize := c.rpcServerParamsSize.upsert method 0 (· + paramsSize)
      rpcServerResponses :=
        c.rpcServerResponses.upsert (toLex (method, responseError errorCode)) 0 (· + 1)
      rpcServerResultsSize :=
        match resultSize with
        | some size => c.rpcServerResultsSize.upsert method 0 (· + size)
        | none => c.rpcServerResultsSize
      rpcServerRequestBuckets :=
        c.rpcServerRequestBuckets.upsert method (emptyBuckets F) (countBuckets seconds)
      rpcServerRequestCount := c.rpcServerRequestCount.upsert method 0 (· + 1)
      rpcServerRequestSum :=
        c.rpcServerRequestSum.upsert method F64.zero fun sum => F64.add sum seconds }

end ConductorMetrics

/-- `str::replace` of one character. -/
def replaceChar (c : Char) (text : String) (raw : String) : String :=
  String.ofList (raw.toList.flatMap fun x => if x = c then text.toList else [x])

def escapeLabel (raw : String) : String :=
  replaceChar '"' "\\\"" (replaceChar '\\' "\\\\" raw)

def typeLine (metric kind : String) : String := "# TYPE " ++ metric ++ " " ++ kind

def labelSet : List (String × String) → String
  | [] => ""
  | labels =>
      "\x7b" ++ ",".intercalate (labels.map fun label => label.1 ++ "=\"" ++ label.2 ++ "\"") ++
        "\x7d"

/-- A line of the text, its labels as they are written. -/
def sampleLine (metric : String) (labels : List (String × String)) (value : String) : String :=
  metric ++ labelSet labels ++ " " ++ value

def gaugeLines (metric : String) (labels : List (String × String)) (value : String) :
    List String :=
  [typeLine metric "gauge", sampleLine metric labels value]

def counterLines {κ : Type} [LinearOrder κ] (metric : String)
    (labels : κ → List (String × String)) (map : BTreeMap κ UInt64) : List String :=
  typeLine metric "counter" ::
    map.entries.map fun entry => sampleLine metric (labels entry.1) (toString entry.2.toNat)

/-- The lines of one histogram, after the labels it has for all of them. -/
def histogramLines (metric : String) (labels : List (String × String)) (buckets : List UInt64)
    (count : UInt64) (sum : F) : List String :=
  (List.zip (loopExecutionBuckets (F := F)) buckets).map (fun bucket =>
    sampleLine (metric ++ "_bucket") (labels ++ [("le", F64.display bucket.1)])
      (toString bucket.2.toNat)) ++
  [sampleLine (metric ++ "_bucket") (labels ++ [("le", "+Inf")]) (toString count.toNat),
    sampleLine (metric ++ "_sum") labels (F64.display sum),
    sampleLine (metric ++ "_count") labels (toString count.toNat)]

def methodLabels (method : String) : List (String × String) :=
  [("rpc", "main"), ("method", escapeLabel method)]

namespace ConductorMetrics

def lines (m : ConductorMetrics F) : List String :=
  let c := m.counters
  gaugeLines "op_conductor_info" [("version", escapeLabel m.version)] "1" ++
  gaugeLines "op_conductor_up" [] (toString m.up.toNat) ++
  counterLines "op_conductor_healthchecks_count"
    (fun key => [("success", toString (ofLex key).1), ("error", escapeLabel (ofLex key).2)])
    c.healthchecks ++
  counterLines "op_conductor_leader_transfers_count"
    (fun success => [("success", toString success)]) c.leaderTransfers ++
  counterLines "op_conductor_sequencer_starts_count"
    (fun success => [("success", toString success)]) c.sequencerStarts ++
  counterLines "op_conductor_sequencer_stops_count"
    (fun success => [("success", toString success)]) c.sequencerStops ++
  counterLines "op_conductor_state_changes_count"
    (fun key => [("leader", toString (ofLex key).1),
      ("healthy", toString (ofLex (ofLex key).2).1), ("active", toString (ofLex (ofLex key).2).2)])
    c.stateChanges ++
  counterLines "op_conductor_rollup_boost_connection_attempts_count"
    (fun key => [("success", toString (ofLex key).1), ("source", escapeLabel (ofLex key).2)])
    c.rollupBoostConnectionAttempts ++
  typeLine "op_conductor_loop_execution_time" "histogram" ::
  histogramLines "op_conductor_loop_execution_time" [] c.loopExecutionBuckets
    c.loopExecutionCount c.loopExecutionSum ++
  gaugeLines "op_conductor_websocket_clients_connected" [] (toString m.websocketClients.toNat) ++
  counterLines "op_conductor_rpc_server_requests_total" methodLabels c.rpcServerRequests ++
  typeLine "op_conductor_rpc_server_request_duration_seconds" "histogram" ::
  c.rpcServerRequestBuckets.entries.flatMap (fun entry =>
    histogramLines "op_conductor_rpc_server_request_duration_seconds" (methodLabels entry.1)
      entry.2 ((c.rpcServerRequestCount.get? entry.1).getD 0)
      ((c.rpcServerRequestSum.get? entry.1).getD F64.zero)) ++
  counterLines "op_conductor_rpc_server_responses_total"
    (fun key => methodLabels (ofLex key).1 ++ [("error", escapeLabel (ofLex key).2)])
    c.rpcServerResponses ++
  counterLines "op_conductor_rpc_server_params_size_total" methodLabels c.rpcServerParamsSize ++
  counterLines "op_conductor_rpc_server_results_size_total" methodLabels
    c.rpcServerResultsSize ++
  counterLines "op_conductor_rpc_client_notifications_received_total" methodLabels
    c.rpcNotificationsReceived

/-- Every line is pushed with a line feed. -/
def renderPrometheus (m : ConductorMetrics F) : String :=
  String.join (m.lines.map (· ++ "\n"))

end ConductorMetrics

end

end ConductorRs.Metrics

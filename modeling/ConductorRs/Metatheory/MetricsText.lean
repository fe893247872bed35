import ConductorRs.Collections.ExpositionText
import ConductorRs.Core.Metrics

/-!
The rendered metrics as a document of the text format. A family is what stands
under one type line: its samples carry the label strings that were recorded, and
the lines of the rendering are these samples as the format writes them.
-/
namespace ConductorRs.Metrics
open Collections Exposition

inductive Kind where
  | gauge
  | counter
  | histogram

def Kind.text : Kind → String
  | .gauge => "gauge"
  | .counter => "counter"
  | .histogram => "histogram"

structure Family where
  metric : String
  kind : Kind
  samples : List Sample

namespace Family

def lines (f : Family) : List Line :=
  .comment (" TYPE " ++ f.metric ++ " " ++ f.kind.text) :: f.samples.map .sample

/-- The names its samples may have. -/
def names (f : Family) : List String :=
  match f.kind with
  | .histogram => [f.metric ++ "_bucket", f.metric ++ "_sum", f.metric ++ "_count"]
  | _ => [f.metric]

end Family

def gaugeFamily (metric : String) (labels : List (String × String)) (value : String) : Family :=
  ⟨metric, .gauge, [⟨metric, labels, value⟩]⟩

def counterFamily {κ : Type} [LinearOrder κ] (metric : String)
    (labels : κ → List (String × String)) (map : BTreeMap κ UInt64) : Family :=
  ⟨metric, .counter, map.entries.map fun entry =>
    ⟨metric, labels entry.1, toString entry.2.toNat⟩⟩

section

variable {F : Type} [F64 F]

def histogramSamples (metric : String) (labels : List (String × String)) (buckets : List UInt64)
    (count : UInt64) (sum : F) : List Sample :=
  (List.zip (loopExecutionBuckets (F := F)) buckets).map (fun bucket =>
    ⟨metric ++ "_bucket", labels ++ [("le", F64.display bucket.1)], toString bucket.2.toNat⟩) ++
  [⟨metric ++ "_bucket", labels ++ [("le", "+Inf")], toString count.toNat⟩,
    ⟨metric ++ "_sum", labels, F64.display sum⟩,
    ⟨metric ++ "_count", labels, toString count.toNat⟩]

def rpcLabels (method : String) : List (String × String) := [("rpc", "main"), ("method", method)]

namespace ConductorMetrics

/-- Everything that is recorded, under the strings it was recorded with. -/
def families (m : ConductorMetrics F) : List Family :=
  let c := m.counters
  [gaugeFamily "op_conductor_info" [("version", m.version)] "1",
    gaugeFamily "op_conductor_up" [] (toString m.up.toNat),
    counterFamily "op_conductor_healthchecks_count"
      (fun key => [("success", toString (ofLex key).1), ("error", (ofLex key).2)])
      c.healthchecks,
    counterFamily "op_conductor_leader_transfers_count"
      (fun success => [("success", toString success)]) c.leaderTransfers,
    counterFamily "op_conductor_sequencer_starts_count"
      (fun success => [("success", toString success)]) c.sequencerStarts,
    counterFamily "op_conductor_sequencer_stops_count"
      (fun success => [("success", toString success)]) c.sequencerStops,
    counterFamily "op_conductor_state_changes_count"
      (fun key => [("leader", toString (ofLex key).1),
        ("healthy", toString (ofLex (ofLex key).2).1),
        ("active", toString (ofLex (ofLex key).2).2)]) c.stateChanges,
    counterFamily "op_conductor_rollup_boost_connection_attempts_count"
      (fun key => [("success", toString (ofLex key).1), ("source", (ofLex key).2)])
      c.rollupBoostConnectionAttempts,
    ⟨"op_conductor_loop_execution_time", .histogram,
      histogramSamples "op_conductor_loop_execution_time" [] c.loopExecutionBuckets
        c.loopExecutionCount c.loopExecutionSum⟩,
    gaugeFamily "op_conductor_websocket_clients_connected" []
      (toString m.websocketClients.toNat),
    counterFamily "op_conductor_rpc_server_requests_total" rpcLabels c.rpcServerRequests,
    ⟨"op_conductor_rpc_server_request_duration_seconds", .histogram,
      c.rpcServerRequestBuckets.entries.flatMap fun entry =>
        histogramSamples "op_conductor_rpc_server_request_duration_seconds" (rpcLabels entry.1)
          entry.2 ((c.rpcServerRequestCount.get? entry.1).getD 0)
          ((c.rpcServerRequestSum.get? entry.1).getD F64.zero)⟩,
    counterFamily "op_conductor_rpc_server_responses_total"
      (fun key => rpcLabels (ofLex key).1 ++ [("error", (ofLex key).2)]) c.rpcServerResponses,
    counterFamily "op_conductor_rpc_server_params_size_total" rpcLabels c.rpcServerParamsSize,
    counterFamily "op_conductor_rpc_server_results_size_total" rpcLabels c.rpcServerResultsSize,
    counterFamily "op_conductor_rpc_client_notifications_received_total" rpcLabels
      c.rpcNotificationsReceived]

def series (m : ConductorMetrics F) : List Sample := m.families.flatMap Family.samples

end ConductorMetrics

end

/-- Two replacements, one after the other, are the escapes of the format. -/
theorem escapeLabel_toList (raw : String) : (escapeLabel raw).toList = quote raw.toList := by
  simp only [escapeLabel, replaceChar, String.toList_ofList, List.flatMap_assoc, quote]
  congr 1
  funext c
  unfold quoteChar
  split
  · simp
  · simp

/-- A text without backslashes and quotes is written as it is. -/
theorem escapeLabel_eq_self {raw : String} (h : ∀ c ∈ raw.toList, c ≠ '\\' ∧ c ≠ '"') :
    escapeLabel raw = raw := by
  apply String.toList_inj.mp
  rw [escapeLabel_toList]
  have hquote : ∀ cs : List Char, (∀ c ∈ cs, c ≠ '\\' ∧ c ≠ '"') → quote cs = cs := by
    intro cs hcs
    induction cs with
    | nil => rfl
    | cons c cs ih =>
        have hc := hcs c List.mem_cons_self
        have hrest := ih fun x hx => hcs x (List.mem_cons_of_mem _ hx)
        simp only [quote, List.flatMap_cons, quoteChar, if_neg hc.1, if_neg hc.2] at hrest ⊢
        rw [hrest]
        rfl
  exact hquote raw.toList h

@[simp] theorem escapeLabel_bool (b : Bool) : escapeLabel (toString b) = toString b := by
  cases b with
  | false => rfl
  | true => rfl

/-- The labels as they are written. -/
def escaped (labels : List (String × String)) : List (String × String) :=
  labels.map fun label => (label.1, escapeLabel label.2)

theorem labelSet_toList (labels : List (String × String)) :
    (labelSet (escaped labels)).toList = Exposition.labelSet labels := by
  have htexts : ∀ labels : List (String × String), [','].intercalate
      (((escaped labels).map fun label => label.1 ++ "=\"" ++ label.2 ++ "\"").map
        String.toList) = labelsText labels := by
    intro labels
    induction labels with
    | nil => rfl
    | cons label labels ih =>
        cases labels with
        | nil => simp [escaped, labelsText, labelText, escapeLabel_toList]
        | cons other labels =>
            simp only [escaped, List.map_cons, List.intercalate_cons_cons, labelsText] at ih ⊢
            rw [ih]
            simp [labelText, escapeLabel_toList]
  cases labels with
  | nil => rfl
  | cons label labels =>
      have htext := htexts (label :: labels)
      have hset : labelSet (escaped (label :: labels)) =
          "\x7b" ++ ",".intercalate ((escaped (label :: labels)).map
            fun label => label.1 ++ "=\"" ++ label.2 ++ "\"") ++ "\x7d" := rfl
      have hcomma : ",".toList = [','] := rfl
      rw [hset, String.toList_append, String.toList_append, String.toList_intercalate, hcomma,
        htext]
      rfl

theorem sampleLine_toList (metric : String) (labels : List (String × String)) (value : String) :
    (sampleLine metric (escaped labels) value).toList = Sample.text ⟨metric, labels, value⟩ := by
  simp [sampleLine, Sample.text, labelSet_toList]

/-- The texts are the lines, as the format writes them. -/
def Writes (texts : List String) (lines : List Line) : Prop :=
  texts.map String.toList = lines.map Line.text

theorem Writes.append {texts texts' : List String} {lines lines' : List Line}
    (h : Writes texts lines) (h' : Writes texts' lines') :
    Writes (texts ++ texts') (lines ++ lines') := by
  unfold Writes at *
  rw [List.map_append, List.map_append, h, h']

theorem writes_type (metric : String) (kind : Kind) :
    Writes [typeLine metric kind.text] [.comment (" TYPE " ++ metric ++ " " ++ kind.text)] := by
  simp [Writes, typeLine, Line.text]

theorem writes_sample (metric : String) (labels : List (String × String)) (value : String) :
    Writes [sampleLine metric (escaped labels) value] [.sample ⟨metric, labels, value⟩] := by
  simp [Writes, Line.text, sampleLine_toList]

theorem writes_map {α : Type} {text : α → String} {sample : α → Sample}
    (h : ∀ a, Writes [text a] [.sample (sample a)]) (xs : List α) :
    Writes (xs.map text) ((xs.map sample).map .sample) := by
  induction xs with
  | nil => rfl
  | cons a xs ih => exact (h a).append ih

theorem writes_gauge (metric : String) (labels : List (String × String)) (value : String) :
    Writes (gaugeLines metric (escaped labels) value) (gaugeFamily metric labels value).lines :=
  (writes_type metric .gauge).append (writes_sample metric labels value)

theorem writes_counter {κ : Type} [LinearOrder κ] (metric : String)
    {texts labels : κ → List (String × String)} (h : ∀ k, texts k = escaped (labels k))
    (map : BTreeMap κ UInt64) :
    Writes (counterLines metric texts map) (counterFamily metric labels map).lines := by
  have hentry : ∀ entry : κ × UInt64,
      Writes [sampleLine metric (texts entry.1) (toString entry.2.toNat)]
        [.sample ⟨metric, labels entry.1, toString entry.2.toNat⟩] := by
    intro entry
    rw [h]
    exact writes_sample metric (labels entry.1) _
  exact (writes_type metric .counter).append (writes_map hentry map.entries)

section

variable {F : Type} [F64 F]

theorem writes_histogram (hdisplay : ∀ x : F, escapeLabel (F64.display x) = F64.display x)
    (metric : String) (labels : List (String × String)) (buckets : List UInt64) (count : UInt64)
    (sum : F) :
    Writes (histogramLines metric (escaped labels) buckets count sum)
      ((histogramSamples metric labels buckets count sum).map .sample) := by
  rw [histogramLines, histogramSamples, List.map_append]
  refine Writes.append ?_ ?_
  · refine writes_map ?_ _
    intro bucket
    have hwrites := writes_sample (metric ++ "_bucket")
      (labels ++ [("le", F64.display bucket.1)]) (toString bucket.2.toNat)
    simpa [escaped, hdisplay] using hwrites
  · have hinf := writes_sample (metric ++ "_bucket") (labels ++ [("le", "+Inf")])
      (toString count.toNat)
    have hplain : escapeLabel "+Inf" = "+Inf" := by decide
    rw [escaped, List.map_append, List.map_singleton, hplain] at hinf
    exact hinf.append ((writes_sample (metric ++ "_sum") labels (F64.display sum)).append
      (writes_sample (metric ++ "_count") labels (toString count.toNat)))

theorem writes_flatMap {α : Type} {texts : α → List String} {samples : α → List Sample}
    (h : ∀ a, Writes (texts a) ((samples a).map .sample)) (xs : List α) :
    Writes (xs.flatMap texts) ((xs.flatMap samples).map .sample) := by
  induction xs with
  | nil => rfl
  | cons a xs ih =>
      rw [List.flatMap_cons, List.flatMap_cons, List.map_append]
      exact (h a).append ih

theorem document_of_writes {texts : List String} {lines : List Line} (h : Writes texts lines) :
    (String.join (texts.map (· ++ "\n"))).toList = document lines := by
  have htexts : (String.join (texts.map (· ++ "\n"))).toList =
      (texts.map String.toList).flatMap (· ++ ['\n']) := by
    simp [String.toList_join, List.flatMap_map]
  rw [htexts, show texts.map String.toList = lines.map Line.text from h, List.flatMap_map]
  rfl

/-- The rendering is the document of the families. -/
theorem render_document (hdisplay : ∀ x : F, escapeLabel (F64.display x) = F64.display x)
    (m : ConductorMetrics F) :
    m.renderPrometheus.toList = document (m.families.flatMap Family.lines) := by
  refine document_of_writes ?_
  have hmain : escapeLabel "main" = "main" := by decide
  have hrpc : ∀ method, methodLabels method = escaped (rpcLabels method) := by
    intro method
    simp [methodLabels, escaped, rpcLabels, hmain]
  simp only [ConductorMetrics.lines, ConductorMetrics.families, List.flatMap_cons,
    List.flatMap_nil, List.append_nil, List.append_assoc]
  refine Writes.append (writes_gauge _ [("version", m.version)] "1") ?_
  refine Writes.append (writes_gauge _ [] _) ?_
  refine Writes.append (writes_counter _ (fun k => by simp [escaped]) _) ?_
  refine Writes.append (writes_counter _ (fun k => by simp [escaped]) _) ?_
  refine Writes.append (writes_counter _ (fun k => by simp [escaped]) _) ?_
  refine Writes.append (writes_counter _ (fun k => by simp [escaped]) _) ?_
  refine Writes.append (writes_counter _ (fun k => by simp [escaped]) _) ?_
  refine Writes.append (writes_counter _ (fun k => by simp [escaped]) _) ?_
  refine Writes.append
    ((writes_type _ .histogram).append (writes_histogram hdisplay _ [] _ _ _)) ?_
  refine Writes.append (writes_gauge _ [] _) ?_
  refine Writes.append (writes_counter _ hrpc _) ?_
  refine Writes.append ((writes_type _ .histogram).append (writes_flatMap ?_ _)) ?_
  · intro entry
    rw [hrpc]
    exact writes_histogram hdisplay _ _ _ _ _
  refine Writes.append (writes_counter _ (fun k => by simp [escaped, hrpc]) _) ?_
  refine Writes.append (writes_counter _ hrpc _) ?_
  refine Writes.append (writes_counter _ hrpc _) ?_
  exact writes_counter _ hrpc _

end

end ConductorRs.Metrics

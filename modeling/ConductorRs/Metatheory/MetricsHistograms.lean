import Mathlib.Data.UInt
import ConductorRs.Metatheory.MetricsRuns

/-!
What a scrape says about durations and sizes.

The buckets of a histogram are counted one by one when a duration is recorded. After
any calls they hold how many durations did not exceed each bound, and this is what is
read back from the rendering, as long as no counter has wrapped.
-/
namespace ConductorRs.Metrics
open Collections Exposition

section
variable {F : Type} [F64 F]

/-- How many durations do not exceed a bound. -/
def within (values : List F) (bound : F) : Nat := values.countP fun v => F64.le v bound

def total (values : List F) : F := values.foldl F64.add F64.zero

theorem countBuckets_map (v : F) (f : F → UInt64) :
    countBuckets v (loopExecutionBuckets.map f) =
      loopExecutionBuckets.map fun b => if F64.le v b then f b + 1 else f b := by
  rw [countBuckets, List.zipWith_map_right, List.zipWith_self]

theorem foldl_countBuckets (values : List F) :
    values.foldl (fun buckets v => countBuckets v buckets) (emptyBuckets F) =
      loopExecutionBuckets.map fun b => UInt64.ofNat (within values b) := by
  induction values using List.reverseRecOn with
  | nil => rfl
  | append_singleton values v ih =>
      rw [List.foldl_append, List.foldl_cons, List.foldl_nil, ih, countBuckets_map]
      refine List.map_congr_left fun b _ => ?_
      rw [within, within, List.countP_append, List.countP_singleton]
      split
      · rw [UInt64.ofNat_add]
        rfl
      · rfl

theorem foldl_succ {α : Type} (l : List α) (n : UInt64) :
    l.foldl (fun count _ => count + 1) n = n + UInt64.ofNat l.length := by
  induction l generalizing n with
  | nil => simp
  | cons a l ih =>
      rw [List.foldl_cons, ih, List.length_cons, UInt64.ofNat_add, UInt64.add_assoc,
        UInt64.add_comm 1]
      rfl

namespace Record

def loopSeconds : Record F → Option F
  | .loopExecutionTime seconds => some seconds
  | _ => none

def requestSeconds : Record F → Option (String × F)
  | .rpcServerRequest method _ seconds _ _ => some (method, seconds)
  | _ => none

def paramsSize : Record F → Option (String × UInt64)
  | .rpcServerRequest method size _ _ _ => some (method, size)
  | _ => none

def resultSize : Record F → Option (String × UInt64)
  | .rpcServerRequest method _ _ _ (some size) => some (method, size)
  | _ => none

end Record

/-- A field that a call updates with what it observes, or leaves alone. -/
theorem field_folded {α ν : Type} (field : ConductorMetrics F → ν) (observe : Record F → Option α)
    (update : α → ν → ν) (start : ν) (version : String) (calls : List (Record F))
    (hnew : ∀ version, field (.new version) = start)
    (hstep : ∀ m call, field (m.record call) =
      (observe call).elim (field m) fun a => update a (field m)) :
    field (.recorded version calls) =
      (calls.filterMap observe).foldl (fun v a => update a v) start := by
  induction calls using List.reverseRecOn with
  | nil => exact hnew version
  | append_singleton calls call ih =>
      rw [ConductorMetrics.recorded_concat, hstep, ih, List.filterMap_append]
      cases hobserve : observe call with
      | none => simp [hobserve]
      | some a =>
          rw [List.filterMap_cons_some hobserve, List.filterMap_nil, List.foldl_append]
          rfl

theorem field_gathered {α ν : Type} (field : ConductorMetrics F → BTreeMap String ν)
    (observe : Record F → Option (String × α)) (update : α → ν → ν) (default : ν)
    (version : String) (calls : List (Record F)) (hnew : ∀ version, field (.new version) = .empty)
    (hstep : ∀ m call, field (m.record call) =
      (observe call).elim (field m) fun o => (field m).upsert o.1 default (update o.2)) :
    field (.recorded version calls) = .gather default update (calls.filterMap observe) :=
  field_folded field observe (fun o m => m.upsert o.1 default (update o.2)) .empty version calls
    hnew hstep

/-- What the counters hold after the calls. -/
structure Observed (calls : List (Record F)) (c : Counters F) : Prop where
  loopBuckets : c.loopExecutionBuckets = loopExecutionBuckets.map fun b =>
    UInt64.ofNat (within (calls.filterMap Record.loopSeconds) b)
  loopCount : c.loopExecutionCount = UInt64.ofNat (calls.filterMap Record.loopSeconds).length
  loopSum : c.loopExecutionSum = total (calls.filterMap Record.loopSeconds)
  buckets : c.rpcServerRequestBuckets =
    .gather (emptyBuckets F) countBuckets (calls.filterMap Record.requestSeconds)
  count : c.rpcServerRequestCount =
    .gather 0 (fun _ count => count + 1) (calls.filterMap Record.requestSeconds)
  sum : c.rpcServerRequestSum =
    .gather F64.zero (fun v sum => F64.add sum v) (calls.filterMap Record.requestSeconds)
  paramsSize : c.rpcServerParamsSize =
    .gather 0 (fun size sum => sum + size) (calls.filterMap Record.paramsSize)
  resultsSize : c.rpcServerResultsSize =
    .gather 0 (fun size sum => sum + size) (calls.filterMap Record.resultSize)

theorem recorded_observed (version : String) (calls : List (Record F)) :
    Observed calls (ConductorMetrics.recorded version calls).counters where
  loopBuckets := by
    rw [← foldl_countBuckets]
    exact field_folded (·.counters.loopExecutionBuckets) Record.loopSeconds countBuckets
      (emptyBuckets F) version calls (fun _ => rfl) fun m call => by cases call <;> rfl
  loopCount := by
    rw [← UInt64.zero_add (UInt64.ofNat _), ← foldl_succ]
    exact field_folded (·.counters.loopExecutionCount) Record.loopSeconds (fun _ n => n + 1)
      0 version calls (fun _ => rfl) fun m call => by cases call <;> rfl
  loopSum := field_folded (·.counters.loopExecutionSum) Record.loopSeconds
    (fun v sum => F64.add sum v) F64.zero version calls (fun _ => rfl)
    fun m call => by cases call <;> rfl
  buckets := field_gathered (·.counters.rpcServerRequestBuckets) Record.requestSeconds
    countBuckets (emptyBuckets F) version calls (fun _ => rfl) fun m call => by cases call <;> rfl
  count := field_gathered (·.counters.rpcServerRequestCount) Record.requestSeconds
    (fun _ n => n + 1) 0 version calls (fun _ => rfl) fun m call => by cases call <;> rfl
  sum := field_gathered (·.counters.rpcServerRequestSum) Record.requestSeconds
    (fun v sum => F64.add sum v) F64.zero version calls (fun _ => rfl)
    fun m call => by cases call <;> rfl
  paramsSize := field_gathered (·.counters.rpcServerParamsSize) Record.paramsSize
    (fun size sum => sum + size) 0 version calls (fun _ => rfl)
    fun m call => by cases call <;> rfl
  resultsSize := field_gathered (·.counters.rpcServerResultsSize) Record.resultSize
    (fun size sum => sum + size) 0 version calls (fun _ => rfl) fun m call => by
      cases call with
      | rpcServerRequest method paramsSize seconds errorCode resultSize =>
          cases resultSize <;> rfl
      | _ => rfl

/-- The samples of a histogram over some durations. -/
structure Histogram (samples : List Sample) (metric : String) (labels : List (String × String))
    (values : List F) : Prop where
  bucket : ∀ b ∈ (loopExecutionBuckets : List F),
    ⟨metric ++ "_bucket", labels ++ [("le", F64.display b)], toString (within values b)⟩ ∈ samples
  infinite : ⟨metric ++ "_bucket", labels ++ [("le", "+Inf")], toString values.length⟩ ∈ samples
  sum : ⟨metric ++ "_sum", labels, F64.display (total values)⟩ ∈ samples
  count : ⟨metric ++ "_count", labels, toString values.length⟩ ∈ samples

theorem within_le_length (values : List F) (b : F) : within values b ≤ values.length :=
  List.countP_le_length

theorem toNat_ofNat {n : Nat} (h : n < UInt64.size) : (UInt64.ofNat n).toNat = n :=
  UInt64.toNat_ofNat_of_lt' h

theorem histogramSamples_histogram {metric : String} {labels : List (String × String)}
    {values : List F} (hfew : values.length < UInt64.size) :
    Histogram (histogramSamples metric labels
      (loopExecutionBuckets.map fun b => UInt64.ofNat (within values b))
      (UInt64.ofNat values.length) (total values)) metric labels values := by
  have hcount := toNat_ofNat hfew
  unfold histogramSamples
  constructor
  · intro b hb
    refine List.mem_append_left _ (List.mem_map.mpr ⟨(b, UInt64.ofNat (within values b)), ?_, ?_⟩)
    · rw [List.zip_map_right, List.zip_eq_zipWith, List.zipWith_self, List.map_map]
      exact List.mem_map.mpr ⟨b, hb, rfl⟩
    · dsimp only
      rw [toNat_ofNat ((within_le_length values b).trans_lt hfew)]
  · rw [hcount]
    simp
  · simp
  · rw [hcount]
    simp

theorem Histogram.mono {samples samples' : List Sample} {metric : String}
    {labels : List (String × String)} {values : List F}
    (h : Histogram samples metric labels values) (hsub : samples ⊆ samples') :
    Histogram samples' metric labels values :=
  ⟨fun b hb => hsub (h.bucket b hb), hsub h.infinite, hsub h.sum, hsub h.count⟩

/-- A family is found by its place. -/
theorem mem_series {m : ConductorMetrics F} {f : Family} {s : Sample} (i : Nat)
    (hf : m.families[i]? = some f) (hs : s ∈ f.samples) : s ∈ m.series :=
  List.mem_flatMap.mpr ⟨f, List.mem_of_getElem? hf, hs⟩

theorem loop_subset_series (m : ConductorMetrics F) :
    histogramSamples "op_conductor_loop_execution_time" [] m.counters.loopExecutionBuckets
      m.counters.loopExecutionCount m.counters.loopExecutionSum ⊆ m.series :=
  fun _ hs => mem_series 8 rfl hs

theorem request_subset_series (m : ConductorMetrics F) {entry : String × List UInt64}
    (hentry : entry ∈ m.counters.rpcServerRequestBuckets.entries) :
    histogramSamples "op_conductor_rpc_server_request_duration_seconds" (rpcLabels entry.1)
      entry.2 ((m.counters.rpcServerRequestCount.get? entry.1).getD 0)
      ((m.counters.rpcServerRequestSum.get? entry.1).getD F64.zero) ⊆ m.series :=
  fun _ hs => mem_series 11 rfl (List.mem_flatMap.mpr ⟨entry, hentry, hs⟩)

/-- An entry of a counter is a sample. -/
theorem mem_counter {κ : Type} [LinearOrder κ] {metric : String}
    {labels : κ → List (String × String)} {map : BTreeMap κ UInt64} {entry : κ × UInt64}
    (h : entry ∈ map.entries) :
    ⟨metric, labels entry.1, toString entry.2.toNat⟩ ∈
      (counterFamily metric labels map).samples :=
  List.mem_map.mpr ⟨entry, h, rfl⟩

/-- A key that was used is an entry of the map. -/
theorem entry_of_under {α ν : Type} (default : ν) (update : α → ν → ν) {l : List (String × α)}
    {k : String} (h : BTreeMap.under k l ≠ []) :
    (k, (BTreeMap.under k l).foldl (fun v a => update a v) default) ∈
      (BTreeMap.gather default update l).entries := by
  refine BTreeMap.mem_of_get? ?_
  rw [BTreeMap.get?_gather, if_neg h]

theorem length_under_le {α : Type} (k : String) (l : List (String × α)) :
    (BTreeMap.under k l).length ≤ l.length := by
  rw [BTreeMap.under, List.length_map]
  exact List.length_filter_le _ l

/-- What is read back from a scrape. Every series is there once, so what is listed
here is all that the scrape says about it. -/
structure Scraped (samples : List Sample) (calls : List (Record F)) : Prop where
  distinct : (samples.map identity).Nodup
  loop : Histogram samples "op_conductor_loop_execution_time" []
    (calls.filterMap Record.loopSeconds)
  requests : ∀ method, BTreeMap.under method (calls.filterMap Record.requestSeconds) ≠ [] →
    Histogram samples "op_conductor_rpc_server_request_duration_seconds" (rpcLabels method)
      (BTreeMap.under method (calls.filterMap Record.requestSeconds))
  paramsSize : ∀ method, BTreeMap.under method (calls.filterMap Record.paramsSize) ≠ [] →
    ⟨"op_conductor_rpc_server_params_size_total", rpcLabels method,
      toString (BTreeMap.under method (calls.filterMap Record.paramsSize)).sum.toNat⟩ ∈ samples
  resultsSize : ∀ method, BTreeMap.under method (calls.filterMap Record.resultSize) ≠ [] →
    ⟨"op_conductor_rpc_server_results_size_total", rpcLabels method,
      toString (BTreeMap.under method (calls.filterMap Record.resultSize)).sum.toNat⟩ ∈ samples

theorem loop_histogram (version : String) {calls : List (Record F)}
    (hfew : calls.length < UInt64.size) :
    Histogram (ConductorMetrics.recorded version calls).series "op_conductor_loop_execution_time"
      [] (calls.filterMap Record.loopSeconds) := by
  have h := recorded_observed version calls
  have hlen := (List.length_filterMap_le Record.loopSeconds calls).trans_lt hfew
  have hsub := loop_subset_series (ConductorMetrics.recorded version calls)
  rw [h.loopBuckets, h.loopCount, h.loopSum] at hsub
  exact (histogramSamples_histogram hlen).mono hsub

theorem request_histogram (version : String) {calls : List (Record F)}
    (hfew : calls.length < UInt64.size) {method : String}
    (hused : BTreeMap.under method (calls.filterMap Record.requestSeconds) ≠ []) :
    Histogram (ConductorMetrics.recorded version calls).series
      "op_conductor_rpc_server_request_duration_seconds" (rpcLabels method)
      (BTreeMap.under method (calls.filterMap Record.requestSeconds)) := by
  have h := recorded_observed version calls
  have hlen := ((length_under_le method (calls.filterMap Record.requestSeconds)).trans
    (List.length_filterMap_le _ _)).trans_lt hfew
  have hentry := entry_of_under (emptyBuckets F) countBuckets hused
  rw [← h.buckets] at hentry
  have hsub := request_subset_series (ConductorMetrics.recorded version calls) hentry
  dsimp only at hsub
  rw [foldl_countBuckets, h.count, h.sum, BTreeMap.getD_gather, BTreeMap.getD_gather, foldl_succ,
    UInt64.zero_add] at hsub
  exact (histogramSamples_histogram hlen).mono hsub

/-- Reading what a scrape gives is counting the calls. -/
theorem scrape_is_recorded [LawfulF64 F] (version : String) (calls : List (Record F))
    (hversion : Calm version) (hcalm : ∀ call ∈ calls, ∀ s ∈ call.strings, Calm s)
    (hfew : calls.length < UInt64.size) :
    ∃ samples, read (ConductorMetrics.recorded version calls).renderPrometheus.toList =
      some samples ∧ Scraped samples calls := by
  have hread : read (ConductorMetrics.recorded version calls).renderPrometheus.toList =
      some (ConductorMetrics.recorded version calls).series := by
    rw [render_reads_iff, unbroken_iff_clean, clean_recorded_iff]
    exact ⟨hversion, hcalm⟩
  have h := recorded_observed version calls
  refine ⟨_, hread, series_nodup _, loop_histogram version hfew,
    fun method hused => request_histogram version hfew hused, fun method hused => ?_,
    fun method hused => ?_⟩
  · have hentry := entry_of_under 0 (fun size sum => sum + size) hused
    rw [← h.paramsSize, ← List.sum_eq_foldl] at hentry
    exact mem_series 13 rfl (mem_counter hentry)
  · have hentry := entry_of_under 0 (fun size sum => sum + size) hused
    rw [← h.resultsSize, ← List.sum_eq_foldl] at hentry
    exact mem_series 14 rfl (mem_counter hentry)

end

def slowRequest : List (Record Thousandths) :=
  [.loopExecutionTime ⟨7⟩, .rpcServerRequest "conductor_leader" 2 ⟨30⟩ none (some 4),
    .rpcServerRequest "conductor_leader" 2 ⟨700⟩ none (some 4)]

theorem slowRequest_scraped :
    ∃ samples, read (ConductorMetrics.recorded "0.1.0" slowRequest).renderPrometheus.toList =
      some samples ∧ Scraped samples slowRequest := by
  refine scrape_is_recorded "0.1.0" slowRequest ?_ ?_ (by decide)
  · unfold Calm
    decide
  · unfold Calm
    decide

end ConductorRs.Metrics

import Mathlib.Data.List.Nodup
import ConductorRs.Metatheory.MetricsSeries

/-!
Distinct label strings are distinct series. Within a family the labels tell the
keys of a counter apart, and no two families share the name of a series.
-/
namespace ConductorRs.Metrics
open Collections Exposition

/-- What tells a series from the others. -/
def identity (s : Sample) : String × List (String × String) := (s.metric, s.labels)

theorem counter_nodup {κ : Type} [LinearOrder κ] {metric : String}
    {labels : κ → List (String × String)} (map : BTreeMap κ UInt64)
    (hlabels : Function.Injective labels) :
    ((counterFamily metric labels map).samples.map identity).Nodup := by
  have hkeys : (counterFamily metric labels map).samples.map identity =
      map.keys.map fun k => (metric, labels k) := by
    simp [counterFamily, identity, BTreeMap.keys, Function.comp_def]
  rw [hkeys]
  refine List.Nodup.map ?_ map.nodup_keys
  intro k k' h
  exact hlabels (congrArg Prod.snd h)

theorem map_fst_zip_sublist {α β : Type} (l : List α) (l' : List β) :
    ((List.zip l l').map Prod.fst).Sublist l := by
  induction l generalizing l' with
  | nil => simp
  | cons a l ih =>
      cases l' with
      | nil => simp
      | cons b l' => exact (ih l').cons_cons a

theorem append_ne_append {s a b : String} (h : a ≠ b) : s ++ a ≠ s ++ b := by
  intro heq
  have hlist := congrArg String.toList heq
  rw [String.toList_append, String.toList_append, List.append_cancel_left_eq] at hlist
  exact h (String.toList_inj.mp hlist)

/-- The names of all series; no two families share one. -/
def seriesNames : List String :=
  ["op_conductor_info", "op_conductor_up", "op_conductor_healthchecks_count",
    "op_conductor_leader_transfers_count", "op_conductor_sequencer_starts_count",
    "op_conductor_sequencer_stops_count", "op_conductor_state_changes_count",
    "op_conductor_rollup_boost_connection_attempts_count",
    "op_conductor_loop_execution_time" ++ "_bucket",
    "op_conductor_loop_execution_time" ++ "_sum",
    "op_conductor_loop_execution_time" ++ "_count",
    "op_conductor_websocket_clients_connected", "op_conductor_rpc_server_requests_total",
    "op_conductor_rpc_server_request_duration_seconds" ++ "_bucket",
    "op_conductor_rpc_server_request_duration_seconds" ++ "_sum",
    "op_conductor_rpc_server_request_duration_seconds" ++ "_count",
    "op_conductor_rpc_server_responses_total", "op_conductor_rpc_server_params_size_total",
    "op_conductor_rpc_server_results_size_total",
    "op_conductor_rpc_client_notifications_received_total"]

theorem seriesNames_nodup : seriesNames.Nodup := by
  decide +kernel

theorem families_names {F : Type} [F64 F] (m : ConductorMetrics F) :
    m.families.flatMap Family.names = seriesNames :=
  rfl

section

variable {F : Type} [F64 F] [LawfulF64 F]

theorem histogram_nodup (metric : String) (labels : List (String × String))
    (buckets : List UInt64) (count : UInt64) (sum : F) :
    ((histogramSamples metric labels buckets count sum).map identity).Nodup := by
  -- The bounds that are printed, the last of them without a limit.
  have hbounds : (((List.zip (loopExecutionBuckets (F := F)) buckets).map
      fun bucket => F64.display bucket.1) ++ ["+Inf"]).Nodup := by
    have hsublist : ((List.zip (loopExecutionBuckets (F := F)) buckets).map
        fun bucket => F64.display bucket.1).Sublist
        ((loopExecutionBuckets (F := F)).map F64.display) := by
      have h := (map_fst_zip_sublist (loopExecutionBuckets (F := F)) buckets).map F64.display
      rwa [List.map_map] at h
    refine (hsublist.append (List.Sublist.refl ["+Inf"])).nodup ?_
    rw [LawfulF64.display_buckets]
    decide
  have hsamples : (histogramSamples metric labels buckets count sum).map identity =
      ((((List.zip (loopExecutionBuckets (F := F)) buckets).map
        fun bucket => F64.display bucket.1) ++ ["+Inf"]).map
          fun le => (metric ++ "_bucket", labels ++ [("le", le)])) ++
      [(metric ++ "_sum", labels), (metric ++ "_count", labels)] := by
    simp [histogramSamples, identity, Function.comp_def]
  have hbucketSum : metric ++ "_bucket" ≠ metric ++ "_sum" := append_ne_append (by decide)
  have hbucketCount : metric ++ "_bucket" ≠ metric ++ "_count" := append_ne_append (by decide)
  have hsumCount : metric ++ "_sum" ≠ metric ++ "_count" := append_ne_append (by decide)
  rw [hsamples]
  refine List.Nodup.append (hbounds.map ?_) ?_ ?_
  · intro le le' h
    simpa using h
  · simp [hsumCount]
  · intro s hs hs'
    obtain ⟨le, _, rfl⟩ := List.mem_map.mp hs
    simp [hbucketSum, hbucketCount] at hs'

theorem rpcLabels_injective : Function.Injective rpcLabels := by
  intro a b h
  simpa [rpcLabels] using h

/-- Histograms of different methods have no series in common. -/
theorem histograms_nodup {ν : Type} (metric : String) (map : BTreeMap String ν)
    (buckets : String × ν → List UInt64) (count : String × ν → UInt64) (sum : String × ν → F) :
    ((map.entries.flatMap fun entry => histogramSamples metric (rpcLabels entry.1) (buckets entry)
      (count entry) (sum entry)).map identity).Nodup := by
  rw [List.map_flatMap, List.nodup_flatMap]
  constructor
  · intro entry _
    exact histogram_nodup metric _ _ _ _
  · refine (List.pairwise_map.mp map.nodup_keys).imp ?_
    intro entry entry' hne s hs hs'
    obtain ⟨a, ha, rfl⟩ := List.mem_map.mp hs
    obtain ⟨b, hb, hab⟩ := List.mem_map.mp hs'
    have hlabels : b.labels = a.labels := congrArg Prod.snd hab
    have hfirst : ∀ (entry : String × ν) (x : Sample), x ∈ histogramSamples metric
        (rpcLabels entry.1) (buckets entry) (count entry) (sum entry) →
        x.labels.take 2 = rpcLabels entry.1 := by
      intro entry x hx
      rcases mem_histogramSamples hx with ⟨le, _, heq, _⟩ | ⟨_, heq, _⟩
      · rw [heq]
        rfl
      · rw [heq]
        rfl
    have htake := (hfirst entry a ha).symm.trans (hlabels ▸ hfirst entry' b hb)
    exact hne (rpcLabels_injective htake)

theorem toString_bool_injective : Function.Injective (toString : Bool → String) := by
  intro a b h
  revert h
  revert a b
  decide

theorem families_nodup (m : ConductorMetrics F) :
    ∀ f ∈ m.families, (f.samples.map identity).Nodup := by
  have hbool := toString_bool_injective
  simp only [ConductorMetrics.families, List.forall_mem_cons, List.not_mem_nil, false_imp_iff,
    implies_true, and_true]
  refine ⟨List.nodup_singleton _, List.nodup_singleton _, counter_nodup _ ?_, counter_nodup _ ?_,
    counter_nodup _ ?_, counter_nodup _ ?_, counter_nodup _ ?_, counter_nodup _ ?_,
    histogram_nodup _ _ _ _ _, List.nodup_singleton _, counter_nodup _ rpcLabels_injective,
    histograms_nodup _ _ _ _ _, counter_nodup _ ?_, counter_nodup _ rpcLabels_injective,
    counter_nodup _ rpcLabels_injective, counter_nodup _ rpcLabels_injective⟩
  · intro k k' h
    simp only [List.cons.injEq, Prod.mk.injEq, hbool.eq_iff, true_and, and_true] at h
    exact ofLex.injective (Prod.ext h.1 h.2)
  · intro k k' h
    simpa only [List.cons.injEq, Prod.mk.injEq, hbool.eq_iff, true_and, and_true] using h
  · intro k k' h
    simpa only [List.cons.injEq, Prod.mk.injEq, hbool.eq_iff, true_and, and_true] using h
  · intro k k' h
    simpa only [List.cons.injEq, Prod.mk.injEq, hbool.eq_iff, true_and, and_true] using h
  · intro k k' h
    simp only [List.cons.injEq, Prod.mk.injEq, hbool.eq_iff, true_and, and_true] at h
    exact ofLex.injective (Prod.ext h.1 (ofLex.injective (Prod.ext h.2.1 h.2.2)))
  · intro k k' h
    simp only [List.cons.injEq, Prod.mk.injEq, hbool.eq_iff, true_and, and_true] at h
    exact ofLex.injective (Prod.ext h.1 h.2)
  · intro k k' h
    simp only [rpcLabels, List.cons_append, List.nil_append, List.cons.injEq, Prod.mk.injEq,
      true_and, and_true] at h
    exact ofLex.injective (Prod.ext h.1 h.2)

theorem series_nodup (m : ConductorMetrics F) : (m.series.map identity).Nodup := by
  have hnames := seriesNames_nodup
  rw [← families_names m, List.nodup_flatMap] at hnames
  rw [ConductorMetrics.series, List.map_flatMap, List.nodup_flatMap]
  refine ⟨families_nodup m, hnames.2.imp_of_mem ?_⟩
  intro f g hf hg hdisjoint s hs hs'
  obtain ⟨a, ha, rfl⟩ := List.mem_map.mp hs
  obtain ⟨b, hb, hab⟩ := List.mem_map.mp hs'
  have hmetric : b.metric = a.metric := congrArg Prod.fst hab
  have hb' := (families_sound m g hg).sampleNames b hb
  rw [hmetric] at hb'
  exact hdisjoint ((families_sound m f hf).sampleNames a ha) hb'

end

end ConductorRs.Metrics

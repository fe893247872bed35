import ConductorRs.Metatheory.MetricsDistinct

/-!
Metrics after any number of calls. A counter holds how often its strings were
recorded, distinct strings are distinct series, and the rendering can be read
back exactly when no call was given a string with a line feed.
-/
namespace ConductorRs.Metrics
open Collections Exposition

/-- A call of one of the `record` functions. -/
inductive Record (F : Type) where
  | up
  | healthCheck (success : Bool) (error : String)
  | leaderTransfer (success : Bool)
  | startSequencer (success : Bool)
  | stopSequencer (success : Bool)
  | stateChange (leader healthy active : Bool)
  | rollupBoostConnectionAttempt (success : Bool) (source : String)
  | loopExecutionTime (seconds : F)
  | websocketClientCount (count : UInt64)
  | rpcServerNotification (method : String)
  | rpcServerRequest (method : String) (paramsSize : UInt64) (seconds : F)
      (errorCode : Option Int) (resultSize : Option UInt64)

/-- The strings a call is given. -/
def Record.strings {F : Type} : Record F → List String
  | .healthCheck _ error => [error]
  | .rollupBoostConnectionAttempt _ source => [source]
  | .rpcServerNotification method | .rpcServerRequest method _ _ _ _ => [method]
  | _ => []

section

variable {F : Type} [F64 F]

namespace ConductorMetrics

def record (m : ConductorMetrics F) : Record F → ConductorMetrics F
  | .up => m.recordUp
  | .healthCheck success error => m.recordHealthCheck success error
  | .leaderTransfer success => m.recordLeaderTransfer success
  | .startSequencer success => m.recordStartSequencer success
  | .stopSequencer success => m.recordStopSequencer success
  | .stateChange leader healthy active => m.recordStateChange leader healthy active
  | .rollupBoostConnectionAttempt success source =>
      m.recordRollupBoostConnectionAttempt success source
  | .loopExecutionTime seconds => m.recordLoopExecutionTime seconds
  | .websocketClientCount count => m.recordWebsocketClientCount count
  | .rpcServerNotification method => m.recordRpcServerNotification method
  | .rpcServerRequest method paramsSize seconds errorCode resultSize =>
      m.recordRpcServerRequest method paramsSize seconds errorCode resultSize

/-- The metrics after the calls, in their order. -/
def recorded (version : String) (calls : List (Record F)) : ConductorMetrics F :=
  calls.foldl record (new version)

theorem recorded_concat (version : String) (calls : List (Record F)) (call : Record F) :
    recorded version (calls ++ [call]) = (recorded version calls).record call := by
  simp [recorded]

/-- No string in the counters has a line feed. -/
@[mk_iff]
structure Clean (m : ConductorMetrics F) : Prop where
  version : Calm m.version
  healthchecks : ∀ k ∈ m.counters.healthchecks.keys, Calm (ofLex k).2
  attempts : ∀ k ∈ m.counters.rollupBoostConnectionAttempts.keys, Calm (ofLex k).2
  requests : ∀ k ∈ m.counters.rpcServerRequests.keys, Calm k
  buckets : ∀ k ∈ m.counters.rpcServerRequestBuckets.keys, Calm k
  responses : ∀ k ∈ m.counters.rpcServerResponses.keys, Calm (ofLex k).1 ∧ Calm (ofLex k).2
  paramsSize : ∀ k ∈ m.counters.rpcServerParamsSize.keys, Calm k
  resultsSize : ∀ k ∈ m.counters.rpcServerResultsSize.keys, Calm k
  notifications : ∀ k ∈ m.counters.rpcNotificationsReceived.keys, Calm k

end ConductorMetrics

theorem calm_bool (b : Bool) : Calm (toString b) := by
  unfold Calm
  cases b with
  | false => decide
  | true => decide

theorem calm_responseError (code : Option Int) : Calm (ConductorMetrics.responseError code) := by
  have hdigits : ∀ n : Nat, '\n' ∉ n.repr.toList := by
    intro n
    have h := digits_toString n
    rw [Nat.toString_eq_repr] at h
    exact not_mem_of_class h (by decide)
  unfold Calm
  cases code with
  | none => decide
  | some code =>
      have hmark : '\n' ∉ "rpc_".toList := by decide
      have hcode : '\n' ∉ (toString code).toList := by
        rw [Int.toString_eq_repr, Int.repr_eq_if]
        split
        · exact hdigits _
        · have hminus : '\n' ∉ "-".toList := by decide
          rw [String.toList_append, List.mem_append, not_or]
          exact ⟨hminus, hdigits _⟩
      rw [ConductorMetrics.responseError, String.toList_append, List.mem_append, not_or]
      exact ⟨hmark, hcode⟩

theorem calmLabels_nil : CalmLabels [] := by
  intro l hl
  cases hl

theorem calmLabels_cons {label : String × String} {labels : List (String × String)} :
    CalmLabels (label :: labels) ↔ Calm label.2 ∧ CalmLabels labels :=
  List.forall_mem_cons

theorem calmLabels_append {labels labels' : List (String × String)} :
    CalmLabels (labels ++ labels') ↔ CalmLabels labels ∧ CalmLabels labels' :=
  List.forall_mem_append

theorem gauge_unbroken {metric value : String} {labels : List (String × String)} :
    (gaugeFamily metric labels value).Unbroken ↔ CalmLabels labels := by
  simp [Family.Unbroken, gaugeFamily]

theorem counter_unbroken {κ : Type} [LinearOrder κ] {metric : String}
    {labels : κ → List (String × String)} {map : BTreeMap κ UInt64} :
    (counterFamily metric labels map).Unbroken ↔ ∀ k ∈ map.keys, CalmLabels (labels k) := by
  constructor
  · intro h k hk
    obtain ⟨entry, hentry, rfl⟩ := List.mem_map.mp hk
    exact h _ (List.mem_map_of_mem hentry)
  · intro h s hs
    obtain ⟨entry, hentry, rfl⟩ := List.mem_map.mp hs
    exact h entry.1 (List.mem_map_of_mem hentry)

theorem histogram_calm [LawfulF64 F] {metric : String} {labels : List (String × String)}
    {buckets : List UInt64} {count : UInt64} {sum : F} :
    (∀ s ∈ histogramSamples metric labels buckets count sum, CalmLabels s.labels) ↔
      CalmLabels labels := by
  constructor
  · intro h
    refine h ⟨metric ++ "_sum", labels, F64.display sum⟩ ?_
    simp [histogramSamples]
  · intro h s hs
    rcases mem_histogramSamples hs with ⟨le, _, heq, hcalm, _⟩ | ⟨_, heq, _⟩
    · rw [heq, calmLabels_append, calmLabels_cons]
      exact ⟨h, hcalm, calmLabels_nil⟩
    · rw [heq]
      exact h

theorem histograms_unbroken [LawfulF64 F] {κ ν : Type} [LinearOrder κ] {metric : String}
    {labels : κ → List (String × String)} {map : BTreeMap κ ν} {buckets : κ × ν → List UInt64}
    {count : κ × ν → UInt64} {sum : κ × ν → F} :
    (Family.mk metric .histogram (map.entries.flatMap fun entry =>
      histogramSamples metric (labels entry.1) (buckets entry) (count entry)
        (sum entry))).Unbroken ↔
      ∀ k ∈ map.keys, CalmLabels (labels k) := by
  constructor
  · intro h k hk
    obtain ⟨entry, hentry, rfl⟩ := List.mem_map.mp hk
    have hsamples : ∀ s ∈ histogramSamples metric (labels entry.1) (buckets entry) (count entry)
        (sum entry), CalmLabels s.labels :=
      fun s hs => h s (List.mem_flatMap.mpr ⟨entry, hentry, hs⟩)
    exact histogram_calm.mp hsamples
  · intro h s hs
    obtain ⟨entry, hentry, hs⟩ := List.mem_flatMap.mp hs
    exact histogram_calm.mpr (h entry.1 (List.mem_map_of_mem hentry)) s hs

theorem calm_rpcLabels {method : String} : CalmLabels (rpcLabels method) ↔ Calm method := by
  have hmain : Calm "main" := by unfold Calm; decide
  simp [rpcLabels, calmLabels_cons, calmLabels_nil, hmain]

theorem unbroken_iff_clean [LawfulF64 F] (m : ConductorMetrics F) :
    (∀ f ∈ m.families, f.Unbroken) ↔ m.Clean := by
  have hloop : (Family.mk "op_conductor_loop_execution_time" .histogram
      (histogramSamples "op_conductor_loop_execution_time" [] m.counters.loopExecutionBuckets
        m.counters.loopExecutionCount m.counters.loopExecutionSum)).Unbroken :=
    histogram_calm.mpr calmLabels_nil
  simp only [ConductorMetrics.families, List.forall_mem_cons, List.not_mem_nil, false_imp_iff,
    implies_true, and_true, true_and, gauge_unbroken, counter_unbroken, histograms_unbroken,
    calmLabels_append, calmLabels_cons, calmLabels_nil, calm_rpcLabels, calm_bool, hloop]
  constructor
  · rintro ⟨hversion, hhealth, hattempts, hrequests, hbuckets, hresponses, hparams, hresults,
      hnotifications⟩
    exact ⟨hversion, hhealth, hattempts, hrequests, hbuckets, hresponses, hparams, hresults,
      hnotifications⟩
  · intro h
    exact ⟨h.version, h.healthchecks, h.attempts, h.requests, h.buckets, h.responses,
      h.paramsSize, h.resultsSize, h.notifications⟩

/-- A call keeps the counters clean exactly when its strings are calm. -/
theorem clean_record_iff (m : ConductorMetrics F) (call : Record F) :
    (m.record call).Clean ↔ m.Clean ∧ ∀ s ∈ call.strings, Calm s := by
  cases call with
  | healthCheck success error =>
      simp only [ConductorMetrics.record, ConductorMetrics.recordHealthCheck,
        ConductorMetrics.withCounters, ConductorMetrics.clean_iff, BTreeMap.forall_keys_upsert,
        Record.strings, List.forall_mem_singleton, ofLex_toLex]
      tauto
  | rollupBoostConnectionAttempt success source =>
      simp only [ConductorMetrics.record, ConductorMetrics.recordRollupBoostConnectionAttempt,
        ConductorMetrics.withCounters, ConductorMetrics.clean_iff, BTreeMap.forall_keys_upsert,
        Record.strings, List.forall_mem_singleton, ofLex_toLex]
      tauto
  | rpcServerNotification method =>
      simp only [ConductorMetrics.record, ConductorMetrics.recordRpcServerNotification,
        ConductorMetrics.withCounters, ConductorMetrics.clean_iff, BTreeMap.forall_keys_upsert,
        Record.strings, List.forall_mem_singleton]
      tauto
  | rpcServerRequest method paramsSize seconds errorCode resultSize =>
      have herror := calm_responseError errorCode
      cases resultSize with
      | none =>
          simp only [ConductorMetrics.record, ConductorMetrics.recordRpcServerRequest,
            ConductorMetrics.withCounters, ConductorMetrics.clean_iff, BTreeMap.forall_keys_upsert,
            Record.strings, List.forall_mem_singleton, ofLex_toLex]
          tauto
      | some size =>
          simp only [ConductorMetrics.record, ConductorMetrics.recordRpcServerRequest,
            ConductorMetrics.withCounters, ConductorMetrics.clean_iff, BTreeMap.forall_keys_upsert,
            Record.strings, List.forall_mem_singleton, ofLex_toLex]
          tauto
  | _ =>
      simp only [ConductorMetrics.record, ConductorMetrics.clean_iff, Record.strings,
        List.not_mem_nil, false_imp_iff, implies_true, and_true]
      rfl

theorem clean_recorded_iff (version : String) (calls : List (Record F)) :
    (ConductorMetrics.recorded version calls).Clean ↔
      Calm version ∧ ∀ call ∈ calls, ∀ s ∈ call.strings, Calm s := by
  induction calls using List.reverseRecOn with
  | nil =>
      constructor
      · intro h
        exact ⟨h.version, by simp⟩
      · rintro ⟨hversion, _⟩
        constructor
        · exact hversion
        all_goals
          intro k hk
          cases hk
  | append_singleton calls call ih =>
      rw [ConductorMetrics.recorded_concat, clean_record_iff, ih, and_assoc]
      simp only [List.forall_mem_append, List.forall_mem_singleton]

namespace Record

/-! What each call adds to a counter of calls. -/

def healthCheckKey : Record F → Option (Bool ×ₗ String)
  | .healthCheck success error => some (toLex (success, error))
  | _ => none

def leaderTransferKey : Record F → Option Bool
  | .leaderTransfer success => some success
  | _ => none

def startKey : Record F → Option Bool
  | .startSequencer success => some success
  | _ => none

def stopKey : Record F → Option Bool
  | .stopSequencer success => some success
  | _ => none

def stateChangeKey : Record F → Option (Bool ×ₗ Bool ×ₗ Bool)
  | .stateChange leader healthy active => some (toLex (leader, toLex (healthy, active)))
  | _ => none

def attemptKey : Record F → Option (Bool ×ₗ String)
  | .rollupBoostConnectionAttempt success source => some (toLex (success, source))
  | _ => none

def requestKey : Record F → Option String
  | .rpcServerRequest method _ _ _ _ => some method
  | _ => none

def responseKey : Record F → Option (String ×ₗ String)
  | .rpcServerRequest method _ _ errorCode _ =>
      some (toLex (method, ConductorMetrics.responseError errorCode))
  | _ => none

def notificationKey : Record F → Option String
  | .rpcServerNotification method => some method
  | _ => none

end Record

/-- Each counter of calls holds how often its labels were recorded. -/
structure Tallied (calls : List (Record F)) (c : Counters F) : Prop where
  healthchecks : c.healthchecks = .tally (calls.filterMap Record.healthCheckKey)
  leaderTransfers : c.leaderTransfers = .tally (calls.filterMap Record.leaderTransferKey)
  sequencerStarts : c.sequencerStarts = .tally (calls.filterMap Record.startKey)
  sequencerStops : c.sequencerStops = .tally (calls.filterMap Record.stopKey)
  stateChanges : c.stateChanges = .tally (calls.filterMap Record.stateChangeKey)
  attempts : c.rollupBoostConnectionAttempts = .tally (calls.filterMap Record.attemptKey)
  requests : c.rpcServerRequests = .tally (calls.filterMap Record.requestKey)
  requestCount : c.rpcServerRequestCount = .tally (calls.filterMap Record.requestKey)
  responses : c.rpcServerResponses = .tally (calls.filterMap Record.responseKey)
  notifications : c.rpcNotificationsReceived = .tally (calls.filterMap Record.notificationKey)

/-- A field that a call counts once, or leaves alone. -/
theorem field_tallied {κ : Type} [LinearOrder κ] (field : ConductorMetrics F → BTreeMap κ UInt64)
    (key : Record F → Option κ) (version : String) (calls : List (Record F))
    (hnew : ∀ version, field (.new version) = .empty)
    (hstep : ∀ m call, field (m.record call) =
      (key call).elim (field m) fun k => (field m).upsert k 0 (· + 1)) :
    field (.recorded version calls) = .tally (calls.filterMap key) := by
  induction calls using List.reverseRecOn with
  | nil => exact hnew version
  | append_singleton calls call ih =>
      rw [ConductorMetrics.recorded_concat, hstep, ih, List.filterMap_append]
      cases hkey : key call with
      | none => simp [hkey]
      | some k =>
          rw [List.filterMap_cons_some hkey, List.filterMap_nil, BTreeMap.tally_concat]
          rfl

theorem recorded_tallied (version : String) (calls : List (Record F)) :
    Tallied calls (ConductorMetrics.recorded version calls).counters := by
  constructor
  · exact field_tallied (·.counters.healthchecks) Record.healthCheckKey version calls
      (fun _ => rfl) fun m call => by cases call <;> rfl
  · exact field_tallied (·.counters.leaderTransfers) Record.leaderTransferKey version calls
      (fun _ => rfl) fun m call => by cases call <;> rfl
  · exact field_tallied (·.counters.sequencerStarts) Record.startKey version calls
      (fun _ => rfl) fun m call => by cases call <;> rfl
  · exact field_tallied (·.counters.sequencerStops) Record.stopKey version calls
      (fun _ => rfl) fun m call => by cases call <;> rfl
  · exact field_tallied (·.counters.stateChanges) Record.stateChangeKey version calls
      (fun _ => rfl) fun m call => by cases call <;> rfl
  · exact field_tallied (·.counters.rollupBoostConnectionAttempts) Record.attemptKey version calls
      (fun _ => rfl) fun m call => by cases call <;> rfl
  · exact field_tallied (·.counters.rpcServerRequests) Record.requestKey version calls
      (fun _ => rfl) fun m call => by cases call <;> rfl
  · exact field_tallied (·.counters.rpcServerRequestCount) Record.requestKey version calls
      (fun _ => rfl) fun m call => by cases call <;> rfl
  · exact field_tallied (·.counters.rpcServerResponses) Record.responseKey version calls
      (fun _ => rfl) fun m call => by cases call <;> rfl
  · exact field_tallied (·.counters.rpcNotificationsReceived) Record.notificationKey version calls
      (fun _ => rfl) fun m call => by cases call <;> rfl

variable [LawfulF64 F]

/-- After any calls, the counters hold how often each label was recorded and the
series are distinct; the rendering is read back as exactly these series if and
only if no recorded string has a line feed. -/
theorem rendering_reads_back_iff (version : String) (calls : List (Record F)) :
    Tallied calls (ConductorMetrics.recorded version calls).counters ∧
      ((ConductorMetrics.recorded version calls).series.map identity).Nodup ∧
      (read (ConductorMetrics.recorded version calls).renderPrometheus.toList =
          some (ConductorMetrics.recorded version calls).series ↔
        Calm version ∧ ∀ call ∈ calls, ∀ s ∈ call.strings, Calm s) := by
  refine ⟨recorded_tallied version calls, series_nodup _, ?_⟩
  rw [render_reads_iff, unbroken_iff_clean, clean_recorded_iff]

end

/-- Numbers of seconds to three places, printed without trailing zeros. -/
structure Thousandths where
  count : Nat

namespace Thousandths

def fraction (r : Nat) : List Char :=
  if r = 0 then []
  else if r % 100 = 0 then ['.', Nat.digitChar (r / 100 % 10)]
  else if r % 10 = 0 then ['.', Nat.digitChar (r / 100 % 10), Nat.digitChar (r / 10 % 10)]
  else
    ['.', Nat.digitChar (r / 100 % 10), Nat.digitChar (r / 10 % 10), Nat.digitChar (r % 10)]

instance : F64 Thousandths where
  ofScientific m negative e := ⟨if negative then m * 1000 / 10 ^ e else m * 1000 * 10 ^ e⟩
  zero := ⟨0⟩
  add a b := ⟨a.count + b.count⟩
  le a b := a.count ≤ b.count
  display a := toString (a.count / 1000) ++ String.ofList (fraction (a.count % 1000))

theorem numberChar_digit {c : Char} (h : c.isDigit = true) : numberChar c = true := by
  simp [numberChar, Char.isAlphanum, h]

theorem numberChar_digitChar (n : Nat) : numberChar (Nat.digitChar (n % 10)) = true := by
  have digits : ∀ d < 10, numberChar (Nat.digitChar d) = true := by decide
  exact digits _ (Nat.mod_lt n (by decide))

theorem fraction_chars (r : Nat) : (fraction r).all numberChar = true := by
  have hdot : numberChar '.' = true := by decide
  unfold fraction
  split
  · rfl
  · split
    · simp [hdot, numberChar_digitChar]
    · split
      · simp [hdot, numberChar_digitChar]
      · simp [hdot, numberChar_digitChar]

instance : LawfulF64 Thousandths where
  display_ne_nil x := by
    simp [F64.display, Nat.toDigits_ne_nil]
  display_chars x := by
    have hdigits := digits_toString (x.count / 1000)
    rw [F64.display, instF64, String.toList_append, List.all_append, Bool.and_eq_true]
    constructor
    · rw [List.all_eq_true] at hdigits ⊢
      exact fun c hc => numberChar_digit (hdigits c hc)
    · rw [String.toList_ofList]
      exact fraction_chars _
  display_buckets := by decide +kernel

end Thousandths

/-- Quotes and backslashes do no harm. -/
theorem quoted_method_reads_back :
    read (ConductorMetrics.recorded (F := Thousandths) "0.1.0"
        [.rpcServerNotification "a\"b\\"]).renderPrometheus.toList =
      some (ConductorMetrics.recorded (F := Thousandths) "0.1.0"
        [.rpcServerNotification "a\"b\\"]).series := by
  refine (rendering_reads_back_iff (F := Thousandths) "0.1.0"
    [.rpcServerNotification "a\"b\\"]).2.2.mpr ⟨?_, ?_⟩
  · unfold Calm
    decide
  · intro call hcall s hs
    rw [List.mem_singleton.mp hcall] at hs
    rw [List.mem_singleton.mp hs, Calm]
    decide

/-- One method name with a line feed, and nothing can be read. -/
theorem line_feed_unreadable :
    read (ConductorMetrics.recorded (F := Thousandths) "0.1.0"
      [.rpcServerNotification "a\nb"]).renderPrometheus.toList = none := by
  refine render_unreadable ?_
  rw [unbroken_iff_clean, clean_recorded_iff]
  rintro ⟨_, hcalls⟩
  have hcalm : Calm "a\nb" := hcalls _ List.mem_cons_self _ List.mem_cons_self
  exact hcalm (by decide)

end ConductorRs.Metrics

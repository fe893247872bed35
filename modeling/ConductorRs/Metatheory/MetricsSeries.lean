import ConductorRs.Metatheory.MetricsText

/-!
What can be read back from the rendered metrics. Every family is well formed and
its series are distinct; the rendering gives them back as long as no recorded
string has a line feed, which is the one character that is not escaped.
-/
namespace ConductorRs.Metrics
open Collections Exposition

def numberChar (c : Char) : Bool := c.isAlphanum || c = '.' || c = '-' || c = '+'

/-- What Rust prints for an `f64`. -/
class LawfulF64 (F : Type) [F64 F] : Prop where
  display_ne_nil : ∀ x : F, (F64.display x).toList ≠ []
  display_chars : ∀ x : F, (F64.display x).toList.all numberChar = true
  display_buckets : (loopExecutionBuckets : List F).map F64.display =
    ["0.005", "0.01", "0.025", "0.05", "0.1", "0.25", "0.5", "1", "2.5", "5", "10"]

/-- No line feed: the one thing that keeps a string from being read back. -/
def Calm (s : String) : Prop := '\n' ∉ s.toList

def CalmLabels (labels : List (String × String)) : Prop := ∀ label ∈ labels, Calm label.2

namespace Family

structure Sound (f : Family) : Prop where
  metric : isMetricName f.metric = true
  sampleNames : ∀ s ∈ f.samples, s.metric ∈ f.names
  labelNames : ∀ s ∈ f.samples, ∀ label ∈ s.labels, isLabelName label.1 = true
  values : ∀ s ∈ f.samples, isValue s.value = true

def Unbroken (f : Family) : Prop := ∀ s ∈ f.samples, CalmLabels s.labels

end Family

theorem valueChar_of_class {p : Char → Bool} {c : Char} (hc : p c = true) (hspace : p ' ' = false)
    (htab : p '\t' = false) (hnewline : p '\n' = false) (hbrace : p '\x7b' = false) :
    valueChar c = true := by
  have hn := ne_of_class hc hnewline
  have hb := ne_of_class hc hbrace
  simp [valueChar, not_blank_of_class hc hspace htab, hn, hb]

theorem digits_toString (n : Nat) : (toString n).toList.all Char.isDigit = true := by
  rw [Nat.toString_eq_repr, Nat.toList_repr, List.all_eq_true]
  intro c hc
  exact Nat.isDigit_of_mem_toDigits (by decide) (by decide) hc

theorem isValue_toString (n : Nat) : isValue (toString n) = true := by
  rw [isValue, Bool.and_eq_true]
  constructor
  · rw [Nat.toString_eq_repr, Nat.toList_repr]
    simp [Nat.toDigits_ne_nil]
  · rw [List.all_eq_true]
    intro c hc
    exact valueChar_of_class (List.all_eq_true.mp (digits_toString n) c hc) (by decide)
      (by decide) (by decide) (by decide)

theorem isMetricName_append {name ending : String} (h : isMetricName name = true)
    (hending : ending.toList.all metricChar = true) : isMetricName (name ++ ending) = true := by
  obtain ⟨c, cs, hname, hc, hcs⟩ := isMetricName_iff.mp h
  refine isMetricName_iff.mpr ⟨c, cs ++ ending.toList, ?_, hc, ?_⟩
  · rw [String.toList_append, hname, List.cons_append]
  · rw [List.all_append, hcs, hending]
    rfl

theorem gauge_sound {metric value : String} {labels : List (String × String)}
    (hmetric : isMetricName metric = true) (hlabels : ∀ l ∈ labels, isLabelName l.1 = true)
    (hvalue : isValue value = true) : (gaugeFamily metric labels value).Sound where
  metric := hmetric
  sampleNames := by simp [gaugeFamily, Family.names]
  labelNames := by simpa [gaugeFamily] using hlabels
  values := by simpa [gaugeFamily] using hvalue

theorem counter_sound {κ : Type} [LinearOrder κ] {metric : String}
    {labels : κ → List (String × String)} (map : BTreeMap κ UInt64)
    (hmetric : isMetricName metric = true) (hlabels : ∀ k, ∀ l ∈ labels k, isLabelName l.1 = true) :
    (counterFamily metric labels map).Sound where
  metric := hmetric
  sampleNames := by
    intro s hs
    obtain ⟨entry, _, rfl⟩ := List.mem_map.mp hs
    simp [counterFamily, Family.names]
  labelNames := by
    intro s hs
    obtain ⟨entry, _, rfl⟩ := List.mem_map.mp hs
    exact hlabels entry.1
  values := by
    intro s hs
    obtain ⟨entry, _, rfl⟩ := List.mem_map.mp hs
    exact isValue_toString _

theorem lines_unbroken_iff {fs : List Family} :
    (∀ line ∈ fs.flatMap Family.lines, line.Unbroken) ↔ ∀ f ∈ fs, f.Unbroken := by
  constructor
  · intro h f hf s hs
    refine h (.sample s) (List.mem_flatMap.mpr ⟨f, hf, ?_⟩) s List.mem_cons_self
    exact List.mem_cons_of_mem _ (List.mem_map_of_mem hs)
  · intro h line hline s hs
    obtain ⟨f, hf, hline⟩ := List.mem_flatMap.mp hline
    rcases List.mem_cons.mp hline with rfl | hline
    · cases hs
    · obtain ⟨s', hs', rfl⟩ := List.mem_map.mp hline
      rw [List.mem_singleton.mp hs]
      exact h f hf s' hs'

section

variable {F : Type} [F64 F] [LawfulF64 F]

theorem isValue_display (x : F) : isValue (F64.display x) = true := by
  have hchars := LawfulF64.display_chars x
  rw [isValue, Bool.and_eq_true]
  constructor
  · simp [LawfulF64.display_ne_nil x]
  · rw [List.all_eq_true] at hchars ⊢
    intro c hc
    exact valueChar_of_class (hchars c hc) (by decide) (by decide) (by decide) (by decide)

theorem calm_display (x : F) : Calm (F64.display x) :=
  not_mem_of_class (LawfulF64.display_chars x) (by decide)

theorem escapeLabel_display (x : F) : escapeLabel (F64.display x) = F64.display x := by
  refine escapeLabel_eq_self ?_
  intro c hc
  have hchar := List.all_eq_true.mp (LawfulF64.display_chars x) c hc
  exact ⟨ne_of_class hchar (by decide), ne_of_class hchar (by decide)⟩

/-- The samples of a histogram: buckets, a sum and a count. -/
theorem mem_histogramSamples {metric : String} {labels : List (String × String)}
    {buckets : List UInt64} {count : UInt64} {sum : F} {s : Sample}
    (h : s ∈ histogramSamples metric labels buckets count sum) :
    (∃ le, s.metric = metric ++ "_bucket" ∧ s.labels = labels ++ [("le", le)] ∧ Calm le ∧
        isValue s.value = true) ∨
      (s.metric = metric ++ "_sum" ∨ s.metric = metric ++ "_count") ∧ s.labels = labels ∧
        isValue s.value = true := by
  rw [histogramSamples, List.mem_append] at h
  rcases h with h | h
  · obtain ⟨bucket, _, rfl⟩ := List.mem_map.mp h
    exact .inl ⟨_, rfl, rfl, calm_display _, isValue_toString _⟩
  · simp only [List.mem_cons, List.not_mem_nil, or_false] at h
    rcases h with rfl | rfl | rfl
    · have hcalm : Calm "+Inf" := by unfold Calm; decide
      exact .inl ⟨_, rfl, rfl, hcalm, isValue_toString _⟩
    · exact .inr ⟨.inl rfl, rfl, isValue_display sum⟩
    · exact .inr ⟨.inr rfl, rfl, isValue_toString _⟩

theorem histogram_sound {metric : String} {samples : List Sample}
    (hmetric : isMetricName metric = true)
    (h : ∀ s ∈ samples, ∃ labels buckets count, ∃ sum : F, (∀ l ∈ labels, isLabelName l.1 = true) ∧
      s ∈ histogramSamples metric labels buckets count sum) :
    (Family.mk metric .histogram samples).Sound where
  metric := hmetric
  sampleNames := by
    intro s hs
    obtain ⟨labels, buckets, count, sum, _, hs⟩ := h s hs
    rcases mem_histogramSamples hs with ⟨_, hname, _⟩ | ⟨hname | hname, _⟩
    all_goals simp [Family.names, hname]
  labelNames := by
    intro s hs
    obtain ⟨labels, buckets, count, sum, hlabels, hs⟩ := h s hs
    rcases mem_histogramSamples hs with ⟨le, _, heq, _⟩ | ⟨_, heq, _⟩
    · have hle : isLabelName "le" = true := by decide
      rw [heq]
      intro l hl
      rcases List.mem_append.mp hl with hl | hl
      · exact hlabels l hl
      · rw [List.mem_singleton.mp hl]
        exact hle
    · rw [heq]
      exact hlabels
  values := by
    intro s hs
    obtain ⟨labels, buckets, count, sum, _, hs⟩ := h s hs
    rcases mem_histogramSamples hs with ⟨_, _, _, _, hvalue⟩ | ⟨_, _, hvalue⟩
    · exact hvalue
    · exact hvalue

theorem rpcLabels_names (method : String) : ∀ l ∈ rpcLabels method, isLabelName l.1 = true := by
  have hrpc : isLabelName "rpc" = true := by decide
  have hmethod : isLabelName "method" = true := by decide
  simp [rpcLabels, hrpc, hmethod]

theorem families_sound (m : ConductorMetrics F) : ∀ f ∈ m.families, f.Sound := by
  have hsuccess : isLabelName "success" = true := by decide
  have herror : isLabelName "error" = true := by decide
  have hsource : isLabelName "source" = true := by decide
  have hversion : isLabelName "version" = true := by decide
  have hleader : isLabelName "leader" = true := by decide
  have hhealthy : isLabelName "healthy" = true := by decide
  have hactive : isLabelName "active" = true := by decide
  have hone : isValue "1" = true := by decide
  simp only [ConductorMetrics.families, List.forall_mem_cons, List.not_mem_nil, false_imp_iff,
    implies_true, and_true]
  refine ⟨gauge_sound (by decide +kernel) (by simp [hversion]) hone,
    gauge_sound (by decide +kernel) (by simp) (isValue_toString _),
    counter_sound _ (by decide +kernel) (by simp [hsuccess, herror]),
    counter_sound _ (by decide +kernel) (by simp [hsuccess]),
    counter_sound _ (by decide +kernel) (by simp [hsuccess]),
    counter_sound _ (by decide +kernel) (by simp [hsuccess]),
    counter_sound _ (by decide +kernel) (by simp [hleader, hhealthy, hactive]),
    counter_sound _ (by decide +kernel) (by simp [hsuccess, hsource]),
    histogram_sound (F := F) (by decide +kernel) ?_,
    gauge_sound (by decide +kernel) (by simp) (isValue_toString _),
    counter_sound _ (by decide +kernel) rpcLabels_names,
    histogram_sound (F := F) (by decide +kernel) ?_,
    counter_sound _ (by decide +kernel) ?_,
    counter_sound _ (by decide +kernel) rpcLabels_names,
    counter_sound _ (by decide +kernel) rpcLabels_names,
    counter_sound _ (by decide +kernel) rpcLabels_names⟩
  · intro s hs
    exact ⟨_, _, _, _, by simp, hs⟩
  · intro s hs
    obtain ⟨entry, _, hs⟩ := List.mem_flatMap.mp hs
    exact ⟨_, _, _, _, rpcLabels_names entry.1, hs⟩
  · intro k l hl
    rcases List.mem_append.mp hl with hl | hl
    · exact rpcLabels_names _ l hl
    · rw [List.mem_singleton.mp hl]
      exact herror

theorem Family.Sound.wellFormed {f : Family} (h : f.Sound) : ∀ line ∈ f.lines, line.WellFormed := by
  intro line hline
  have hmetric : '\n' ∉ f.metric.toList := not_mem_of_class (metricName_chars h.metric) (by decide)
  rcases List.mem_cons.mp hline with rfl | hline
  · have hkind : '\n' ∉ f.kind.text.toList := by
      cases f.kind with
      | gauge => decide
      | counter => decide
      | histogram => decide
    simp [Line.WellFormed, hmetric, hkind]
  · obtain ⟨s, hs, rfl⟩ := List.mem_map.mp hline
    refine ⟨?_, h.labelNames s hs, h.values s hs⟩
    have hname := h.sampleNames s hs
    unfold Family.names at hname
    split at hname
    · simp only [List.mem_cons, List.not_mem_nil, or_false] at hname
      rcases hname with hname | hname | hname
      all_goals
        rw [hname]
        exact isMetricName_append h.metric (by decide)
    · rw [List.mem_singleton.mp hname]
      exact h.metric

theorem lines_wellFormed (m : ConductorMetrics F) :
    ∀ line ∈ m.families.flatMap Family.lines, line.WellFormed := by
  intro line hline
  obtain ⟨f, hf, hline⟩ := List.mem_flatMap.mp hline
  exact (families_sound m f hf).wellFormed line hline

/-- The series of a rendering are read back exactly when the families are unbroken. -/
theorem render_reads_iff (m : ConductorMetrics F) :
    read m.renderPrometheus.toList = some m.series ↔ ∀ f ∈ m.families, f.Unbroken := by
  have hsamples : (m.families.flatMap Family.lines).flatMap Line.samples = m.series := by
    have hfamily : ∀ f : Family, f.lines.flatMap Line.samples = f.samples := by
      intro f
      simp [Family.lines, Line.samples, List.flatMap_map]
    simp [ConductorMetrics.series, List.flatMap_assoc, hfamily]
  rw [render_document escapeLabel_display, ← hsamples, read_document_iff (lines_wellFormed m),
    lines_unbroken_iff]

/-- A broken family makes the whole rendering unreadable. -/
theorem render_unreadable {m : ConductorMetrics F} (h : ¬ ∀ f ∈ m.families, f.Unbroken) :
    read m.renderPrometheus.toList = none := by
  rw [← lines_unbroken_iff] at h
  rw [Exposition.read, render_document escapeLabel_display,
    document_fails [] (lines_wellFormed m) h]
  rfl

end

end ConductorRs.Metrics

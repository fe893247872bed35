import ConductorRs.Collections.Exposition

/-!
Texts of metrics as they are written, and how they are read back. The writer
escapes backslashes and double quotes in label values and leaves line feeds as
they are; a document of such lines is read back exactly when there are none.
-/
namespace Exposition

/-- Backslashes and double quotes are escaped, line feeds are not. -/
def quoteChar (c : Char) : List Char :=
  if c = '\\' then ['\\', '\\'] else if c = '"' then ['\\', '"'] else [c]

def quote (text : List Char) : List Char := text.flatMap quoteChar

def labelText (label : String × String) : List Char :=
  label.1.toList ++ '=' :: '"' :: quote label.2.toList ++ ['"']

def labelsText : List (String × String) → List Char
  | [] => []
  | [label] => labelText label
  | label :: labels => labelText label ++ ',' :: labelsText labels

def labelSet : List (String × String) → List Char
  | [] => []
  | labels => '\x7b' :: labelsText labels ++ ['\x7d']

def Sample.text (s : Sample) : List Char :=
  s.metric.toList ++ labelSet s.labels ++ ' ' :: s.value.toList

/-- A line of the text. -/
inductive Line where
  | comment (text : String)
  | sample (sample : Sample)

namespace Line

def text : Line → List Char
  | comment text => '#' :: text.toList
  | sample s => s.text

def samples : Line → List Sample
  | comment _ => []
  | sample s => [s]

end Line

def document (lines : List Line) : List Char := lines.flatMap fun line => line.text ++ ['\n']

def isMetricName (name : String) : Bool :=
  match name.toList with
  | [] => false
  | c :: cs => metricStart c && cs.all metricChar

def isLabelName (name : String) : Bool :=
  match name.toList with
  | [] => false
  | c :: cs => labelStart c && cs.all labelChar

def valueChar (c : Char) : Bool := !blank c && c ≠ '\n' && c ≠ '\x7b'

def isValue (value : String) : Bool := !value.toList.isEmpty && value.toList.all valueChar

/-- What the format asks of a line, apart from label values. -/
def Line.WellFormed : Line → Prop
  | .comment text => '\n' ∉ text.toList
  | .sample s => isMetricName s.metric = true ∧ (∀ label ∈ s.labels, isLabelName label.1 = true) ∧
      isValue s.value = true

/-- No label value has a line feed. -/
def Line.Unbroken (line : Line) : Prop :=
  ∀ s ∈ line.samples, ∀ label ∈ s.labels, '\n' ∉ label.2.toList

theorem push_append (s : String) (c : Char) (cs : List Char) :
    s.push c ++ String.ofList cs = s ++ String.ofList (c :: cs) := by
  apply String.toList_inj.mp
  simp

theorem isMetricName_iff {name : String} : isMetricName name = true ↔
    ∃ c cs, name.toList = c :: cs ∧ metricStart c = true ∧ cs.all metricChar = true := by
  unfold isMetricName
  cases name.toList with
  | nil => simp
  | cons c cs => simp

theorem isLabelName_iff {name : String} : isLabelName name = true ↔
    ∃ c cs, name.toList = c :: cs ∧ labelStart c = true ∧ cs.all labelChar = true := by
  unfold isLabelName
  cases name.toList with
  | nil => simp
  | cons c cs => simp

theorem ne_of_class {p : Char → Bool} {c d : Char} (hc : p c = true) (hd : p d = false) :
    c ≠ d := by
  rintro rfl
  rw [hc] at hd
  cases hd

theorem not_blank_of_class {p : Char → Bool} {c : Char} (hc : p c = true)
    (hspace : p ' ' = false) (htab : p '\t' = false) : blank c = false := by
  have hne := ne_of_class hc hspace
  have hne' := ne_of_class hc htab
  simp [blank, hne, hne']

theorem not_mem_of_class {p : Char → Bool} {cs : List Char} {d : Char} (h : cs.all p = true)
    (hd : p d = false) : d ∉ cs := by
  intro hmem
  exact ne_of_class (List.all_eq_true.mp h d hmem) hd rfl

theorem metricChar_of_start {c : Char} (h : metricStart c = true) : metricChar c = true := by
  simp only [metricStart, metricChar, labelChar, Bool.or_eq_true] at h ⊢
  rcases h with h | h
  · exact .inl (.inl h)
  · exact .inr h

theorem metricName_chars {name : String} (h : isMetricName name = true) :
    name.toList.all metricChar = true := by
  obtain ⟨c, cs, hname, hc, hcs⟩ := isMetricName_iff.mp h
  rw [hname, List.all_cons, metricChar_of_start hc, hcs]
  rfl

theorem labelName_chars {name : String} (h : isLabelName name = true) :
    name.toList.all labelChar = true := by
  obtain ⟨c, cs, hname, hc, hcs⟩ := isLabelName_iff.mp h
  have hstart : labelChar c = true := by simp [labelChar, hc]
  rw [hname, List.all_cons, hstart, hcs]
  rfl

/-- A place of the reader that collects the characters of a class. -/
theorem advance_collecting {f : String → Position} {p : Char → Bool}
    (h : ∀ acc c, p c = true → (f acc).next c = some (f (acc.push c)))
    {cs : List Char} (hcs : cs.all p = true) (acc : String) :
    advance (f acc) cs = some (f (acc ++ String.ofList cs)) := by
  induction cs generalizing acc with
  | nil => simp [advance]
  | cons c cs ih =>
      rw [List.all_cons, Bool.and_eq_true] at hcs
      rw [advance_cons, h acc c hcs.1, Option.bind_some, ih hcs.2, push_append]

theorem singleton_append {c : Char} {cs : List Char} {s : String} (h : s.toList = c :: cs) :
    String.singleton c ++ String.ofList cs = s := by
  apply String.toList_inj.mp
  simp [h]

theorem advance_metric {name : String} (h : isMetricName name = true) :
    advance .lineStart name.toList = some (.metric name) := by
  obtain ⟨c, cs, hname, hc, hcs⟩ := isMetricName_iff.mp h
  have hblank : blank c = false := not_blank_of_class hc (by decide) (by decide)
  have hhash : c ≠ '#' := ne_of_class hc (by decide)
  have hmore : ∀ acc c, metricChar c = true →
      (Position.metric acc).next c = some (.metric (acc.push c)) := by
    intro acc c hc
    rw [Position.next, if_pos hc]
  rw [hname, advance_cons, Position.next, hblank, if_neg Bool.false_ne_true, if_neg hhash,
    if_pos hc, Option.bind_some, advance_collecting hmore hcs, singleton_append hname]

theorem advance_labelName (s : Sample) {name : String} (h : isLabelName name = true) :
    advance (.labels s) name.toList = some (.labelName s name) := by
  obtain ⟨c, cs, hname, hc, hcs⟩ := isLabelName_iff.mp h
  have hblank : blank c = false := not_blank_of_class hc (by decide) (by decide)
  have hbrace : c ≠ '\x7d' := ne_of_class hc (by decide)
  have hmore : ∀ acc c, labelChar c = true →
      (Position.labelName s acc).next c = some (.labelName s (acc.push c)) := by
    intro acc c hc
    rw [Position.next, if_pos hc]
  rw [hname, advance_cons, Position.next, hblank, if_neg Bool.false_ne_true, if_neg hbrace,
    if_pos hc, Option.bind_some, advance_collecting hmore hcs, singleton_append hname]

theorem valueChar_not_blank {c : Char} (h : valueChar c = true) : blank c = false :=
  not_blank_of_class h (by decide) (by decide)

/-- Where the value begins: after a name, or after the labels. -/
theorem advance_value {p : Position} {metric : String} {labels : List (String × String)}
    (hp : ∀ c, valueChar c = true → p.next c = some (.value ⟨metric, labels, String.singleton c⟩))
    {value : String} (h : isValue value = true) :
    advance p value.toList = some (.value ⟨metric, labels, value⟩) := by
  rw [isValue, Bool.and_eq_true] at h
  have hmore : ∀ acc c, valueChar c = true →
      (Position.value ⟨metric, labels, acc⟩).next c =
        some (.value ⟨metric, labels, acc.push c⟩) := by
    intro acc c hc
    rw [Position.next, valueChar_not_blank hc, if_neg Bool.false_ne_true]
  cases hvalue : value.toList with
  | nil =>
      rw [hvalue] at h
      cases h.1
  | cons c cs =>
      have hcs := h.2
      rw [hvalue, List.all_cons, Bool.and_eq_true] at hcs
      have hcollect := advance_collecting (f := fun acc => .value ⟨metric, labels, acc⟩) hmore
        hcs.2 (String.singleton c)
      rw [advance_cons, hp c hcs.1, Option.bind_some, hcollect, singleton_append hvalue]

/-- A quoted text spells itself. -/
theorem advance_quote (s : Sample) (name : String) (text : List Char) (acc : String) :
    advance (.labelValue s name acc) (quote text) =
      some (.labelValue s name (acc ++ String.ofList text)) := by
  induction text generalizing acc with
  | nil => simp [advance, quote]
  | cons c text ih =>
      have hquote : quote (c :: text) = quoteChar c ++ quote text := List.flatMap_cons
      have hchar : advance (.labelValue s name acc) (quoteChar c) =
          some (.labelValue s name (acc.push c)) := by
        unfold quoteChar
        split
        · next hc =>
            subst hc
            rfl
        · next hslash =>
            split
            · next hc =>
                subst hc
                rfl
            · next hquote =>
                simp [advance, Position.next, hslash, hquote]
      rw [hquote, advance_append, hchar, Option.bind_some, ih, push_append]

/-- Up to the text of a label. -/
theorem advance_labelOpen (s : Sample) {name : String} (h : isLabelName name = true) :
    advance (.labels s) (name.toList ++ ['=', '"']) = some (.labelValue s name "") := by
  rw [advance_append, advance_labelName s h]
  rfl

theorem advance_label (s : Sample) {label : String × String} (h : isLabelName label.1 = true) :
    advance (.labels s) (labelText label) =
      some (.labelEnd { s with labels := s.labels ++ [label] }) := by
  have hsplit : labelText label =
      (label.1.toList ++ ['=', '"']) ++ (quote label.2.toList ++ ['"']) := by
    simp [labelText]
  rw [hsplit, advance_append, advance_labelOpen s h, Option.bind_some, advance_append,
    advance_quote, Option.bind_some, String.ofList_toList, String.empty_append]
  rfl

theorem advance_labels (s : Sample) {labels : List (String × String)} (hne : labels ≠ [])
    (h : ∀ label ∈ labels, isLabelName label.1 = true) :
    advance (.labels s) (labelsText labels) =
      some (.labelEnd { s with labels := s.labels ++ labels }) := by
  induction labels generalizing s with
  | nil => exact absurd rfl hne
  | cons label labels ih =>
      have hlabel := h label List.mem_cons_self
      cases labels with
      | nil => exact advance_label s hlabel
      | cons other labels =>
          have hrest := ih { s with labels := s.labels ++ [label] } (by simp)
            fun l hl => h l (List.mem_cons_of_mem _ hl)
          have htext : labelsText (label :: other :: labels) =
              labelText label ++ ',' :: labelsText (other :: labels) := rfl
          have hcomma : (Position.labelEnd { s with labels := s.labels ++ [label] }).next ',' =
              some (.labels { s with labels := s.labels ++ [label] }) := rfl
          rw [htext, advance_append, advance_label s hlabel, Option.bind_some, advance_cons, hcomma,
            Option.bind_some, hrest]
          simp

theorem newline_not_mem_quote {text : List Char} (h : '\n' ∉ text) : '\n' ∉ quote text := by
  intro hmem
  obtain ⟨c, hc, hmem⟩ := List.mem_flatMap.mp hmem
  unfold quoteChar at hmem
  split at hmem
  · simp at hmem
  · split at hmem
    · simp at hmem
    · rw [List.mem_singleton] at hmem
      exact h (hmem ▸ hc)

theorem newline_not_mem_label {label : String × String} (hname : isLabelName label.1 = true)
    (hvalue : '\n' ∉ label.2.toList) : '\n' ∉ labelText label := by
  have hn : '\n' ∉ label.1.toList := not_mem_of_class (labelName_chars hname) (by decide)
  have hq := newline_not_mem_quote hvalue
  simp [labelText, hn, hq]

theorem newline_not_mem_labels {labels : List (String × String)}
    (h : ∀ label ∈ labels, isLabelName label.1 = true ∧ '\n' ∉ label.2.toList) :
    '\n' ∉ labelsText labels := by
  induction labels with
  | nil => simp [labelsText]
  | cons label labels ih =>
      have hlabel := h label List.mem_cons_self
      have hfirst := newline_not_mem_label hlabel.1 hlabel.2
      have hrest := ih fun l hl => h l (List.mem_cons_of_mem _ hl)
      cases labels with
      | nil => exact hfirst
      | cons other labels =>
          have htext : labelsText (label :: other :: labels) =
              labelText label ++ ',' :: labelsText (other :: labels) := rfl
          rw [htext]
          simp [hfirst, hrest]

/-- A text that the reader leaves, at a line feed, within a label value. -/
def BrokenFrom (p : Position) (text : List Char) : Prop :=
  ∃ before after s name value, text = before ++ '\n' :: after ∧ '\n' ∉ before ∧
    advance p before = some (.labelValue s name value)

/-- What comes before and after does not mend it. -/
theorem BrokenFrom.extend {p q : Position} {text : List Char} (h : BrokenFrom q text)
    (before after : List Char) (hbefore : '\n' ∉ before) (hp : advance p before = some q) :
    BrokenFrom p (before ++ text ++ after) := by
  obtain ⟨first, rest, s, name, value, htext, hfirst, hq⟩ := h
  refine ⟨before ++ first, rest ++ after, s, name, value, ?_, ?_, ?_⟩
  · simp [htext]
  · simp [hbefore, hfirst]
  · rw [advance_append, hp, Option.bind_some, hq]

theorem broken_label (s : Sample) {label : String × String} (hname : isLabelName label.1 = true)
    (hvalue : '\n' ∈ label.2.toList) : BrokenFrom (.labels s) (labelText label) := by
  obtain ⟨first, rest, hsplit, hfirst⟩ := List.eq_append_cons_of_mem hvalue
  have hquote : quote label.2.toList = quote first ++ '\n' :: quote rest := by
    rw [hsplit]
    simp [quote, quoteChar]
  have hn : '\n' ∉ label.1.toList := not_mem_of_class (labelName_chars hname) (by decide)
  refine ⟨label.1.toList ++ ['=', '"'] ++ quote first, quote rest ++ ['"'], s, label.1,
    String.ofList first, ?_, ?_, ?_⟩
  · simp [labelText, hquote]
  · simp [hn, newline_not_mem_quote hfirst]
  · rw [advance_append, advance_labelOpen s hname, Option.bind_some, advance_quote,
      String.empty_append]

/-- The first line feed among the labels ends the line within a value. -/
theorem broken_labels (s : Sample) {labels : List (String × String)}
    (hnames : ∀ label ∈ labels, isLabelName label.1 = true)
    (h : ∃ label ∈ labels, '\n' ∈ label.2.toList) :
    BrokenFrom (.labels s) (labelsText labels) := by
  induction labels generalizing s with
  | nil =>
      obtain ⟨_, hmem, _⟩ := h
      cases hmem
  | cons label labels ih =>
      have hname := hnames label List.mem_cons_self
      have hrest := fun l hl => hnames l (List.mem_cons_of_mem label hl)
      by_cases hfirst : '\n' ∈ label.2.toList
      · have hbroken := broken_label s hname hfirst
        cases labels with
        | nil => exact hbroken
        | cons other labels =>
            exact hbroken.extend [] _ (by simp) rfl
      · have hlater : ∃ l ∈ labels, '\n' ∈ l.2.toList := by
          obtain ⟨l, hl, hvalue⟩ := h
          rcases List.mem_cons.mp hl with rfl | hl
          · exact absurd hvalue hfirst
          · exact ⟨l, hl, hvalue⟩
        cases labels with
        | nil =>
            obtain ⟨_, hmem, _⟩ := hlater
            cases hmem
        | cons other labels =>
            -- The label is read whole, and the comma after it.
            have hbroken := ih { s with labels := s.labels ++ [label] } hrest hlater
            have hcomma : advance (.labels s) (labelText label ++ [',']) =
                some (.labels { s with labels := s.labels ++ [label] }) := by
              rw [advance_append, advance_label s hname]
              rfl
            have hclean : '\n' ∉ labelText label ++ [','] := by
              simp [newline_not_mem_label hname hfirst]
            have hwhole := hbroken.extend _ [] hclean hcomma
            simpa [labelsText] using hwhole

theorem advance_sample {s : Sample} (hmetric : isMetricName s.metric = true)
    (hnames : ∀ label ∈ s.labels, isLabelName label.1 = true) (hvalue : isValue s.value = true) :
    advance .lineStart s.text = some (.value s) := by
  obtain ⟨metric, labels, value⟩ := s
  dsimp only at hmetric hnames hvalue
  cases labels with
  | nil =>
      have hstart : ∀ c, valueChar c = true → (Position.afterMetric ⟨metric, [], ""⟩).next c =
          some (.value ⟨metric, [], String.singleton c⟩) := by
        intro c hc
        have hbrace : c ≠ '\x7b' := ne_of_class hc (by decide)
        rw [Position.next, valueChar_not_blank hc, if_neg Bool.false_ne_true, if_neg hbrace]
      have htext : Sample.text ⟨metric, [], value⟩ = metric.toList ++ ' ' :: value.toList := by
        simp [Sample.text, labelSet]
      have hspace : (Position.metric metric).next ' ' = some (.afterMetric ⟨metric, [], ""⟩) := rfl
      rw [htext, advance_append, advance_metric hmetric, Option.bind_some, advance_cons, hspace,
        Option.bind_some, advance_value hstart hvalue]
  | cons label labels =>
      have hstart : ∀ c, valueChar c = true →
          (Position.beforeValue ⟨metric, label :: labels, ""⟩).next c =
            some (.value ⟨metric, label :: labels, String.singleton c⟩) := by
        intro c hc
        rw [Position.next, valueChar_not_blank hc, if_neg Bool.false_ne_true]
      have htext : Sample.text ⟨metric, label :: labels, value⟩ =
          metric.toList ++ '\x7b' :: (labelsText (label :: labels) ++
            ['\x7d', ' '] ++ value.toList) := by
        simp [Sample.text, labelSet]
      have hbrace : (Position.metric metric).next '\x7b' = some (.labels ⟨metric, [], ""⟩) := rfl
      have hlabels := advance_labels ⟨metric, [], ""⟩ (by simp) hnames
      have hclose : advance (.labelEnd ⟨metric, [] ++ label :: labels, ""⟩) ['\x7d', ' '] =
          some (.beforeValue ⟨metric, label :: labels, ""⟩) := rfl
      rw [htext, advance_append, advance_metric hmetric, Option.bind_some, advance_cons, hbrace,
        Option.bind_some, advance_append, advance_append, hlabels, Option.bind_some, hclose,
        Option.bind_some, advance_value hstart hvalue]

theorem newline_not_mem_sample {s : Sample} (hmetric : isMetricName s.metric = true)
    (hlabels : ∀ label ∈ s.labels, isLabelName label.1 = true ∧ '\n' ∉ label.2.toList)
    (hvalue : isValue s.value = true) : '\n' ∉ s.text := by
  have hm : '\n' ∉ s.metric.toList := not_mem_of_class (metricName_chars hmetric) (by decide)
  rw [isValue, Bool.and_eq_true] at hvalue
  have hv : '\n' ∉ s.value.toList := not_mem_of_class hvalue.2 (by decide)
  have hl : '\n' ∉ labelSet s.labels := by
    have htext := newline_not_mem_labels hlabels
    cases hs : s.labels with
    | nil => simp [labelSet]
    | cons label labels =>
        rw [hs] at htext
        simp [labelSet, htext]
  simp [Sample.text, hm, hl, hv]

theorem broken_sample {s : Sample} (hmetric : isMetricName s.metric = true)
    (hnames : ∀ label ∈ s.labels, isLabelName label.1 = true)
    (h : ∃ label ∈ s.labels, '\n' ∈ label.2.toList) : BrokenFrom .lineStart s.text := by
  obtain ⟨metric, labels, value⟩ := s
  dsimp only at hmetric hnames h
  have hbroken := broken_labels ⟨metric, [], ""⟩ hnames h
  have hopen : advance .lineStart (metric.toList ++ ['\x7b']) =
      some (.labels ⟨metric, [], ""⟩) := by
    rw [advance_append, advance_metric hmetric]
    rfl
  have hm : '\n' ∉ metric.toList := not_mem_of_class (metricName_chars hmetric) (by decide)
  have hwhole := hbroken.extend _ ('\x7d' :: ' ' :: value.toList) (by simp [hm]) hopen
  cases labels with
  | nil =>
      obtain ⟨_, hmem, _⟩ := h
      cases hmem
  | cons label labels => simpa [Sample.text, labelSet] using hwhole

/-- An unbroken line gives its sample, if it has one. -/
theorem line_reads (samples : List Sample) {line : Line} (hline : line.WellFormed)
    (h : line.Unbroken) :
    (line.text ++ ['\n']).foldlM step ⟨samples, .lineStart⟩ =
      some ⟨samples ++ line.samples, .lineStart⟩ := by
  cases line with
  | comment text =>
      have hmore : ∀ cs : List Char, advance .comment cs = some .comment := by
        intro cs
        induction cs with
        | nil => rfl
        | cons c cs ih => exact ih
      have hnl : '\n' ∉ Line.text (.comment text) := by
        have htext : '\n' ∉ text.toList := hline
        simp [Line.text, htext]
      exact foldlM_line samples hnl (hmore text.toList) rfl
  | sample s =>
      obtain ⟨hmetric, hnames, hvalue⟩ := hline
      have hlabels := h s List.mem_cons_self
      have hnl := newline_not_mem_sample hmetric
        (fun label hl => ⟨hnames label hl, hlabels label hl⟩) hvalue
      exact foldlM_line samples hnl (advance_sample hmetric hnames hvalue) rfl

/-- A broken line is an error, whatever comes after it. -/
theorem line_fails (samples : List Sample) {line : Line} (hline : line.WellFormed)
    (h : ¬ line.Unbroken) (rest : List Char) :
    (line.text ++ rest).foldlM step ⟨samples, .lineStart⟩ = none := by
  cases line with
  | comment text =>
      refine absurd ?_ h
      intro s hs
      cases hs
  | sample s =>
      obtain ⟨hmetric, hnames, _⟩ := hline
      have hlabel : ∃ label ∈ s.labels, '\n' ∈ label.2.toList := by
        simpa [Line.Unbroken, Line.samples] using h
      obtain ⟨before, after, s', name, value, htext, hbefore, hadvance⟩ :=
        broken_sample hmetric hnames hlabel
      have hsplit : Line.text (.sample s) ++ rest = before ++ '\n' :: (after ++ rest) := by
        simp [Line.text, htext]
      rw [hsplit]
      exact foldlM_broken samples hbefore hadvance rfl

theorem document_reads (samples : List Sample) {lines : List Line}
    (hlines : ∀ line ∈ lines, line.WellFormed) (h : ∀ line ∈ lines, line.Unbroken) :
    (document lines).foldlM step ⟨samples, .lineStart⟩ =
      some ⟨samples ++ lines.flatMap Line.samples, .lineStart⟩ := by
  induction lines generalizing samples with
  | nil => simp [document]
  | cons line lines ih =>
      have hdocument : document (line :: lines) = (line.text ++ ['\n']) ++ document lines :=
        List.flatMap_cons
      rw [hdocument, List.foldlM_append,
        line_reads samples (hlines line List.mem_cons_self) (h line List.mem_cons_self)]
      have hrest := ih (samples ++ line.samples) (fun l hl => hlines l (List.mem_cons_of_mem _ hl))
        fun l hl => h l (List.mem_cons_of_mem _ hl)
      simpa [List.append_assoc] using hrest

theorem document_fails (samples : List Sample) {lines : List Line}
    (hlines : ∀ line ∈ lines, line.WellFormed) (h : ¬ ∀ line ∈ lines, line.Unbroken) :
    (document lines).foldlM step ⟨samples, .lineStart⟩ = none := by
  induction lines generalizing samples with
  | nil =>
      refine absurd ?_ h
      intro line hline
      cases hline
  | cons line lines ih =>
      have hdocument : document (line :: lines) = (line.text ++ ['\n']) ++ document lines :=
        List.flatMap_cons
      have hline := hlines line List.mem_cons_self
      by_cases hunbroken : line.Unbroken
      · have hrest : ¬ ∀ l ∈ lines, l.Unbroken := by
          intro hall
          refine h fun l hl => ?_
          rcases List.mem_cons.mp hl with rfl | hl
          · exact hunbroken
          · exact hall l hl
        rw [hdocument, List.foldlM_append, line_reads samples hline hunbroken]
        exact ih _ (fun l hl => hlines l (List.mem_cons_of_mem _ hl)) hrest
      · rw [hdocument, List.append_assoc]
        exact line_fails samples hline hunbroken _

/-- A document is read back as its samples exactly when no label value has a
line feed. -/
theorem read_document_iff {lines : List Line} (hlines : ∀ line ∈ lines, line.WellFormed) :
    read (document lines) = some (lines.flatMap Line.samples) ↔
      ∀ line ∈ lines, line.Unbroken := by
  constructor
  · intro hread
    by_contra hbroken
    rw [read, document_fails [] hlines hbroken] at hread
    cases hread
  · intro h
    rw [read, document_reads [] hlines h]
    rfl

end Exposition

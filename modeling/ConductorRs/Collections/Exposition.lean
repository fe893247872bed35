import Mathlib.Data.List.Basic

/-!
The text format of metrics: one sample to a line, its labels in braces, and in a
label value a backslash before a backslash, a double quote or the letter of a
line feed. A line that begins with a hash sign is a comment.

The reader goes through the text once. A line feed ends a comment or a sample and
is an error anywhere else, so a label value that is written with a line feed in
it cannot be read.
-/
namespace Exposition

/-- The value is kept as it is written. -/
structure Sample where
  metric : String
  labels : List (String × String)
  value : String
deriving DecidableEq

/-- How far a line has been read, with what is known of its sample. -/
inductive Position where
  | lineStart
  | comment
  | metric (name : String)
  | afterMetric (sample : Sample)
  | labels (sample : Sample)
  | labelName (sample : Sample) (name : String)
  | labelEquals (sample : Sample) (name : String)
  | labelValue (sample : Sample) (name value : String)
  | labelEscape (sample : Sample) (name value : String)
  | labelEnd (sample : Sample)
  | beforeValue (sample : Sample)
  | value (sample : Sample)
  | afterValue (sample : Sample)
deriving DecidableEq

def blank (c : Char) : Bool := c = ' ' || c = '\t'

def labelStart (c : Char) : Bool := c.isAlpha || c = '_'

def labelChar (c : Char) : Bool := labelStart c || c.isDigit

def metricStart (c : Char) : Bool := labelStart c || c = ':'

def metricChar (c : Char) : Bool := labelChar c || c = ':'

namespace Position

/-- Reading on within a line. -/
def next : Position → Char → Option Position
  | lineStart, c =>
      if blank c then some lineStart
      else if c = '#' then some comment
      else if metricStart c then some (metric (String.singleton c))
      else none
  | comment, _ => some comment
  | metric name, c =>
      if metricChar c then some (metric (name.push c))
      else if c = '\x7b' then some (labels ⟨name, [], ""⟩)
      else if blank c then some (afterMetric ⟨name, [], ""⟩)
      else none
  | afterMetric s, c =>
      if blank c then some (afterMetric s)
      else if c = '\x7b' then some (labels s)
      else some (value { s with value := String.singleton c })
  | labels s, c =>
      if blank c then some (labels s)
      else if c = '\x7d' then some (beforeValue s)
      else if labelStart c then some (labelName s (String.singleton c))
      else none
  | labelName s name, c =>
      if labelChar c then some (labelName s (name.push c))
      else if c = '=' then some (labelEquals s name)
      else none
  | labelEquals s name, c =>
      if c = '"' then some (labelValue s name "") else none
  | labelValue s name v, c =>
      if c = '\\' then some (labelEscape s name v)
      else if c = '"' then some (labelEnd { s with labels := s.labels ++ [(name, v)] })
      else some (labelValue s name (v.push c))
  | labelEscape s name v, c =>
      if c = '\\' || c = '"' then some (labelValue s name (v.push c))
      else if c = 'n' then some (labelValue s name (v.push '\n'))
      else none
  | labelEnd s, c =>
      if blank c then some (labelEnd s)
      else if c = ',' then some (labels s)
      else if c = '\x7d' then some (beforeValue s)
      else none
  | beforeValue s, c =>
      if blank c then some (beforeValue s)
      else some (value { s with value := String.singleton c })
  | value s, c =>
      if blank c then some (afterValue s)
      else some (value { s with value := s.value.push c })
  | afterValue s, _ => some (afterValue s)

/-- What a line feed ends. -/
def finish : Position → Option (List Sample)
  | lineStart | comment => some []
  | value s | afterValue s => some [s]
  | _ => none

end Position

structure State where
  samples : List Sample
  position : Position

def step (s : State) (c : Char) : Option State :=
  if c = '\n' then s.position.finish.map fun samples => ⟨s.samples ++ samples, .lineStart⟩
  else (s.position.next c).map fun position => ⟨s.samples, position⟩

/-- The samples of a text, which ends with a line feed. -/
def read (text : List Char) : Option (List Sample) :=
  (text.foldlM step ⟨[], .lineStart⟩).bind fun s =>
    if s.position = .lineStart then some s.samples else none

def advance (p : Position) (text : List Char) : Option Position := text.foldlM Position.next p

theorem advance_append (p : Position) (a b : List Char) :
    advance p (a ++ b) = (advance p a).bind fun q => advance q b :=
  List.foldlM_append

theorem advance_cons (p : Position) (c : Char) (text : List Char) :
    advance p (c :: text) = (p.next c).bind fun q => advance q text :=
  List.foldlM_cons

/-- Without a line feed the reader stays in its line. -/
theorem foldlM_step (samples : List Sample) (p : Position) {text : List Char}
    (h : '\n' ∉ text) :
    text.foldlM step ⟨samples, p⟩ = (advance p text).map fun q => ⟨samples, q⟩ := by
  induction text generalizing p with
  | nil => rfl
  | cons c text ih =>
      rw [List.mem_cons, not_or] at h
      rw [List.foldlM_cons, advance_cons, step, if_neg (Ne.symm h.1)]
      cases hp : p.next c with
      | none => rfl
      | some q => exact ih q h.2

/-- A line that is read to its end. -/
theorem foldlM_line (samples : List Sample) {p : Position} {line : List Char} {found : List Sample}
    (h : '\n' ∉ line) (hline : advance .lineStart line = some p) (hp : p.finish = some found) :
    (line ++ ['\n']).foldlM step ⟨samples, .lineStart⟩ =
      some ⟨samples ++ found, .lineStart⟩ := by
  rw [List.foldlM_append, foldlM_step samples _ h, hline]
  simp [step, hp]

/-- A line feed where none may be. -/
theorem foldlM_broken (samples : List Sample) {p : Position} {line rest : List Char}
    (h : '\n' ∉ line) (hline : advance .lineStart line = some p) (hp : p.finish = none) :
    (line ++ '\n' :: rest).foldlM step ⟨samples, .lineStart⟩ = none := by
  rw [List.foldlM_append, foldlM_step samples _ h, hline]
  simp [step, hp]

end Exposition

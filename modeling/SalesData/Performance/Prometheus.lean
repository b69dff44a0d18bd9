import SalesData.Base.ExpositionParts
import SalesData.Performance.Registry

/-!
# The Prometheus exporter

`PrometheusExporter.render` (`core/performance/exporters/prometheus_exporter.py:35–86`), and what
a reader of the exposition format has to find in its text.
-/

namespace SalesData.Performance

open Base Base.Exposition

/-- How floats are written (an f-string's `{x}`) and read. -/
structure FloatText (F : Type) where
  format : F → Text
  read : Text → Option F

/-- A float's text is read as that float; it is one word. -/
structure FloatText.Lawful {F : Type} (ft : FloatText F) : Prop where
  read_format : ∀ x, ft.read (ft.format x) = some x
  nonempty : ∀ x, ft.format x ≠ []
  unbroken : ∀ x, ' ' ∉ ft.format x ∧ '\n' ∉ ft.format x

/-- The label of a bucket's bound. -/
def leLabel : Text := "le".toList

namespace PrometheusExporter

/-- The two variables of `render`. -/
structure Output where
  lines : List Text
  emittedTypes : List Text

/-- `_emit_type` (`prometheus_exporter.py:57–63`). -/
def emitType (out : Output) (name promType : Text) : Output :=
  if name ∈ out.emittedTypes then out
  else
    ⟨out.lines ++ ["# TYPE ".toList ++ name ++ ' ' :: promType], out.emittedTypes ++ [name]⟩

/-- `_label_suffix` (`prometheus_exporter.py:70–74`). -/
def labelSuffix (tags : Tags) : Text :=
  if tags.entries = [] then []
  else
    '{' :: List.intercalate [',']
      ((sortedItems tags).map fun item ↦ item.1 ++ '=' :: '"' :: item.2 ++ ['"']) ++ ['}']

/-- `_sample_line` (`prometheus_exporter.py:66–67`), with the text of the value. -/
def sampleLine (name : Text) (tags : Tags) (value : Text) : Text :=
  name ++ labelSuffix tags ++ ' ' :: value

/-- An `int` in an f-string. -/
def formatNat (n : Nat) : Text := Nat.toDigits 10 n

variable {F : Type} (ft : FloatText F)

/-- `_histogram_lines` (`prometheus_exporter.py:77–86`). -/
def histogramLines (histogram : Histogram F) : List Text :=
  (histogram.cumulativeCounts.entries.map fun (bound, cumulative) ↦
    sampleLine (histogram.name ++ "_bucket".toList) (histogram.tags.set leLabel bound)
      (formatNat cumulative)) ++
  [sampleLine (histogram.name ++ "_sum".toList) histogram.tags (ft.format histogram.total),
    sampleLine (histogram.name ++ "_count".toList) histogram.tags (formatNat histogram.count)]

/-- One aggregate of one of the three loops of `render`. -/
def emit (out : Output) (name promType : Text) (lines : List Text) : Output :=
  let out := emitType out name promType
  { out with lines := out.lines ++ lines }

/-- The loops of `render` (`prometheus_exporter.py:37–47`). -/
def output (registry : PerformanceRegistry F) : Output :=
  let out : Output := ⟨[], []⟩
  let out := registry.aggregator.counters.values.foldl (fun out counter ↦
    emit out counter.name "counter".toList
      [sampleLine counter.name counter.tags (ft.format counter.value)]) out
  let out := registry.aggregator.gauges.values.foldl (fun out gauge ↦
    emit out gauge.name "gauge".toList
      [sampleLine gauge.name gauge.tags (ft.format gauge.value)]) out
  registry.aggregator.histograms.values.foldl (fun out histogram ↦
    emit out histogram.name "histogram".toList (histogramLines ft histogram)) out

private theorem mem_foldl_emit {A : Type} {name : A → Text} {promType line : Text}
    {lines : A → List Text} {as : List A} {out : Output}
    (h : line ∈ out.lines ∨ ∃ a ∈ as, line ∈ lines a) :
    line ∈ (as.foldl (fun out a ↦ emit out (name a) promType (lines a)) out).lines := by
  induction as generalizing out with
  | nil => simpa using h
  | cons a as ih =>
    apply ih
    have hkept : line ∈ out.lines → line ∈ (emitType out (name a) promType).lines := by
      unfold emitType
      split
      · exact id
      · exact List.mem_append_left _
    rcases h with h | ⟨b, hb, hline⟩
    · exact .inl (List.mem_append_left _ (hkept h))
    · rcases List.mem_cons.mp hb with rfl | hb
      · exact .inl (List.mem_append_right _ hline)
      · exact .inr ⟨b, hb, hline⟩

/-- The lines of every histogram of the registry are written. -/
theorem mem_output_of_histogram {registry : PerformanceRegistry F} {histogram : Histogram F}
    (h : histogram ∈ registry.aggregator.histograms.values) {line : Text}
    (hline : line ∈ histogramLines ft histogram) : line ∈ (output ft registry).lines :=
  mem_foldl_emit (.inr ⟨histogram, h, hline⟩)

/-- `render` (`prometheus_exporter.py:35–48`). -/
def render (registry : PerformanceRegistry F) : Text :=
  let lines := (output ft registry).lines
  List.intercalate ['\n'] lines ++ if lines = [] then [] else ['\n']

/-! ## What the text has to say -/

/-- A value of the registry; tags come in order, so that equal tag sets are equal lists. -/
inductive Reading (F : Type)
  | counter (name : Text) (tags : List (Text × Text)) (value : F)
  | gauge (name : Text) (tags : List (Text × Text)) (value : F)
  | bucket (name : Text) (tags : List (Text × Text)) (bound : Text) (cumulative : Nat)
  | sum (name : Text) (tags : List (Text × Text)) (total : F)
  | count (name : Text) (tags : List (Text × Text)) (count : Nat)
  deriving DecidableEq

/-- The values of a registry: counters, gauges, and the buckets, sum and count of histograms. -/
def values (registry : PerformanceRegistry F) : List (Reading F) :=
  (registry.aggregator.counters.values.map fun counter ↦
    .counter counter.name (sortedItems counter.tags) counter.value) ++
  (registry.aggregator.gauges.values.map fun gauge ↦
    .gauge gauge.name (sortedItems gauge.tags) gauge.value) ++
  registry.aggregator.histograms.values.flatMap fun histogram ↦
    (histogram.cumulativeCounts.entries.map fun (bound, cumulative) ↦
      .bucket histogram.name (sortedItems histogram.tags) bound cumulative) ++
    [.sum histogram.name (sortedItems histogram.tags) histogram.total,
      .count histogram.name (sortedItems histogram.tags) histogram.count]

/-- A number of observations. -/
def readCount (text : Text) : Option Nat :=
  if text ≠ [] ∧ text.all Char.isDigit then some (Nat.ofDigitChars 10 text 0) else none

/-- What a sample says in a family of this name and type. -/
def Reading.ofSample (name : Text) (type : FamilyType) (sample : Sample) : Option (Reading F) :=
  match type with
  | .counter => (ft.read sample.value).map (.counter name sample.labels)
  | .gauge => (ft.read sample.value).map (.gauge name sample.labels)
  | .histogram =>
    if sample.name = name ++ "_bucket".toList then
      (sample.labels.lookup leLabel).bind fun bound ↦
        (readCount sample.value).map
          (.bucket name (sample.labels.filter (·.1 != leLabel)) bound)
    else if sample.name = name ++ "_sum".toList then
      (ft.read sample.value).map (.sum name sample.labels)
    else (readCount sample.value).map (.count name sample.labels)
  | .summary | .untyped => none

/-- What the samples of families say. -/
def readings (families : List Family) : Option (List (Reading F)) :=
  (families.flatMap fun family ↦
    family.samples.map (Reading.ofSample ft family.name family.type)).mapM id

/-- The text is one group of lines for each family, below its only type line, and it is read as
these families; their samples say exactly what the values of the registry are. -/
def Faithful (registry : PerformanceRegistry F) : Prop :=
  ∃ families : List Family,
    render ft registry = unlines (families.flatMap Family.lines) ∧
    (families.map (·.name)).Nodup ∧
    parse (render ft registry) = some families ∧
    readings ft families = some (values registry)

end PrometheusExporter
end SalesData.Performance

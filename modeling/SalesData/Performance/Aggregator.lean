import Mathlib.Data.Char
import Mathlib.Data.List.Lex
import Mathlib.Data.List.Sort
import Mathlib.Data.Prod.Lex
import SalesData.Performance.Histogram

/-!
# Folding points into aggregates

`MetricsAggregator` (`core/performance/aggregator.py`). An aggregate belongs to a name and a
tag set; the type of a name is registered before the first of its points is applied.
-/

namespace SalesData.Performance

open Base

/-- `MetricKey`. -/
abbrev MetricKey := MetricName × List (Text × Text)

/-- Python's order on the items of a dictionary. -/
def itemLe (a b : Text × Text) : Prop := toLex a ≤ toLex b

instance : DecidableRel itemLe := fun a b ↦ inferInstanceAs (Decidable (toLex a ≤ toLex b))

/-- `sorted(tags.items())`. -/
def sortedItems (tags : Tags) : List (Text × Text) := tags.entries.insertionSort itemLe

/-- `_key` (`aggregator.py:25–27`). -/
def key (name : MetricName) (tags : Tags) : MetricKey := (name, sortedItems tags)

/-- `MetricsAggregator`. -/
structure MetricsAggregator (F : Type) where
  counters : Dict MetricKey (Counter F)
  gauges : Dict MetricKey (Gauge F)
  histograms : Dict MetricKey (Histogram F)
  metricTypes : Dict MetricName MetricType

namespace MetricsAggregator

variable {F : Type} (fl : Floats F)

/-- An aggregator without points; also `reset` (`aggregator.py:104–109`). -/
def empty : MetricsAggregator F := ⟨.empty, .empty, .empty, .empty⟩

/-- `_counter_for` (`aggregator.py:66–72`). -/
def counterFor (agg : MetricsAggregator F) (name : MetricName) (tags : Tags) :
    Counter F × MetricsAggregator F :=
  match agg.counters.get? (key name tags) with
  | some counter => (counter, agg)
  | none =>
    let counter : Counter F := ⟨name, tags, fl.zero⟩
    (counter, { agg with counters := agg.counters.set (key name tags) counter })

/-- `_gauge_for` (`aggregator.py:74–80`). -/
def gaugeFor (agg : MetricsAggregator F) (name : MetricName) (tags : Tags) :
    Gauge F × MetricsAggregator F :=
  match agg.gauges.get? (key name tags) with
  | some gauge => (gauge, agg)
  | none =>
    let gauge : Gauge F := ⟨name, tags, fl.zero⟩
    (gauge, { agg with gauges := agg.gauges.set (key name tags) gauge })

/-- `_histogram_for` (`aggregator.py:82–90`). -/
def histogramFor (agg : MetricsAggregator F) (name : MetricName) (tags : Tags) :
    Histogram F × MetricsAggregator F :=
  match agg.histograms.get? (key name tags) with
  | some histogram => (histogram, agg)
  | none =>
    let histogram := Histogram.create fl name tags
    (histogram, { agg with histograms := agg.histograms.set (key name tags) histogram })

/-- The first half of `ingest_one` (`aggregator.py:51–55`). -/
def registerType (agg : MetricsAggregator F) (point : MetricPoint F) :
    Except Error (MetricsAggregator F) :=
  match agg.metricTypes.get? point.name with
  | none => .ok { agg with metricTypes := agg.metricTypes.set point.name point.metricType }
  | some existing =>
    match ensureSameType existing point.metricType point.name with
    | .ok () => .ok agg
    | .error e => .error e

/-- The second half of `ingest_one` (`aggregator.py:57–62`): what an aggregate already is stays
when its update raises. -/
def applyPoint (agg : MetricsAggregator F) (point : MetricPoint F) :
    MetricsAggregator F × Except Error Unit :=
  let k := key point.name point.tags
  match point.metricType with
  | .counter =>
    let (counter, agg) := agg.counterFor fl point.name point.tags
    match counter.increment fl point.value with
    | .ok counter => ({ agg with counters := agg.counters.set k counter }, .ok ())
    | .error e => (agg, .error e)
  | .gauge =>
    let (gauge, agg) := agg.gaugeFor fl point.name point.tags
    match gauge.set fl point.value with
    | .ok gauge => ({ agg with gauges := agg.gauges.set k gauge }, .ok ())
    | .error e => (agg, .error e)
  | .histogram | .timer =>
    let (histogram, agg) := agg.histogramFor fl point.name point.tags
    match histogram.observe fl point.value with
    | .ok histogram => ({ agg with histograms := agg.histograms.set k histogram }, .ok ())
    | .error e => (agg, .error e)
  | .event | .trace => (agg, .ok ())

/-- `ingest_one` (`aggregator.py:49–62`). -/
def ingestOne (agg : MetricsAggregator F) (point : MetricPoint F) :
    MetricsAggregator F × Except Error Unit :=
  match agg.registerType point with
  | .ok agg => agg.applyPoint fl point
  | .error e => (agg, .error e)

/-- `ingest` (`aggregator.py:44–47`): the first point that raises ends it. -/
def ingest (agg : MetricsAggregator F) :
    List (MetricPoint F) → MetricsAggregator F × Except Error Unit
  | [] => (agg, .ok ())
  | point :: points =>
    match agg.ingestOne fl point with
    | (agg, .ok ()) => agg.ingest points
    | (agg, .error e) => (agg, .error e)

variable {fl}

/-- A batch that raises: the points before the failing one are folded, and that one raises. -/
theorem ingest_error {agg agg' : MetricsAggregator F} {points : List (MetricPoint F)} {e : Error}
    (h : agg.ingest fl points = (agg', .error e)) :
    ∃ before point after folded, points = before ++ point :: after ∧
      agg.ingest fl before = (folded, .ok ()) ∧ folded.ingestOne fl point = (agg', .error e) := by
  induction points generalizing agg with
  | nil => cases (Prod.mk.inj h).2
  | cons point points ih =>
    rw [ingest] at h
    split at h
    · next agg₁ hone =>
      obtain ⟨before, failing, after, folded, rfl, hbefore, hfailing⟩ := ih h
      refine ⟨point :: before, failing, after, folded, rfl, ?_, hfailing⟩
      rw [ingest, hone]
      exact hbefore
    · next agg₁ e₁ hone =>
      obtain ⟨rfl, he⟩ := Prod.mk.inj h
      cases he
      exact ⟨[], point, points, agg, rfl, rfl, hone⟩

end MetricsAggregator
end SalesData.Performance

import SalesData.Performance.Registry

/-!
# Rejected profiles

A profile whose points an aggregate refuses leaves the history and its index alone
(`core/performance/registry.py:89–100`). The points are folded one by one and nothing takes
them back (`aggregator.py:44–72`): those before the refused one stay.
-/

namespace SalesData.Performance

open Base

variable {F : Type} {fl : Floats F}

/-- What a refused counter point leaves: its name's type and a counter at zero, where there was
none. -/
def MetricsAggregator.openCounter (fl : Floats F) (agg : MetricsAggregator F)
    (point : MetricPoint F) : MetricsAggregator F :=
  { agg with
    metricTypes :=
      if agg.metricTypes.get? point.name = none then agg.metricTypes.set point.name .counter
      else agg.metricTypes
    counters :=
      match agg.counters.get? (key point.name point.tags) with
      | some _ => agg.counters
      | none =>
        agg.counters.set (key point.name point.tags) ⟨point.name, point.tags, fl.zero⟩ }

/-- The name of a point belongs to another type. -/
def Clashes (agg : MetricsAggregator F) (point : MetricPoint F) : Prop :=
  ∃ existing, agg.metricTypes.get? point.name = some existing ∧ existing ≠ point.metricType

private theorem toFloat_not_metricState {value : MetricValue F} {message : Text} :
    value.toFloat fl ≠ .error (.metricStateError message) := by
  intro h
  unfold MetricValue.toFloat at h
  split at h
  · split at h
    · cases h
    · cases h
  · cases h

private theorem increment_error {counter : Counter F} {amount : MetricValue F} {message : Text}
    (h : counter.increment fl amount = .error (.metricStateError message)) :
    amount.isNegative fl = true := by
  unfold Counter.increment at h
  split at h
  · next hneg => exact hneg
  · split at h
    · next e he =>
      cases h
      exact absurd he toFloat_not_metricState
    · cases h

private theorem set_error {gauge : Gauge F} {value : MetricValue F} {message : Text} :
    gauge.set fl value ≠ .error (.metricStateError message) := by
  intro h
  unfold Gauge.set at h
  split at h
  · next e he =>
    cases h
    exact toFloat_not_metricState he
  · cases h

private theorem observe_error {histogram : Histogram F} {value : MetricValue F}
    {message : Text} : histogram.observe fl value ≠ .error (.metricStateError message) := by
  intro h
  unfold Histogram.observe at h
  split at h
  · next e he =>
    cases h
    exact toFloat_not_metricState he
  · cases h

/-- Only a counter refuses a value, and only a negative one. -/
theorem applyPoint_error {agg agg' : MetricsAggregator F} {point : MetricPoint F}
    {message : Text} (h : agg.applyPoint fl point = (agg', .error (.metricStateError message))) :
    point.metricType = .counter ∧ point.value.isNegative fl = true ∧
      agg' = (agg.counterFor fl point.name point.tags).2 := by
  unfold MetricsAggregator.applyPoint at h
  cases htype : point.metricType with
  | counter =>
    simp only [htype] at h
    split at h
    · cases (Prod.mk.inj h).2
    · next e he =>
      obtain ⟨hagg, hmessage⟩ := Prod.mk.inj h
      cases hmessage
      exact ⟨rfl, increment_error he, hagg.symm⟩
  | gauge =>
    simp only [htype] at h
    split at h
    · cases (Prod.mk.inj h).2
    · next e he =>
      cases (Prod.mk.inj h).2
      exact absurd he set_error
  | histogram | timer =>
    simp only [htype] at h
    split at h
    · cases (Prod.mk.inj h).2
    · next e he =>
      cases (Prod.mk.inj h).2
      exact absurd he observe_error
  | event | trace =>
    simp only [htype] at h
    cases (Prod.mk.inj h).2

/-- A refused point is one whose name has another type, or a negative counter. -/
theorem ingestOne_error {agg agg' : MetricsAggregator F} {point : MetricPoint F}
    {message : Text} (h : agg.ingestOne fl point = (agg', .error (.metricStateError message))) :
    (Clashes agg point ∧ agg' = agg) ∨
      (¬ Clashes agg point ∧ point.metricType = .counter ∧ point.value.isNegative fl = true ∧
        agg' = agg.openCounter fl point) := by
  unfold MetricsAggregator.ingestOne MetricsAggregator.registerType at h
  cases hexisting : agg.metricTypes.get? point.name with
  | none =>
    rw [hexisting] at h
    obtain ⟨htype, hneg, hagg⟩ := applyPoint_error h
    right
    refine ⟨?_, htype, hneg, ?_⟩
    · rintro ⟨existing, he, -⟩
      rw [hexisting] at he
      cases he
    · rw [hagg, htype, MetricsAggregator.openCounter, if_pos hexisting]
      unfold MetricsAggregator.counterFor
      cases agg.counters.get? (key point.name point.tags) <;> rfl
  | some existing =>
    by_cases hsame : existing = point.metricType
    · have hensure : ensureSameType existing point.metricType point.name = .ok () :=
        if_pos hsame
      simp only [hexisting, hensure] at h
      obtain ⟨htype, hneg, hagg⟩ := applyPoint_error h
      right
      refine ⟨?_, htype, hneg, ?_⟩
      · rintro ⟨other, he, hne⟩
        rw [hexisting] at he
        cases he
        exact hne hsame
      · have hsome : ¬ agg.metricTypes.get? point.name = none := by
          rw [hexisting]
          exact Option.some_ne_none existing
        rw [hagg, MetricsAggregator.openCounter, if_neg hsome]
        unfold MetricsAggregator.counterFor
        cases agg.counters.get? (key point.name point.tags) <;> rfl
    · have hensure : ensureSameType existing point.metricType point.name = .error _ :=
        if_neg hsame
      simp only [hexisting, hensure] at h
      left
      exact ⟨⟨existing, hexisting, hsame⟩, (Prod.mk.inj h).1.symm⟩

/-- Retention raises nothing about metrics. -/
theorem retain_not_metricState {registry registry' : PerformanceRegistry F}
    {profile : RequestProfile F} {message : Text} :
    registry.retain profile ≠ (registry', .error (.metricStateError message)) := by
  intro h
  unfold PerformanceRegistry.retain PerformanceRegistry.forget at h
  split at h
  · cases (Prod.mk.inj h).2
  · split at h
    · split at h <;> cases (Prod.mk.inj h).2
    · cases (Prod.mk.inj h).2

/-- A profile refused for a type clash or a negative counter leaves the history, the index and
the total alone; in the aggregator exactly the points before the refused one are folded, and a
refused counter point leaves its type and a counter at zero where there was none. -/
theorem rejected_keepsHistory (fl : Floats F) (registry registry' : PerformanceRegistry F)
    (profile : RequestProfile F) (message : Text)
    (h : registry.recordCompletedRequest fl profile =
      (registry', .error (.metricStateError message))) :
    registry' = { registry with aggregator := registry'.aggregator } ∧
    ∃ before point after folded, profile.metricPoints = before ++ point :: after ∧
      registry.aggregator.ingest fl before = (folded, .ok ()) ∧
      ((Clashes folded point ∧ registry'.aggregator = folded) ∨
        (¬ Clashes folded point ∧ point.metricType = .counter ∧
          point.value.isNegative fl = true ∧
          registry'.aggregator = folded.openCounter fl point)) := by
  cases hingest : registry.aggregator.ingest fl profile.metricPoints with
  | mk aggregator result =>
    cases result with
    | ok _ =>
      rw [PerformanceRegistry.record_of_ingest hingest] at h
      exact absurd h retain_not_metricState
    | error e =>
      rw [PerformanceRegistry.record_of_ingest_error hingest] at h
      obtain ⟨hregistry, herror⟩ := Prod.mk.inj h
      cases herror
      subst hregistry
      obtain ⟨before, point, after, folded, hpoints, hbefore, hone⟩ :=
        MetricsAggregator.ingest_error hingest
      exact ⟨rfl, before, point, after, folded, hpoints, hbefore, ingestOne_error hone⟩

private def point (metricType : MetricType) (value : Int) : MetricPoint Rat :=
  ⟨"hits".toList, metricType, .int value, 0, .count, .empty⟩

private def clashing : RequestProfile Rat :=
  ⟨"a".toList, [point .counter 1, point .gauge 2], .empty, 0, 0, 0, "ok".toList, none⟩

/-- A counter and then a gauge of its name: the profile is refused, and the counter stays. -/
theorem clash_leavesCounter :
    ((PerformanceRegistry.create 2).recordCompletedRequest Floats.exact clashing).2 =
      .error (.metricStateError
        "hits: metric already registered with a different metric type".toList) ∧
    ((PerformanceRegistry.create 2).recordCompletedRequest Floats.exact
      clashing).1.aggregator.counters.keys ≠
      (PerformanceRegistry.create 2 : PerformanceRegistry Rat).aggregator.counters.keys := by
  decide +kernel

/-- The refusal of that profile, taken apart. -/
theorem rejected_keepsHistory_clashing :
    ∃ registry' : PerformanceRegistry Rat,
      registry' = { (PerformanceRegistry.create 2 : PerformanceRegistry Rat) with
        aggregator := registry'.aggregator } ∧
      ∃ before point after folded, clashing.metricPoints = before ++ point :: after ∧
        MetricsAggregator.empty.ingest Floats.exact before = (folded, .ok ()) ∧
        ((Clashes folded point ∧ registry'.aggregator = folded) ∨
          (¬ Clashes folded point ∧ point.metricType = .counter ∧
            point.value.isNegative Floats.exact = true ∧
            registry'.aggregator = folded.openCounter Floats.exact point)) :=
  ⟨((PerformanceRegistry.create 2).recordCompletedRequest Floats.exact clashing).1,
    rejected_keepsHistory Floats.exact (.create 2) _ clashing
      "hits: metric already registered with a different metric type".toList rfl⟩

end SalesData.Performance

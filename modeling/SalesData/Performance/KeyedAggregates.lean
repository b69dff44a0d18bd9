import SalesData.Performance.AggregateFold
import SalesData.Performance.OtelExporter

/-!
# The aggregates of a run

What ingested points keep of an aggregator (`core/performance/aggregator.py`): where an aggregate is
found, its type, and that no counter falls.
-/

namespace SalesData.Performance

open Base

/-- Each aggregate is found at its series, and no name has aggregates of two types; counters are
not negative. -/
structure Keyed (agg : MetricsAggregator ℚ) : Prop where
  counters : ∀ k counter, agg.counters.get? k = some counter →
    key counter.name counter.tags = k ∧ 0 ≤ counter.value
  gauges : ∀ k gauge, agg.gauges.get? k = some gauge →
    key gauge.name gauge.tags = k ∧ agg.metricTypes.get? gauge.name = some .gauge
  histograms : ∀ k histogram, agg.histograms.get? k = some histogram →
    key histogram.name histogram.tags = k ∧ ∃ metricType,
      agg.metricTypes.get? histogram.name = some metricType ∧ metricType.isDistribution = true

/-- An aggregator without points. -/
theorem keyed_empty : Keyed .empty := ⟨nofun, nofun, nofun⟩

namespace MetricsAggregator

variable {agg : MetricsAggregator ℚ} {point : MetricPoint ℚ}

-- The entry of a key, which is added if there is none.
private def fetch {V : Type} (d : Dict MetricKey V) (k : MetricKey) (fresh : V) :
    V × Dict MetricKey V :=
  match d.get? k with
  | some v => (v, d)
  | none => (fresh, d.set k fresh)

private theorem fetch_spec {V : Type} (d : Dict MetricKey V) (k : MetricKey) (fresh : V) :
    (fetch d k fresh).1 = (d.get? k).getD fresh ∧ ∀ k',
      (fetch d k fresh).2.get? k' = if k' = k then some (fetch d k fresh).1 else d.get? k' := by
  unfold fetch
  cases hget : d.get? k with
  | some v =>
    refine ⟨rfl, fun k' ↦ ?_⟩
    dsimp only
    split
    · next h => rw [h, hget]
    · rfl
  | none => exact ⟨rfl, fun k' ↦ Dict.get?_set _ _ _ _⟩

private theorem get?_set_fetch {V : Type} (d : Dict MetricKey V) (k : MetricKey) (fresh v : V)
    (k' : MetricKey) :
    ((fetch d k fresh).2.set k v).get? k' = if k' = k then some v else d.get? k' := by
  rw [Dict.get?_set, (fetch_spec d k fresh).2]
  split <;> rfl

/-- A counter's point, which may raise, does not lower the counter of its series. -/
theorem applyPoint_counter_grows (agg : MetricsAggregator ℚ) {point : MetricPoint ℚ}
    (htype : point.metricType = .counter) :
    ∃ counters counter, (agg.applyPoint .exact point).1 = { agg with counters } ∧
      (∀ k, counters.get? k = if k = point.series then some counter else agg.counters.get? k) ∧
      let old := (agg.counters.get? point.series).getD ⟨point.name, point.tags, 0⟩
      old.value ≤ counter.value ∧ counter.name = old.name ∧ counter.tags = old.tags := by
  have hfor : agg.counterFor .exact point.name point.tags =
      ((fetch agg.counters point.series ⟨point.name, point.tags, 0⟩).1,
        { agg with
          counters := (fetch agg.counters point.series ⟨point.name, point.tags, 0⟩).2 }) := by
    unfold counterFor fetch MetricPoint.series
    cases agg.counters.get? (key point.name point.tags) <;> rfl
  obtain ⟨hold, hget⟩ := fetch_spec agg.counters point.series ⟨point.name, point.tags, 0⟩
  unfold applyPoint
  rw [htype]
  dsimp only
  rw [hfor, ← hold]
  dsimp only
  cases hincrement :
      (fetch agg.counters point.series ⟨point.name, point.tags, 0⟩).1.increment .exact
        point.value with
  | error e => exact ⟨_, _, rfl, hget, le_rfl, rfl, rfl⟩
  | ok counter =>
    refine ⟨_, counter, rfl, get?_set_fetch _ _ _ _, ?_, increment_keeps hincrement⟩
    unfold Counter.increment at hincrement
    rw [isNegative_exact, toFloat_exact] at hincrement
    split at hincrement
    · cases hincrement
    · next hnonneg =>
      cases hincrement
      have hle : 0 ≤ point.value.toRat := by simpa using hnonneg
      exact le_add_of_nonneg_right hle

/-- A gauge's point stays at its series. -/
theorem applyPoint_gauge_keeps (agg : MetricsAggregator ℚ) {point : MetricPoint ℚ}
    (htype : point.metricType = .gauge) :
    ∃ gauges gauge, (agg.applyPoint .exact point).1 = { agg with gauges } ∧
      (∀ k, gauges.get? k = if k = point.series then some gauge else agg.gauges.get? k) ∧
      let old := (agg.gauges.get? point.series).getD ⟨point.name, point.tags, 0⟩
      gauge.name = old.name ∧ gauge.tags = old.tags := by
  have hfor : agg.gaugeFor .exact point.name point.tags =
      ((fetch agg.gauges point.series ⟨point.name, point.tags, 0⟩).1,
        { agg with
          gauges := (fetch agg.gauges point.series ⟨point.name, point.tags, 0⟩).2 }) := by
    unfold gaugeFor fetch MetricPoint.series
    cases agg.gauges.get? (key point.name point.tags) <;> rfl
  obtain ⟨hold, hget⟩ := fetch_spec agg.gauges point.series ⟨point.name, point.tags, 0⟩
  unfold applyPoint
  rw [htype]
  dsimp only
  rw [hfor, ← hold]
  dsimp only
  cases hset :
      (fetch agg.gauges point.series ⟨point.name, point.tags, 0⟩).1.set .exact point.value with
  | error e => exact ⟨_, _, rfl, hget, rfl, rfl⟩
  | ok gauge => exact ⟨_, gauge, rfl, get?_set_fetch _ _ _ _, set_keeps hset⟩

/-- The point of a distribution stays at its series. -/
theorem applyPoint_histogram_keeps (agg : MetricsAggregator ℚ) {point : MetricPoint ℚ}
    (htype : point.metricType.isDistribution = true) :
    ∃ histograms histogram, (agg.applyPoint .exact point).1 = { agg with histograms } ∧
      (∀ k, histograms.get? k =
        if k = point.series then some histogram else agg.histograms.get? k) ∧
      let old := (agg.histograms.get? point.series).getD (.create .exact point.name point.tags)
      histogram.name = old.name ∧ histogram.tags = old.tags := by
  have hfor : agg.histogramFor .exact point.name point.tags =
      ((fetch agg.histograms point.series (.create .exact point.name point.tags)).1,
        { agg with
          histograms :=
            (fetch agg.histograms point.series (.create .exact point.name point.tags)).2 }) := by
    unfold histogramFor fetch MetricPoint.series
    cases agg.histograms.get? (key point.name point.tags) <;> rfl
  obtain ⟨hold, hget⟩ :=
    fetch_spec agg.histograms point.series (.create .exact point.name point.tags)
  have hdistribution : (agg.applyPoint .exact point).1 =
      match (fetch agg.histograms point.series (.create .exact point.name point.tags)).1.observe
        .exact point.value with
      | .ok histogram =>
        { agg with
          histograms :=
            (fetch agg.histograms point.series (.create .exact point.name point.tags)).2.set
              point.series histogram }
      | .error _ =>
        { agg with
          histograms :=
            (fetch agg.histograms point.series (.create .exact point.name point.tags)).2 } := by
    unfold applyPoint
    cases htype' : point.metricType with
    | histogram | timer =>
      dsimp only
      rw [hfor]
      dsimp only
      cases (fetch agg.histograms point.series (.create .exact point.name point.tags)).1.observe
        .exact point.value <;> rfl
    | counter | gauge | event | trace =>
      rw [htype'] at htype
      cases htype
  rw [hdistribution, ← hold]
  cases hobserve :
      (fetch agg.histograms point.series (.create .exact point.name point.tags)).1.observe
        .exact point.value with
  | error e => exact ⟨_, _, rfl, hget, rfl, rfl⟩
  | ok histogram =>
    obtain ⟨hname, htags, -⟩ := observe_keeps hobserve
    exact ⟨_, histogram, rfl, get?_set_fetch _ _ _ _, hname, htags⟩

/-- One more point keeps the aggregates at their series and lowers no counter. -/
theorem keyed_applyPoint (h : Keyed agg)
    (htype : agg.metricTypes.get? point.name = some point.metricType) :
    Keyed (agg.applyPoint .exact point).1 ∧
      ∀ k, counted agg k ≤ counted (agg.applyPoint .exact point).1 k := by
  cases hmetric : point.metricType with
  | counter =>
    obtain ⟨counters, counter, happly, hget, hle, hname, htags⟩ :=
      applyPoint_counter_grows agg hmetric
    rw [happly]
    have hold : key counter.name counter.tags = point.series ∧
        counted agg point.series ≤ counter.value ∧ 0 ≤ counted agg point.series := by
      rw [hname, htags]
      unfold counted
      cases hfound : agg.counters.get? point.series with
      | none =>
        rw [hfound] at hle
        exact ⟨rfl, hle, le_rfl⟩
      | some old =>
        rw [hfound] at hle
        exact ⟨(h.counters _ _ hfound).1, hle, (h.counters _ _ hfound).2⟩
    refine ⟨⟨fun k found hfound ↦ ?_, h.gauges, h.histograms⟩, fun k ↦ ?_⟩
    · rw [hget k] at hfound
      split at hfound
      · next hk =>
        cases hfound
        exact ⟨hold.1.trans hk.symm, hold.2.2.trans hold.2.1⟩
      · exact h.counters k found hfound
    · have hcounted : counted { agg with counters } k =
          ((counters.get? k).map (·.value)).getD 0 := rfl
      rw [hcounted, hget k]
      split
      · next hk => exact hk ▸ hold.2.1
      · exact le_rfl
  | gauge =>
    obtain ⟨gauges, gauge, happly, hget, hname, htags⟩ := applyPoint_gauge_keeps agg hmetric
    rw [happly]
    have hold : key gauge.name gauge.tags = point.series ∧
        agg.metricTypes.get? gauge.name = some .gauge := by
      rw [hname, htags]
      cases hfound : agg.gauges.get? point.series with
      | none => exact ⟨rfl, hmetric ▸ htype⟩
      | some old => exact h.gauges _ _ hfound
    refine ⟨⟨h.counters, fun k found hfound ↦ ?_, h.histograms⟩, fun k ↦ le_rfl⟩
    rw [hget k] at hfound
    split at hfound
    · next hk =>
      cases hfound
      exact ⟨hold.1.trans hk.symm, hold.2⟩
    · exact h.gauges k found hfound
  | histogram | timer =>
    have hdistribution : point.metricType.isDistribution = true := by
      rw [hmetric]
      rfl
    obtain ⟨histograms, histogram, happly, hget, hname, htags⟩ :=
      applyPoint_histogram_keeps agg hdistribution
    rw [happly]
    have hold : key histogram.name histogram.tags = point.series ∧ ∃ metricType,
        agg.metricTypes.get? histogram.name = some metricType ∧
          metricType.isDistribution = true := by
      rw [hname, htags]
      cases hfound : agg.histograms.get? point.series with
      | none => exact ⟨rfl, _, htype, hdistribution⟩
      | some old => exact h.histograms _ _ hfound
    refine ⟨⟨h.counters, h.gauges, fun k found hfound ↦ ?_⟩, fun k ↦ le_rfl⟩
    rw [hget k] at hfound
    split at hfound
    · next hk =>
      cases hfound
      exact ⟨hold.1.trans hk.symm, hold.2⟩
    · exact h.histograms k found hfound
  | event | trace =>
    have hsame : (agg.applyPoint .exact point).1 = agg := by rw [applyPoint, hmetric]
    rw [hsame]
    exact ⟨h, fun k ↦ le_rfl⟩

/-- One point, also one that raises. -/
theorem keyed_ingestOne (h : Keyed agg) (point : MetricPoint ℚ) :
    Keyed (agg.ingestOne .exact point).1 ∧
      ∀ k, counted agg k ≤ counted (agg.ingestOne .exact point).1 k := by
  unfold ingestOne
  cases hregister : agg.registerType point with
  | error e => exact ⟨h, fun k ↦ le_rfl⟩
  | ok agg' =>
    obtain ⟨⟨metricTypes, rfl⟩, htype, hkept, -⟩ := registerType_spec hregister
    have h' : Keyed { agg with metricTypes } := by
      refine ⟨h.counters, fun k gauge hgauge ↦ ?_, fun k histogram hhistogram ↦ ?_⟩
      · obtain ⟨hkey, hname⟩ := h.gauges k gauge hgauge
        exact ⟨hkey, hkept _ _ hname⟩
      · obtain ⟨hkey, metricType, hname, hdistribution⟩ := h.histograms k histogram hhistogram
        exact ⟨hkey, metricType, hkept _ _ hname, hdistribution⟩
    exact keyed_applyPoint h' htype

/-- Some points, up to the one that raises. -/
theorem keyed_ingest (h : Keyed agg) (points : List (MetricPoint ℚ)) :
    Keyed (agg.ingest .exact points).1 ∧
      ∀ k, counted agg k ≤ counted (agg.ingest .exact points).1 k := by
  induction points generalizing agg with
  | nil => exact ⟨h, fun k ↦ le_rfl⟩
  | cons point points ih =>
    obtain ⟨hone, hgrows⟩ := keyed_ingestOne h point
    rw [ingest]
    split
    · next agg' hingest =>
      rw [hingest] at hone hgrows
      obtain ⟨hall, hgrows'⟩ := ih hone
      exact ⟨hall, fun k ↦ (hgrows k).trans (hgrows' k)⟩
    · next agg' e hingest =>
      rw [hingest] at hone hgrows
      exact ⟨hone, hgrows⟩

end MetricsAggregator

end SalesData.Performance

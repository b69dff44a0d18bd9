import SalesData.Performance.OtelCounters

/-!
# An export that nothing cuts short

What the instruments show after an export in a run without resets, as long as neither the meter nor
an instrument has raised (`core/performance/exporters/otel_exporter.py:63–95`).
-/

namespace SalesData.Performance

open Base

section Mirror

variable {raises : List (OtelCall × Bool) → OtelCall → Bool} {maxRequestHistory : Nat}
  {exporter : OTelExporter} {due current : MetricKey → ℚ} {s s' : Exporting}

/-- What a gauge is to show. -/
def readingOf (gauge : Gauge ℚ) : MetricKey × ℚ := (key gauge.name gauge.tags, gauge.value)

namespace OTelExporter

/-- Counters set nothing. -/
theorem sets_exportCounter (raises : List (OtelCall × Bool) → OtelCall → Bool)
    (exporter : OTelExporter) (counter : Counter ℚ) :
    (exporter.exportCounter raises counter).1.sets = exporter.sets := by
  obtain ⟨more, hcalls, -, ⟨-, rfl, -⟩ | ⟨-, huses⟩⟩ := exportCounter_spec raises exporter counter
  · rw [sets_of_calls hcalls]
    exact List.append_nil _
  · have hnothing : more.filterMap setBy = [] := by
      rw [List.filterMap_eq_nil_iff]
      rintro ⟨c, returns⟩ hc
      rcases huses.mem hc with rfl | rfl <;> cases returns <;> rfl
    rw [sets_of_calls hcalls, hnothing, List.append_nil]

/-- Gauges that are exported without a call that raises are set. -/
theorem sets_each (gauges : List (Gauge ℚ)) (exporter : OTelExporter)
    (hall : (each (exportGauge raises) exporter gauges).1.AllReturn) :
    (each (exportGauge raises) exporter gauges).1.sets = exporter.sets ++ gauges.map readingOf := by
  induction gauges generalizing exporter with
  | nil => exact (List.append_nil _).symm
  | cons gauge gauges ih =>
    obtain ⟨more, hcalls, -, huses⟩ := exportGauge_spec raises exporter gauge
    have hworks : Works exporter (exporter.exportGauge raises gauge) :=
      works_exportGauge exporter gauge
    rw [each] at hall ⊢
    split at hall
    · next exporter' heq =>
      rw [heq] at hcalls huses
      rw [ih exporter' hall, sets_of_calls hcalls, huses.sets, if_pos rfl, List.append_assoc]
      rfl
    · next exporter' heq =>
      rw [heq] at hworks
      exact absurd (hworks.allReturn hall).1 Bool.false_ne_true

/-- A value that is set last, and agrees with what else is set for its series then. -/
theorem gaugeValue_of_sets {exporter' : OTelExporter} {readings : List (MetricKey × ℚ)}
    {reading : MetricKey × ℚ} (hsets : exporter'.sets = exporter.sets ++ readings)
    (hmem : reading ∈ readings)
    (hagree : ∀ r ∈ readings, r.1 = reading.1 → r.2 = reading.2) :
    exporter'.gaugeValue reading.1 = some reading.2 := by
  have hfilter : readings.filter (fun r ↦ r.1 = reading.1) ≠ [] := by
    intro hnil
    exact List.filter_eq_nil_iff.mp hnil reading hmem (by simp)
  rw [gaugeValue, hsets, List.filter_append, List.map_append, List.getLast?_append,
    List.getLast?_map, List.getLast?_eq_some_getLast hfilter]
  have hlast := List.getLast_mem hfilter
  rw [List.mem_filter] at hlast
  rw [Option.map_some, Option.some_or, hagree _ hlast.1 (by simpa using hlast.2)]

/-- An export that no call of raises has exported every counter, and then set every gauge. -/
theorem export_complete {counters : List (Counter ℚ)} {gauges : List (Gauge ℚ)}
    {histograms : List StreamingHistogram}
    (hall : (exporter.export raises counters gauges histograms).1.AllReturn) :
    (each (exportCounter raises) exporter counters).2 = true ∧
      (∀ k, (exporter.export raises counters gauges histograms).1.last k =
        (each (exportCounter raises) exporter counters).1.last k) ∧
      (exporter.export raises counters gauges histograms).1.sets =
        exporter.sets ++ (gauges ++ histograms.flatMap statGauges).map readingOf := by
  have hcounters : Works exporter (each (exportCounter raises) exporter counters) :=
    works_each works_exportCounter
  have hkept : (each (exportCounter raises) exporter counters).1.sets = exporter.sets :=
    each_invariant (P := fun exporter' ↦ exporter'.sets = exporter.sets)
      (fun exporter' counter _ h ↦ (sets_exportCounter raises exporter' counter).trans h) rfl
  have hgauges (exporter' : OTelExporter) (gauges : List (Gauge ℚ)) :
      Works exporter' (each (exportGauge raises) exporter' gauges) ∧
        ∀ k, (each (exportGauge raises) exporter' gauges).1.last k = exporter'.last k :=
    ⟨works_each works_exportGauge,
      each_invariant (P := fun exporter ↦ ∀ k, exporter.last k = exporter'.last k)
        (fun exporter gauge _ h k ↦ ((exportGauge_keeps raises exporter gauge).1 k).trans (h k))
        fun _ ↦ rfl⟩
  unfold OTelExporter.export at hall ⊢
  split at hall
  · next middle heq =>
    rw [heq] at hkept ⊢
    obtain ⟨hworks, hlast⟩ := hgauges middle gauges
    split at hall
    · next middle' heq' =>
      have hstats := hgauges middle' (histograms.flatMap statGauges)
      obtain ⟨-, hall'⟩ := hstats.1.allReturn hall
      have hsets := sets_each gauges middle (by rw [heq']; exact hall')
      rw [heq'] at hlast hsets
      refine ⟨rfl, fun k ↦ (hstats.2 k).trans (hlast k), ?_⟩
      rw [sets_each _ middle' hall, hsets, hkept, List.append_assoc, List.map_append]
    · next middle' heq' =>
      rw [heq'] at hworks
      exact absurd (hworks.allReturn hall).1 Bool.false_ne_true
  · next middle heq =>
    rw [heq] at hcounters
    exact absurd (hcounters.allReturn hall).1 Bool.false_ne_true

/-- Counters that are all exported have their values remembered. -/
theorem last_each {counters : List (Counter ℚ)} {current : MetricKey → ℚ}
    (hcurrent : ∀ counter ∈ counters, current (key counter.name counter.tags) = counter.value)
    (h : (each (exportCounter raises) exporter counters).2 = true) :
    ∀ counter ∈ counters,
      (each (exportCounter raises) exporter counters).1.last (key counter.name counter.tags) =
        counter.value := by
  refine each_all (R := fun counter exporter ↦
    exporter.last (key counter.name counter.tags) = counter.value) ?_ ?_ h
  · intro exporter counter _ _
    obtain ⟨-, -, hlast, -⟩ := exportCounter_spec raises exporter counter
    rw [hlast, if_pos rfl]
  · intro exporter counter hcounter other hother hkept
    obtain ⟨-, -, hlast, -⟩ := exportCounter_spec raises exporter counter
    rw [hlast]
    split
    · next hk => rw [← hcurrent counter hcounter, ← hcurrent other hother, hk]
    · exact hkept

end OTelExporter

/-- No counter has been told more than it counts, and as long as nothing raises it has been told
what was exported last. -/
structure Told (current : MetricKey → ℚ) (exporter : OTelExporter) : Prop where
  last_nonneg : ∀ k, 0 ≤ exporter.last k
  last_le : ∀ k, exporter.last k ≤ current k
  added_eq : exporter.AllReturn → ∀ k, exporter.added k = exporter.last k

/-- Exporting a counter. -/
theorem Told.exportCounter (h : Told current exporter) {counter : Counter ℚ}
    (hcurrent : current (key counter.name counter.tags) = counter.value)
    (hvalue : 0 ≤ counter.value) : Told current (exporter.exportCounter raises counter).1 := by
  obtain ⟨-, -, hlast, -⟩ := OTelExporter.exportCounter_spec raises exporter counter
  refine ⟨fun k ↦ ?_, fun k ↦ ?_, fun hall k ↦ ?_⟩
  · rw [hlast k]
    split
    · exact hvalue
    · exact h.last_nonneg k
  · rw [hlast k]
    split
    · next hk => exact (hk ▸ hcurrent).ge
    · exact h.last_le k
  · have hadded := (OTelExporter.exportCounter_added raises exporter hvalue k).2 hall
    have hbefore := (OTelExporter.works_exportCounter exporter counter).allReturn hall
    rw [hadded, h.added_eq hbefore.2 k, hlast k]
    split
    · next hk =>
      have hle := h.last_le k
      rw [hk, hcurrent] at hle
      rw [unseen, if_pos hle, hk, add_sub_cancel]
    · exact add_zero _

/-- Exporting a gauge. -/
theorem Told.exportGauge (h : Told current exporter) (gauge : Gauge ℚ) :
    Told current (exporter.exportGauge raises gauge).1 := by
  obtain ⟨hlast, hadded, -⟩ := OTelExporter.exportGauge_keeps raises exporter gauge
  refine ⟨fun k ↦ ?_, fun k ↦ ?_, fun hall k ↦ ?_⟩
  · rw [hlast k]
    exact h.last_nonneg k
  · rw [hlast k]
    exact h.last_le k
  · have hbefore := (OTelExporter.works_exportGauge exporter gauge).allReturn hall
    rw [hadded k, hlast k]
    exact h.added_eq hbefore.2 k

/-- A registry is reset. -/
def ExportEvent.IsReset : ExportEvent → Prop
  | .feed .reset => True
  | _ => False

instance : DecidablePred ExportEvent.IsReset
  | .feed .reset => .isTrue trivial
  | .feed (.record _) => .isFalse id
  | .feed (.ingest _) => .isFalse id
  | .export _ => .isFalse id

/-- What holds in every run without resets. -/
theorem told_of_reach (h : (exporting raises maxRequestHistory).Reach (fun _ e ↦ ¬e.IsReset) s) :
    Keyed s.registry.aggregator ∧ Told (counted s.registry.aggregator) s.exporter := by
  refine h.invariant (P := fun s ↦ Keyed s.registry.aggregator ∧
    Told (counted s.registry.aggregator) s.exporter)
    ⟨keyed_empty, fun k ↦ le_rfl, fun k ↦ le_rfl, fun _ k ↦ rfl⟩ ?_
  rintro s event s' ⟨hkeyed, htold⟩ hreset hstep
  cases event with
  | feed feed =>
    simp only [exporting, Option.map_eq_some_iff] at hstep
    obtain ⟨registry, hfeed, rfl⟩ := hstep
    rcases aggregator_feeding hfeed with ⟨rfl, -⟩ | ⟨-, hingest⟩
    · exact absurd trivial hreset
    · obtain ⟨hkeyed', hgrows⟩ := MetricsAggregator.keyed_ingest hkeyed feed.points
      rw [← hingest] at hkeyed' hgrows
      exact ⟨hkeyed', htold.last_nonneg, fun k ↦ (htold.last_le k).trans (hgrows k),
        htold.added_eq⟩
  | «export» estimators =>
    cases hstep
    refine ⟨hkeyed, OTelExporter.export_invariant (fun exporter counter hmem htold ↦ ?_)
      (fun exporter gauge htold ↦ htold.exportGauge gauge) htold _ _⟩
    have hcurrent := hkeyed.counted_of_mem hmem
    exact htold.exportCounter hcurrent (hcurrent ▸ hkeyed.counted_nonneg _)

private theorem stat_series {name name' : MetricName} {tags tags' : Tags} {stat stat' : Text}
    (htags : "stat".toList ∉ tags.keys) (htags' : "stat".toList ∉ tags'.keys)
    (h : key name' (tags'.set "stat".toList stat') = key name (tags.set "stat".toList stat)) :
    stat' = stat ∧ key name' tags' = key name tags := by
  obtain ⟨rfl, hitems⟩ := Prod.mk.inj h
  rw [sortedItems_eq_iff] at hitems
  have hstat := hitems "stat".toList
  rw [Dict.get?_set, Dict.get?_set, if_pos rfl, if_pos rfl] at hstat
  refine ⟨Option.some.inj hstat, Prod.ext rfl (sortedItems_eq_iff.mpr fun t ↦ ?_)⟩
  by_cases ht : t = "stat".toList
  · rw [ht, Dict.get?_eq_none_iff.mpr htags, Dict.get?_eq_none_iff.mpr htags']
  · have hother := hitems t
    rwa [Dict.get?_set, Dict.get?_set, if_neg ht, if_neg ht] at hother

private theorem mem_gauges {agg : MetricsAggregator ℚ} {gauge : Gauge ℚ}
    (h : gauge ∈ agg.gauges.values) : ∃ k, agg.gauges.get? k = some gauge := by
  obtain ⟨⟨k, g⟩, he, rfl⟩ := List.mem_map.mp h
  exact ⟨k, Dict.mem_entries_iff.mp he⟩

private theorem mem_statGauges {agg : MetricsAggregator ℚ}
    {estimators : MetricKey → List StreamingPercentileEstimator} {gauge : Gauge ℚ} :
    gauge ∈ (histogramsOf agg estimators).flatMap OTelExporter.statGauges ↔
      ∃ k histogram stat value, agg.histograms.get? k = some histogram ∧
        (⟨histogram, estimators k⟩ : StreamingHistogram).snapshot.get? stat = some (some value) ∧
        gauge = ⟨histogram.name, histogram.tags.set "stat".toList stat, value⟩ := by
  unfold histogramsOf OTelExporter.statGauges
  simp only [List.mem_flatMap, List.mem_map, List.mem_filterMap, Option.map_eq_some_iff]
  constructor
  · rintro ⟨h, ⟨⟨k, histogram⟩, he, rfl⟩, ⟨stat, shown⟩, hshown, value, rfl, rfl⟩
    exact ⟨k, histogram, stat, value, Dict.mem_entries_iff.mp he, Dict.mem_entries_iff.mp hshown,
      rfl⟩
  · rintro ⟨k, histogram, stat, value, hget, hshown, rfl⟩
    exact ⟨_, ⟨⟨k, histogram⟩, Dict.mem_entries_iff.mpr hget, rfl⟩, ⟨stat, some value⟩,
      Dict.mem_entries_iff.mpr hshown, value, rfl, rfl⟩

private theorem gauge_ne_histogram {agg : MetricsAggregator ℚ} (h : Keyed agg) {k k' : MetricKey}
    {gauge : Gauge ℚ} {histogram : Histogram ℚ} (hgauge : agg.gauges.get? k = some gauge)
    (hhistogram : agg.histograms.get? k' = some histogram) : gauge.name ≠ histogram.name := by
  intro hname
  obtain ⟨-, htype⟩ := h.gauges k gauge hgauge
  obtain ⟨-, metricType, htype', hdistribution⟩ := h.histograms k' histogram hhistogram
  rw [hname, htype'] at htype
  cases htype
  cases hdistribution

/-- In every run without resets an export at whose end no call has raised, then or before, leaves
the instruments as the registry is: each counter has been told all that its series counts, each
gauge shows its value, and so does each value of a histogram, if no histogram of its name has a
tag `stat`. -/
theorem export_mirrors (raises : List (OtelCall × Bool) → OtelCall → Bool) (maxRequestHistory : Nat)
    {s s' : Exporting} {estimators : MetricKey → List StreamingPercentileEstimator}
    (h : (exporting raises maxRequestHistory).Reach (fun _ e ↦ ¬e.IsReset) s)
    (hstep : (exporting raises maxRequestHistory).step s (.export estimators) = some s')
    (hall : s'.exporter.AllReturn) :
    (∀ k, s'.exporter.added k = counted s.registry.aggregator k) ∧
      (∀ k gauge, s.registry.aggregator.gauges.get? k = some gauge →
        s'.exporter.gaugeValue k = some gauge.value) ∧
      ∀ k histogram, s.registry.aggregator.histograms.get? k = some histogram →
        (∀ k' histogram', s.registry.aggregator.histograms.get? k' = some histogram' →
          histogram'.name = histogram.name → "stat".toList ∉ histogram'.tags.keys) →
        ∀ stat value,
          (⟨histogram, estimators k⟩ : StreamingHistogram).snapshot.get? stat =
              some (some value) →
            s'.exporter.gaugeValue
              (key histogram.name (histogram.tags.set "stat".toList stat)) = some value := by
  obtain ⟨hkeyed, htold⟩ := told_of_reach h
  obtain ⟨-, htold'⟩ := told_of_reach (h.step (a := .export estimators) id hstep)
  cases hstep
  obtain ⟨hcomplete, hlast, hsets⟩ := OTelExporter.export_complete hall
  refine ⟨fun k ↦ (htold'.added_eq hall k).trans ?_, fun k gauge hgauge ↦ ?_,
    fun k histogram hhistogram hstat stat value hshown ↦ ?_⟩
  · cases hget : s.registry.aggregator.counters.get? k with
    | some counter =>
      have hmem : counter ∈ s.registry.aggregator.counters.values :=
        List.mem_map_of_mem (Dict.mem_entries_iff.mpr hget)
      have hvalue := OTelExporter.last_each (fun counter ↦ hkeyed.counted_of_mem) hcomplete
        counter hmem
      rw [← (hkeyed.counters k counter hget).1, hlast, hvalue, hkeyed.counted_of_mem hmem]
    | none =>
      have hzero : counted s.registry.aggregator k = 0 := by
        rw [counted, hget]
        rfl
      have hle := htold'.last_le k
      rw [hzero]
      exact le_antisymm (hle.trans hzero.le) (htold'.last_nonneg k)
  · have hk := (hkeyed.gauges k gauge hgauge).1
    have hmem : readingOf gauge ∈ (s.registry.aggregator.gauges.values ++
        (histogramsOf s.registry.aggregator estimators).flatMap
          OTelExporter.statGauges).map readingOf :=
      List.mem_map_of_mem (List.mem_append_left _
        (List.mem_map_of_mem (Dict.mem_entries_iff.mpr hgauge)))
    rw [← hk]
    refine OTelExporter.gaugeValue_of_sets hsets hmem fun r hr hsame ↦ ?_
    obtain ⟨other, hother, rfl⟩ := List.mem_map.mp hr
    rcases List.mem_append.mp hother with hother | hother
    · obtain ⟨k', hget'⟩ := mem_gauges hother
      have hk' := (hkeyed.gauges k' other hget').1
      have hkk : k' = k := hk'.symm.trans (hsame.trans hk)
      rw [hkk, hgauge] at hget'
      cases hget'
      rfl
    · obtain ⟨k', histogram, stat, value, hget', -, rfl⟩ := mem_statGauges.mp hother
      exact absurd (Prod.mk.inj hsame).1.symm (gauge_ne_histogram hkeyed hgauge hget')
  · have hmem : readingOf ⟨histogram.name, histogram.tags.set "stat".toList stat, value⟩ ∈
        (s.registry.aggregator.gauges.values ++
          (histogramsOf s.registry.aggregator estimators).flatMap
            OTelExporter.statGauges).map readingOf :=
      List.mem_map_of_mem (List.mem_append_right _
        (mem_statGauges.mpr ⟨k, histogram, stat, value, hhistogram, hshown, rfl⟩))
    refine OTelExporter.gaugeValue_of_sets hsets hmem fun r hr hsame ↦ ?_
    obtain ⟨other, hother, rfl⟩ := List.mem_map.mp hr
    rcases List.mem_append.mp hother with hother | hother
    · obtain ⟨k', hget'⟩ := mem_gauges hother
      exact absurd (Prod.mk.inj hsame).1 (gauge_ne_histogram hkeyed hget' hhistogram)
    · obtain ⟨k', histogram', stat', value', hget', hshown', rfl⟩ := mem_statGauges.mp hother
      obtain ⟨rfl, hseries⟩ := stat_series (hstat k histogram hhistogram rfl)
        (hstat k' histogram' hget' (Prod.mk.inj hsame).1) hsame
      rw [(hkeyed.histograms k histogram hhistogram).1,
        (hkeyed.histograms k' histogram' hget').1] at hseries
      subst hseries
      rw [hhistogram] at hget'
      cases hget'
      rw [hshown] at hshown'
      cases hshown'
      rfl

/-- Two exports of a counter that goes on. -/
theorem export_mirrors_twice :
    ∃ s' : Exporting, s'.exporter.AllReturn ∧
      s'.exporter.added (key "hits".toList .empty) = 7 := by
  obtain ⟨s, hreach, hend⟩ := System.exists_of_exec (exporting (fun _ _ ↦ false) 10)
    (fun _ e ↦ ¬e.IsReset)
    [.feed (.ingest [countPoint "hits" 5]), .export fun _ ↦ [],
      .feed (.ingest [countPoint "hits" 2])]
    (fun s ↦ ((exporting (fun _ _ ↦ false) 10).step s (.export fun _ ↦ [])).any fun s' ↦
      s'.exporter.calls.all Prod.snd &&
        counted s.registry.aggregator (key "hits".toList .empty) == 7) (by decide +kernel)
  obtain ⟨s', hstep, hs'⟩ := Option.any_eq_true _ _ |>.mp hend
  simp only [Bool.and_eq_true, List.all_eq_true, beq_iff_eq] at hs'
  have hmirrors := (export_mirrors _ 10 hreach hstep hs'.1).1 (key "hits".toList .empty)
  exact ⟨s', hs'.1, hmirrors.trans hs'.2⟩

end Mirror

end SalesData.Performance

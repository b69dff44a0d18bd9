import Mathlib.Algebra.BigOperators.Group.List.Basic
import SalesData.Base.Grouped
import SalesData.Performance.PrometheusText

/-!
# Aggregation as a fold over series

With exact numbers, an aggregator that has folded some points holds for each series what the points
of this series make: a sum, a last value or a histogram. Neither batches nor the interleaving of
series matter.
-/

namespace SalesData.Performance

open Base

/-- The number of a value. -/
def MetricValue.toRat : MetricValue ℚ → ℚ
  | .int n => n
  | .float x => x

/-- The series of a point: its name and its tag set. -/
def MetricPoint.series (point : MetricPoint ℚ) : MetricKey := key point.name point.tags

/-- The numbers of some points. -/
def valuesOf (points : List (MetricPoint ℚ)) : List ℚ := points.map (·.value.toRat)

/-- The counter of some points: their sum. -/
def Counter.ofPoints : List (MetricPoint ℚ) → Option (Counter ℚ)
  | [] => none
  | point :: points => some ⟨point.name, point.tags, (valuesOf (point :: points)).sum⟩

/-- The gauge of some points: their last value. -/
def Gauge.ofPoints : List (MetricPoint ℚ) → Option (Gauge ℚ)
  | [] => none
  | point :: points =>
    some ⟨point.name, point.tags, (valuesOf (point :: points)).getLast (List.cons_ne_nil _ _)⟩

/-- The bucket of a value: the number of bounds below it. -/
def bucketOf (value : ℚ) : Nat :=
  defaultHistogramBucketBoundsMs.countP fun bound ↦ decide (bound.value < value)

/-- The histogram of some values. -/
def Histogram.ofValues (name : MetricName) (tags : Tags) (values : List ℚ) : Histogram ℚ where
  name
  tags
  bucketBounds := defaultHistogramBucketBoundsMs
  bucketCounts := (List.range (defaultHistogramBucketBoundsMs.length + 1)).map fun i ↦
    values.countP fun value ↦ bucketOf value == i
  count := values.length
  total := values.sum
  minimum := values.min?
  maximum := values.max?
  length_counts := by rw [List.length_map, List.length_range]

/-- The histogram of some points. -/
def Histogram.ofPoints : List (MetricPoint ℚ) → Option (Histogram ℚ)
  | [] => none
  | point :: points =>
    some (.ofValues point.name point.tags (valuesOf (point :: points)))

/-- The types that are folded into histograms. -/
def MetricType.isDistribution : MetricType → Bool
  | .histogram | .timer => true
  | _ => false

namespace MetricsAggregator

/-- What an aggregator holds after some points: nothing but their series. -/
structure FoldOf (agg : MetricsAggregator ℚ) (points : List (MetricPoint ℚ)) : Prop where
  counters : Grouped MetricPoint.series Counter.ofPoints
    (points.filter (·.metricType == .counter)) agg.counters
  gauges : Grouped MetricPoint.series Gauge.ofPoints
    (points.filter (·.metricType == .gauge)) agg.gauges
  histograms : Grouped MetricPoint.series Histogram.ofPoints
    (points.filter (·.metricType.isDistribution)) agg.histograms
  metricTypes : ∀ name, agg.metricTypes.get? name =
    (points.find? (·.name == name)).map (·.metricType)

/-- Two aggregators have the same aggregates. -/
structure SameAggregates (agg agg' : MetricsAggregator ℚ) : Prop where
  counters : ∀ k, agg.counters.get? k = agg'.counters.get? k
  gauges : ∀ k, agg.gauges.get? k = agg'.gauges.get? k
  histograms : ∀ k, agg.histograms.get? k = agg'.histograms.get? k
  metricTypes : ∀ name, agg.metricTypes.get? name = agg'.metricTypes.get? name

/-- Calls of `ingest` with one batch after the other. -/
def ingestBatches (agg : MetricsAggregator ℚ) :
    List (List (MetricPoint ℚ)) → MetricsAggregator ℚ × Except Error Unit
  | [] => (agg, .ok ())
  | batch :: batches =>
    match agg.ingest .exact batch with
    | (agg, .ok ()) => ingestBatches agg batches
    | (agg, .error e) => (agg, .error e)

end MetricsAggregator

/-- No name has points of two types. -/
def OneType (points : List (MetricPoint ℚ)) : Prop :=
  ∀ p ∈ points, ∀ q ∈ points, p.name = q.name → p.metricType = q.metricType

/-- No counter is decremented. -/
def NonnegativeCounters (points : List (MetricPoint ℚ)) : Prop :=
  ∀ p ∈ points, p.metricType = .counter → 0 ≤ p.value.toRat

/-- Exact numbers always convert. -/
@[simp] theorem toFloat_exact (value : MetricValue ℚ) :
    value.toFloat .exact = .ok value.toRat := by
  cases value <;> rfl

/-- A value is negative if its number is. -/
theorem isNegative_exact (value : MetricValue ℚ) :
    value.isNegative .exact = decide (value.toRat < 0) := by
  cases value with
  | int n => simp [MetricValue.isNegative, MetricValue.toRat]
  | float x => rfl

/-- The bounds are in order. -/
theorem pairwise_bounds :
    defaultHistogramBucketBoundsMs.Pairwise fun b b' ↦ b.value ≤ b'.value := by
  decide +kernel

private theorem length_takeWhile_bounds (value : ℚ) {bounds : List Bound}
    (h : bounds.Pairwise fun b b' ↦ b.value ≤ b'.value) :
    (bounds.takeWhile fun bound ↦ decide (bound.value < value)).length =
      bounds.countP fun bound ↦ decide (bound.value < value) := by
  induction h with
  | nil => rfl
  | @cons b bounds hb _ ih =>
    by_cases hlt : b.value < value
    · simp [hlt, ih]
    · have hnone : bounds.countP (fun bound ↦ decide (bound.value < value)) = 0 := by
        rw [List.countP_eq_zero]
        intro b' hb' hlt'
        exact hlt (lt_of_le_of_lt (hb b' hb') (of_decide_eq_true hlt'))
      simp [hlt, hnone]

/-- `bisect_left` counts the bounds below the value. -/
theorem bisectLeft_exact (value : ℚ) :
    Histogram.bisectLeft .exact defaultHistogramBucketBoundsMs value = bucketOf value :=
  length_takeWhile_bounds value pairwise_bounds

/-- Sorted items tell the tag set, however it is ordered. -/
theorem sortedItems_eq_iff {tags tags' : Tags} :
    sortedItems tags = sortedItems tags' ↔ ∀ t, tags.get? t = tags'.get? t := by
  constructor
  · intro h t
    ext v
    rw [← Dict.mem_entries_iff, ← Dict.mem_entries_iff, ← (sortedItems_perm tags).mem_iff,
      ← (sortedItems_perm tags').mem_iff, h]
  · intro h
    have hperm : tags.entries.Perm tags'.entries := by
      rw [List.perm_ext_iff_of_nodup tags.nodup.of_map tags'.nodup.of_map]
      rintro ⟨t, v⟩
      rw [Dict.mem_entries_iff, Dict.mem_entries_iff, h t]
    exact List.Perm.eq_of_pairwise' (List.pairwise_insertionSort itemLe _)
      (List.pairwise_insertionSort itemLe _)
      ((sortedItems_perm tags).trans (hperm.trans (sortedItems_perm tags').symm))

/-- A series is a name with a tag set. -/
theorem series_eq_iff (p q : MetricPoint ℚ) :
    p.series = q.series ↔ p.name = q.name ∧ ∀ t, p.tags.get? t = q.tags.get? t := by
  rw [← sortedItems_eq_iff]
  exact Prod.mk.injEq _ _ _ _ ▸ Iff.rfl

private theorem min?_snoc (values : List ℚ) (value : ℚ) :
    (values ++ [value]).min? = some (values.min?.elim value fun least ↦
      if Floats.exact.lt value least then value else least) := by
  cases values with
  | nil => rfl
  | cons v values =>
    rw [List.cons_append, List.min?_cons', List.min?_cons', List.foldl_append]
    have hlt : Floats.exact.lt value (values.foldl min v) =
      decide (value < values.foldl min v) := rfl
    simp only [List.foldl_cons, List.foldl_nil, Option.elim_some, hlt, decide_eq_true_eq]
    rw [min_comm, min_def_lt]

private theorem max?_snoc (values : List ℚ) (value : ℚ) :
    (values ++ [value]).max? = some (values.max?.elim value fun greatest ↦
      if Floats.exact.lt greatest value then value else greatest) := by
  cases values with
  | nil => rfl
  | cons v values =>
    rw [List.cons_append, List.max?_cons', List.max?_cons', List.foldl_append]
    have hlt : Floats.exact.lt (values.foldl max v) value =
      decide (values.foldl max v < value) := rfl
    simp only [List.foldl_cons, List.foldl_nil, Option.elim_some, hlt, decide_eq_true_eq]
    rw [max_def_lt]

private theorem bucketCounts_ofValues (name : MetricName) (tags : Tags) (values : List ℚ) :
    Counted bucketOf (defaultHistogramBucketBoundsMs.length + 1) values
      (Histogram.ofValues name tags values).bucketCounts := by
  refine ⟨(Histogram.ofValues name tags values).length_counts, fun i hi ↦ ?_⟩
  rw [Histogram.ofValues, List.getElem?_map, List.getElem?_range hi]
  rfl

private theorem eq_of_counted {values : List ℚ} {n : Nat} {counts counts' : List Nat}
    (h : Counted bucketOf n values counts) (h' : Counted bucketOf n values counts') :
    counts = counts' := by
  apply List.ext_getElem?
  intro i
  by_cases hi : i < n
  · rw [h.2 i hi, h'.2 i hi]
  · rw [List.getElem?_eq_none (by rw [h.1]; omega), List.getElem?_eq_none (by rw [h'.1]; omega)]

/-- A new histogram is that of no values. -/
theorem create_eq_ofValues (name : MetricName) (tags : Tags) :
    Histogram.create .exact name tags = .ofValues name tags [] := by
  have hcounts := eq_of_counted (counted_nil bucketOf (defaultHistogramBucketBoundsMs.length + 1))
    (bucketCounts_ofValues name tags [])
  rw [Histogram.create, Histogram.mk.injEq]
  exact ⟨rfl, rfl, rfl, hcounts, rfl, rfl, rfl, rfl⟩

/-- An observation adds a value. -/
theorem observe_ofValues (name : MetricName) (tags : Tags) (values : List ℚ)
    (value : MetricValue ℚ) :
    (Histogram.ofValues name tags values).observe .exact value =
      .ok (.ofValues name tags (values ++ [value.toRat])) := by
  have hcounts := eq_of_counted ((bucketCounts_ofValues name tags values).observe value.toRat)
    (bucketCounts_ofValues name tags (values ++ [value.toRat]))
  rw [Histogram.observe, toFloat_exact]
  refine congrArg Except.ok ?_
  rw [Histogram.mk.injEq]
  refine ⟨rfl, rfl, rfl, ?_, ?_, ?_, ?_, ?_⟩
  · rw [← hcounts, ← bisectLeft_exact]
    rfl
  · rw [Histogram.ofValues, Histogram.ofValues, List.length_append]
    rfl
  · rw [Histogram.ofValues, Histogram.ofValues, List.sum_append, List.sum_singleton]
    rfl
  · simp only [Histogram.ofValues]
    rw [min?_snoc]
    cases values.min? <;> rfl
  · simp only [Histogram.ofValues]
    rw [max?_snoc]
    cases values.max? <;> rfl

/-- One more value in a sum. -/
theorem Counter.ofPoints_snoc (points : List (MetricPoint ℚ)) (point : MetricPoint ℚ) :
    ∃ counter : Counter ℚ,
      counter = (Counter.ofPoints points).getD ⟨point.name, point.tags, 0⟩ ∧
      Counter.ofPoints (points ++ [point]) =
        some { counter with value := counter.value + point.value.toRat } := by
  refine ⟨_, rfl, ?_⟩
  cases points with
  | nil => simp [Counter.ofPoints, valuesOf]
  | cons p points => simp [Counter.ofPoints, valuesOf, add_assoc]

/-- The last value. -/
theorem Gauge.ofPoints_snoc (points : List (MetricPoint ℚ)) (point : MetricPoint ℚ) :
    ∃ gauge : Gauge ℚ, gauge = (Gauge.ofPoints points).getD ⟨point.name, point.tags, 0⟩ ∧
      Gauge.ofPoints (points ++ [point]) = some { gauge with value := point.value.toRat } := by
  refine ⟨_, rfl, ?_⟩
  cases points with
  | nil => rfl
  | cons p points => simp [Gauge.ofPoints, valuesOf]

/-- One more observation. -/
theorem Histogram.ofPoints_snoc (points : List (MetricPoint ℚ)) (point : MetricPoint ℚ) :
    ∃ histogram, Histogram.ofPoints (points ++ [point]) = some histogram ∧
      ((Histogram.ofPoints points).getD (.create .exact point.name point.tags)).observe .exact
        point.value = .ok histogram := by
  cases points with
  | nil =>
    refine ⟨_, rfl, ?_⟩
    rw [Histogram.ofPoints, Option.getD_none, create_eq_ofValues, observe_ofValues]
    rfl
  | cons p points =>
    refine ⟨_, rfl, ?_⟩
    rw [Histogram.ofPoints, Option.getD_some, observe_ofValues]
    simp [valuesOf]

namespace MetricsAggregator

variable {agg : MetricsAggregator ℚ} {points : List (MetricPoint ℚ)} {point : MetricPoint ℚ}

/-- The counter of a series, or a new one. -/
theorem counterFor_spec (agg : MetricsAggregator ℚ) (name : MetricName) (tags : Tags) :
    ∃ counters, agg.counterFor .exact name tags =
        ((agg.counters.get? (key name tags)).getD ⟨name, tags, 0⟩, { agg with counters }) ∧
      ∀ k, k ≠ key name tags → counters.get? k = agg.counters.get? k := by
  unfold counterFor
  cases hget : agg.counters.get? (key name tags) with
  | none => exact ⟨_, rfl, fun k hk ↦ by rw [Dict.get?_set, if_neg hk]⟩
  | some counter => exact ⟨agg.counters, rfl, fun _ _ ↦ rfl⟩

/-- The gauge of a series, or a new one. -/
theorem gaugeFor_spec (agg : MetricsAggregator ℚ) (name : MetricName) (tags : Tags) :
    ∃ gauges, agg.gaugeFor .exact name tags =
        ((agg.gauges.get? (key name tags)).getD ⟨name, tags, 0⟩, { agg with gauges }) ∧
      ∀ k, k ≠ key name tags → gauges.get? k = agg.gauges.get? k := by
  unfold gaugeFor
  cases hget : agg.gauges.get? (key name tags) with
  | none => exact ⟨_, rfl, fun k hk ↦ by rw [Dict.get?_set, if_neg hk]⟩
  | some gauge => exact ⟨agg.gauges, rfl, fun _ _ ↦ rfl⟩

/-- The histogram of a series, or a new one. -/
theorem histogramFor_spec (agg : MetricsAggregator ℚ) (name : MetricName) (tags : Tags) :
    ∃ histograms, agg.histogramFor .exact name tags =
        ((agg.histograms.get? (key name tags)).getD (.create .exact name tags),
          { agg with histograms }) ∧
      ∀ k, k ≠ key name tags → histograms.get? k = agg.histograms.get? k := by
  unfold histogramFor
  cases hget : agg.histograms.get? (key name tags) with
  | none => exact ⟨_, rfl, fun k hk ↦ by rw [Dict.get?_set, if_neg hk]⟩
  | some histogram => exact ⟨agg.histograms, rfl, fun _ _ ↦ rfl⟩

/-- A counter's point adds to the counter of its series. -/
theorem applyPoint_counter
    (h : Grouped MetricPoint.series Counter.ofPoints points agg.counters)
    (htype : point.metricType = .counter) (hvalue : 0 ≤ point.value.toRat) :
    ∃ counters, agg.applyPoint .exact point = ({ agg with counters }, .ok ()) ∧
      Grouped MetricPoint.series Counter.ofPoints (points ++ [point]) counters := by
  have hnegative : point.value.isNegative .exact = false := by
    rw [isNegative_exact, decide_eq_false (not_lt.mpr hvalue)]
  obtain ⟨counter, hcounter, hsnoc⟩ := Counter.ofPoints_snoc
    (points.filter fun p ↦ p.series = point.series) point
  obtain ⟨counters, hfor, hothers⟩ := counterFor_spec agg point.name point.tags
  rw [show agg.counters.get? (key point.name point.tags) = _ from h point.series,
    ← hcounter] at hfor
  refine ⟨counters.set point.series
    { counter with value := counter.value + point.value.toRat }, ?_, h.store hothers hsnoc⟩
  unfold applyPoint
  simp only [htype, hfor, Counter.increment, hnegative, toFloat_exact]
  rfl

/-- A gauge's point sets the gauge of its series. -/
theorem applyPoint_gauge
    (h : Grouped MetricPoint.series Gauge.ofPoints points agg.gauges)
    (htype : point.metricType = .gauge) :
    ∃ gauges, agg.applyPoint .exact point = ({ agg with gauges }, .ok ()) ∧
      Grouped MetricPoint.series Gauge.ofPoints (points ++ [point]) gauges := by
  obtain ⟨gauge, hgauge, hsnoc⟩ := Gauge.ofPoints_snoc
    (points.filter fun p ↦ p.series = point.series) point
  obtain ⟨gauges, hfor, hothers⟩ := gaugeFor_spec agg point.name point.tags
  rw [show agg.gauges.get? (key point.name point.tags) = _ from h point.series, ← hgauge] at hfor
  refine ⟨gauges.set point.series { gauge with value := point.value.toRat }, ?_,
    h.store hothers hsnoc⟩
  unfold applyPoint
  simp only [htype, hfor, Gauge.set, toFloat_exact]
  rfl

/-- A point of a distribution is observed by the histogram of its series. -/
theorem applyPoint_histogram
    (h : Grouped MetricPoint.series Histogram.ofPoints points agg.histograms)
    (htype : point.metricType.isDistribution = true) :
    ∃ histograms, agg.applyPoint .exact point = ({ agg with histograms }, .ok ()) ∧
      Grouped MetricPoint.series Histogram.ofPoints (points ++ [point]) histograms := by
  obtain ⟨histogram, hsnoc, hobserve⟩ := Histogram.ofPoints_snoc
    (points.filter fun p ↦ p.series = point.series) point
  obtain ⟨histograms, hfor, hothers⟩ := histogramFor_spec agg point.name point.tags
  rw [show agg.histograms.get? (key point.name point.tags) = _ from h point.series] at hfor
  refine ⟨histograms.set point.series histogram, ?_, h.store hothers hsnoc⟩
  unfold applyPoint
  cases htype' : point.metricType with
  | histogram | timer =>
    simp only [hfor, hobserve]
    rfl
  | counter | gauge | event | trace =>
    rw [htype'] at htype
    cases htype

/-- A type is registered with the first point of its name. -/
theorem registerType_fold
    (h : ∀ name, agg.metricTypes.get? name =
      (points.find? (·.name == name)).map (·.metricType))
    (htypes : OneType (points ++ [point])) :
    ∃ metricTypes, agg.registerType point = .ok { agg with metricTypes } ∧
      ∀ name, metricTypes.get? name =
        ((points ++ [point]).find? (·.name == name)).map (·.metricType) := by
  have hpoint : point ∈ points ++ [point] := by simp
  unfold registerType
  cases hfound : points.find? (·.name == point.name) with
  | none =>
    rw [h point.name, hfound]
    refine ⟨_, rfl, fun name ↦ ?_⟩
    rw [Dict.get?_set, h name, List.find?_append]
    split
    · next hname => simp [hname, hfound]
    · next hname => simp [Ne.symm hname]
  | some first =>
    have hfirst : first ∈ points := List.mem_of_find?_eq_some hfound
    have hname : first.name = point.name := by simpa using List.find?_some hfound
    have htype := htypes first (List.mem_append_left _ hfirst) point hpoint hname
    rw [h point.name, hfound]
    refine ⟨agg.metricTypes, by simp [ensureSameType, htype], fun name ↦ ?_⟩
    rw [h name, List.find?_append]
    by_cases hn : point.name = name
    · subst hn
      simp [hfound]
    · simp [hn]

/-- One more point. -/
theorem ingestOne_fold (h : agg.FoldOf points) (htypes : OneType (points ++ [point]))
    (hvalue : point.metricType = .counter → 0 ≤ point.value.toRat) :
    ∃ agg' : MetricsAggregator ℚ, agg.ingestOne .exact point = (agg', .ok ()) ∧
      agg'.FoldOf (points ++ [point]) := by
  obtain ⟨metricTypes, hregister, hmetricTypes⟩ := registerType_fold h.metricTypes htypes
  unfold ingestOne
  rw [hregister]
  dsimp only
  have hkept {f : MetricPoint ℚ → Bool} (hf : f point = false) :
      (points ++ [point]).filter f = points.filter f := by
    rw [List.filter_append, List.filter_singleton, hf, cond_false, List.append_nil]
  have hgrown {f : MetricPoint ℚ → Bool} (hf : f point = true) :
      (points ++ [point]).filter f = points.filter f ++ [point] := by
    rw [List.filter_append, List.filter_singleton, hf, cond_true]
  cases htype : point.metricType with
  | counter =>
    obtain ⟨counters, happly, hcounters⟩ :=
      @applyPoint_counter { agg with metricTypes } _ point h.counters htype (hvalue htype)
    refine ⟨_, happly, ?_, ?_, ?_, hmetricTypes⟩
    · rw [hgrown (by simp [htype])]
      exact hcounters
    · rw [hkept (by simp [htype])]
      exact h.gauges
    · rw [hkept (by simp [htype, MetricType.isDistribution])]
      exact h.histograms
  | gauge =>
    obtain ⟨gauges, happly, hgauges⟩ :=
      @applyPoint_gauge { agg with metricTypes } _ point h.gauges htype
    refine ⟨_, happly, ?_, ?_, ?_, hmetricTypes⟩
    · rw [hkept (by simp [htype])]
      exact h.counters
    · rw [hgrown (by simp [htype])]
      exact hgauges
    · rw [hkept (by simp [htype, MetricType.isDistribution])]
      exact h.histograms
  | histogram | timer =>
    have hdistribution : point.metricType.isDistribution = true := by
      rw [htype]
      rfl
    obtain ⟨histograms, happly, hhistograms⟩ :=
      @applyPoint_histogram { agg with metricTypes } _ point h.histograms hdistribution
    refine ⟨_, happly, ?_, ?_, ?_, hmetricTypes⟩
    · rw [hkept (by simp [htype])]
      exact h.counters
    · rw [hkept (by simp [htype])]
      exact h.gauges
    · rw [hgrown hdistribution]
      exact hhistograms
  | event | trace =>
    refine ⟨{ agg with metricTypes }, by simp only [applyPoint, htype], ?_, ?_, ?_, hmetricTypes⟩
    · rw [hkept (by simp [htype])]
      exact h.counters
    · rw [hkept (by simp [htype])]
      exact h.gauges
    · rw [hkept (by simp [htype, MetricType.isDistribution])]
      exact h.histograms

/-- An aggregator without points. -/
theorem fold_empty : (empty : MetricsAggregator ℚ).FoldOf [] where
  counters := .nil rfl
  gauges := .nil rfl
  histograms := .nil rfl
  metricTypes _ := rfl

/-- More points. -/
theorem ingest_fold {batch : List (MetricPoint ℚ)} (h : agg.FoldOf points)
    (htypes : OneType (points ++ batch)) (hvalues : NonnegativeCounters batch) :
    ∃ agg' : MetricsAggregator ℚ, agg.ingest .exact batch = (agg', .ok ()) ∧
      agg'.FoldOf (points ++ batch) := by
  induction batch generalizing agg points with
  | nil => exact ⟨agg, rfl, by rwa [List.append_nil]⟩
  | cons point batch ih =>
    rw [List.append_cons] at htypes ⊢
    have hfirst : OneType (points ++ [point]) := fun p hp q hq ↦
      htypes p (List.mem_append_left _ hp) q (List.mem_append_left _ hq)
    obtain ⟨next, hone, hnext⟩ :=
      ingestOne_fold h hfirst (hvalues point List.mem_cons_self)
    obtain ⟨agg', hrest, hagg'⟩ := ih hnext htypes fun p hp ↦
      hvalues p (List.mem_cons_of_mem _ hp)
    exact ⟨agg', by rw [ingest, hone]; exact hrest, hagg'⟩

/-- A batch goes on where the one before it ended. -/
theorem ingest_append {next : MetricsAggregator ℚ} {batch : List (MetricPoint ℚ)}
    (h : agg.ingest .exact batch = (next, .ok ())) (batch' : List (MetricPoint ℚ)) :
    agg.ingest .exact (batch ++ batch') = next.ingest .exact batch' := by
  induction batch generalizing agg with
  | nil =>
    cases h
    rfl
  | cons point batch ih =>
    rw [ingest] at h
    rw [List.cons_append, ingest]
    split at h
    · exact ih h
    · cases h

/-- A batch that raises is the last. -/
theorem ingest_append_error {next : MetricsAggregator ℚ} {batch : List (MetricPoint ℚ)} {e : Error}
    (h : agg.ingest .exact batch = (next, .error e)) (batch' : List (MetricPoint ℚ)) :
    agg.ingest .exact (batch ++ batch') = (next, .error e) := by
  induction batch generalizing agg with
  | nil => cases h
  | cons point batch ih =>
    rw [ingest] at h
    rw [List.cons_append, ingest]
    split at h
    · exact ih h
    · exact h

/-- Batches are folded as one. -/
theorem ingestBatches_eq (agg : MetricsAggregator ℚ) (batches : List (List (MetricPoint ℚ))) :
    agg.ingestBatches batches = agg.ingest .exact batches.flatten := by
  induction batches generalizing agg with
  | nil => rfl
  | cons batch batches ih =>
    rw [ingestBatches, List.flatten_cons]
    split
    · next hbatch => rw [ingest_append hbatch, ih]
    · next hbatch => rw [ingest_append_error hbatch]

/-- Points that agree with others series by series are the same points. -/
theorem mem_of_agree {points' : List (MetricPoint ℚ)}
    (hagree : ∀ k, (points'.filter fun p ↦ p.series = k) = points.filter fun p ↦ p.series = k)
    {p : MetricPoint ℚ} : p ∈ points' ↔ p ∈ points := by
  have h (points : List (MetricPoint ℚ)) :
      p ∈ points ↔ p ∈ points.filter fun q ↦ q.series = p.series := by
    simp
  rw [h points', h points, hagree]

/-- The aggregates after points that agree with others series by series. -/
theorem FoldOf.sameAggregates {agg' : MetricsAggregator ℚ} {points' : List (MetricPoint ℚ)}
    (h : agg.FoldOf points) (h' : agg'.FoldOf points') (htypes : OneType points)
    (hagree : ∀ k, (points'.filter fun p ↦ p.series = k) = points.filter fun p ↦ p.series = k) :
    agg'.SameAggregates agg := by
  have htyped (f : MetricPoint ℚ → Bool) (k : MetricKey) :
      ((points'.filter f).filter fun p ↦ p.series = k) =
        (points.filter f).filter fun p ↦ p.series = k := by
    rw [List.filter_comm, hagree k, List.filter_comm]
  refine ⟨h.counters.get?_eq h'.counters (htyped _), h.gauges.get?_eq h'.gauges (htyped _),
    h.histograms.get?_eq h'.histograms (htyped _), fun name ↦ ?_⟩
  rw [h.metricTypes, h'.metricTypes]
  cases hfound : points.find? (·.name == name) with
  | none =>
    have hnone : points'.find? (·.name == name) = none := by
      rw [List.find?_eq_none] at hfound ⊢
      exact fun p hp ↦ hfound p ((mem_of_agree hagree).mp hp)
    rw [hnone]
  | some p =>
    have hp := List.mem_of_find?_eq_some hfound
    have hname : p.name = name := by simpa using List.find?_some hfound
    cases hfound' : points'.find? (·.name == name) with
    | none =>
      rw [List.find?_eq_none] at hfound'
      exact absurd (by simpa using hname) (hfound' p ((mem_of_agree hagree).mpr hp))
    | some q =>
      have hq := (mem_of_agree hagree).mp (List.mem_of_find?_eq_some hfound')
      have hname' : q.name = name := by simpa using List.find?_some hfound'
      rw [Option.map_some, Option.map_some, htypes q hq p hp (hname'.trans hname.symm)]

/-- Folding is faithful: no point raises; each name and tag set has the aggregate of its points, and
there is nothing else; batches make no difference, and the interleaving of series none to the
aggregates. -/
theorem ingest_faithful (points : List (MetricPoint ℚ)) (htypes : OneType points)
    (hvalues : NonnegativeCounters points) :
    (∀ p q : MetricPoint ℚ,
      p.series = q.series ↔ p.name = q.name ∧ ∀ t, p.tags.get? t = q.tags.get? t) ∧
      ∃ agg : MetricsAggregator ℚ, empty.ingest .exact points = (agg, .ok ()) ∧
        agg.FoldOf points ∧
        (∀ batches : List (List (MetricPoint ℚ)), batches.flatten = points →
          empty.ingestBatches batches = (agg, .ok ())) ∧
        ∀ points' : List (MetricPoint ℚ),
          (∀ k, (points'.filter fun p ↦ p.series = k) = points.filter fun p ↦ p.series = k) →
          ∃ agg' : MetricsAggregator ℚ, empty.ingest .exact points' = (agg', .ok ()) ∧
            agg'.SameAggregates agg := by
  obtain ⟨agg, hingest, hfold⟩ := ingest_fold fold_empty htypes hvalues
  refine ⟨series_eq_iff, agg, hingest, hfold, ?_, ?_⟩
  · rintro batches rfl
    rw [ingestBatches_eq, hingest]
  · intro points' hagree
    have hmem {p : MetricPoint ℚ} : p ∈ points' ↔ p ∈ points := mem_of_agree hagree
    have htypes' : OneType points' := fun p hp q hq ↦
      htypes p (hmem.mp hp) q (hmem.mp hq)
    have hvalues' : NonnegativeCounters points' := fun p hp ↦ hvalues p (hmem.mp hp)
    obtain ⟨agg', hingest', hfold'⟩ := ingest_fold fold_empty htypes' hvalues'
    exact ⟨agg', hingest', hfold.sameAggregates hfold' htypes hagree⟩

/-- Two points of a counter with a timer's between them. -/
def mixedPoints : List (MetricPoint ℚ) :=
  [⟨"rows".toList, .counter, .int 2, 1, .count, .empty⟩,
    ⟨"query".toList, .timer, .int 40, 2, .nanoseconds, .empty⟩,
    ⟨"rows".toList, .counter, .float (1 / 2), 3, .count, .empty⟩]

/-- The counter holds their sum. -/
theorem ingest_faithful_mixedPoints :
    ∃ agg : MetricsAggregator ℚ, empty.ingest .exact mixedPoints = (agg, .ok ()) ∧
      (agg.counters.get? ("rows".toList, [])).map (·.value) = some (5 / 2) := by
  have htypes : OneType mixedPoints := by
    unfold OneType
    decide
  have hvalues : NonnegativeCounters mixedPoints := by
    unfold NonnegativeCounters
    decide +kernel
  obtain ⟨-, agg, hingest, hfold, -⟩ := ingest_faithful mixedPoints htypes hvalues
  refine ⟨agg, hingest, ?_⟩
  rw [hfold.counters]
  decide +kernel

end MetricsAggregator

end SalesData.Performance

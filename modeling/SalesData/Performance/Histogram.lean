import SalesData.Base.Buckets
import SalesData.Performance.Metric

/-!
# Bucketed histograms

`core/performance/histogram.py` and the default bounds of `constants.py`. A
`StreamingHistogram` is its bucketed histogram here: the percentile estimators beside it see
the same values and change nothing that is modelled.
-/

namespace SalesData.Performance

open Base

/-- A bucket's upper bound with its `str`. -/
structure Bound where
  value : Rat
  label : Text
  deriving DecidableEq, Repr

/-- `DEFAULT_HISTOGRAM_BUCKET_BOUNDS_MS` (`constants.py:25–40`), in milliseconds. -/
def defaultHistogramBucketBoundsMs : List Bound :=
  [⟨1 / 2, "0.5".toList⟩, ⟨1, "1".toList⟩, ⟨2, "2".toList⟩, ⟨5, "5".toList⟩, ⟨10, "10".toList⟩,
    ⟨25, "25".toList⟩, ⟨50, "50".toList⟩, ⟨100, "100".toList⟩, ⟨250, "250".toList⟩,
    ⟨500, "500".toList⟩, ⟨1000, "1000".toList⟩, ⟨2500, "2500".toList⟩, ⟨5000, "5000".toList⟩,
    ⟨10000, "10000".toList⟩]

/-- The label of the last bucket. -/
def infLabel : Text := "+Inf".toList

/-- `Histogram`, one count for each bound and one for what exceeds them all. -/
structure Histogram (F : Type) where
  name : MetricName
  tags : Tags
  bucketBounds : List Bound
  bucketCounts : List Nat
  count : Nat
  total : F
  minimum : Option F
  maximum : Option F
  length_counts : bucketCounts.length = bucketBounds.length + 1

namespace Histogram

variable {F : Type} (fl : Floats F)

/-- The constructor with the default bounds. -/
def create (name : MetricName) (tags : Tags) : Histogram F where
  name
  tags
  bucketBounds := defaultHistogramBucketBoundsMs
  bucketCounts := List.replicate (defaultHistogramBucketBoundsMs.length + 1) 0
  count := 0
  total := fl.zero
  minimum := none
  maximum := none
  length_counts := List.length_replicate

/-- `bisect_left`: the number of bounds below the value. -/
def bisectLeft (bounds : List Bound) (value : F) : Nat :=
  (bounds.takeWhile fun bound ↦ fl.exceeds value bound.value).length

/-- `Histogram.observe` (`histogram.py:51–59`). -/
def observe (histogram : Histogram F) (value : MetricValue F) : Except Error (Histogram F) :=
  match value.toFloat fl with
  | .error e => .error e
  | .ok x => .ok
    { histogram with
      count := histogram.count + 1
      total := fl.add histogram.total x
      minimum := some <| match histogram.minimum with
        | none => x
        | some least => if fl.lt x least then x else least
      maximum := some <| match histogram.maximum with
        | none => x
        | some greatest => if fl.lt greatest x then x else greatest
      bucketCounts :=
        histogram.bucketCounts.modify (bisectLeft fl histogram.bucketBounds x) (· + 1)
      length_counts := by rw [List.length_modify]; exact histogram.length_counts }

/-- The labels of the buckets. -/
def labels (histogram : Histogram F) : List Text :=
  histogram.bucketBounds.map (·.label) ++ [infLabel]

/-- `Histogram.cumulative_counts` (`histogram.py:68–76`). -/
def cumulativeCounts (histogram : Histogram F) : Dict Text Nat :=
  Dict.ofEntries (histogram.labels.zip (runningSums 0 histogram.bucketCounts))

end Histogram
end SalesData.Performance

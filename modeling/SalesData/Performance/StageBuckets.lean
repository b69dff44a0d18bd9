import SalesData.Performance.Prometheus

/-!
# Stage durations in buckets

A stage's duration is an `int` of nanoseconds (`core/performance/request_profiler.py:210–223`),
the aggregator observes it as it is (`aggregator.py:61–62`), and the bounds of the buckets are
milliseconds (`constants.py:22–40`). What the cumulative counts then count, over any sequence of
completed requests.
-/

namespace SalesData.Performance

open Base

variable {F : Type}

/-- The states of a profiler under the calls of its interface. -/
inductive RequestProfiler.Used : RequestProfiler F → Prop
  | create {requestId : Text} {tags : Tags} {startedNs rootNs : Int}
      {profiler : RequestProfiler F} :
      RequestProfiler.create requestId tags startedNs rootNs = .ok profiler → Used profiler
  | startStage {profiler profiler' : RequestProfiler F} {stage : PerformanceStage}
      {name : MetricName} {tags : Tags} {now : Int} {node : Nat} :
      Used profiler → profiler.startStage stage name tags now = .ok (profiler', node) →
      Used profiler'
  | finishStage {profiler profiler' : RequestProfiler F} {finishedNs timestampNs : Int} :
      Used profiler → profiler.finishStage finishedNs timestampNs = .ok profiler' →
      Used profiler'
  | counter {profiler profiler' : RequestProfiler F} {name : MetricName}
      {amount : MetricValue F} {tags : Tags} {timestampNs : Int} :
      Used profiler → profiler.counter name amount tags timestampNs = .ok profiler' →
      Used profiler'
  | gauge {profiler profiler' : RequestProfiler F} {name : MetricName} {value : MetricValue F}
      {tags : Tags} {timestampNs : Int} :
      Used profiler → profiler.gauge name value tags timestampNs = .ok profiler' →
      Used profiler'
  | event {profiler : RequestProfiler F} {name : MetricName} {tags : Tags}
      {timestampNs : Int} :
      Used profiler → Used (profiler.event name tags timestampNs)

/-- A profile that a profiler handed over. -/
def RequestProfile.Completed (profile : RequestProfile F) : Prop :=
  ∃ (profiler profiler' : RequestProfiler F) (status : Text) (error : Option Text)
    (now : Nat → Int) (finishedNs : Int), profiler.Used ∧
      profiler.complete status error now finishedNs = (profiler', .ok profile)

/-- A point of a profiler: no histogram point, and a timer's value is an `int`. -/
def FromProfiler (point : MetricPoint F) : Prop :=
  point.metricType ≠ .histogram ∧
    (point.metricType = .timer → ∃ durationNs, point.value = .int durationNs)

private theorem forall_concat {P : MetricPoint F → Prop} {points : List (MetricPoint F)}
    {point : MetricPoint F} (h : ∀ p ∈ points, P p) (hp : P point) :
    ∀ p ∈ points ++ [point], P p := by
  intro p hmem
  rcases List.mem_append.mp hmem with hmem | hmem
  · exact h p hmem
  · rw [List.mem_singleton] at hmem
    exact hmem ▸ hp

private theorem of_emit {profiler profiler' : RequestProfiler F} {name : MetricName}
    {metricType : MetricType} {value : MetricValue F} {unit : MetricUnit} {tags : Tags}
    {timestampNs : Int}
    (h : profiler.emit name metricType value unit tags timestampNs = .ok profiler')
    (hpoints : ∀ p ∈ profiler.metricPoints, FromProfiler p)
    (hhistogram : metricType ≠ .histogram) (htimer : metricType ≠ .timer) :
    ∀ p ∈ profiler'.metricPoints, FromProfiler p := by
  unfold RequestProfiler.emit at h
  split at h
  · cases h
  · cases h
    exact forall_concat hpoints ⟨hhistogram, fun h ↦ absurd h htimer⟩

/-- Every point of a profiler is such a point. -/
theorem RequestProfiler.Used.fromProfiler {profiler : RequestProfiler F} (h : profiler.Used) :
    ∀ point ∈ profiler.metricPoints, FromProfiler point := by
  induction h with
  | create h =>
    unfold RequestProfiler.create at h
    split at h
    · cases h
    · cases h
      exact fun point hmem ↦ absurd hmem List.not_mem_nil
  | startStage _ h ih =>
    unfold RequestProfiler.startStage at h
    split at h
    · cases h
    · split at h
      · cases h
      · split at h
        · cases h
        · cases h
          exact ih
  | finishStage _ h ih =>
    unfold RequestProfiler.finishStage at h
    split at h
    · cases h
    · split at h
      · cases h
        exact ih
      · next node _ =>
        cases h
        exact forall_concat ih ⟨by simp [timerPoint], fun _ ↦ ⟨_, rfl⟩⟩
  | counter _ h ih => exact of_emit h ih (by decide) (by decide)
  | gauge _ h ih => exact of_emit h ih (by decide) (by decide)
  | event _ ih => exact forall_concat ih (by simp [FromProfiler])

/-- Every point of a completed profile is one that a profiler makes. -/
theorem RequestProfile.Completed.fromProfiler {profile : RequestProfile F}
    (h : profile.Completed) : ∀ point ∈ profile.metricPoints, FromProfiler point := by
  obtain ⟨profiler, profiler', status, error, now, finishedNs, hused, hcomplete⟩ := h
  rw [(RequestProfiler.current_complete hcomplete).2.2]
  exact hused.fromProfiler

section Observed

variable (fl : Floats F)

/-- The points of a batch that are folded before one raises. -/
def MetricsAggregator.folded (agg : MetricsAggregator F) :
    List (MetricPoint F) → List (MetricPoint F)
  | [] => []
  | point :: points =>
    match agg.ingestOne fl point with
    | (agg, .ok ()) => point :: agg.folded points
    | (_, .error _) => []

/-- The duration in a timer's point for a name and tag set. -/
def stageDuration (k : MetricKey) (point : MetricPoint F) : Option Int :=
  match point.metricType, point.value with
  | .timer, .int durationNs => if key point.name point.tags = k then some durationNs else none
  | _, _ => none

/-- A registry that records profiles one after the other, also after one was refused. -/
def recordAll (registry : PerformanceRegistry F) :
    List (RequestProfile F) → PerformanceRegistry F
  | [] => registry
  | profile :: profiles =>
    recordAll (registry.recordCompletedRequest fl profile).1 profiles

/-- The points that are folded meanwhile. -/
def recordedPoints (registry : PerformanceRegistry F) :
    List (RequestProfile F) → List (MetricPoint F)
  | [] => []
  | profile :: profiles =>
    registry.aggregator.folded fl profile.metricPoints ++
      recordedPoints (registry.recordCompletedRequest fl profile).1 profiles

/-- The recorded durations of a stage name with a tag set, in nanoseconds. -/
def recordedDurations (registry : PerformanceRegistry F) (profiles : List (RequestProfile F))
    (name : MetricName) (tags : Tags) : List Int :=
  (recordedPoints fl registry profiles).filterMap (stageDuration (key name tags))

/-- The cumulative count that is reported for a bound; a series that does not exist counts
nothing. -/
def reportedCount (registry : PerformanceRegistry F) (name : MetricName) (tags : Tags)
    (label : Text) : Nat :=
  ((registry.aggregator.histograms.get? (key name tags)).bind
    fun histogram ↦ histogram.cumulativeCounts.get? label).getD 0

end Observed

/-- The bucket of a duration: the number of bounds below it. -/
def durationPlace (durationNs : Int) : Nat :=
  (defaultHistogramBucketBoundsMs.takeWhile fun bound ↦
    decide (bound.value < (durationNs : Rat))).length

/-- The number of buckets. -/
def bucketTotal : Nat := defaultHistogramBucketBoundsMs.length + 1

/-- Every histogram has the default bounds and has counted the durations of its key; a key
without a histogram has none. -/
def Tracks (agg : MetricsAggregator F) (points : List (MetricPoint F)) : Prop :=
  ∀ k, match agg.histograms.get? k with
    | none => points.filterMap (stageDuration k) = []
    | some histogram => histogram.bucketBounds = defaultHistogramBucketBoundsMs ∧
        Counted durationPlace bucketTotal (points.filterMap (stageDuration k))
          histogram.bucketCounts

private theorem bound_halves : ∀ bound ∈ defaultHistogramBucketBoundsMs,
    (2 * bound.value).den = 1 ∧ 0 ≤ bound.value ∧ bound.value ≤ 2 ^ 52 := by
  decide +kernel

private theorem bound_sorted :
    defaultHistogramBucketBoundsMs.Pairwise fun a b ↦ a.value < b.value := by
  decide +kernel

private theorem labels_nodup :
    (defaultHistogramBucketBoundsMs.map (·.label) ++ [infLabel]).Nodup := by
  decide +kernel

variable {fl : Floats F}

/-- A converted duration falls where the duration itself does. -/
theorem bisectLeft_ofInt (hfl : fl.Lawful) {durationNs : Int} {x : F}
    (hx : fl.ofInt durationNs = some x) :
    Histogram.bisectLeft fl defaultHistogramBucketBoundsMs x = durationPlace durationNs := by
  unfold Histogram.bisectLeft durationPlace
  congr 1
  apply takeWhile_congr
  intro bound hmem
  obtain ⟨hden, hpos, hle⟩ := bound_halves bound hmem
  rw [Bool.eq_iff_iff, decide_eq_true_eq]
  exact hfl.exceeds_ofInt durationNs x bound.value hx hden hpos hle

/-- A duration is in a bound's bucket or an earlier one exactly when it is not above it. -/
theorem durationPlace_le_iff {j : Nat} {bound : Bound}
    (hbound : defaultHistogramBucketBoundsMs[j]? = some bound) (durationNs : Int) :
    durationPlace durationNs ≤ j ↔ (durationNs : Rat) ≤ bound.value := by
  unfold durationPlace
  rw [length_takeWhile_le_iff hbound, decide_eq_false_iff_not, not_lt]
  intro i earlier hij hearlier hlt
  have hlt' : bound.value < (durationNs : Rat) := by simpa using hlt
  obtain ⟨hi, rfl⟩ := List.getElem?_eq_some_iff.mp hearlier
  obtain ⟨hj, rfl⟩ := List.getElem?_eq_some_iff.mp hbound
  have hsorted := List.pairwise_iff_getElem.mp bound_sorted i j hi hj hij
  simpa using hsorted.trans hlt'

private theorem tracks_empty : Tracks (.empty : MetricsAggregator F) [] := fun _ ↦ rfl

private theorem tracks_of_same {agg agg' : MetricsAggregator F} {points : List (MetricPoint F)}
    {point : MetricPoint F} (h : Tracks agg points) (hsame : agg'.histograms = agg.histograms)
    (hnone : ∀ k, stageDuration k point = none) : Tracks agg' (points ++ [point]) := by
  intro k
  rw [List.filterMap_append, List.filterMap_cons_none (hnone k), List.filterMap_nil,
    List.append_nil, hsame]
  exact h k

private theorem histograms_registerType {agg agg' : MetricsAggregator F}
    {point : MetricPoint F} (h : agg.registerType point = .ok agg') :
    agg'.histograms = agg.histograms := by
  unfold MetricsAggregator.registerType at h
  split at h
  · cases h
    rfl
  · split at h
    · cases h
      rfl
    · cases h

private theorem histograms_counterFor (agg : MetricsAggregator F) (name : MetricName)
    (tags : Tags) : (agg.counterFor fl name tags).2.histograms = agg.histograms := by
  unfold MetricsAggregator.counterFor
  split <;> rfl

private theorem histograms_gaugeFor (agg : MetricsAggregator F) (name : MetricName)
    (tags : Tags) : (agg.gaugeFor fl name tags).2.histograms = agg.histograms := by
  unfold MetricsAggregator.gaugeFor
  split <;> rfl

/-- The histogram of a key, new or not, has counted the durations of that key. -/
theorem tracks_histogramFor (fl : Floats F) {agg : MetricsAggregator F}
    {points : List (MetricPoint F)} (h : Tracks agg points) (name : MetricName) (tags : Tags) :
    Tracks (agg.histogramFor fl name tags).2 points ∧
      (agg.histogramFor fl name tags).2.histograms.get? (key name tags) =
        some (agg.histogramFor fl name tags).1 := by
  unfold MetricsAggregator.histogramFor
  split
  · next histogram hget => exact ⟨h, hget⟩
  · next hget =>
    refine ⟨?_, by simp [Dict.get?_set]⟩
    intro k
    by_cases hk : k = key name tags
    · have hnone := h k
      rw [hk, hget] at hnone
      rw [hk]
      simp only [Dict.get?_set, if_true]
      refine ⟨rfl, ?_⟩
      rw [hnone]
      exact counted_nil durationPlace bucketTotal
    · simpa only [Dict.get?_set, if_neg hk] using h k

private theorem histograms_applyPoint (agg : MetricsAggregator F) {point : MetricPoint F}
    (htimer : point.metricType ≠ .timer) (hhistogram : point.metricType ≠ .histogram) :
    (agg.applyPoint fl point).1.histograms = agg.histograms := by
  unfold MetricsAggregator.applyPoint
  split
  · dsimp only
    split <;> exact histograms_counterFor agg point.name point.tags
  · dsimp only
    split <;> exact histograms_gaugeFor agg point.name point.tags
  · next h => exact absurd h hhistogram
  · next h => exact absurd h htimer
  · rfl
  · rfl

private theorem stageDuration_of_not_timer {point : MetricPoint F}
    (h : point.metricType ≠ .timer) (k : MetricKey) : stageDuration k point = none := by
  unfold stageDuration
  split
  · next htype _ => exact absurd htype h
  · rfl

private theorem stageDuration_timer {point : MetricPoint F} {durationNs : Int}
    (htimer : point.metricType = .timer) (hvalue : point.value = .int durationNs)
    (k : MetricKey) : stageDuration k point =
      if key point.name point.tags = k then some durationNs else none := by
  rw [stageDuration, htimer, hvalue]

/-- A timer's point counts its duration in the histogram of its key. -/
theorem tracks_timer (hfl : fl.Lawful) {agg agg' : MetricsAggregator F}
    {points : List (MetricPoint F)} {point : MetricPoint F} {result : Except Error Unit}
    {durationNs : Int} (h : Tracks agg points) (htimer : point.metricType = .timer)
    (hvalue : point.value = .int durationNs)
    (happly : agg.applyPoint fl point = (agg', result)) :
    Tracks agg' (if result.isOk then points ++ [point] else points) := by
  obtain ⟨htracks, hget⟩ := tracks_histogramFor fl h point.name point.tags
  have hbefore := htracks (key point.name point.tags)
  rw [hget] at hbefore
  unfold MetricsAggregator.applyPoint at happly
  simp only [htimer, hvalue, Histogram.observe, MetricValue.toFloat] at happly
  cases hx : fl.ofInt durationNs with
  | none =>
    rw [hx] at happly
    cases happly
    exact htracks
  | some x =>
    rw [hx] at happly
    cases happly
    intro k
    simp only [Except.isOk, Except.toBool, if_true, Dict.get?_set, List.filterMap_append,
      List.filterMap_cons, List.filterMap_nil, stageDuration_timer htimer hvalue]
    by_cases hk : k = key point.name point.tags
    · subst hk
      simp only [if_true]
      refine ⟨hbefore.1, ?_⟩
      rw [hbefore.1, bisectLeft_ofInt hfl hx]
      exact hbefore.2.observe durationNs
    · simpa [if_neg hk, if_neg (Ne.symm hk)] using htracks k

/-- One point of a profiler. -/
theorem tracks_ingestOne (hfl : fl.Lawful) {agg agg' : MetricsAggregator F}
    {points : List (MetricPoint F)} {point : MetricPoint F} {result : Except Error Unit}
    (h : Tracks agg points) (hpoint : FromProfiler point)
    (hingest : agg.ingestOne fl point = (agg', result)) :
    Tracks agg' (if result.isOk then points ++ [point] else points) := by
  unfold MetricsAggregator.ingestOne at hingest
  cases hregister : agg.registerType point with
  | error e =>
    rw [hregister] at hingest
    cases hingest
    exact h
  | ok registered =>
    rw [hregister] at hingest
    change registered.applyPoint fl point = (agg', result) at hingest
    have hregistered : Tracks registered points := by
      intro k
      rw [histograms_registerType hregister]
      exact h k
    by_cases htimer : point.metricType = .timer
    · obtain ⟨durationNs, hvalue⟩ := hpoint.2 htimer
      exact tracks_timer hfl hregistered htimer hvalue hingest
    · have hsame : (registered.applyPoint fl point).1.histograms = registered.histograms :=
        histograms_applyPoint registered htimer hpoint.1
      rw [hingest] at hsame
      cases result with
      | ok _ => exact tracks_of_same hregistered hsame (stageDuration_of_not_timer htimer)
      | error e =>
        intro k
        rw [show agg'.histograms = registered.histograms from hsame]
        exact hregistered k

/-- A batch of a profiler's points. -/
theorem tracks_ingest (hfl : fl.Lawful) {agg : MetricsAggregator F}
    {points batch : List (MetricPoint F)} (h : Tracks agg points)
    (hbatch : ∀ point ∈ batch, FromProfiler point) :
    Tracks (agg.ingest fl batch).1 (points ++ agg.folded fl batch) := by
  induction batch generalizing agg points with
  | nil =>
    rw [MetricsAggregator.folded, List.append_nil]
    exact h
  | cons point batch ih =>
    have hpoint := hbatch point (List.mem_cons_self ..)
    rw [MetricsAggregator.ingest, MetricsAggregator.folded]
    cases hone : agg.ingestOne fl point with
    | mk agg' result =>
      have hnext := tracks_ingestOne hfl h hpoint hone
      cases result with
      | ok _ =>
        have := ih hnext fun p hp ↦ hbatch p (List.mem_cons_of_mem _ hp)
        simpa [Except.isOk, Except.toBool] using this
      | error e => simpa [Except.isOk, Except.toBool] using hnext

/-- Any sequence of completed profiles. -/
theorem tracks_recordAll (hfl : fl.Lawful) {registry : PerformanceRegistry F}
    {points : List (MetricPoint F)} {profiles : List (RequestProfile F)}
    (h : Tracks registry.aggregator points)
    (hprofiles : ∀ profile ∈ profiles, profile.Completed) :
    Tracks (recordAll fl registry profiles).aggregator
      (points ++ recordedPoints fl registry profiles) := by
  induction profiles generalizing registry points with
  | nil =>
    rw [recordedPoints, List.append_nil]
    exact h
  | cons profile profiles ih =>
    rw [recordAll, recordedPoints, ← List.append_assoc]
    apply ih _ fun p hp ↦ hprofiles p (List.mem_cons_of_mem _ hp)
    rw [PerformanceRegistry.aggregator_record]
    exact tracks_ingest hfl h (hprofiles profile (List.mem_cons_self ..)).fromProfiler

/-- What is reported for a bound, once the buckets have counted some durations. -/
theorem get?_cumulativeCounts {histogram : Histogram F} {durations : List Int} {j : Nat}
    {bound : Bound} (hbounds : histogram.bucketBounds = defaultHistogramBucketBoundsMs)
    (hcounted : Counted durationPlace bucketTotal durations histogram.bucketCounts)
    (hbound : defaultHistogramBucketBoundsMs[j]? = some bound) :
    histogram.cumulativeCounts.get? bound.label =
      some (durations.countP (durationPlace · ≤ j)) := by
  have hj : j < defaultHistogramBucketBoundsMs.length :=
    (List.getElem?_eq_some_iff.mp hbound).1
  have hlabels : histogram.labels =
      defaultHistogramBucketBoundsMs.map (·.label) ++ [infLabel] := by
    rw [Histogram.labels, hbounds]
  have hfst : (histogram.labels.zip (runningSums 0 histogram.bucketCounts)).map Prod.fst =
      histogram.labels := by
    apply List.map_fst_zip
    rw [hlabels, length_runningSums, hcounted.1, List.length_append, List.length_map]
    exact Nat.le_refl _
  have hsum := hcounted.getElem?_runningSums (j := j) (Nat.lt_succ_of_lt hj)
  have hlabel : histogram.labels[j]? = some bound.label := by
    rw [hlabels, List.getElem?_append_left (by rw [List.length_map]; exact hj),
      List.getElem?_map, hbound]
    rfl
  apply Dict.mem_entries_iff.mp
  have hnodup : ((histogram.labels.zip (runningSums 0 histogram.bucketCounts)).map
      Prod.fst).Nodup := by
    rw [hfst, hlabels]
    exact labels_nodup
  rw [Histogram.cumulativeCounts, Dict.entries_ofEntries hnodup]
  exact List.mem_iff_getElem?.mpr ⟨j, List.getElem?_zip_eq_some.mpr ⟨hlabel, hsum⟩⟩

/-- A duration that is not above a limit. -/
def within (limit : Rat) (durationNs : Int) : Bool := decide ((durationNs : Rat) ≤ limit)

/-- A cumulative count is the number of recorded durations whose nanoseconds do not exceed the
bound's milliseconds. -/
theorem reportedCount_eq {registry : PerformanceRegistry F} {points : List (MetricPoint F)}
    (h : Tracks registry.aggregator points) (name : MetricName) (tags : Tags) {bound : Bound}
    (hbound : bound ∈ defaultHistogramBucketBoundsMs) :
    reportedCount registry name tags bound.label =
      (points.filterMap (stageDuration (key name tags))).countP (within bound.value) := by
  obtain ⟨j, hj⟩ := List.mem_iff_getElem?.mp hbound
  have hkey := h (key name tags)
  unfold reportedCount
  cases hget : registry.aggregator.histograms.get? (key name tags) with
  | none =>
    rw [hget] at hkey
    rw [hkey]
    rfl
  | some histogram =>
    rw [hget] at hkey
    rw [Option.bind_some, get?_cumulativeCounts hkey.1 hkey.2 hj, Option.getD_some]
    apply List.countP_congr
    intro durationNs _
    rw [within, decide_eq_true_eq, decide_eq_true_eq]
    exact durationPlace_le_iff hj durationNs

/-- `NANOSECONDS_PER_MILLISECOND`. -/
def nanosecondsPerMillisecond : Rat := 1000000

/-- The count reported for a bound is the number of stage durations within that many
milliseconds exactly when no recorded duration has more nanoseconds than the bound has
milliseconds and is still within them. -/
theorem cumulativeCounts_iff (fl : Floats F) (hfl : fl.Lawful) (maxRequestHistory : Nat)
    (profiles : List (RequestProfile F)) (hprofiles : ∀ profile ∈ profiles, profile.Completed)
    (name : MetricName) (tags : Tags) (bound : Bound)
    (hbound : bound ∈ defaultHistogramBucketBoundsMs) :
    reportedCount (recordAll fl (.create maxRequestHistory) profiles) name tags bound.label =
      (recordedDurations fl (.create maxRequestHistory) profiles name tags).countP
        (within (bound.value * nanosecondsPerMillisecond)) ↔
    ∀ durationNs ∈ recordedDurations fl (.create maxRequestHistory) profiles name tags,
      ¬ (bound.value < durationNs ∧
        (durationNs : Rat) ≤ bound.value * nanosecondsPerMillisecond) := by
  have hcreated : Tracks (PerformanceRegistry.create maxRequestHistory :
      PerformanceRegistry F).aggregator [] := tracks_empty
  have htracks := tracks_recordAll hfl hcreated hprofiles
  rw [reportedCount_eq htracks name tags hbound, List.nil_append]
  have hpos := (bound_halves bound hbound).2.1
  have hwider (durationNs : Int) (h : within bound.value durationNs = true) :
      within (bound.value * nanosecondsPerMillisecond) durationNs = true := by
    rw [within, decide_eq_true_eq] at h ⊢
    rw [nanosecondsPerMillisecond]
    linarith
  rw [recordedDurations, countP_eq_countP_iff hwider]
  simp only [within, decide_eq_true_eq, not_and, not_le]
  constructor
  · intro h durationNs hmem hlt
    by_contra hle
    exact absurd (h durationNs hmem (not_lt.mp hle)) (not_le.mpr hlt)
  · intro h durationNs hmem hle
    by_contra hlt
    exact absurd (h durationNs hmem (not_le.mp hlt)) (not_lt.mpr hle)

/-- The `_bucket` lines of the Prometheus text report the same counts. -/
theorem bucketLine_mem (fl : Floats F) (hfl : fl.Lawful) (ft : FloatText F)
    (maxRequestHistory : Nat) (profiles : List (RequestProfile F))
    (hprofiles : ∀ profile ∈ profiles, profile.Completed) (name : MetricName) (tags : Tags)
    (bound : Bound) (hbound : bound ∈ defaultHistogramBucketBoundsMs) {histogram : Histogram F}
    (hget : (recordAll fl (.create maxRequestHistory) profiles).aggregator.histograms.get?
      (key name tags) = some histogram) :
    PrometheusExporter.sampleLine (histogram.name ++ "_bucket".toList)
        (histogram.tags.set leLabel bound.label) (PrometheusExporter.formatNat
          (reportedCount (recordAll fl (.create maxRequestHistory) profiles) name tags
            bound.label)) ∈
      (PrometheusExporter.output ft
        (recordAll fl (.create maxRequestHistory) profiles)).lines := by
  have hcreated : Tracks (PerformanceRegistry.create maxRequestHistory :
      PerformanceRegistry F).aggregator [] := tracks_empty
  have hkey := tracks_recordAll hfl hcreated hprofiles (key name tags)
  rw [hget] at hkey
  obtain ⟨j, hj⟩ := List.mem_iff_getElem?.mp hbound
  have hcount := get?_cumulativeCounts hkey.1 hkey.2 hj
  have hmem : histogram ∈
      (recordAll fl (.create maxRequestHistory) profiles).aggregator.histograms.values :=
    List.mem_map_of_mem (Dict.mem_entries_iff.mpr hget)
  refine PrometheusExporter.mem_output_of_histogram ft hmem (List.mem_append_left _ ?_)
  rw [reportedCount, hget, Option.bind_some, hcount, Option.getD_some]
  exact List.mem_map_of_mem (Dict.mem_entries_iff.mpr hcount)

/-- One request with a statement of the given length in nanoseconds. -/
def profiledStatement (durationNs : Int) : Except Error (RequestProfile Rat) := do
  let profiler ← RequestProfiler.create "a".toList .empty 0 0
  let (profiler, _) ← profiler.startStage .sqlExecute "sql_execute".toList .empty 0
  let profiler ← profiler.finishStage durationNs durationNs
  (profiler.complete "ok".toList none (fun _ ↦ durationNs) durationNs).2

private theorem of_bind_ok {α β : Type} {x : Except Error α} {f : α → Except Error β} {b : β}
    (h : (x >>= f) = .ok b) : ∃ a, x = .ok a ∧ f a = .ok b := by
  cases x with
  | error e => cases h
  | ok a => exact ⟨a, rfl, h⟩

private theorem completed_profiledStatement {durationNs : Int} {profile : RequestProfile Rat}
    (h : profiledStatement durationNs = .ok profile) : profile.Completed := by
  obtain ⟨created, hcreate, h⟩ := of_bind_ok h
  obtain ⟨⟨started, node⟩, hstart, h⟩ := of_bind_ok h
  obtain ⟨finished, hfinish, h⟩ := of_bind_ok h
  exact ⟨finished, _, _, _, _, _, .finishStage (.startStage (.create hcreate) hstart) hfinish,
    Prod.ext rfl h⟩

private def tenMilliseconds : Bound := ⟨10, "10".toList⟩

private def reportedAndTrue (profile : RequestProfile Rat) : Nat × Nat :=
  (reportedCount (recordAll Floats.exact (.create 1) [profile]) "sql_execute".toList .empty
      tenMilliseconds.label,
    (recordedDurations Floats.exact (.create 1) [profile] "sql_execute".toList .empty).countP
      (within (tenMilliseconds.value * nanosecondsPerMillisecond)))

/-- A statement that takes 5 ms is not among those within 10 ms. -/
theorem fiveMilliseconds_notCounted :
    ∃ profile : RequestProfile Rat, profile.Completed ∧
      reportedCount (recordAll Floats.exact (.create 1) [profile]) "sql_execute".toList .empty
        tenMilliseconds.label ≠
      (recordedDurations Floats.exact (.create 1) [profile] "sql_execute".toList .empty).countP
        (within (tenMilliseconds.value * nanosecondsPerMillisecond)) := by
  have hrun : (profiledStatement 5000000).toOption.map reportedAndTrue = some (0, 1) := by
    decide +kernel
  cases hprofile : profiledStatement 5000000 with
  | error e =>
    rw [hprofile] at hrun
    cases hrun
  | ok profile =>
    rw [hprofile] at hrun
    have hpair : reportedAndTrue profile = (0, 1) := Option.some.inj hrun
    obtain ⟨hreported, htrue⟩ := Prod.mk.inj hpair
    refine ⟨profile, completed_profiledStatement hprofile, ?_⟩
    rw [hreported, htrue]
    decide

/-- A statement that takes 20 ms is rightly not among those within 10 ms. -/
theorem cumulativeCounts_iff_twentyMilliseconds :
    ∃ profile : RequestProfile Rat, profile.Completed ∧
      reportedCount (recordAll Floats.exact (.create 1) [profile]) "sql_execute".toList .empty
        tenMilliseconds.label =
      (recordedDurations Floats.exact (.create 1) [profile] "sql_execute".toList .empty).countP
        (within (tenMilliseconds.value * nanosecondsPerMillisecond)) := by
  have hrun : (profiledStatement 20000000).toOption.map (fun profile ↦
      (recordedDurations Floats.exact (.create 1) [profile] "sql_execute".toList .empty)) =
      some [20000000] := by
    decide +kernel
  cases hprofile : profiledStatement 20000000 with
  | error e =>
    rw [hprofile] at hrun
    cases hrun
  | ok profile =>
    rw [hprofile] at hrun
    have hdurations : recordedDurations Floats.exact (.create 1) [profile]
        "sql_execute".toList .empty = [20000000] := Option.some.inj hrun
    have hcompleted := completed_profiledStatement hprofile
    refine ⟨profile, hcompleted, ?_⟩
    apply (cumulativeCounts_iff Floats.exact Floats.lawful_exact 1 [profile] (by simpa) _ .empty
      tenMilliseconds (by decide +kernel)).mpr
    intro durationNs hmem
    rw [hdurations, List.mem_singleton] at hmem
    subst hmem
    rw [nanosecondsPerMillisecond, tenMilliseconds]
    norm_num

end SalesData.Performance

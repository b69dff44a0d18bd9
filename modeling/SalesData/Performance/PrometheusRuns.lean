import SalesData.Base.System
import SalesData.Performance.PrometheusText

/-!
# Which points can be exported

The points that give a registry a new series decide whether `render` can write it: in every run
in which they suit the series before them, every state is written faithfully.
-/

namespace SalesData.Performance

open Base Base.Exposition

/-- The type under which the aggregate of a point is exported (`aggregator.py:57–62`,
`prometheus_exporter.py:37–47`). -/
def MetricType.exportedAs : MetricType → Option FamilyType
  | .counter => some .counter
  | .gauge => some .gauge
  | .histogram | .timer => some .histogram
  | .event | .trace => none

/-- A valid metric name and valid label names. -/
def MetricPoint.Valid {F : Type} (point : MetricPoint F) : Prop :=
  isName point.name = true ∧ ∀ label ∈ point.tags.keys, isLabelName label = true

namespace MetricsAggregator

variable {F : Type} {fl : Floats F}

/-- The keys of the aggregates that are exported with a type. -/
def seriesKeys (agg : MetricsAggregator F) : FamilyType → List MetricKey
  | .counter => agg.counters.keys
  | .gauge => agg.gauges.keys
  | .histogram => agg.histograms.keys
  | .summary | .untyped => []

/-- The point's type is accepted and its name and tags are new to the aggregates of that type. -/
def Creates (agg : MetricsAggregator F) (point : MetricPoint F) (type : FamilyType) : Prop :=
  (∀ existing ∈ agg.metricTypes.get? point.name, existing = point.metricType) ∧
    key point.name point.tags ∉ agg.seriesKeys type

/-- The types that `render` writes. -/
def exportedTypes : List FamilyType := [.counter, .gauge, .histogram]

/-- A point that creates a series: label values need no escape, a histogram has no `le` tag, the
name is new or that of the last series of the type, and it cannot be taken for a sample's name
in another family. -/
def Suits (agg : MetricsAggregator F) (point : MetricPoint F) : Prop :=
  ∀ type ∈ point.metricType.exportedAs, Creates agg point type →
    (∀ value ∈ point.tags.values, value.all isPlain = true) ∧
    (type = .histogram → leLabel ∉ point.tags.keys) ∧
    (point.name ∈ (agg.series type).map Prod.fst →
      ((agg.series type).map Prod.fst).getLast? = some point.name) ∧
    ∀ type' ∈ exportedTypes, ∀ s ∈ agg.series type', s.1 ≠ point.name →
      Family.apart ⟨s.1, type', []⟩ ⟨point.name, type, []⟩ = true

/-- The exported series, and the table of types as far as it binds their names. -/
structure Written (agg : MetricsAggregator F) : Prop where
  exportable : agg.Exportable
  typed : ∀ type, ∀ s ∈ agg.series type, ∃ metricType,
    agg.metricTypes.get? s.1 = some metricType ∧ metricType.exportedAs = some type

/-! ## What one point does to the series -/

-- The entry of a key is there, or a fresh one is added.
private def Fetched {V : Type} (d d₁ : Dict MetricKey V) (k : MetricKey) (v fresh : V) : Prop :=
  d.get? k = some v ∧ d₁ = d ∨ d.get? k = none ∧ v = fresh ∧ d₁ = d.set k fresh

private theorem upsert {V W : Type} {d d₁ d₂ : Dict MetricKey V} {k : MetricKey} {v fresh : V}
    (f : V → W) (hfetch : Fetched d d₁ k v fresh)
    (hupdate : d₂ = d₁ ∨ ∃ v', f v' = f v ∧ d₂ = d₁.set k v') :
    d₂.values.map f = d.values.map f ∨
      k ∉ d.keys ∧ d₂.values.map f = d.values.map f ++ [f fresh] := by
  have hsame : d₂.values.map f = d₁.values.map f := by
    rcases hupdate with rfl | ⟨v', hf, rfl⟩
    · rfl
    · apply Dict.map_values_set _ hf
      rcases hfetch with ⟨hget, rfl⟩ | ⟨-, rfl, rfl⟩
      · exact hget
      · simp [Dict.get?_set]
  rw [hsame]
  rcases hfetch with ⟨-, rfl⟩ | ⟨hnone, -, rfl⟩
  · exact .inl rfl
  · have hnew := Dict.get?_eq_none_iff.mp hnone
    rw [Dict.values_set_new hnew, List.map_append, List.map_singleton]
    exact .inr ⟨hnew, rfl⟩

/-- What a point that is applied may do to the series: nothing, or one new series of its type. -/
structure Applied (agg agg' : MetricsAggregator F) (point : MetricPoint F) : Prop where
  types : agg'.metricTypes = agg.metricTypes
  series : (∀ type, agg'.series type = agg.series type) ∨
    ∃ type, point.metricType.exportedAs = some type ∧
      key point.name point.tags ∉ agg.seriesKeys type ∧
      agg'.series type = agg.series type ++ [(point.name, point.tags)] ∧
      ∀ type', type' ≠ type → agg'.series type' = agg.series type'
  bounds : ∀ bounds ∈ agg'.histograms.values.map (·.bucketBounds),
    bounds ∈ agg.histograms.values.map (·.bucketBounds) ∨ bounds = defaultHistogramBucketBoundsMs

variable {agg agg' : MetricsAggregator F} {point : MetricPoint F}

private theorem applied_of (type : FamilyType)
    (hexported : point.metricType.exportedAs = some type)
    (htypes : agg'.metricTypes = agg.metricTypes)
    (hothers : ∀ type', type' ≠ type → agg'.series type' = agg.series type')
    (hseries : agg'.series type = agg.series type ∨
      key point.name point.tags ∉ agg.seriesKeys type ∧
        agg'.series type = agg.series type ++ [(point.name, point.tags)])
    (hbounds : ∀ bounds ∈ agg'.histograms.values.map (·.bucketBounds),
      bounds ∈ agg.histograms.values.map (·.bucketBounds) ∨
        bounds = defaultHistogramBucketBoundsMs) : Applied agg agg' point := by
  refine ⟨htypes, ?_, hbounds⟩
  rcases hseries with hsame | ⟨hnew, hgrown⟩
  · left
    intro type'
    by_cases hne : type' = type
    · rw [hne]
      exact hsame
    · exact hothers type' hne
  · exact .inr ⟨type, hexported, hnew, hgrown, hothers⟩

/-- An increment keeps what a series is. -/
theorem increment_keeps {counter counter' : Counter F} {value : MetricValue F}
    (h : counter.increment fl value = .ok counter') :
    counter'.name = counter.name ∧ counter'.tags = counter.tags := by
  unfold Counter.increment at h
  split at h
  · cases h
  · split at h
    · cases h
    · cases h
      exact ⟨rfl, rfl⟩

/-- A new value keeps what a series is. -/
theorem set_keeps {gauge gauge' : Gauge F} {value : MetricValue F}
    (h : gauge.set fl value = .ok gauge') :
    gauge'.name = gauge.name ∧ gauge'.tags = gauge.tags := by
  unfold Gauge.set at h
  split at h
  · cases h
  · cases h
    exact ⟨rfl, rfl⟩

/-- An observation keeps what a series is. -/
theorem observe_keeps {histogram histogram' : Histogram F} {value : MetricValue F}
    (h : histogram.observe fl value = .ok histogram') :
    histogram'.name = histogram.name ∧ histogram'.tags = histogram.tags ∧
      histogram'.bucketBounds = histogram.bucketBounds := by
  unfold Histogram.observe at h
  split at h
  · cases h
  · cases h
    exact ⟨rfl, rfl, rfl⟩

private theorem fetched_counter (fl : Floats F) (agg : MetricsAggregator F) (name : Text)
    (tags : Tags) :
    ∃ counters, (agg.counterFor fl name tags).2 = { agg with counters } ∧
      Fetched agg.counters counters (key name tags) (agg.counterFor fl name tags).1
        ⟨name, tags, fl.zero⟩ := by
  unfold counterFor
  split
  · next hget => exact ⟨agg.counters, rfl, .inl ⟨hget, rfl⟩⟩
  · next hget => exact ⟨_, rfl, .inr ⟨hget, rfl, rfl⟩⟩

private theorem fetched_gauge (fl : Floats F) (agg : MetricsAggregator F) (name : Text)
    (tags : Tags) :
    ∃ gauges, (agg.gaugeFor fl name tags).2 = { agg with gauges } ∧
      Fetched agg.gauges gauges (key name tags) (agg.gaugeFor fl name tags).1
        ⟨name, tags, fl.zero⟩ := by
  unfold gaugeFor
  split
  · next hget => exact ⟨agg.gauges, rfl, .inl ⟨hget, rfl⟩⟩
  · next hget => exact ⟨_, rfl, .inr ⟨hget, rfl, rfl⟩⟩

private theorem fetched_histogram (fl : Floats F) (agg : MetricsAggregator F) (name : Text)
    (tags : Tags) :
    ∃ histograms, (agg.histogramFor fl name tags).2 = { agg with histograms } ∧
      Fetched agg.histograms histograms (key name tags) (agg.histogramFor fl name tags).1
        (.create fl name tags) := by
  unfold histogramFor
  split
  · next hget => exact ⟨agg.histograms, rfl, .inl ⟨hget, rfl⟩⟩
  · next hget => exact ⟨_, rfl, .inr ⟨hget, rfl, rfl⟩⟩

private theorem applied_counter (htype : point.metricType = .counter) :
    Applied agg (agg.applyPoint fl point).1 point := by
  obtain ⟨counters, hagg, hfetch⟩ := fetched_counter fl agg point.name point.tags
  have hupdate : ∃ counters', (agg.applyPoint fl point).1 = { agg with counters := counters' } ∧
      (counters' = counters ∨ ∃ counter',
        (counter'.name, counter'.tags) = ((agg.counterFor fl point.name point.tags).1.name,
          (agg.counterFor fl point.name point.tags).1.tags) ∧
        counters' = counters.set (key point.name point.tags) counter') := by
    simp only [applyPoint, htype, hagg]
    split
    · next counter' hincrement =>
      obtain ⟨hname, htags⟩ := increment_keeps hincrement
      exact ⟨_, rfl, .inr ⟨counter', by rw [hname, htags], rfl⟩⟩
    · exact ⟨counters, rfl, .inl rfl⟩
  obtain ⟨counters', happly, hupdate⟩ := hupdate
  rw [happly]
  apply applied_of .counter
  · rw [htype]
    rfl
  · rfl
  · intro type' hne
    cases type' with
    | counter => exact absurd rfl hne
    | gauge => rfl
    | histogram => rfl
    | summary => rfl
    | untyped => rfl
  · exact upsert (fun counter : Counter F ↦ (counter.name, counter.tags)) hfetch hupdate
  · exact fun bounds hbounds ↦ .inl hbounds

private theorem applied_gauge (htype : point.metricType = .gauge) :
    Applied agg (agg.applyPoint fl point).1 point := by
  obtain ⟨gauges, hagg, hfetch⟩ := fetched_gauge fl agg point.name point.tags
  have hupdate : ∃ gauges', (agg.applyPoint fl point).1 = { agg with gauges := gauges' } ∧
      (gauges' = gauges ∨ ∃ gauge',
        (gauge'.name, gauge'.tags) = ((agg.gaugeFor fl point.name point.tags).1.name,
          (agg.gaugeFor fl point.name point.tags).1.tags) ∧
        gauges' = gauges.set (key point.name point.tags) gauge') := by
    simp only [applyPoint, htype, hagg]
    split
    · next gauge' hset =>
      obtain ⟨hname, htags⟩ := set_keeps hset
      exact ⟨_, rfl, .inr ⟨gauge', by rw [hname, htags], rfl⟩⟩
    · exact ⟨gauges, rfl, .inl rfl⟩
  obtain ⟨gauges', happly, hupdate⟩ := hupdate
  rw [happly]
  apply applied_of .gauge
  · rw [htype]
    rfl
  · rfl
  · intro type' hne
    cases type' with
    | counter => rfl
    | gauge => exact absurd rfl hne
    | histogram => rfl
    | summary => rfl
    | untyped => rfl
  · exact upsert (fun gauge : Gauge F ↦ (gauge.name, gauge.tags)) hfetch hupdate
  · exact fun bounds hbounds ↦ .inl hbounds

private theorem applied_histogram
    (htype : point.metricType = .histogram ∨ point.metricType = .timer) :
    Applied agg (agg.applyPoint fl point).1 point := by
  obtain ⟨histograms, hagg, hfetch⟩ := fetched_histogram fl agg point.name point.tags
  have hupdate : ∃ histograms',
      (agg.applyPoint fl point).1 = { agg with histograms := histograms' } ∧
      (histograms' = histograms ∨ ∃ histogram',
        (agg.histogramFor fl point.name point.tags).1.observe fl point.value = .ok histogram' ∧
        histograms' = histograms.set (key point.name point.tags) histogram') := by
    rcases htype with htype | htype
    · simp only [applyPoint, htype, hagg]
      split
      · next histogram' hobserve => exact ⟨_, rfl, .inr ⟨histogram', hobserve, rfl⟩⟩
      · exact ⟨histograms, rfl, .inl rfl⟩
    · simp only [applyPoint, htype, hagg]
      split
      · next histogram' hobserve => exact ⟨_, rfl, .inr ⟨histogram', hobserve, rfl⟩⟩
      · exact ⟨histograms, rfl, .inl rfl⟩
  obtain ⟨histograms', happly, hupdate⟩ := hupdate
  have hkeeps : ∀ {W : Type} (f : Histogram F → W),
      (∀ histogram histogram' : Histogram F, histogram'.name = histogram.name ∧
        histogram'.tags = histogram.tags ∧ histogram'.bucketBounds = histogram.bucketBounds →
        f histogram' = f histogram) →
      histograms' = histograms ∨ ∃ histogram',
        f histogram' = f (agg.histogramFor fl point.name point.tags).1 ∧
        histograms' = histograms.set (key point.name point.tags) histogram' := by
    intro W f hf
    rcases hupdate with hsame | ⟨histogram', hobserve, hset⟩
    · exact .inl hsame
    · exact .inr ⟨histogram', hf _ _ (observe_keeps hobserve), hset⟩
  rw [happly]
  apply applied_of .histogram
  · rcases htype with htype | htype <;> rw [htype] <;> rfl
  · rfl
  · intro type' hne
    cases type' with
    | counter => rfl
    | gauge => rfl
    | histogram => exact absurd rfl hne
    | summary => rfl
    | untyped => rfl
  · apply upsert (fun histogram : Histogram F ↦ (histogram.name, histogram.tags)) hfetch
    exact hkeeps _ fun _ _ h ↦ by rw [h.1, h.2.1]
  · intro bounds hbounds
    rcases upsert (fun histogram : Histogram F ↦ histogram.bucketBounds) hfetch
      (hkeeps _ fun _ _ h ↦ h.2.2) with hsame | ⟨-, hgrown⟩
    · left
      rw [← hsame]
      exact hbounds
    · rw [hgrown] at hbounds
      rcases List.mem_append.mp hbounds with hbounds | hbounds
      · exact .inl hbounds
      · exact .inr (List.mem_singleton.mp hbounds)

/-- One point, applied to the aggregates. -/
theorem applied_applyPoint (fl : Floats F) (agg : MetricsAggregator F) (point : MetricPoint F) :
    Applied agg (agg.applyPoint fl point).1 point := by
  cases htype : point.metricType with
  | counter => exact applied_counter htype
  | gauge => exact applied_gauge htype
  | histogram => exact applied_histogram (.inl htype)
  | timer => exact applied_histogram (.inr htype)
  | event =>
    have hsame : (agg.applyPoint fl point).1 = agg := by rw [applyPoint, htype]
    rw [hsame]
    exact ⟨rfl, .inl fun _ ↦ rfl, fun _ h ↦ .inl h⟩
  | trace =>
    have hsame : (agg.applyPoint fl point).1 = agg := by rw [applyPoint, htype]
    rw [hsame]
    exact ⟨rfl, .inl fun _ ↦ rfl, fun _ h ↦ .inl h⟩

/-! ## Runs -/

/-- A point whose type is accepted registers it, and changes nothing else. -/
theorem registerType_spec (h : agg.registerType point = .ok agg') :
    (∃ metricTypes, agg' = { agg with metricTypes }) ∧
      agg'.metricTypes.get? point.name = some point.metricType ∧
      (∀ name metricType, agg.metricTypes.get? name = some metricType →
        agg'.metricTypes.get? name = some metricType) ∧
      ∀ existing, agg.metricTypes.get? point.name = some existing →
        existing = point.metricType := by
  unfold registerType at h
  split at h
  · next hnone =>
    cases h
    refine ⟨⟨_, rfl⟩, by simp [Dict.get?_set], ?_, ?_⟩
    · intro name metricType hget
      have hne : name ≠ point.name := by
        rintro rfl
        rw [hnone] at hget
        cases hget
      show (agg.metricTypes.set point.name point.metricType).get? name = some metricType
      rw [Dict.get?_set, if_neg hne]
      exact hget
    · intro existing hget
      rw [hnone] at hget
      cases hget
  · next existing hexisting =>
    unfold ensureSameType at h
    by_cases hsame : existing = point.metricType
    · rw [if_pos hsame] at h
      cases h
      refine ⟨⟨_, rfl⟩, hsame ▸ hexisting, fun _ _ hget ↦ hget, ?_⟩
      intro other hget
      rw [hexisting] at hget
      rw [← Option.some.inj hget]
      exact hsame
    · rw [if_neg hsame] at h
      cases h

private theorem apart_comm (f g : Family) : f.apart g = g.apart f := by
  unfold Family.apart
  rw [Bool.and_right_comm, bne_comm]

private theorem Apart.symm {type type' : FamilyType} {name name' : MetricName}
    (h : Apart type type' name name') : Apart type' type name' name := by
  rcases h with ⟨hname, htype⟩ | hapart
  · exact .inl ⟨hname.symm, htype.symm⟩
  · right
    rw [apart_comm]
    exact hapart

private theorem exportedTypes_of_mem {type : FamilyType} {s : MetricName × Tags}
    (h : s ∈ agg.series type) : type ∈ exportedTypes := by
  cases type with
  | counter => decide
  | gauge => decide
  | histogram => decide
  | summary => cases h
  | untyped => cases h

/-- A new series that suits those before it can be exported with them. -/
theorem exportable_of_new {type : FamilyType} (h : Written agg) (hvalid : point.Valid)
    (hsuits : Suits agg point) (hexported : point.metricType.exportedAs = some type)
    (hcreates : Creates agg point type)
    (hgrown : agg'.series type = agg.series type ++ [(point.name, point.tags)])
    (hothers : ∀ type', type' ≠ type → agg'.series type' = agg.series type')
    (hbounds : ∀ histogram ∈ agg'.histograms.values,
      histogram.bucketBounds = defaultHistogramBucketBoundsMs) : agg'.Exportable := by
  obtain ⟨hplain, hle, hplaced, happart⟩ := hsuits type hexported hcreates
  have hmem : ∀ type', ∀ s ∈ agg'.series type', s ∈ agg.series type' ∨
      type' = type ∧ s = (point.name, point.tags) := by
    intro type' s hs
    by_cases hne : type' = type
    · rw [hne, hgrown] at hs
      rcases List.mem_append.mp hs with hs | hs
      · rw [hne]
        exact .inl hs
      · exact .inr ⟨hne, List.mem_singleton.mp hs⟩
    · rw [hothers type' hne] at hs
      exact .inl hs
  -- a series of the same name has been registered with the type of the point
  have hnew : ∀ type', ∀ s ∈ agg.series type', Apart type' type s.1 point.name := by
    intro type' s hs
    by_cases hname : s.1 = point.name
    · left
      refine ⟨hname, ?_⟩
      obtain ⟨metricType, hget, hold⟩ := h.typed type' s hs
      rw [hname] at hget
      rw [hcreates.1 metricType hget, hexported] at hold
      exact (Option.some.inj hold).symm
    · exact .inr (happart type' (exportedTypes_of_mem hs) s hs hname)
  refine ⟨?_, ?_, hbounds, ?_, ?_⟩
  · intro type' s hs
    rcases hmem type' s hs with hs | ⟨-, rfl⟩
    · exact h.exportable.named type' s hs
    · refine ⟨hvalid.1, ?_⟩
      intro item hitem
      exact ⟨hvalid.2 item.1 (List.mem_map_of_mem hitem),
        hplain item.2 (List.mem_map_of_mem hitem)⟩
  · intro s hs
    rcases hmem .histogram s hs with hs | ⟨htype, rfl⟩
    · exact h.exportable.unbounded s hs
    · exact hle htype.symm
  · intro type'
    by_cases hne : type' = type
    · rw [hne, hgrown, List.map_append, List.map_singleton, grouped_concat]
      exact ⟨h.exportable.grouped type, hplaced⟩
    · rw [hothers type' hne]
      exact h.exportable.grouped type'
  · intro type₁ type₂ s hs s' hs'
    rcases hmem type₁ s hs with hs | ⟨rfl, rfl⟩
    · rcases hmem type₂ s' hs' with hs' | ⟨rfl, rfl⟩
      · exact h.exportable.apart type₁ type₂ s hs s' hs'
      · exact hnew type₁ s hs
    · rcases hmem type₂ s' hs' with hs' | ⟨rfl, rfl⟩
      · exact (hnew type₂ s' hs').symm
      · exact .inl ⟨rfl, rfl⟩

private theorem written_of_same (h : Written agg)
    (hseries : ∀ type, agg'.series type = agg.series type)
    (htypes : ∀ name metricType, agg.metricTypes.get? name = some metricType →
      agg'.metricTypes.get? name = some metricType)
    (hbounds : ∀ histogram ∈ agg'.histograms.values,
      histogram.bucketBounds = defaultHistogramBucketBoundsMs) : Written agg' where
  exportable :=
    { named := fun type s hs ↦ h.exportable.named type s (hseries type ▸ hs)
      unbounded := fun s hs ↦ h.exportable.unbounded s (hseries .histogram ▸ hs)
      bounds := hbounds
      grouped := fun type ↦ by
        rw [hseries type]
        exact h.exportable.grouped type
      apart := fun type type' s hs s' hs' ↦
        h.exportable.apart type type' s (hseries type ▸ hs) s' (hseries type' ▸ hs') }
  typed type s hs := by
    obtain ⟨metricType, hget, hexported⟩ := h.typed type s (hseries type ▸ hs)
    exact ⟨metricType, htypes s.1 metricType hget, hexported⟩

/-- A valid point that suits the series before it. -/
theorem written_ingestOne (fl : Floats F) (h : Written agg) (hvalid : point.Valid)
    (hsuits : Suits agg point) :
    Written (agg.ingestOne fl point).1 := by
  unfold ingestOne
  cases hregister : agg.registerType point with
  | error e => exact h
  | ok registered =>
    obtain ⟨⟨metricTypes, hregistered⟩, hpoint, hkept, haccepted⟩ := registerType_spec hregister
    have hseries : ∀ type, registered.series type = agg.series type := by
      intro type
      rw [hregistered]
      cases type <;> rfl
    have hkeys : ∀ type, registered.seriesKeys type = agg.seriesKeys type := by
      intro type
      rw [hregistered]
      cases type <;> rfl
    have happlied := applied_applyPoint fl registered point
    show Written (registered.applyPoint fl point).1
    generalize (registered.applyPoint fl point).1 = after at happlied
    have hbounds : ∀ histogram ∈ after.histograms.values,
        histogram.bucketBounds = defaultHistogramBucketBoundsMs := by
      intro histogram hhistogram
      rcases happlied.bounds _ (List.mem_map_of_mem hhistogram) with hold | hdefault
      · obtain ⟨old, hmem, heq⟩ := List.mem_map.mp hold
        rw [hregistered] at hmem
        rw [← heq]
        exact h.exportable.bounds old hmem
      · exact hdefault
    rcases happlied.series with hsame | ⟨type, hexported, hnew, hgrown, hothers⟩
    · apply written_of_same h _ _ hbounds
      · intro type
        rw [hsame type, hseries type]
      · intro name metricType hget
        rw [happlied.types]
        exact hkept name metricType hget
    · rw [hkeys type] at hnew
      rw [hseries type] at hgrown
      have hcreates : Creates agg point type := ⟨haccepted, hnew⟩
      have hothers' : ∀ type', type' ≠ type → after.series type' = agg.series type' := by
        intro type' hne
        rw [hothers type' hne, hseries type']
      refine ⟨exportable_of_new h hvalid hsuits hexported hcreates hgrown hothers' hbounds, ?_⟩
      intro type' s hs
      rw [happlied.types]
      by_cases hne : type' = type
      · rw [hne, hgrown] at hs
        rw [hne]
        rcases List.mem_append.mp hs with hs | hs
        · obtain ⟨metricType, hget, htype⟩ := h.typed type s hs
          exact ⟨metricType, hkept s.1 metricType hget, htype⟩
        · rw [List.mem_singleton.mp hs]
          exact ⟨point.metricType, hpoint, hexported⟩
      · rw [hothers' type' hne] at hs
        obtain ⟨metricType, hget, htype⟩ := h.typed type' s hs
        exact ⟨metricType, hkept s.1 metricType hget, htype⟩

/-- Every point that a batch comes to meets a condition on it and the state before it. -/
def Meets (fl : Floats F) (P : MetricsAggregator F → MetricPoint F → Prop) :
    MetricsAggregator F → List (MetricPoint F) → Prop
  | _, [] => True
  | agg, point :: points => P agg point ∧
      match agg.ingestOne fl point with
      | (agg, .ok ()) => Meets fl P agg points
      | (_, .error _) => True

/-- A batch whose points are valid and suit. -/
theorem written_ingest {points : List (MetricPoint F)} (h : Written agg)
    (hmeets : Meets fl (fun agg point ↦ point.Valid ∧ Suits agg point) agg points) :
    Written (agg.ingest fl points).1 := by
  induction points generalizing agg with
  | nil => exact h
  | cons point points ih =>
    rw [Meets] at hmeets
    have hone := written_ingestOne fl h hmeets.1.1 hmeets.1.2
    have hrest := hmeets.2
    rw [ingest]
    generalize agg.ingestOne fl point = result at hone hrest
    obtain ⟨after, outcome⟩ := result
    cases outcome with
    | ok _ => exact ih hone hrest
    | error e => exact hone

/-- Without aggregates there is nothing to write. -/
theorem written_empty : Written (.empty : MetricsAggregator F) := by
  have hnone : ∀ type, (MetricsAggregator.empty : MetricsAggregator F).series type = [] := by
    intro type
    cases type <;> rfl
  refine ⟨⟨?_, ?_, ?_, ?_, ?_⟩, ?_⟩
  · intro type s hs
    rw [hnone] at hs
    cases hs
  · intro s hs
    rw [hnone] at hs
    cases hs
  · intro histogram hmem
    cases hmem
  · intro type
    rw [hnone]
    exact grouped_nil
  · intro type _ s hs
    rw [hnone] at hs
    cases hs
  · intro type s hs
    rw [hnone] at hs
    cases hs

end MetricsAggregator

open MetricsAggregator

/-- What a registry is given: a completed request, points of its aggregator, or a reset. -/
inductive Feed (F : Type)
  | record (profile : RequestProfile F)
  | ingest (points : List (MetricPoint F))
  | reset

/-- The points that are ingested. -/
def Feed.points {F : Type} : Feed F → List (MetricPoint F)
  | .record profile => profile.metricPoints
  | .ingest points => points
  | .reset => []

variable {F : Type}

/-- A registry and what it is given. -/
def feeding (fl : Floats F) (maxRequestHistory : Nat) :
    System (PerformanceRegistry F) (Feed F) where
  init := .create maxRequestHistory
  step registry feed := some <| match feed with
    | .record profile => (registry.recordCompletedRequest fl profile).1
    | .ingest points => { registry with aggregator := (registry.aggregator.ingest fl points).1 }
    | .reset => registry.reset

/-- The points that are given to a registry meet a condition. -/
def Fed (fl : Floats F) (P : MetricsAggregator F → MetricPoint F → Prop)
    (registry : PerformanceRegistry F) (feed : Feed F) : Prop :=
  Meets fl P registry.aggregator feed.points

/-- The aggregates of a run whose points are valid and suit. -/
theorem written_of_fed {fl : Floats F} {maxRequestHistory : Nat}
    {registry : PerformanceRegistry F}
    (h : (feeding fl maxRequestHistory).Reach
      (Fed fl fun agg point ↦ point.Valid ∧ Suits agg point) registry) :
    Written registry.aggregator := by
  refine h.invariant (P := fun registry ↦ Written registry.aggregator) written_empty ?_
  intro registry feed registry' hwritten hfed hstep
  cases feed with
  | record profile =>
    cases hstep
    rw [PerformanceRegistry.aggregator_record]
    exact written_ingest hwritten hfed
  | ingest points =>
    cases hstep
    exact written_ingest hwritten hfed
  | reset =>
    cases hstep
    exact written_empty

/-- In every run whose points have valid names and suit the series before them, every registry
is written faithfully. -/
theorem render_faithful (fl : Floats F) (ft : FloatText F) (hft : ft.Lawful)
    (maxRequestHistory : Nat) (registry : PerformanceRegistry F)
    (h : (feeding fl maxRequestHistory).Reach
      (Fed fl fun agg point ↦ point.Valid ∧ Suits agg point) registry) :
    PrometheusExporter.Faithful ft registry :=
  PrometheusExporter.faithful_of_exportable hft (written_of_fed h).exportable

/-! ## Runs on fixed points -/

instance (point : MetricPoint F) : Decidable point.Valid := inferInstanceAs (Decidable (_ ∧ _))

instance (agg : MetricsAggregator F) (point : MetricPoint F) (type : FamilyType) :
    Decidable (Creates agg point type) := inferInstanceAs (Decidable (_ ∧ _))

instance (agg : MetricsAggregator F) (point : MetricPoint F) : Decidable (Suits agg point) := by
  unfold Suits
  infer_instance

instance decidableMeets (fl : Floats F) (P : MetricsAggregator F → MetricPoint F → Prop)
    [∀ agg point, Decidable (P agg point)] :
    ∀ agg points, Decidable (Meets fl P agg points)
  | _, [] => inferInstanceAs (Decidable True)
  | agg, point :: points =>
    match h : agg.ingestOne fl point with
    | (after, .ok ()) =>
      have := decidableMeets fl P after points
      decidable_of_iff (P agg point ∧ Meets fl P after points) (by rw [Meets, h])
    | (after, .error e) => decidable_of_iff (P agg point ∧ True) (by rw [Meets, h])

instance (fl : Floats F) (P : MetricsAggregator F → MetricPoint F → Prop)
    [∀ agg point, Decidable (P agg point)] (registry : PerformanceRegistry F) (feed : Feed F) :
    Decidable (Fed fl P registry feed) :=
  inferInstanceAs (Decidable (Meets fl P registry.aggregator feed.points))

/-- The floats that are whole numbers. -/
def wholeFloats : Floats Nat where
  zero := 0
  add := (· + ·)
  lt x y := decide (x < y)
  exceeds x q := decide (q < x)
  ofInt n := some n.toNat

/-- Whole numbers are written with one digit after the point. -/
def wholeText : FloatText Nat where
  format n := PrometheusExporter.formatNat n ++ ".0".toList
  read text := PrometheusExporter.readCount (text.take (text.length - 2))

/-- Whole numbers are read as they are written. -/
theorem wholeText_lawful : wholeText.Lawful where
  read_format n := by
    show PrometheusExporter.readCount _ = some n
    simp [wholeText, PrometheusExporter.readCount_formatNat]
  nonempty n := by simp [wholeText]
  unbroken n := by
    have hblank := PrometheusExporter.not_mem_formatNat (c := ' ') (by decide) n
    have hfeed := PrometheusExporter.not_mem_formatNat (c := '\n') (by decide) n
    exact ⟨by simp [wholeText, hblank], by simp [wholeText, hfeed]⟩

/-- A point with a whole number. -/
def wholePoint (name : String) (metricType : MetricType) (value : Int)
    (tags : List (String × String)) : MetricPoint Nat where
  name := name.toList
  metricType
  value := .int value
  timestampNs := 0
  unit := .count
  tags := Dict.ofEntries (tags.map fun tag ↦ (tag.1.toList, tag.2.toList))

/-- Two counters of one name, a gauge without tags and a timer. -/
theorem render_faithful_fourSeries :
    ∃ registry, (feeding wholeFloats 10).Reachable registry ∧
      registry.aggregator.counters.len = 2 ∧ registry.aggregator.histograms.len = 1 ∧
      PrometheusExporter.Faithful wholeText registry := by
  obtain ⟨registry, hreach, hend⟩ := System.exists_of_exec (feeding wholeFloats 10)
    (Fed wholeFloats fun agg point ↦ point.Valid ∧ Suits agg point)
    [.ingest [wholePoint "hits" .counter 1 [("host", "a b")], wholePoint "size" .gauge 3 []],
      .ingest [wholePoint "hits" .counter 2 [("host", "c")], wholePoint "stage_ms" .timer 7 []]]
    (fun registry ↦ registry.aggregator.counters.len == 2 &&
      registry.aggregator.histograms.len == 1) (by decide +kernel)
  simp only [Bool.and_eq_true, beq_iff_eq] at hend
  exact ⟨registry, hreach.reachable, hend.1, hend.2,
    render_faithful wholeFloats wholeText wholeText_lawful 10 registry hreach⟩

private theorem reads_of_faithful {ft : FloatText F} {registry : PerformanceRegistry F}
    (h : PrometheusExporter.Faithful ft registry) :
    (parse (PrometheusExporter.render ft registry)).bind (PrometheusExporter.readings ft) =
      some (PrometheusExporter.values registry) := by
  obtain ⟨families, -, -, hparse, hreadings⟩ := h
  rw [hparse]
  exact hreadings

/-- A new registry that some points were given to. -/
def fedWith (points : List (MetricPoint Nat)) : PerformanceRegistry Nat :=
  { PerformanceRegistry.create 10 with
    aggregator := (MetricsAggregator.empty.ingest wholeFloats points).1 }

/-- Valid points after which the registry is not written faithfully. -/
def Garbles (points : List (MetricPoint Nat)) : Prop :=
  (feeding wholeFloats 10).Reach (Fed wholeFloats fun _ point ↦ point.Valid) (fedWith points) ∧
    ¬ PrometheusExporter.Faithful wholeText (fedWith points)

private theorem garbles_of_read {points : List (MetricPoint Nat)}
    (hvalid : Meets wholeFloats (fun _ point ↦ point.Valid) .empty points)
    (hread : (parse (PrometheusExporter.render wholeText (fedWith points))).bind
      (PrometheusExporter.readings wholeText) ≠
        some (PrometheusExporter.values (fedWith points))) : Garbles points := by
  refine ⟨?_, fun hfaithful ↦ hread (reads_of_faithful hfaithful)⟩
  exact System.Reach.step (a := .ingest points) .init hvalid rfl

/-- A quote in a label value, a family in two places, a histogram with a tag `le`, and a counter
with the name of a histogram's sample. -/
theorem valid_garbled :
    Garbles [wholePoint "hits" .counter 1 [("host", "a\"b")]] ∧
    Garbles [wholePoint "hits" .counter 1 [("host", "a")], wholePoint "misses" .counter 1 [],
      wholePoint "hits" .counter 1 [("host", "b")]] ∧
    Garbles [wholePoint "stage_ms" .timer 1 [("le", "a")]] ∧
    Garbles [wholePoint "stage_ms_count" .counter 1 [], wholePoint "stage_ms" .timer 1 []] := by
  refine ⟨?_, ?_, ?_, ?_⟩
  · exact garbles_of_read (by decide +kernel) (by decide +kernel)
  · exact garbles_of_read (by decide +kernel) (by decide +kernel)
  · exact garbles_of_read (by decide +kernel) (by decide +kernel)
  · exact garbles_of_read (by decide +kernel) (by decide +kernel)

end SalesData.Performance

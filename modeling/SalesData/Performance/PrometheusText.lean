import SalesData.Performance.Prometheus

/-!
# What the exporter writes

A registry whose aggregates can be written as they are: plain label values, no bound among the
tags of a histogram, and equal names next to each other. `render` then writes the text of the
registry's families, and each sample says its value.
-/

namespace SalesData.Performance

open Base Base.Exposition

/-- Valid label names, and values that need no escape. -/
def PlainTags (tags : Tags) : Prop :=
  ∀ item ∈ tags.entries, isLabelName item.1 = true ∧ item.2.all isPlain = true

namespace MetricsAggregator

variable {F : Type}

/-- The names and tags of the aggregates that are exported with a type, in order. -/
def series (agg : MetricsAggregator F) : FamilyType → List (MetricName × Tags)
  | .counter => agg.counters.values.map fun counter ↦ (counter.name, counter.tags)
  | .gauge => agg.gauges.values.map fun gauge ↦ (gauge.name, gauge.tags)
  | .histogram => agg.histograms.values.map fun histogram ↦ (histogram.name, histogram.tags)
  | .summary | .untyped => []

/-- Series of two types, or of one, do not meet in a family unless they have the same name. -/
def Apart (type type' : FamilyType) (name name' : MetricName) : Prop :=
  name = name' ∧ type = type' ∨ Family.apart ⟨name, type, []⟩ ⟨name', type', []⟩ = true

/-- An aggregator that one text can hold. -/
structure Exportable (agg : MetricsAggregator F) : Prop where
  named : ∀ type, ∀ s ∈ agg.series type, isName s.1 = true ∧ PlainTags s.2
  unbounded : ∀ s ∈ agg.series .histogram, leLabel ∉ s.2.keys
  bounds : ∀ histogram ∈ agg.histograms.values,
    histogram.bucketBounds = defaultHistogramBucketBoundsMs
  grouped : ∀ type, Grouped ((agg.series type).map Prod.fst)
  apart : ∀ type type', ∀ s ∈ agg.series type, ∀ s' ∈ agg.series type',
    Apart type type' s.1 s'.1

end MetricsAggregator

/-! ## Tags in order -/

instance : Std.Total itemLe := ⟨fun a b ↦ le_total (toLex a) (toLex b)⟩

instance : IsTrans (Text × Text) itemLe := ⟨fun _ _ _ h h' ↦ le_trans h h'⟩

instance : Std.Antisymm itemLe := ⟨fun a b h h' ↦ by
  have heq : toLex a = toLex b := le_antisymm h h'
  exact heq⟩

/-- Sorting only moves the items. -/
theorem sortedItems_perm (tags : Tags) : (sortedItems tags).Perm tags.entries :=
  List.perm_insertionSort itemLe tags.entries

/-- Items in order are those that bind. -/
theorem mem_sortedItems {tags : Tags} {item : Text × Text} :
    item ∈ sortedItems tags ↔ tags.get? item.1 = some item.2 := by
  rw [(sortedItems_perm tags).mem_iff]
  exact Dict.mem_entries_iff

/-- No key comes twice. -/
theorem nodup_sortedItems (tags : Tags) : ((sortedItems tags).map Prod.fst).Nodup :=
  ((sortedItems_perm tags).map Prod.fst).nodup_iff.mpr tags.nodup

/-- Sorted items without a key are the sorted items of the other keys. -/
theorem sortedItems_set_filter {tags : Tags} {k : Text} (h : k ∉ tags.keys) (v : Text) :
    (sortedItems (tags.set k v)).filter (·.1 != k) = sortedItems tags := by
  have hset : (tags.set k v).entries = tags.entries ++ [(k, v)] := by
    rw [Dict.set, dif_neg (show k ∉ tags.entries.map Prod.fst from h)]
  have hkeep : tags.entries.filter (·.1 != k) = tags.entries := by
    apply List.filter_eq_self.mpr
    intro item hitem
    simp only [bne_iff_ne]
    exact fun he ↦ h (he ▸ List.mem_map_of_mem hitem)
  have hperm : ((sortedItems (tags.set k v)).filter (·.1 != k)).Perm (sortedItems tags) := by
    apply ((sortedItems_perm (tags.set k v)).filter _).trans
    rw [hset, List.filter_append, hkeep]
    simpa using (sortedItems_perm tags).symm
  apply List.Perm.eq_of_pairwise' (r := itemLe) _ _ hperm
  · exact (List.pairwise_insertionSort itemLe _).filter _
  · exact List.pairwise_insertionSort itemLe _

/-- The tags of a bucket bind its bound. -/
theorem lookup_bound (tags : Tags) (k v : Text) :
    (sortedItems (tags.set k v)).lookup k = some v := by
  have hmem : (k, v) ∈ sortedItems (tags.set k v) := by
    rw [mem_sortedItems]
    simp [Dict.get?_set]
  obtain ⟨before, after, heq⟩ := List.append_of_mem hmem
  have hnodup := nodup_sortedItems (tags.set k v)
  rw [heq, List.map_append, List.nodup_append] at hnodup
  rw [List.lookup_eq_some_iff]
  refine ⟨before, after, heq, ?_⟩
  intro item hitem
  have hne := hnodup.2.2 item.1 (List.mem_map_of_mem hitem) k (by simp)
  simpa using Ne.symm hne

/-! ## Lines -/

/-- Plain tags are written with the escapes that they need, which are none. -/
theorem labelSuffix_eq {tags : Tags} (h : ∀ item ∈ tags.entries, item.2.all isPlain = true) :
    PrometheusExporter.labelSuffix tags = labelsText (sortedItems tags) := by
  have hlabels : ((sortedItems tags).map fun item ↦ item.1 ++ '=' :: '"' :: item.2 ++ ['"']) =
      (sortedItems tags).map labelText := by
    apply List.map_congr_left
    intro item hitem
    rw [labelText, escape_of_isPlain (h item ((sortedItems_perm tags).mem_iff.mp hitem))]
  have hnil : tags.entries = [] ↔ sortedItems tags = [] := by
    rw [← List.length_eq_zero_iff, ← (sortedItems_perm tags).length_eq, List.length_eq_zero_iff]
  rw [PrometheusExporter.labelSuffix, labelsText, hlabels]
  simp only [hnil]

/-- The line of a sample with plain tags. -/
theorem sampleLine_eq {tags : Tags} (h : ∀ item ∈ tags.entries, item.2.all isPlain = true)
    (name value : Text) :
    PrometheusExporter.sampleLine name tags value =
      Sample.text ⟨name, sortedItems tags, value⟩ := by
  rw [PrometheusExporter.sampleLine, labelSuffix_eq h]
  rfl

namespace PrometheusExporter

/-- An `int` is one word of digits, read as it was. -/
theorem readCount_formatNat (n : Nat) : readCount (formatNat n) = some n := by
  have hdigits : (formatNat n).all Char.isDigit = true := by
    rw [List.all_eq_true]
    exact fun c hc ↦ Nat.isDigit_of_mem_toDigits (by decide) (by decide) hc
  rw [readCount, if_pos ⟨Nat.toDigits_ne_nil, hdigits⟩, formatNat, Nat.ofDigitChars_ten_toDigits]

/-- A character that is no digit is not in the text of an `int`. -/
theorem not_mem_formatNat {c : Char} (hc : c.isDigit = false) (n : Nat) : c ∉ formatNat n := by
  intro hmem
  have hdigit : c.isDigit = true :=
    Nat.isDigit_of_mem_toDigits (by decide) (by decide) hmem
  rw [hc] at hdigit
  cases hdigit

variable {F : Type} (ft : FloatText F)

/-- The part of a family that a counter is. -/
def counterPart (counter : Counter F) : Family :=
  ⟨counter.name, .counter, [⟨counter.name, sortedItems counter.tags, ft.format counter.value⟩]⟩

/-- The part of a family that a gauge is. -/
def gaugePart (gauge : Gauge F) : Family :=
  ⟨gauge.name, .gauge, [⟨gauge.name, sortedItems gauge.tags, ft.format gauge.value⟩]⟩

/-- The part of a family that a histogram is. -/
def histogramPart (histogram : Histogram F) : Family where
  name := histogram.name
  type := .histogram
  samples :=
    (histogram.cumulativeCounts.entries.map fun (bound, cumulative) ↦
      ⟨histogram.name ++ "_bucket".toList, sortedItems (histogram.tags.set leLabel bound),
        formatNat cumulative⟩) ++
    [⟨histogram.name ++ "_sum".toList, sortedItems histogram.tags, ft.format histogram.total⟩,
      ⟨histogram.name ++ "_count".toList, sortedItems histogram.tags,
        formatNat histogram.count⟩]

/-- The parts of the registry's families, in the order of `render`. -/
def parts (agg : MetricsAggregator F) : List Family :=
  agg.counters.values.map (counterPart ft) ++ agg.gauges.values.map (gaugePart ft) ++
    agg.histograms.values.map (histogramPart ft)

/-- A part of a family as `render` writes it. -/
def emitPart (out : Output) (part : Family) : Output :=
  emit out part.name part.type.word (part.samples.map Sample.text)

/-- A name that has no type line yet gets one. -/
theorem emitType_of_not_mem {out : Output} {name : Text} (h : name ∉ out.emittedTypes)
    (type : FamilyType) :
    emitType out name type.word =
      ⟨out.lines ++ [typeText name type], out.emittedTypes ++ [name]⟩ := if_neg h

/-- Type lines come where the families begin. -/
theorem foldl_emitPart {parts : List Family} (h : Compatible parts) :
    parts.foldl emitPart ⟨[], []⟩ =
      ⟨(gather parts).flatMap Family.lines, (gather parts).map (·.name)⟩ := by
  induction parts using List.reverseRecOn with
  | nil => rfl
  | append_singleton parts part ih =>
    rw [List.foldl_append, ih h.init, gather_concat, List.foldl_cons, List.foldl_nil]
    rcases join_cases (gathered_gather h.init) h with
      ⟨init, last, hfamilies, hname, -, hjoin⟩ | ⟨hnew, hjoin⟩
    · have hmem : part.name ∈ (gather parts).map (·.name) := by
        rw [hfamilies, ← hname]
        simp
      rw [hjoin, emitPart, emit, emitType, if_pos hmem, hfamilies]
      simp [Family.lines]
    · rw [hjoin, emitPart, emit, emitType_of_not_mem hnew]
      simp [Family.lines]

/-! ## Families -/

variable {ft}

private theorem wellFormed_sample (hft : ft.Lawful) {name : Text} {tags : Tags} (x : F)
    (hname : isName name = true) (htags : PlainTags tags) :
    Sample.WellFormed ⟨name, sortedItems tags, ft.format x⟩ where
  name := hname
  labels label hlabel := (htags label ((sortedItems_perm tags).mem_iff.mp hlabel)).1
  distinct := nodup_sortedItems tags
  nonempty := hft.nonempty x
  unbroken := hft.unbroken x

private theorem wellFormed_natSample {name : Text} {tags : Tags} (n : Nat)
    (hname : isName name = true) (htags : PlainTags tags) :
    Sample.WellFormed ⟨name, sortedItems tags, formatNat n⟩ where
  name := hname
  labels label hlabel := (htags label ((sortedItems_perm tags).mem_iff.mp hlabel)).1
  distinct := nodup_sortedItems tags
  nonempty := Nat.toDigits_ne_nil
  unbroken := ⟨not_mem_formatNat (by decide) n, not_mem_formatNat (by decide) n⟩

/-- A name with a suffix of a histogram's samples is a name. -/
theorem isName_append {name suffix : Text} (h : isName name = true)
    (hsuffix : suffix.all isNameChar = true) : isName (name ++ suffix) = true := by
  cases name with
  | nil => cases h
  | cons c cs =>
    simp only [isName, Bool.and_eq_true] at h
    simp only [List.cons_append, isName, Bool.and_eq_true, List.all_append]
    exact ⟨h.1, h.2, hsuffix⟩

/-- The bounds' labels, as far as `cumulative_counts` has them. -/
theorem bound_plain {histogram : Histogram F}
    (h : histogram.bucketBounds = defaultHistogramBucketBoundsMs) :
    ∀ entry ∈ histogram.cumulativeCounts.entries, entry.1.all isPlain = true := by
  have hlabels : histogram.labels =
      defaultHistogramBucketBoundsMs.map (·.label) ++ [infLabel] := by
    rw [Histogram.labels, h]
  have hplain : ∀ label ∈ defaultHistogramBucketBoundsMs.map (·.label) ++ [infLabel],
      label.all isPlain = true := by decide +kernel
  have hnodup : (defaultHistogramBucketBoundsMs.map (·.label) ++ [infLabel]).Nodup := by
    decide +kernel
  have hfst : (histogram.labels.zip (runningSums 0 histogram.bucketCounts)).map Prod.fst =
      histogram.labels := by
    apply List.map_fst_zip
    rw [length_runningSums, histogram.length_counts, Histogram.labels]
    simp
  intro entry hentry
  rw [Histogram.cumulativeCounts, Dict.entries_ofEntries] at hentry
  · apply hplain
    rw [← hlabels]
    exact (List.of_mem_zip hentry).1
  · rw [hfst, hlabels]
    exact hnodup

/-- The tags of a bucket are plain. -/
theorem plain_bucketTags {tags : Tags} (h : PlainTags tags) {bound : Text}
    (hbound : bound.all isPlain = true) : PlainTags (tags.set leLabel bound) := by
  intro item hitem
  have hget : (tags.set leLabel bound).get? item.1 = some item.2 := Dict.mem_entries_iff.mp hitem
  rw [Dict.get?_set] at hget
  split at hget
  · next hkey =>
    rw [hkey, ← Option.some.inj hget]
    exact ⟨by decide, hbound⟩
  · exact h item (Dict.mem_entries_iff.mpr hget)

variable {agg : MetricsAggregator F}

private theorem wellFormed_histogramPart (hft : ft.Lawful) {histogram : Histogram F}
    (hname : isName histogram.name = true) (htags : PlainTags histogram.tags)
    (hbounds : histogram.bucketBounds = defaultHistogramBucketBoundsMs) :
    (histogramPart ft histogram).WellFormed := by
  have hsuffix : ∀ suffix ∈ FamilyType.histogram.suffixes,
      isName (histogram.name ++ suffix) = true := by
    intro suffix hmem
    apply isName_append hname
    revert suffix
    decide
  have howns : ∀ suffix ∈ FamilyType.histogram.suffixes,
      (histogramPart ft histogram).owns (histogram.name ++ suffix) = true := by
    intro suffix hmem
    rw [Family.owns, List.any_eq_true]
    exact ⟨suffix, hmem, by simp [histogramPart]⟩
  have hcases : ∀ sample ∈ (histogramPart ft histogram).samples, sample.WellFormed ∧
      ∃ suffix ∈ FamilyType.histogram.suffixes, sample.name = histogram.name ++ suffix := by
    intro sample hsample
    rcases List.mem_append.mp hsample with hsample | hsample
    · obtain ⟨entry, hentry, rfl⟩ := List.mem_map.mp hsample
      refine ⟨?_, "_bucket".toList, by decide, rfl⟩
      apply wellFormed_natSample _ (hsuffix _ (by decide))
      exact plain_bucketTags htags (bound_plain hbounds entry hentry)
    · rw [List.mem_cons, List.mem_singleton] at hsample
      rcases hsample with rfl | rfl
      · exact ⟨wellFormed_sample hft _ (hsuffix _ (by decide)) htags,
          "_sum".toList, by decide, rfl⟩
      · exact ⟨wellFormed_natSample _ (hsuffix _ (by decide)) htags,
          "_count".toList, by decide, rfl⟩
  refine ⟨hname, fun sample hsample ↦ (hcases sample hsample).1, ?_⟩
  intro sample hsample
  obtain ⟨-, suffix, hmem, heq⟩ := hcases sample hsample
  rw [heq]
  exact howns suffix hmem

private theorem series_of_part {part : Family} (h : part ∈ parts ft agg) :
    ∃ s ∈ agg.series part.type, s.1 = part.name := by
  rcases List.mem_append.mp h with h | h
  · rcases List.mem_append.mp h with h | h
    · obtain ⟨counter, hcounter, rfl⟩ := List.mem_map.mp h
      exact ⟨_, List.mem_map_of_mem hcounter, rfl⟩
    · obtain ⟨gauge, hgauge, rfl⟩ := List.mem_map.mp h
      exact ⟨_, List.mem_map_of_mem hgauge, rfl⟩
  · obtain ⟨histogram, hhistogram, rfl⟩ := List.mem_map.mp h
    exact ⟨_, List.mem_map_of_mem hhistogram, rfl⟩

private theorem wellFormed_part (hft : ft.Lawful) (h : agg.Exportable) {part : Family}
    (hpart : part ∈ parts ft agg) : part.WellFormed := by
  rcases List.mem_append.mp hpart with hpart | hpart
  · rcases List.mem_append.mp hpart with hpart | hpart
    · obtain ⟨counter, hcounter, rfl⟩ := List.mem_map.mp hpart
      obtain ⟨hname, htags⟩ := h.named .counter _ (List.mem_map_of_mem hcounter)
      refine ⟨hname, ?_, by simp [counterPart, Family.owns, FamilyType.suffixes]⟩
      intro sample hsample
      rw [List.mem_singleton.mp hsample]
      exact wellFormed_sample hft _ hname htags
    · obtain ⟨gauge, hgauge, rfl⟩ := List.mem_map.mp hpart
      obtain ⟨hname, htags⟩ := h.named .gauge _ (List.mem_map_of_mem hgauge)
      refine ⟨hname, ?_, by simp [gaugePart, Family.owns, FamilyType.suffixes]⟩
      intro sample hsample
      rw [List.mem_singleton.mp hsample]
      exact wellFormed_sample hft _ hname htags
  · obtain ⟨histogram, hhistogram, rfl⟩ := List.mem_map.mp hpart
    obtain ⟨hname, htags⟩ := h.named .histogram _ (List.mem_map_of_mem hhistogram)
    exact wellFormed_histogramPart hft hname htags (h.bounds histogram hhistogram)

private theorem names_parts : (parts ft agg).map (·.name) =
    (agg.series .counter).map Prod.fst ++ (agg.series .gauge).map Prod.fst ++
      (agg.series .histogram).map Prod.fst := by
  simp [parts, MetricsAggregator.series, Function.comp_def, counterPart, gaugePart,
    histogramPart]

/-- Series of different types have different names. -/
theorem name_ne_of_type_ne (h : agg.Exportable) {type type' : FamilyType} (hne : type ≠ type')
    {name : Text} (hname : name ∈ (agg.series type).map Prod.fst) :
    name ∉ (agg.series type').map Prod.fst := by
  intro hname'
  obtain ⟨s, hs, rfl⟩ := List.mem_map.mp hname
  obtain ⟨s', hs', heq⟩ := List.mem_map.mp hname'
  rcases h.apart type type' s hs s' hs' with ⟨-, htype⟩ | hapart
  · exact hne htype
  · simp [Family.apart, heq] at hapart

/-- What can be exported comes in compatible parts. -/
theorem compatible_parts (hft : ft.Lawful) (h : agg.Exportable) :
    Compatible (parts ft agg) where
  wellFormed part hpart := wellFormed_part hft h hpart
  sameType part hpart other hother hname := by
    obtain ⟨s, hs, hsname⟩ := series_of_part hpart
    obtain ⟨s', hs', hsname'⟩ := series_of_part hother
    rcases h.apart _ _ s hs s' hs' with ⟨-, htype⟩ | hapart
    · exact htype
    · rw [hsname, hsname'] at hapart
      simp [Family.apart, hname] at hapart
  apart part hpart other hother hname := by
    obtain ⟨s, hs, hsname⟩ := series_of_part hpart
    obtain ⟨s', hs', hsname'⟩ := series_of_part hother
    rcases h.apart _ _ s hs s' hs' with ⟨heq, -⟩ | hapart
    · rw [hsname, hsname'] at heq
      exact absurd heq hname
    · rw [hsname, hsname'] at hapart
      exact hapart
  grouped := by
    rw [names_parts]
    apply Grouped.append
    · apply (h.grouped .counter).append (h.grouped .gauge)
      intro name hname
      exact name_ne_of_type_ne h (by decide) hname
    · exact h.grouped .histogram
    · intro name hname
      rcases List.mem_append.mp hname with hname | hname
      · exact name_ne_of_type_ne h (by decide) hname
      · exact name_ne_of_type_ne h (by decide) hname

/-! ## The text -/

private theorem plain_of_named {tags : Tags} (h : PlainTags tags) :
    ∀ item ∈ tags.entries, item.2.all isPlain = true := fun item hitem ↦ (h item hitem).2

private theorem histogramLines_eq {histogram : Histogram F} (htags : PlainTags histogram.tags)
    (hbounds : histogram.bucketBounds = defaultHistogramBucketBoundsMs) :
    histogramLines ft histogram = (histogramPart ft histogram).samples.map Sample.text := by
  have hplain := plain_of_named htags
  have hbuckets : (histogram.cumulativeCounts.entries.map fun (bound, cumulative) ↦
      sampleLine (histogram.name ++ "_bucket".toList) (histogram.tags.set leLabel bound)
        (formatNat cumulative)) =
      histogram.cumulativeCounts.entries.map (Sample.text ∘ fun (bound, cumulative) ↦
        ⟨histogram.name ++ "_bucket".toList, sortedItems (histogram.tags.set leLabel bound),
          formatNat cumulative⟩) := by
    apply List.map_congr_left
    intro entry hentry
    exact sampleLine_eq (plain_of_named (plain_bucketTags htags (bound_plain hbounds entry hentry)))
      _ _
  rw [histogramLines, histogramPart, hbuckets, sampleLine_eq hplain, sampleLine_eq hplain,
    List.map_append, List.map_map]
  rfl

/-- The loops of `render` write the parts of the families one by one. -/
theorem output_eq {registry : PerformanceRegistry F} (h : registry.aggregator.Exportable) :
    output ft registry = (parts ft registry.aggregator).foldl emitPart ⟨[], []⟩ := by
  unfold output parts
  simp only [List.foldl_append, List.foldl_map]
  rw [List.foldl_ext _ (fun out counter ↦ emitPart out (counterPart ft counter)) ⟨[], []⟩,
    List.foldl_ext _ (fun out gauge ↦ emitPart out (gaugePart ft gauge)),
    List.foldl_ext _ (fun out histogram ↦ emitPart out (histogramPart ft histogram))]
  · intro out histogram hmem
    have htags := (h.named .histogram _ (List.mem_map_of_mem hmem)).2
    rw [histogramLines_eq htags (h.bounds histogram hmem)]
    rfl
  · intro out gauge hmem
    have htags := (h.named .gauge _ (List.mem_map_of_mem hmem)).2
    rw [sampleLine_eq (plain_of_named htags)]
    rfl
  · intro out counter hmem
    have htags := (h.named .counter _ (List.mem_map_of_mem hmem)).2
    rw [sampleLine_eq (plain_of_named htags)]
    rfl

/-- Lines that are joined by line feeds, with one at the end. -/
theorem intercalate_eq_unlines (lines : List Text) :
    List.intercalate ['\n'] lines ++ (if lines = [] then [] else ['\n']) = unlines lines := by
  induction lines with
  | nil => rfl
  | cons line lines ih =>
    cases lines with
    | nil => simp [List.intercalate, unlines]
    | cons other lines =>
      rw [unlines, List.flatMap_cons, ← unlines, ← ih]
      simp [List.intercalate, List.intersperse]

/-- The text is that of the families of its parts. -/
theorem render_eq (hft : ft.Lawful) {registry : PerformanceRegistry F}
    (h : registry.aggregator.Exportable) :
    render ft registry =
      unlines ((gather (parts ft registry.aggregator)).flatMap Family.lines) := by
  rw [render, intercalate_eq_unlines, output_eq h, foldl_emitPart (compatible_parts hft h)]

/-! ## The values -/

private theorem readings_bucket {tags : Tags} (hbound : leLabel ∉ tags.keys) (name : Text)
    (entry : Text × Nat) :
    Reading.ofSample ft name .histogram ⟨name ++ "_bucket".toList,
      sortedItems (tags.set leLabel entry.1), formatNat entry.2⟩ =
        some (.bucket name (sortedItems tags) entry.1 entry.2) := by
  simp [Reading.ofSample, lookup_bound, readCount_formatNat, sortedItems_set_filter hbound]

private theorem readings_sum (hft : ft.Lawful) (name : Text) (labels : List (Text × Text))
    (total : F) :
    Reading.ofSample ft name .histogram ⟨name ++ "_sum".toList, labels, ft.format total⟩ =
      some (.sum name labels total) := by
  simp [Reading.ofSample, hft.read_format]

private theorem readings_count (name : Text) (labels : List (Text × Text)) (count : Nat) :
    Reading.ofSample ft name .histogram ⟨name ++ "_count".toList, labels, formatNat count⟩ =
      some (.count name labels count) := by
  simp [Reading.ofSample, readCount_formatNat]

/-- The samples of the parts say what the values are. -/
theorem ofSample_parts (hft : ft.Lawful) {registry : PerformanceRegistry F}
    (h : registry.aggregator.Exportable) :
    ((parts ft registry.aggregator).flatMap fun part ↦
      part.samples.map (Reading.ofSample ft part.name part.type)) =
        (values registry).map some := by
  have hhistogram : ∀ histogram ∈ registry.aggregator.histograms.values,
      (histogramPart ft histogram).samples.map
        (Reading.ofSample ft histogram.name FamilyType.histogram) =
      ((histogram.cumulativeCounts.entries.map fun (bound, cumulative) ↦
        Reading.bucket histogram.name (sortedItems histogram.tags) bound cumulative) ++
      [Reading.sum histogram.name (sortedItems histogram.tags) histogram.total,
        Reading.count histogram.name (sortedItems histogram.tags) histogram.count]).map some := by
    intro histogram hmem
    have hbound := h.unbounded _ (List.mem_map_of_mem hmem)
    simp only [histogramPart, List.map_append, List.map_map, List.map_cons, List.map_nil,
      readings_sum hft, readings_count]
    congr 1
    apply List.map_congr_left
    intro entry _
    exact readings_bucket hbound histogram.name entry
  rw [parts, values, List.flatMap_append, List.flatMap_append, List.map_append, List.map_append,
    List.flatMap_map, List.flatMap_map, List.flatMap_map, List.map_map, List.map_map,
    List.map_flatMap, List.map_eq_flatMap, List.map_eq_flatMap]
  congr 1
  · congr 1
    · apply List.flatMap_congr
      intro counter _
      simp [counterPart, Reading.ofSample, hft.read_format]
    · apply List.flatMap_congr
      intro gauge _
      simp [gaugePart, Reading.ofSample, hft.read_format]
  · apply List.flatMap_congr
    exact hhistogram

/-- What can be exported is written faithfully. -/
theorem faithful_of_exportable (hft : ft.Lawful) {registry : PerformanceRegistry F}
    (h : registry.aggregator.Exportable) : Faithful ft registry := by
  have hcompatible := compatible_parts hft h
  have hrender := render_eq hft h
  refine ⟨gather (parts ft registry.aggregator), hrender, ?_, ?_, ?_⟩
  · apply List.pairwise_map.mpr
    apply (gathered_gather hcompatible).apart.imp
    intro f g hapart
    simp only [Family.apart, Bool.and_eq_true, bne_iff_ne] at hapart
    exact hapart.1.1
  · rw [hrender]
    exact parse_gather hcompatible
  · rw [readings, gather_samples hcompatible (Reading.ofSample ft), ofSample_parts hft h]
    rw [List.mapM_map]
    have hsome : (values registry).mapM (fun value ↦ (pure value : Option (Reading F))) =
        pure ((values registry).map fun value ↦ value) := List.mapM_pure
    rw [List.map_id'] at hsome
    exact hsome

end PrometheusExporter
end SalesData.Performance

import SalesData.Base.Csv
import SalesData.Performance.PrometheusText
import SalesData.Performance.Quantiles

/-!
# Snapshots of a registry

`build_snapshot` (`core/performance/exporters/snapshot.py`) and the CSV text that `CSVExporter`
(`csv_exporter.py`) writes of it. Floats are exact; how they are written is a parameter.
-/

namespace SalesData.Performance

open Base

/-- `SnapshotKind`. -/
inductive SnapshotKind
  | counter | gauge | histogram
  deriving DecidableEq, Repr

/-- The text of a kind. -/
def SnapshotKind.text : SnapshotKind → Text
  | counter => "counter".toList
  | gauge => "gauge".toList
  | histogram => "histogram".toList

/-- `MetricSnapshot` (`snapshot.py:24–38`). -/
structure MetricSnapshot where
  name : MetricName
  kind : SnapshotKind
  tags : Tags
  value : Option ℚ
  histogram : Option (Dict Text (Option ℚ))

/-- A value of a snapshot's histogram; `None` and a missing one are the same. -/
def MetricSnapshot.stat (s : MetricSnapshot) (field : Text) : Option ℚ :=
  ((s.histogram.getD .empty).get? field).join

/-- The numbers of a snapshot. -/
def MetricSnapshot.numbers (s : MetricSnapshot) : List ℚ :=
  s.value.toList ++ (s.histogram.getD .empty).values.reduceOption

/-- The registry's histograms, each with its estimators. -/
def histogramsOf (agg : MetricsAggregator ℚ)
    (estimators : MetricKey → List StreamingPercentileEstimator) : List StreamingHistogram :=
  agg.histograms.entries.map fun e ↦ ⟨e.2, estimators e.1⟩

/-- `build_snapshot` (`snapshot.py:41–67`). -/
def buildSnapshot (agg : MetricsAggregator ℚ)
    (estimators : MetricKey → List StreamingPercentileEstimator) : List MetricSnapshot :=
  (agg.counters.values.map fun counter ↦
    ⟨counter.name, .counter, counter.tags, some counter.value, none⟩) ++
  (agg.gauges.values.map fun gauge ↦ ⟨gauge.name, .gauge, gauge.tags, some gauge.value, none⟩) ++
  (histogramsOf agg estimators).map fun h ↦
    ⟨h.histogram.name, .histogram, h.histogram.tags, none, some h.snapshot⟩

namespace CSVExporter

/-- `_HISTOGRAM_FIELDS`. -/
def histogramFields : List Text :=
  ["count".toList, "sum".toList, "mean".toList, "min".toList, "max".toList, "p50".toList,
    "p90".toList, "p95".toList, "p99".toList]

/-- `_FIELDNAMES`. -/
def fieldnames : List Text :=
  ["kind".toList, "name".toList, "tags".toList, "value".toList] ++ histogramFields

/-- `_format_tags` (`csv_exporter.py:62–63`). -/
def formatTags (tags : Tags) : Text :=
  List.intercalate [';'] ((sortedItems tags).map fun item ↦ item.1 ++ '=' :: item.2)

variable (ft : FloatText ℚ)

/-- A value in a column; the count is an `int`, and what is `None` is empty. -/
def cell (field : Text) : Option ℚ → Text
  | none => []
  | some x =>
    if field = "count".toList then PrometheusExporter.formatNat x.num.toNat else ft.format x

/-- `_snapshot_row` (`csv_exporter.py:48–59`), in the order of the columns. -/
def snapshotRow (s : MetricSnapshot) : List Text :=
  [s.kind.text, s.name, formatTags s.tags, cell ft "value".toList s.value] ++
    histogramFields.map fun field ↦ cell ft field (s.stat field)

/-- `render` (`csv_exporter.py:32–39`). -/
def render (quotesReturn : Bool) (agg : MetricsAggregator ℚ)
    (estimators : MetricKey → List StreamingPercentileEstimator) : Text :=
  Csv.write quotesReturn (fieldnames :: (buildSnapshot agg estimators).map (snapshotRow ft))

/-! ## Reading it back -/

/-- What a row says. -/
structure Reading where
  kind : SnapshotKind
  name : MetricName
  items : List (Text × Text)
  value : Option ℚ
  stats : List (Option ℚ)
  deriving DecidableEq

/-- What the row of a snapshot is to say: the tags in their order. -/
def readingOf (s : MetricSnapshot) : Reading :=
  ⟨s.kind, s.name, sortedItems s.tags, s.value, histogramFields.map s.stat⟩

/-- The kind of a text. -/
def readKind (text : Text) : Option SnapshotKind :=
  [SnapshotKind.counter, .gauge, .histogram].find? (·.text = text)

/-- The items of a text of tags. -/
def readTags (text : Text) : List (Text × Text) :=
  if text = [] then []
  else (text.splitOn ';').map fun item ↦
    (item.takeWhile (· ≠ '='), (item.dropWhile (· ≠ '=')).tail)

/-- The value in a column; `none` is no number. -/
def readCell (field text : Text) : Option (Option ℚ) :=
  if text = [] then some none
  else if field = "count".toList then
    (PrometheusExporter.readCount text).map fun n : Nat ↦ some (n : ℚ)
  else (ft.read text).map some

/-- What a row says; `none` is no row of these columns. -/
def readRow : List Text → Option Reading
  | kind :: name :: tags :: value :: stats =>
    if stats.length = histogramFields.length then do
      let kind ← readKind kind
      let value ← readCell ft "value".toList value
      let stats ← (histogramFields.zip stats).mapM fun column ↦ readCell ft column.1 column.2
      some ⟨kind, name, readTags tags, value, stats⟩
    else none
  | _ => none

/-- What a text says. -/
def readBack (text : Text) : Option (List Reading) :=
  match Csv.read text with
  | some (header :: rows) => if header = fieldnames then rows.mapM (readRow ft) else none
  | _ => none

/-- A number that is read as it is written. -/
structure Reads (x : ℚ) : Prop where
  read_format : ft.read (ft.format x) = some x
  nonempty : ft.format x ≠ []
  unbroken : '\r' ∉ ft.format x

/-- A snapshot whose tags can be told from their text, and whose texts a reader takes as they
are. -/
structure Readable (quotesReturn : Bool) (s : MetricSnapshot) : Prop where
  tags : ∀ item ∈ s.tags.entries, ';' ∉ item.1 ∧ '=' ∉ item.1 ∧ ';' ∉ item.2
  returns : quotesReturn = true ∨
    '\r' ∉ s.name ∧ ∀ item ∈ s.tags.entries, '\r' ∉ item.1 ∧ '\r' ∉ item.2
  numbers : ∀ x ∈ s.numbers, Reads ft x

variable {ft} {s : MetricSnapshot} {quotesReturn : Bool}

/-- A key and a value. -/
theorem read_item {k v : Text} (hk : '=' ∉ k) :
    ((k ++ '=' :: v).takeWhile (· ≠ '='), ((k ++ '=' :: v).dropWhile (· ≠ '=')).tail) = (k, v) := by
  have hall : ∀ c ∈ k, decide (c ≠ '=') = true := by
    intro c hc
    simp only [decide_eq_true_eq]
    rintro rfl
    exact hk hc
  rw [List.takeWhile_append_of_pos hall, List.dropWhile_append_of_pos hall]
  simp

/-- Tags are read in their order. -/
theorem readTags_formatTags {tags : Tags}
    (h : ∀ item ∈ tags.entries, ';' ∉ item.1 ∧ '=' ∉ item.1 ∧ ';' ∉ item.2) :
    readTags (formatTags tags) = sortedItems tags := by
  have hsorted : ∀ item ∈ sortedItems tags, ';' ∉ item.1 ∧ '=' ∉ item.1 ∧ ';' ∉ item.2 :=
    fun item hitem ↦ h item ((sortedItems_perm tags).mem_iff.mp hitem)
  unfold readTags formatTags
  generalize sortedItems tags = items at hsorted
  cases items with
  | nil => rfl
  | cons item items =>
    have hne : List.intercalate [';']
        ((item :: items).map fun item ↦ item.1 ++ '=' :: item.2) ≠ [] := by
      cases items <;> simp [List.intercalate]
    rw [if_neg hne, List.splitOn_intercalate ';' _ (by simp), List.map_map]
    · refine (List.map_congr_left fun item' hitem ↦ ?_).trans (List.map_id _)
      exact read_item (hsorted item' hitem).2.1
    · intro l hl
      obtain ⟨item', hitem, rfl⟩ := List.mem_map.mp hl
      obtain ⟨hk, -, hv⟩ := hsorted item' hitem
      simp [hk, hv]

/-- A histogram's snapshot shows how many values it has seen. -/
theorem snapshot_count (h : StreamingHistogram) :
    h.snapshot.get? "count".toList = some (some (h.histogram.count : ℚ)) := by
  have hlabel (q : ℚ) : "count".toList ≠ StreamingHistogram.label q := by
    intro heq
    have hhead := congrArg List.head? heq
    rw [StreamingHistogram.label, List.head?_cons] at hhead
    exact absurd (Option.some.inj hhead) (by decide)
  have hfold (es : List StreamingPercentileEstimator) (d : Dict Text (Option ℚ)) :
      (es.foldl (fun result e ↦ result.set (StreamingHistogram.label e.quantile) e.value) d).get?
        "count".toList = d.get? "count".toList := by
    induction es generalizing d with
    | nil => rfl
    | cons e es ih => rw [List.foldl_cons, ih, Dict.get?_set, if_neg (hlabel _)]
  unfold StreamingHistogram.snapshot
  rw [hfold]
  rfl

/-- The count in a snapshot is a natural number. -/
theorem stat_count {agg : MetricsAggregator ℚ}
    {estimators : MetricKey → List StreamingPercentileEstimator}
    (hs : s ∈ buildSnapshot agg estimators) :
    ∀ x ∈ s.stat "count".toList, ∃ n : Nat, x = n := by
  rcases List.mem_append.mp hs with hs | hs
  · rcases List.mem_append.mp hs with hs | hs
    · obtain ⟨counter, -, rfl⟩ := List.mem_map.mp hs
      nofun
    · obtain ⟨gauge, -, rfl⟩ := List.mem_map.mp hs
      nofun
  · obtain ⟨h, -, rfl⟩ := List.mem_map.mp hs
    intro x hx
    have hcount : (⟨h.histogram.name, .histogram, h.histogram.tags, none, some h.snapshot⟩ :
        MetricSnapshot).stat "count".toList = some (h.histogram.count : ℚ) := by
      rw [MetricSnapshot.stat, Option.getD_some, snapshot_count]
      rfl
    rw [hcount] at hx
    exact ⟨_, (Option.mem_some_iff.mp hx).symm⟩

/-- A column is read as it is written. -/
theorem readCell_cell {field : Text} {value : Option ℚ}
    (hcount : field = "count".toList → ∀ x ∈ value, ∃ n : Nat, x = n)
    (hreads : ∀ x ∈ value, Reads ft x) : readCell ft field (cell ft field value) = some value := by
  cases value with
  | none => rfl
  | some x =>
    unfold readCell cell
    by_cases hfield : field = "count".toList
    · obtain ⟨n, rfl⟩ := hcount hfield x rfl
      have hnat : (n : ℚ).num.toNat = n := by simp
      have hread := PrometheusExporter.readCount_formatNat n
      have hne : PrometheusExporter.formatNat n ≠ [] := by
        intro hnil
        rw [hnil] at hread
        cases hread
      simp only [if_pos hfield, hnat, if_neg hne, hread, Option.map_some]
    · have h := hreads x rfl
      simp only [if_neg hfield, if_neg h.nonempty, h.read_format, Option.map_some]

private theorem mapM_zip {cellOf : Text → Text} {valueOf : Text → Option ℚ} {fields : List Text}
    (h : ∀ field ∈ fields, readCell ft field (cellOf field) = some (valueOf field)) :
    ((fields.zip (fields.map cellOf)).mapM fun column ↦ readCell ft column.1 column.2) =
      some (fields.map valueOf) := by
  induction fields with
  | nil => rfl
  | cons field fields ih =>
    rw [List.map_cons, List.zip_cons_cons, List.mapM_cons, h field List.mem_cons_self,
      ih fun field' h' ↦ h field' (List.mem_cons_of_mem _ h')]
    rfl

/-- A value of a snapshot is one of its numbers. -/
theorem mem_numbers_of_stat {field : Text} {x : ℚ} (h : x ∈ s.stat field) : x ∈ s.numbers := by
  have hget := Option.join_eq_some_iff.mp (Option.mem_def.mp h)
  refine List.mem_append_right _ (List.mem_filterMap.mpr ⟨some x, ?_, rfl⟩)
  exact List.mem_map_of_mem (Dict.mem_entries_iff.mpr hget)

/-- A row says its snapshot. -/
theorem readRow_snapshotRow {agg : MetricsAggregator ℚ}
    {estimators : MetricKey → List StreamingPercentileEstimator}
    (hs : s ∈ buildSnapshot agg estimators) (h : Readable ft quotesReturn s) :
    readRow ft (snapshotRow ft s) = some (readingOf s) := by
  have hkind : readKind s.kind.text = some s.kind := by cases s.kind <;> decide
  have hvalue : readCell ft "value".toList (cell ft "value".toList s.value) = some s.value :=
    readCell_cell (fun h ↦ absurd h (by decide))
      fun x hx ↦ h.numbers x (List.mem_append_left _ (Option.mem_toList.mpr hx))
  have hstats := @mapM_zip ft (fun field ↦ cell ft field (s.stat field)) s.stat histogramFields
    fun field _ ↦ readCell_cell (fun hfield ↦ hfield ▸ stat_count hs)
      fun x hx ↦ h.numbers x (mem_numbers_of_stat hx)
  simp only [snapshotRow, List.cons_append, List.nil_append, readRow, List.length_map, if_true,
    hkind, hvalue, hstats, readTags_formatTags h.tags, Option.bind_eq_bind, Option.bind_some]
  rfl

private theorem not_mem_joined {texts : List Text} (h : ∀ text ∈ texts, '\r' ∉ text) :
    '\r' ∉ List.intercalate [';'] texts := by
  induction texts with
  | nil => exact List.not_mem_nil
  | cons text texts ih =>
    have hrest := ih fun other hother ↦ h other (List.mem_cons_of_mem _ hother)
    by_cases hlast : texts = []
    · rw [hlast, List.intercalate_singleton]
      exact h text List.mem_cons_self
    · rw [List.intercalate_cons_of_ne_nil hlast]
      simp [h text List.mem_cons_self, hrest]

/-- The cells of a row can be read in every version of the library. -/
theorem not_mem_snapshotRow (h : Readable ft quotesReturn s) :
    ∀ f ∈ snapshotRow ft s, quotesReturn = true ∨ '\r' ∉ f := by
  rcases h.returns with hreturns | ⟨hname, htags⟩
  · exact fun f _ ↦ .inl hreturns
  have hkind : '\r' ∉ s.kind.text := by cases s.kind <;> decide
  have hitems : '\r' ∉ formatTags s.tags := by
    refine not_mem_joined fun text htext ↦ ?_
    obtain ⟨item, hitem, rfl⟩ := List.mem_map.mp htext
    obtain ⟨hk, hv⟩ := htags item ((sortedItems_perm s.tags).mem_iff.mp hitem)
    simp [hk, hv]
  have hcell (field : Text) {value : Option ℚ} (hvalue : ∀ x ∈ value, x ∈ s.numbers) :
      '\r' ∉ cell ft field value := by
    cases value with
    | none => exact List.not_mem_nil
    | some x =>
      unfold cell
      dsimp only
      split
      · exact PrometheusExporter.not_mem_formatNat rfl _
      · exact (h.numbers x (hvalue x rfl)).unbroken
  intro f hf
  right
  simp only [snapshotRow, List.cons_append, List.nil_append, List.mem_cons, List.mem_map] at hf
  rcases hf with rfl | rfl | rfl | rfl | ⟨field, -, rfl⟩
  · exact hkind
  · exact hname
  · exact hitems
  · exact hcell _ fun x hx ↦ List.mem_append_left _ (Option.mem_toList.mpr hx)
  · exact hcell _ fun x hx ↦ mem_numbers_of_stat hx

/-- The CSV text of a registry whose snapshots are readable says every counter, gauge and histogram
in its order, with its kind, name, tags and values, and nothing else. -/
theorem readBack_render (ft : FloatText ℚ) (quotesReturn : Bool) (agg : MetricsAggregator ℚ)
    (estimators : MetricKey → List StreamingPercentileEstimator)
    (h : ∀ s ∈ buildSnapshot agg estimators, Readable ft quotesReturn s) :
    readBack ft (render ft quotesReturn agg estimators) =
      some ((buildSnapshot agg estimators).map readingOf) := by
  have hread : Csv.read (render ft quotesReturn agg estimators) =
      some (fieldnames :: (buildSnapshot agg estimators).map (snapshotRow ft)) := by
    refine Csv.read_write _ fun row hrow ↦ ?_
    rcases List.mem_cons.mp hrow with rfl | hrow
    · exact fun f hf ↦ .inr ((by decide : ∀ f ∈ fieldnames, '\r' ∉ f) f hf)
    · obtain ⟨s, hs, rfl⟩ := List.mem_map.mp hrow
      exact not_mem_snapshotRow (h s hs)
  unfold readBack
  rw [hread]
  dsimp only
  rw [if_pos rfl]
  generalize hsnapshots : buildSnapshot agg estimators = snapshots at h
  have hrows : ∀ s ∈ snapshots, readRow ft (snapshotRow ft s) = some (readingOf s) :=
    fun s hs ↦ readRow_snapshotRow (hsnapshots ▸ hs) (h s hs)
  clear hsnapshots hread h
  induction snapshots with
  | nil => rfl
  | cons s snapshots ih =>
    rw [List.map_cons, List.mapM_cons, hrows s List.mem_cons_self,
      ih fun s' h' ↦ hrows s' (List.mem_cons_of_mem _ h')]
    rfl

/-- Whole numbers, written as `repr` writes floats. -/
def wholeRepr : FloatText ℚ where
  format x := PrometheusExporter.formatNat x.num.toNat ++ ".0".toList
  read text :=
    (PrometheusExporter.readCount (text.take (text.length - 2))).map fun n : Nat ↦ (n : ℚ)

/-- A counter with commas, quotes and line ends in its tags, a gauge without tags and a timer. -/
def mixedRegistry : MetricsAggregator ℚ :=
  (MetricsAggregator.empty.ingest .exact
    [⟨"hits".toList, .counter, .int 3, 0, .count,
        .ofEntries [("path".toList, "a,b\n\"c\"".toList), ("host".toList, [])]⟩,
      ⟨"size".toList, .gauge, .int 7, 0, .count, .empty⟩,
      ⟨"stage_ms".toList, .timer, .int 12, 0, .milliseconds, .empty⟩]).1

private theorem readable_mixedRegistry :
    ∀ s ∈ buildSnapshot mixedRegistry fun _ ↦ [], Readable wholeRepr false s := by
  have h : ∀ s ∈ buildSnapshot mixedRegistry fun _ ↦ [],
      (∀ item ∈ s.tags.entries, ';' ∉ item.1 ∧ '=' ∉ item.1 ∧ ';' ∉ item.2) ∧
      ('\r' ∉ s.name ∧ ∀ item ∈ s.tags.entries, '\r' ∉ item.1 ∧ '\r' ∉ item.2) ∧
      ∀ x ∈ s.numbers, wholeRepr.read (wholeRepr.format x) = some x ∧
        wholeRepr.format x ≠ [] ∧ '\r' ∉ wholeRepr.format x := by
    decide +kernel
  intro s hs
  obtain ⟨htags, hreturns, hnumbers⟩ := h s hs
  exact ⟨htags, .inr hreturns, fun x hx ↦
    ⟨(hnumbers x hx).1, (hnumbers x hx).2.1, (hnumbers x hx).2.2⟩⟩

/-- A counter, a gauge and a histogram are read back in the version that leaves `\r` without
quotes. -/
theorem readBack_render_mixedRegistry :
    (buildSnapshot mixedRegistry fun _ ↦ []).length = 3 ∧
      readBack wholeRepr (render wholeRepr false mixedRegistry fun _ ↦ []) =
        some ((buildSnapshot mixedRegistry fun _ ↦ []).map readingOf) :=
  ⟨by decide +kernel, readBack_render wholeRepr false _ _ readable_mixedRegistry⟩

end CSVExporter
end SalesData.Performance

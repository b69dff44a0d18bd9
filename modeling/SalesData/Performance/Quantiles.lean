import SalesData.Performance.Histogram
import SalesData.Performance.Percentile

/-!
# The order of reported quantiles

`StreamingHistogram` (`core/performance/histogram.py:188–237`) with its default quantiles. Each has
an estimator of its own, which knows nothing of the others.
-/

namespace SalesData.Performance

open Base Function

/-- `StreamingHistogram`; the name and the tags are those of the histogram. -/
structure StreamingHistogram where
  histogram : Histogram ℚ
  estimators : List StreamingPercentileEstimator

namespace StreamingHistogram

/-- The constructor with the default quantiles. -/
def create (name : MetricName) (tags : Tags) : StreamingHistogram where
  histogram := .create .exact name tags
  estimators :=
    [.new (1 / 2) (by norm_num) (by norm_num), .new (9 / 10) (by norm_num) (by norm_num),
      .new (19 / 20) (by norm_num) (by norm_num), .new (99 / 100) (by norm_num) (by norm_num)]

/-- `StreamingHistogram.observe` (`histogram.py:210–214`); `none` is an exception. -/
def observe (h : StreamingHistogram) (value : ℚ) : Option StreamingHistogram :=
  match h.histogram.observe .exact (.float value) with
  | .error _ => none
  | .ok histogram =>
    (h.estimators.mapM fun e : StreamingPercentileEstimator ↦ e.observe value).map (⟨histogram, ·⟩)

/-- `f"p{int(q * 100)}"`. -/
def label (quantile : ℚ) : Text := 'p' :: (toString ⌊quantile * 100⌋).toList

/-- `StreamingHistogram.snapshot` (`histogram.py:226–237`). -/
def snapshot (h : StreamingHistogram) : Dict Text (Option ℚ) :=
  let mean := if h.histogram.count = 0 then none else some (h.histogram.total / h.histogram.count)
  let result := Dict.ofEntries
    [("count".toList, some (h.histogram.count : ℚ)), ("sum".toList, some h.histogram.total),
      ("mean".toList, mean), ("min".toList, h.histogram.minimum),
      ("max".toList, h.histogram.maximum)]
  h.estimators.foldl (fun result e ↦ result.set (label e.quantile) e.value) result

/-- The histogram after a stream. -/
def after (name : MetricName) (tags : Tags) (stream : List ℚ) : Option StreamingHistogram :=
  stream.foldlM observe (create name tags)

end StreamingHistogram

namespace Markers

variable {quantile : ℚ} {samples : List ℚ} {value : ℚ}

private theorem sixth_positions (quantile : ℚ) (samples : List ℚ) (value : ℚ) :
    ∃ cell : Int,
      ((initializeMarkers quantile samples).shift value).positions 1 =
        (if cell + 1 ≤ 1 then 3 else 2) ∧
      ((initializeMarkers quantile samples).shift value).positions 2 =
        (if cell + 1 ≤ 2 then 4 else 3) ∧
      ((initializeMarkers quantile samples).shift value).positions 3 =
        if cell + 1 ≤ 3 then 5 else 4 :=
  ⟨((initializeMarkers quantile samples).place value).1, rfl, rfl, rfl⟩

private theorem height_of_move {m m' : Markers} {i : Fin 5} {d : Int}
    (h : m.move i d = some m') : movedHeight m.heights m.positions i d = some (m'.heights i) := by
  obtain ⟨height, hheight, rfl⟩ := Option.map_eq_some_iff.mp h
  dsimp only
  rw [hheight, update_self]

/-- A sixth value leaves the height of the median's middle marker alone. -/
theorem sixth_median (hlen : samples.length = 5) (value : ℚ) :
    ∃ m, (initializeMarkers (1 / 2) samples).updateMarkers value = some m ∧
      m.heights 2 = ((initializeMarkers (1 / 2) samples).shift value).heights 2 := by
  obtain ⟨hm, -, -⟩ := initializeMarkers_spec (1 / 2) hlen
  obtain ⟨hshift, -, -, -⟩ := shift_spec hm value
  obtain ⟨cell, -, hsecond, -⟩ := sixth_positions (1 / 2) samples value
  obtain ⟨m₁, hadjust₁, hm₁, hdesired₁, hframe₁⟩ :=
    adjust_spec hshift (i := 1) (by decide) (by decide)
  have hdesired : m₁.desiredPositions 2 = 1 + 4 * (1 / 2) + 1 / 2 := by
    rw [hdesired₁]
    rfl
  have hposition : m₁.positions 2 = if cell + 1 ≤ 2 then 4 else 3 := by
    rw [(hframe₁ 2 (by decide)).2, hsecond]
  have hstays : m₁.adjust 2 = some m₁ := by
    rw [adjust, hdesired, hposition, if_neg]
    split <;> norm_num
  obtain ⟨m₃, hadjust₃, -, -, hframe₃⟩ := adjust_spec hm₁ (i := 3) (by decide) (by decide)
  refine ⟨m₃, updateMarkers_eq hadjust₁ hstays hadjust₃, ?_⟩
  rw [(hframe₃ 2 (by decide)).1, (hframe₁ 2 (by decide)).1]

/-- A sixth value moves the middle markers of all high quantiles in the same way. -/
theorem sixth_high (hlow : 9 / 10 ≤ quantile) (hlen : samples.length = 5) (value : ℚ) :
    ∃ m, (initializeMarkers quantile samples).updateMarkers value = some m ∧
      sixth samples value = some (m.heights 2) := by
  obtain ⟨hm, -, -⟩ := initializeMarkers_spec quantile hlen
  obtain ⟨hshift, -, -, -⟩ := shift_spec hm value
  obtain ⟨cell, hfirst, hsecond, hthird⟩ := sixth_positions quantile samples value
  have hdesired₁ : ((initializeMarkers quantile samples).shift value).desiredPositions 1 =
      1 + 2 * quantile + quantile / 2 := rfl
  have hdesired₂ : ((initializeMarkers quantile samples).shift value).desiredPositions 2 =
      1 + 4 * quantile + quantile := rfl
  have hsixth : sixth samples value =
      if 1 < ((initializeMarkers quantile samples).shift value).positions 3 -
          ((initializeMarkers quantile samples).shift value).positions 2 then
        movedHeight ((initializeMarkers quantile samples).shift value).heights
          ((initializeMarkers quantile samples).shift value).positions 2 1
      else some (((initializeMarkers quantile samples).shift value).heights 2) := rfl
  have hupdate {m₁ m₂ m₃ : Markers}
      (h₁ : ((initializeMarkers quantile samples).shift value).adjust 1 = some m₁)
      (h₂ : m₁.adjust 2 = some m₂) (h₃ : m₂.adjust 3 = some m₃) :
      (initializeMarkers quantile samples).updateMarkers value = some m₃ :=
    updateMarkers_eq h₁ h₂ h₃
  rw [hsixth]
  generalize (initializeMarkers quantile samples).shift value = m at *
  by_cases hroom : 1 < m.positions 3 - m.positions 2
  · -- the second marker is next to the third one, which moves to the right
    rw [if_pos hroom]
    have hnear : m.positions 1 = 2 ∧ m.positions 2 = 3 := by
      rw [hsecond, hthird] at hroom
      rw [hfirst, hsecond]
      split at hroom <;> split at hroom <;> omega
    have hstays : m.adjust 1 = some m := by
      rw [adjust, if_neg]
      rintro (⟨-, hgap⟩ | ⟨hdiff, -⟩)
      · rw [show (1 : Fin 5) + 1 = 2 from rfl, hnear.1, hnear.2] at hgap
        omega
      · rw [hdesired₁, hnear.1] at hdiff
        push_cast at hdiff
        linarith only [hdiff, hlow]
    have hup : 1 ≤ m.desiredPositions 2 - (m.positions 2 : ℚ) := by
      rw [hdesired₂, hnear.2]
      push_cast
      linarith only [hlow]
    have hmove : m.adjust 2 = m.move 2 1 := by
      rw [adjust, if_pos (.inl ⟨hup, hroom⟩), if_pos hup]
    obtain ⟨m₂, hadjust₂, hm₂, -, -⟩ := adjust_spec hshift (i := 2) (by decide) (by decide)
    obtain ⟨m₃, hadjust₃, -, -, hframe₃⟩ := adjust_spec hm₂ (i := 3) (by decide) (by decide)
    refine ⟨m₃, hupdate hstays hadjust₂ hadjust₃, ?_⟩
    rw [(hframe₃ 2 (by decide)).1]
    exact height_of_move (hmove ▸ hadjust₂)
  · rw [if_neg hroom]
    obtain ⟨m₁, hadjust₁, hm₁, hsame₁, hframe₁⟩ :=
      adjust_spec hshift (i := 1) (by decide) (by decide)
    have hstays : m₁.adjust 2 = some m₁ := by
      rw [adjust, if_neg]
      rintro (⟨-, hgap⟩ | ⟨hdiff, -⟩)
      · rw [show (2 : Fin 5) + 1 = 3 from rfl, (hframe₁ 3 (by decide)).2,
          (hframe₁ 2 (by decide)).2] at hgap
        exact hroom hgap
      · have hposition : m.positions 2 ≤ 4 := by
          rw [hsecond]
          split <;> decide
        have hcast : (m.positions 2 : ℚ) ≤ 4 := by exact_mod_cast hposition
        rw [hsame₁, hdesired₂, (hframe₁ 2 (by decide)).2] at hdiff
        linarith only [hdiff, hlow, hcast]
    obtain ⟨m₃, hadjust₃, -, -, hframe₃⟩ := adjust_spec hm₁ (i := 3) (by decide) (by decide)
    refine ⟨m₃, hupdate hadjust₁ hstays hadjust₃, ?_⟩
    rw [(hframe₃ 2 (by decide)).1, (hframe₁ 2 (by decide)).1]

/-- The middle marker of a high quantile is not below the median's. -/
theorem le_sixth (hlen : samples.length = 5) {value height : ℚ}
    (h : sixth samples value = some height) :
    ((initializeMarkers (1 / 2) samples).shift value).heights 2 ≤ height := by
  obtain ⟨hm, -, -⟩ := initializeMarkers_spec (1 / 2) hlen
  obtain ⟨hshift, -, -, -⟩ := shift_spec hm value
  rw [sixth] at h
  split at h
  · obtain ⟨moved, hmoved, -, -, hup⟩ := movedHeight_spec (i := 2) hshift.positions hshift.heights
      (by decide) (by decide) (.inl rfl)
    cases hmoved.symm.trans h
    exact hup rfl
  · exact (Option.some.inj h).le

end Markers

namespace StreamingPercentileEstimator

variable {quantile : ℚ} {hpos : 0 < quantile} {hlt : quantile < 1} {stream : List ℚ}
  {e : StreamingPercentileEstimator}

/-- The fifth value makes the markers. -/
theorem markers_five (hlen : stream.length = 5) (he : after quantile hpos hlt stream = some e) :
    e.markers = some (.initializeMarkers quantile stream) := by
  obtain ⟨samples, value, rfl⟩ : ∃ samples value, stream = samples ++ [value] := by
    rcases List.eq_nil_or_concat' stream with rfl | hsplit
    · cases hlen
    · exact hsplit
  have hfour : samples.length = 4 := by simpa using hlen
  obtain ⟨e₄, he₄, hsaw⟩ := saw_after hpos hlt samples
  rw [after_append, he₄, Option.bind_some, observe] at he
  dsimp only at he
  rw [hsaw.early (by omega), if_pos (by omega), if_pos hlen] at he
  rw [← Option.some.inj he]
  dsimp only
  rw [hsaw.quantile]

/-- The estimate after five values. -/
theorem value_five (hlen : stream.length = 5) (he : after quantile hpos hlt stream = some e) :
    e.value = some ((Markers.initializeMarkers quantile stream).heights 2) := by
  obtain ⟨e', he', hsaw⟩ := saw_after hpos hlt stream
  obtain rfl := Option.some.inj (he.symm.trans he')
  exact hsaw.value_late hlen.ge (markers_five hlen he)

/-- The estimate after six values. -/
theorem value_six {value : ℚ} (hlen : stream.length = 5)
    (he : after quantile hpos hlt (stream ++ [value]) = some e) :
    ∃ m, (Markers.initializeMarkers quantile stream).updateMarkers value = some m ∧
      e.value = some (m.heights 2) := by
  obtain ⟨e₅, he₅, hsaw₅⟩ := saw_after hpos hlt stream
  obtain ⟨e', he', hsaw⟩ := saw_after hpos hlt (stream ++ [value])
  obtain rfl := Option.some.inj (he.symm.trans he')
  obtain ⟨hfull, -⟩ := hsaw₅.late hlen.ge
  rw [after_append, he₅, Option.bind_some, observe] at he
  dsimp only at he
  rw [hfull, if_neg (by decide), markers_five hlen he₅] at he
  obtain ⟨m, hm, heq⟩ := Option.map_eq_some_iff.mp he
  refine ⟨m, hm, hsaw.value_late ?_ ?_⟩
  · rw [List.length_append]
    omega
  · rw [← heq]

/-- Among fewer than five values a higher quantile is not lower. -/
theorem value_le_early {high : ℚ} {e' : StreamingPercentileEstimator} {v v' : ℚ}
    (hle : quantile ≤ high) (hsaw : Saw quantile stream e) (hsaw' : Saw high stream e')
    (hne : stream ≠ []) (hearly : stream.length < 5) (hv : e.value = some v)
    (hv' : e'.value = some v') : v ≤ v' := by
  rw [hsaw.value_early hne hearly] at hv
  rw [hsaw'.value_early hne hearly] at hv'
  obtain ⟨hlt, rfl⟩ := List.getElem?_eq_some_iff.mp hv
  obtain ⟨hlt', rfl⟩ := List.getElem?_eq_some_iff.mp hv'
  apply List.sortedLE_insertionSort.getElem_le_getElem_of_le
  apply min_le_min_left
  apply Int.toNat_le_toNat
  apply Int.floor_mono
  exact mul_le_mul_of_nonneg_right hle (Nat.cast_nonneg _)

/-- The estimate is between the extremes. -/
theorem Saw.value_between {least greatest : ℚ} (hsaw : Saw quantile stream e)
    (hleast : IsLeast {x | x ∈ stream} least) (hgreatest : IsGreatest {x | x ∈ stream} greatest) :
    ∃ v, e.value = some v ∧ least ≤ v ∧ v ≤ greatest := by
  by_cases hearly : stream.length < 5
  · have hne : stream ≠ [] := by
      rintro rfl
      cases hleast.1
    obtain ⟨v, hmem, hv⟩ := hsaw.exists_value_early hne hearly
    exact ⟨v, hv, hleast.2 hmem, hgreatest.2 hmem⟩
  · obtain ⟨-, m, hmarkers, hm, -, -, hlow, hhigh⟩ := hsaw.late (Nat.not_lt.mp hearly)
    refine ⟨m.heights 2, hsaw.value_late (Nat.not_lt.mp hearly) hmarkers, ?_, ?_⟩
    · rw [hleast.unique hlow]
      exact hm.heights (by decide)
    · rw [hgreatest.unique hhigh]
      exact hm.heights (by decide)

/-- Among at most six values the median is not above a high quantile, and a higher quantile is not
lower. -/
theorem value_le_short {high : ℚ} {hpos' : 0 < high} {hlt' : high < 1}
    {e' : StreamingPercentileEstimator} {v v' : ℚ} (hlow : quantile = 1 / 2 ∨ 9 / 10 ≤ quantile)
    (hhigh : 9 / 10 ≤ high) (hle : quantile ≤ high) (he : after quantile hpos hlt stream = some e)
    (he' : after high hpos' hlt' stream = some e') (hne : stream ≠ []) (hshort : stream.length ≤ 6)
    (hv : e.value = some v) (hv' : e'.value = some v') : v ≤ v' := by
  obtain ⟨f, hf, hsaw⟩ := saw_after hpos hlt stream
  obtain rfl := Option.some.inj (he.symm.trans hf)
  obtain ⟨f', hf', hsaw'⟩ := saw_after hpos' hlt' stream
  obtain rfl := Option.some.inj (he'.symm.trans hf')
  rcases lt_trichotomy stream.length 5 with hearly | hfive | hlate
  · exact value_le_early hle hsaw hsaw' hne hearly hv hv'
  · rw [value_five hfive he] at hv
    rw [value_five hfive he'] at hv'
    rw [← Option.some.inj hv, ← Option.some.inj hv']
    exact le_refl _
  · obtain ⟨samples, value, rfl⟩ := (List.eq_nil_or_concat' stream).resolve_left hne
    have hlen : samples.length = 5 := by
      rw [List.length_append, List.length_singleton] at hlate hshort
      omega
    obtain ⟨m, hm, hvalue⟩ := value_six hlen he
    obtain ⟨m', hm', hvalue'⟩ := value_six hlen he'
    obtain ⟨n', hn', hsixth'⟩ := Markers.sixth_high hhigh hlen value
    obtain rfl := Option.some.inj (hm'.symm.trans hn')
    obtain rfl := Option.some.inj (hv.symm.trans hvalue)
    obtain rfl := Option.some.inj (hv'.symm.trans hvalue')
    rcases hlow with rfl | hlow
    · obtain ⟨n, hn, hmedian⟩ := Markers.sixth_median hlen value
      obtain rfl := Option.some.inj (hm.symm.trans hn)
      rw [hmedian]
      exact Markers.le_sixth hlen hsixth'
    · obtain ⟨n, hn, hsixth⟩ := Markers.sixth_high hlow hlen value
      obtain rfl := Option.some.inj (hm.symm.trans hn)
      exact (Option.some.inj (hsixth.symm.trans hsixth')).le

end StreamingPercentileEstimator

namespace StreamingHistogram

variable {name : MetricName} {tags : Tags} {stream : List ℚ} {h : StreamingHistogram}

/-- An estimator that has been fed a stream. -/
def Fed (quantile : ℚ) (stream : List ℚ) (e : StreamingPercentileEstimator) : Prop :=
  ∃ hpos hlt, StreamingPercentileEstimator.after quantile hpos hlt stream = some e

/-- One more value is fed. -/
theorem Fed.observe {quantile : ℚ} {e : StreamingPercentileEstimator} (hfed : Fed quantile stream e)
    (value : ℚ) : ∃ e', e.observe value = some e' ∧ Fed quantile (stream ++ [value]) e' := by
  obtain ⟨hpos, hlt, he⟩ := hfed
  obtain ⟨e', he', -⟩ :=
    StreamingPercentileEstimator.saw_after hpos hlt (stream ++ [value])
  refine ⟨e', ?_, hpos, hlt, he'⟩
  rw [StreamingPercentileEstimator.after_append, he] at he'
  exact he'

/-- The estimate of a fed estimator is between the extremes. -/
theorem Fed.value_between {quantile least greatest : ℚ} {e : StreamingPercentileEstimator}
    (hfed : Fed quantile stream e) (hleast : IsLeast {x | x ∈ stream} least)
    (hgreatest : IsGreatest {x | x ∈ stream} greatest) :
    e.quantile = quantile ∧ ∃ v, e.value = some v ∧ least ≤ v ∧ v ≤ greatest := by
  obtain ⟨hpos, hlt, he⟩ := hfed
  obtain ⟨e', he', hsaw⟩ := StreamingPercentileEstimator.saw_after hpos hlt stream
  obtain rfl := Option.some.inj (he.symm.trans he')
  exact ⟨hsaw.quantile, hsaw.value_between hleast hgreatest⟩

/-- The estimates of two fed estimators among few values. -/
theorem Fed.value_le_short {low high v v' : ℚ} {e e' : StreamingPercentileEstimator}
    (hfed : Fed low stream e) (hfed' : Fed high stream e') (hlow : low = 1 / 2 ∨ 9 / 10 ≤ low)
    (hhigh : 9 / 10 ≤ high) (hle : low ≤ high) (hne : stream ≠ []) (hshort : stream.length ≤ 6)
    (hv : e.value = some v) (hv' : e'.value = some v') : v ≤ v' := by
  obtain ⟨_, _, he⟩ := hfed
  obtain ⟨_, _, he'⟩ := hfed'
  exact StreamingPercentileEstimator.value_le_short hlow hhigh hle he he' hne hshort hv hv'

/-- What the estimators and the extremes of a histogram have seen. -/
structure Watched (stream : List ℚ) (h : StreamingHistogram) : Prop where
  estimators : ∃ e₅₀ e₉₀ e₉₅ e₉₉, h.estimators = [e₅₀, e₉₀, e₉₅, e₉₉] ∧ Fed (1 / 2) stream e₅₀ ∧
    Fed (9 / 10) stream e₉₀ ∧ Fed (19 / 20) stream e₉₅ ∧ Fed (99 / 100) stream e₉₉
  none : stream = [] → h.histogram.minimum = none ∧ h.histogram.maximum = none
  some : stream ≠ [] → ∃ least greatest, h.histogram.minimum = some least ∧
    h.histogram.maximum = some greatest ∧ IsLeast {x | x ∈ stream} least ∧
    IsGreatest {x | x ∈ stream} greatest

/-- One more value is watched. -/
theorem Watched.observe (hw : Watched stream h) (value : ℚ) :
    ∃ h', h.observe value = .some h' ∧ Watched (stream ++ [value]) h' := by
  obtain ⟨e₅₀, e₉₀, e₉₅, e₉₉, hes, h₅₀, h₉₀, h₉₅, h₉₉⟩ := hw.estimators
  obtain ⟨e₅₀', ho₅₀, hf₅₀⟩ := h₅₀.observe value
  obtain ⟨e₉₀', ho₉₀, hf₉₀⟩ := h₉₀.observe value
  obtain ⟨e₉₅', ho₉₅, hf₉₅⟩ := h₉₅.observe value
  obtain ⟨e₉₉', ho₉₉, hf₉₉⟩ := h₉₉.observe value
  have hmap : (h.estimators.mapM fun e : StreamingPercentileEstimator ↦ e.observe value) =
      .some [e₅₀', e₉₀', e₉₅', e₉₉'] := by
    rw [hes]
    simp [ho₅₀, ho₉₀, ho₉₅, ho₉₉]
  rw [StreamingHistogram.observe, Histogram.observe]
  dsimp only [MetricValue.toFloat]
  rw [hmap]
  refine ⟨_, rfl, ⟨e₅₀', e₉₀', e₉₅', e₉₉', rfl, hf₅₀, hf₉₀, hf₉₅, hf₉₉⟩, fun hnil ↦ ?_, fun _ ↦ ?_⟩
  · simp at hnil
  · by_cases hnil : stream = []
    · obtain ⟨hmin, hmax⟩ := hw.none hnil
      refine ⟨value, value, ?_, ?_, ?_, ?_⟩
      · dsimp only
        rw [hmin]
      · dsimp only
        rw [hmax]
      · rw [hnil]
        simp
      · rw [hnil]
        simp
    · obtain ⟨least, greatest, hmin, hmax, hleast, hgreatest⟩ := hw.some hnil
      refine ⟨min least value, max greatest value, ?_, ?_,
        StreamingPercentileEstimator.isLeast_append hleast,
        StreamingPercentileEstimator.isGreatest_append hgreatest⟩
      · dsimp only [Floats.exact]
        rw [hmin]
        rcases lt_or_ge value least with hlt | hge
        · simp [hlt, hlt.le]
        · simp [hge]
      · dsimp only [Floats.exact]
        rw [hmax]
        rcases lt_or_ge greatest value with hlt | hge
        · simp [hlt, hlt.le]
        · simp [hge]

/-- No observation of a stream raises. -/
theorem watched_after (name : MetricName) (tags : Tags) (stream : List ℚ) :
    ∃ h, after name tags stream = some h ∧ Watched stream h := by
  induction stream using List.reverseRecOn with
  | nil =>
    refine ⟨_, rfl, ⟨_, _, _, _, rfl, ?_, ?_, ?_, ?_⟩, fun _ ↦ ⟨rfl, rfl⟩, fun hne ↦ absurd rfl hne⟩
    all_goals exact ⟨by norm_num, by norm_num, rfl⟩
  | append_singleton stream value ih =>
    obtain ⟨h, hh, hw⟩ := ih
    obtain ⟨h', hh', hw'⟩ := hw.observe value
    refine ⟨h', ?_, hw'⟩
    rw [after] at hh
    rw [after, List.foldlM_append, hh]
    show [value].foldlM StreamingHistogram.observe h = .some h'
    rw [List.foldlM_cons, hh']
    rfl

/-- What a snapshot shows of the estimates and the extremes. -/
theorem snapshot_spec {e₅₀ e₉₀ e₉₅ e₉₉ : StreamingPercentileEstimator}
    (hes : h.estimators = [e₅₀, e₉₀, e₉₅, e₉₉]) (h₅₀ : e₅₀.quantile = 1 / 2)
    (h₉₀ : e₉₀.quantile = 9 / 10) (h₉₅ : e₉₅.quantile = 19 / 20) (h₉₉ : e₉₉.quantile = 99 / 100) :
    h.snapshot.get? "min".toList = some h.histogram.minimum ∧
      h.snapshot.get? "max".toList = some h.histogram.maximum ∧
      h.snapshot.get? "p50".toList = some e₅₀.value ∧
      h.snapshot.get? "p90".toList = some e₉₀.value ∧
      h.snapshot.get? "p95".toList = some e₉₅.value ∧
      h.snapshot.get? "p99".toList = some e₉₉.value := by
  have hlabels : label (1 / 2) = "p50".toList ∧ label (9 / 10) = "p90".toList ∧
      label (19 / 20) = "p95".toList ∧ label (99 / 100) = "p99".toList := by decide +kernel
  rw [snapshot, hes]
  simp only [List.foldl_cons, List.foldl_nil, h₅₀, h₉₀, h₉₅, h₉₉, hlabels, Dict.get?_set]
  refine ⟨?_, ?_, ?_, ?_, ?_, ?_⟩
  all_goals rfl

/-- A snapshot shows the extremes of the stream, every estimate is between them, and those of at
most six values are in order. -/
theorem snapshot_between (name : MetricName) (tags : Tags) (stream : List ℚ) (hne : stream ≠ []) :
    ∃ h least greatest p₅₀ p₉₀ p₉₅ p₉₉, after name tags stream = some h ∧
      h.snapshot.get? "min".toList = some (some least) ∧
      h.snapshot.get? "max".toList = some (some greatest) ∧
      h.snapshot.get? "p50".toList = some (some p₅₀) ∧
      h.snapshot.get? "p90".toList = some (some p₉₀) ∧
      h.snapshot.get? "p95".toList = some (some p₉₅) ∧
      h.snapshot.get? "p99".toList = some (some p₉₉) ∧
      (∀ p ∈ [p₅₀, p₉₀, p₉₅, p₉₉], least ≤ p ∧ p ≤ greatest) ∧
      (stream.length ≤ 6 → p₅₀ ≤ p₉₀ ∧ p₉₀ ≤ p₉₅ ∧ p₉₅ ≤ p₉₉) := by
  obtain ⟨h, hh, hw⟩ := watched_after name tags stream
  obtain ⟨e₅₀, e₉₀, e₉₅, e₉₉, hes, h₅₀, h₉₀, h₉₅, h₉₉⟩ := hw.estimators
  obtain ⟨least, greatest, hmin, hmax, hleast, hgreatest⟩ := hw.some hne
  obtain ⟨hq₅₀, v₅₀, hv₅₀, hb₅₀⟩ := h₅₀.value_between hleast hgreatest
  obtain ⟨hq₉₀, v₉₀, hv₉₀, hb₉₀⟩ := h₉₀.value_between hleast hgreatest
  obtain ⟨hq₉₅, v₉₅, hv₉₅, hb₉₅⟩ := h₉₅.value_between hleast hgreatest
  obtain ⟨hq₉₉, v₉₉, hv₉₉, hb₉₉⟩ := h₉₉.value_between hleast hgreatest
  obtain ⟨hsmin, hsmax, hs₅₀, hs₉₀, hs₉₅, hs₉₉⟩ := snapshot_spec hes hq₅₀ hq₉₀ hq₉₅ hq₉₉
  rw [hmin] at hsmin
  rw [hmax] at hsmax
  rw [hv₅₀] at hs₅₀
  rw [hv₉₀] at hs₉₀
  rw [hv₉₅] at hs₉₅
  rw [hv₉₉] at hs₉₉
  refine ⟨h, least, greatest, v₅₀, v₉₀, v₉₅, v₉₉, hh, hsmin, hsmax, hs₅₀, hs₉₀, hs₉₅, hs₉₉,
    ?_, fun hshort ↦ ?_⟩
  · intro p hp
    simp only [List.mem_cons, List.not_mem_nil, or_false] at hp
    rcases hp with rfl | rfl | rfl | rfl
    · exact hb₅₀
    · exact hb₉₀
    · exact hb₉₅
    · exact hb₉₉
  · refine ⟨?_, ?_, ?_⟩
    · exact h₅₀.value_le_short h₉₀ (.inl rfl) (by norm_num) (by norm_num) hne hshort hv₅₀ hv₉₀
    · exact h₉₀.value_le_short h₉₅ (.inr (by norm_num)) (by norm_num) (by norm_num) hne hshort hv₉₀
        hv₉₅
    · exact h₉₅.value_le_short h₉₉ (.inr (by norm_num)) (by norm_num) (by norm_num) hne hshort hv₉₅
        hv₉₉

/-- Five values in order. -/
theorem snapshot_between_five : ∃ h p₅₀ p₉₉, after [] .empty [1, 2, 3, 4, 5] = some h ∧
    h.snapshot.get? "p50".toList = some (some p₅₀) ∧
    h.snapshot.get? "p99".toList = some (some p₉₉) ∧ p₅₀ ≤ p₉₉ := by
  obtain ⟨h, _, _, p₅₀, p₉₀, p₉₅, p₉₉, hh, -, -, h₅₀, -, -, h₉₉, -, hshort⟩ :=
    snapshot_between [] .empty [1, 2, 3, 4, 5] (by decide)
  obtain ⟨hle₅₀, hle₉₀, hle₉₅⟩ := hshort (by decide)
  exact ⟨h, p₅₀, p₉₉, hh, h₅₀, h₉₉, hle₅₀.trans (hle₉₀.trans hle₉₅)⟩

/-- After a stream a snapshot shows more for the quantile `low` than for `high`. -/
def Inverts (low high : Text) (stream : List ℚ) : Prop :=
  ∃ h p p', after [] .empty stream = some h ∧ h.snapshot.get? low = some (some p) ∧
    h.snapshot.get? high = some (some p') ∧ p' < p

private def inverts (low high : Text) (stream : List ℚ) : Bool :=
  (after [] .empty stream).any fun h ↦ (h.snapshot.get? low).join.any fun p ↦
    (h.snapshot.get? high).join.any fun p' ↦ decide (p' < p)

private theorem inverts_spec {low high : Text} {stream : List ℚ}
    (hinverts : inverts low high stream = true) : Inverts low high stream := by
  obtain ⟨h, hh, hlow⟩ := (Option.any_eq_true _ _).mp hinverts
  obtain ⟨p, hp, hhigh⟩ := (Option.any_eq_true _ _).mp hlow
  obtain ⟨p', hp', hlt⟩ := (Option.any_eq_true _ _).mp hhigh
  exact ⟨h, p, p', hh, Option.join_eq_some_iff.mp hp, Option.join_eq_some_iff.mp hp',
    of_decide_eq_true hlt⟩

/-- Seven values put the median above the high quantiles, and more values put these out of order. -/
theorem quantiles_inverted :
    Inverts "p50".toList "p90".toList [8, 0, 4, 8, 1, 9, 6] ∧
      Inverts "p90".toList "p95".toList [2, 1, 1, 1, 2, 0, 1, 0, 2, 0, 2, 0] ∧
      Inverts "p95".toList "p99".toList
        [5, 2, 7, 5, 5, 8, 2, 8, 2, 3, 5, 7, 4, 1, 10, 6, 2, 9, 9, 8, 10, 6] := by
  refine ⟨inverts_spec ?_, inverts_spec ?_, inverts_spec ?_⟩
  all_goals decide +kernel

end StreamingHistogram
end SalesData.Performance

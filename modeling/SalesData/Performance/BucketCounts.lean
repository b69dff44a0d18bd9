import Mathlib.Algebra.Order.Ring.Rat
import Mathlib.Data.List.Induction
import Mathlib.Order.WithBot
import SalesData.Base.Bisect
import SalesData.Performance.Histogram

/-!
# Buckets under any bounds

`Histogram` (`core/performance/histogram.py:33–76`) with the bounds that its caller passes: ints and
floats in ascending order, repeated and infinite ones among them. Values are any floats. A NaN is
below nothing, so that the search of `observe` puts it into the first bucket.
-/

namespace SalesData.Performance.AnyBounds

open Base Base.Bisect

/-- What comparisons tell apart: rationals and two infinite numbers. -/
abbrev Extended := WithBot (WithTop ℚ)

/-- A rational among them. -/
def Extended.ofRat (q : ℚ) : Extended := (q : WithTop ℚ)

/-- Rationals keep their order. -/
theorem Extended.ofRat_le_ofRat {q q' : ℚ} : ofRat q ≤ ofRat q' ↔ q ≤ q' := by
  rw [ofRat, ofRat, WithBot.coe_le_coe, WithTop.coe_le_coe]

/-- What this code uses of Python's numbers. -/
structure Numbers (F : Type) extends Floats F where
  /-- The number that a float stands for; a NaN stands for none. -/
  number : F → Option Extended
  /-- `str(value)`. -/
  str : MetricValue F → Text

/-- `Histogram` (`histogram.py:33–43`). -/
structure Histogram (F : Type) where
  name : MetricName
  tags : Tags
  bucketBounds : List (MetricValue F)
  bucketCounts : List Nat
  count : Nat
  total : F
  minimum : Option F
  maximum : Option F
  length_counts : bucketCounts.length = bucketBounds.length + 1

/-- `HistogramError(message)`. -/
structure HistogramError where
  message : Text

/-- The message of the constructor. -/
def boundsNotSortedMessage : Text := "bucket_bounds must be sorted ascending".toList

namespace Numbers

variable {F : Type} (py : Numbers F)

/-- The number of an `int` or a `float`. -/
def numberOf : MetricValue F → Option Extended
  | .int n => some (.ofRat n)
  | .float x => py.number x

/-- `bound < x`. -/
def below (x : F) (bound : MetricValue F) : Bool := less (py.numberOf bound) (py.number x)

/-- `x <= bound`. -/
def within (bound : MetricValue F) (x : F) : Bool := atMost (py.number x) (py.numberOf bound)

/-- `list(bounds) == sorted(bounds)`: sorting leaves a list alone where no element is less than the
one before it. -/
def isSorted : List (MetricValue F) → Bool
  | b :: b' :: bounds => !less (py.numberOf b') (py.numberOf b) && isSorted (b' :: bounds)
  | _ => true

/-- Bounds in ascending order. -/
def Sorted (bounds : List (MetricValue F)) : Prop :=
  bounds.Pairwise fun b b' ↦ atMost (py.numberOf b) (py.numberOf b') = true

/-- Different numbers have different texts, and none has that of the last bucket. -/
structure Labels (bounds : List (MetricValue F)) : Prop where
  tells : ∀ b ∈ bounds, ∀ b' ∈ bounds, py.str b = py.str b' → py.numberOf b = py.numberOf b'
  not_inf : ∀ b ∈ bounds, py.str b ≠ infLabel

end Numbers

namespace Histogram

variable {F : Type} (py : Numbers F)

/-- The constructor (`histogram.py:44–49`). -/
def create (name : MetricName) (tags : Tags) (bounds : List (MetricValue F)) :
    Except HistogramError (Histogram F) :=
  if py.isSorted bounds then
    .ok
      { name, tags
        bucketBounds := bounds
        bucketCounts := List.replicate (bounds.length + 1) 0
        count := 0
        total := py.zero
        minimum := none
        maximum := none
        length_counts := List.length_replicate }
  else .error ⟨boundsNotSortedMessage⟩

/-- `observe` (`histogram.py:51–59`). -/
def observe (h : Histogram F) (value : MetricValue F) : Except Error (Histogram F) :=
  match value.toFloat py.toFloats with
  | .error e => .error e
  | .ok x => .ok
    { h with
      count := h.count + 1
      total := py.add h.total x
      minimum := some <| match h.minimum with
        | none => x
        | some least => if py.lt x least then x else least
      maximum := some <| match h.maximum with
        | none => x
        | some greatest => if py.lt greatest x then x else greatest
      bucketCounts := h.bucketCounts.modify (bisectLeft (py.below x) h.bucketBounds) (· + 1)
      length_counts := (List.length_modify ..).trans h.length_counts }

/-- The labels of the buckets. -/
def labels (h : Histogram F) : List Text := h.bucketBounds.map py.str ++ [infLabel]

/-- `cumulative_counts` (`histogram.py:68–76`). -/
def cumulativeCounts (h : Histogram F) : Dict Text Nat :=
  Dict.ofEntries ((h.labels py).zip (runningSums 0 h.bucketCounts))

/-- The cumulative count under a label. -/
def countUnder (h : Histogram F) (label : Text) : Nat := ((h.cumulativeCounts py).get? label).getD 0

/-- The histogram after a stream; a value that raises leaves it alone. -/
def after (h : Histogram F) (stream : List (MetricValue F)) : Histogram F :=
  stream.foldl (fun h value ↦ (h.observe py value).toOption.getD h) h

/-- The values that are observed: those of the stream as floats. -/
def observed (stream : List (MetricValue F)) : List F :=
  stream.filterMap fun value ↦ (value.toFloat py.toFloats).toOption

/-- The buckets count `xs` exactly. -/
structure Exact (h : Histogram F) (xs : List F) : Prop where
  /-- Under a bound are the values that it is not below. -/
  notAbove : ∀ b ∈ h.bucketBounds, (h.cumulativeCounts py).get? (py.str b) =
    some (xs.countP fun x ↦ !py.below x b)
  /-- These are the values at most the bound unless a NaN is among them. -/
  within : ∀ b ∈ h.bucketBounds, py.numberOf b ≠ none →
    ((h.cumulativeCounts py).get? (py.str b) = some (xs.countP (py.within b)) ↔
      ∀ x ∈ xs, py.number x ≠ none)
  nondecreasing : h.bucketBounds.Pairwise fun b b' ↦
    h.countUnder py (py.str b) ≤ h.countUnder py (py.str b')
  inf : (h.cumulativeCounts py).get? infLabel = some h.count
  sum : h.bucketCounts.sum = h.count
  count : h.count = xs.length

end Histogram

variable {F : Type} {py : Numbers F} {bounds : List (MetricValue F)}

namespace Numbers

/-- The constructor accepts bounds in ascending order. -/
theorem Sorted.isSorted (h : py.Sorted bounds) : py.isSorted bounds = true := by
  induction bounds with
  | nil => rfl
  | cons b bounds ih =>
    obtain ⟨hfirst, hrest⟩ := List.pairwise_cons.mp h
    cases bounds with
    | nil => rfl
    | cons b' bounds =>
      rw [Numbers.isSorted, not_less_of_atMost (hfirst b' List.mem_cons_self), ih hrest]
      rfl

/-- The search for a value meets ascending bounds. -/
theorem Sorted.ascending (h : py.Sorted bounds) (x : F) : Ascending (py.below x) bounds :=
  h.imp fun hle hb ↦ less_of_atMost hle hb

/-- A bound that is a number is not below a value that is at most it, and not below a NaN. -/
theorem not_below_iff {b : MetricValue F} (hb : py.numberOf b ≠ none) (x : F) :
    (!py.below x b) = true ↔ py.within b x = true ∨ py.number x = none := by
  obtain ⟨q, hq⟩ := Option.ne_none_iff_exists'.mp hb
  rw [Bool.not_eq_true', below, within, hq, not_less_iff]

end Numbers

namespace Histogram

/-- A histogram that has counted `xs` under its bounds. -/
structure Tracks (py : Numbers F) (bounds : List (MetricValue F)) (h : Histogram F)
    (xs : List F) : Prop where
  bounds_eq : h.bucketBounds = bounds
  counted : Counted (fun x ↦ bisectLeft (py.below x) bounds) (bounds.length + 1) xs h.bucketCounts
  count_eq : h.count = xs.length

/-- A new histogram. -/
theorem tracks_create {name : MetricName} {tags : Tags} {h : Histogram F}
    (hcreate : create py name tags bounds = .ok h) : Tracks py bounds h [] := by
  unfold create at hcreate
  split at hcreate
  · cases hcreate
    exact ⟨rfl, counted_nil _ _, rfl⟩
  · cases hcreate

variable {h h' : Histogram F} {xs : List F}

/-- A value is counted as a float, or raises. -/
theorem Tracks.observe (ht : Tracks py bounds h xs) (value : MetricValue F) :
    Tracks py bounds ((h.observe py value).toOption.getD h) (xs ++ observed py [value]) := by
  unfold Histogram.observe
  cases hx : value.toFloat py.toFloats with
  | error e =>
    have hnone : observed py [value] = [] := by simp [observed, hx, Except.toOption]
    rw [hnone, List.append_nil]
    exact ht
  | ok x =>
    have hone : observed py [value] = [x] := by simp [observed, hx, Except.toOption]
    rw [hone]
    refine ⟨ht.bounds_eq, ?_, ?_⟩
    · show Counted _ _ _ (h.bucketCounts.modify (bisectLeft (py.below x) h.bucketBounds) (· + 1))
      rw [ht.bounds_eq]
      exact ht.counted.observe x
    · show h.count + 1 = (xs ++ [x]).length
      rw [List.length_append, ht.count_eq]
      rfl

/-- A stream is counted. -/
theorem Tracks.after (ht : Tracks py bounds h xs) (stream : List (MetricValue F)) :
    Tracks py bounds (h.after py stream) (xs ++ observed py stream) := by
  induction stream using List.reverseRecOn with
  | nil => simpa [Histogram.after, observed] using ht
  | append_singleton stream value ih =>
    have hstep := ih.observe value
    rw [List.append_assoc, observed, observed, ← List.filterMap_append] at hstep
    rw [Histogram.after, List.foldl_append]
    exact hstep

private theorem bisectLeft_lt (hsorted : py.Sorted bounds) (x : F) :
    bisectLeft (py.below x) bounds < bounds.length + 1 :=
  Nat.lt_succ_of_le (splits_bisectLeft (hsorted.ascending x)).le_length

section Counts

variable (hsorted : py.Sorted bounds) (ht : Tracks py bounds h xs)
include hsorted ht

private theorem runningSums_bound {j : Nat} {b : MetricValue F} (hj : bounds[j]? = some b) :
    (runningSums 0 h.bucketCounts)[j]? = some (xs.countP fun x ↦ !py.below x b) := by
  have hlt := (List.getElem?_eq_some_iff.mp hj).1
  rw [ht.counted.getElem?_runningSums (Nat.lt_succ_of_lt hlt), Option.some.injEq]
  apply List.countP_congr
  intro x _
  rw [decide_eq_true_eq, bisectLeft_le_iff (hsorted.ascending x) hj, Bool.not_eq_true']

private theorem runningSums_last :
    (runningSums 0 h.bucketCounts)[bounds.length]? = some h.count := by
  rw [ht.counted.getElem?_runningSums (Nat.lt_succ_self _), ht.count_eq, Option.some.injEq,
    List.countP_eq_length]
  intro x _
  exact decide_eq_true (Nat.le_of_lt_succ (bisectLeft_lt hsorted x))

private theorem mem_items_iff {label : Text} {n : Nat} :
    (label, n) ∈ (h.labels py).zip (runningSums 0 h.bucketCounts) ↔
      (∃ b ∈ bounds, label = py.str b ∧ n = xs.countP fun x ↦ !py.below x b) ∨
        label = infLabel ∧ n = h.count := by
  rw [List.mem_iff_getElem?]
  simp only [List.getElem?_zip_eq_some, labels, ht.bounds_eq]
  constructor
  · rintro ⟨j, hlabel, hsum⟩
    rcases Nat.lt_trichotomy j bounds.length with hj | rfl | hj
    · have hget := List.getElem?_eq_getElem hj
      rw [List.getElem?_append_left (by simpa using hj), List.getElem?_map, hget] at hlabel
      rw [runningSums_bound hsorted ht hget] at hsum
      cases hlabel
      cases hsum
      exact .inl ⟨_, List.getElem_mem hj, rfl, rfl⟩
    · rw [List.getElem?_append_right (by simp)] at hlabel
      rw [runningSums_last hsorted ht] at hsum
      cases hsum
      simp only [List.length_map, Nat.sub_self, List.getElem?_cons_zero] at hlabel
      cases hlabel
      exact .inr ⟨rfl, rfl⟩
    · rw [List.getElem?_eq_none (by simp; omega)] at hlabel
      cases hlabel
  · rintro (⟨b, hb, rfl, rfl⟩ | ⟨rfl, rfl⟩)
    · obtain ⟨j, hj⟩ := List.mem_iff_getElem?.mp hb
      have hlt := (List.getElem?_eq_some_iff.mp hj).1
      refine ⟨j, ?_, runningSums_bound hsorted ht hj⟩
      rw [List.getElem?_append_left (by simpa using hlt), List.getElem?_map, hj]
      rfl
    · refine ⟨bounds.length, ?_, runningSums_last hsorted ht⟩
      rw [List.getElem?_append_right (by simp)]
      simp

variable (hlabels : py.Labels bounds)
include hlabels

private theorem get?_bound {b : MetricValue F} (hb : b ∈ bounds) :
    (h.cumulativeCounts py).get? (py.str b) = some (xs.countP fun x ↦ !py.below x b) := by
  apply Dict.get?_ofEntries_of_forall
  · exact (mem_items_iff hsorted ht).mpr (.inl ⟨b, hb, rfl, rfl⟩)
  · intro n hn
    rcases (mem_items_iff hsorted ht).mp hn with ⟨b', hb', hstr, rfl⟩ | ⟨hinf, -⟩
    · simp only [Numbers.below, hlabels.tells b hb b' hb' hstr]
    · exact absurd hinf (hlabels.not_inf b hb)

private theorem get?_inf : (h.cumulativeCounts py).get? infLabel = some h.count := by
  apply Dict.get?_ofEntries_of_forall
  · exact (mem_items_iff hsorted ht).mpr (.inr ⟨rfl, rfl⟩)
  · intro n hn
    rcases (mem_items_iff hsorted ht).mp hn with ⟨b, hb, hstr, -⟩ | ⟨-, rfl⟩
    · exact absurd hstr.symm (hlabels.not_inf b hb)
    · rfl

/-- What has been counted is exact. -/
theorem Tracks.exact : Exact py h xs where
  notAbove b hb := get?_bound hsorted ht hlabels (ht.bounds_eq ▸ hb)
  within b hb hnumber := by
    have hwithin (x : F) (hx : py.within b x = true) : (!py.below x b) = true :=
      (Numbers.not_below_iff hnumber x).mpr (.inl hx)
    rw [get?_bound hsorted ht hlabels (ht.bounds_eq ▸ hb), Option.some.injEq, eq_comm,
      countP_eq_countP_iff hwithin]
    refine forall₂_congr fun x _ ↦ ?_
    rw [Numbers.not_below_iff hnumber x]
    constructor
    · intro hle hnone
      have hnan := hle (.inr hnone)
      rw [Numbers.within, hnone] at hnan
      cases hnan
    · exact fun hne h ↦ h.resolve_right hne
  nondecreasing := by
    rw [ht.bounds_eq]
    have hpairs : bounds.Pairwise fun b b' ↦
        (b ∈ bounds ∧ b' ∈ bounds) ∧ atMost (py.numberOf b) (py.numberOf b') = true := by
      rw [List.pairwise_and_iff]
      exact ⟨List.pairwise_of_forall_mem_list fun b hb b' hb' ↦ ⟨hb, hb'⟩, hsorted⟩
    refine hpairs.imp ?_
    rintro b b' ⟨⟨hb, hb'⟩, hle⟩
    rw [countUnder, countUnder, get?_bound hsorted ht hlabels hb,
      get?_bound hsorted ht hlabels hb', Option.getD_some, Option.getD_some]
    apply List.countP_mono_left
    intro x _ hx
    rw [Bool.not_eq_true'] at hx ⊢
    rw [Bool.eq_false_iff] at hx ⊢
    exact fun hbelow ↦ hx (less_of_atMost hle hbelow)
  inf := get?_inf hsorted ht hlabels
  sum := by
    rw [ht.counted.sum_eq fun x _ ↦ bisectLeft_lt hsorted x, ht.count_eq]
  count := ht.count_eq

end Counts

private theorem exists_test (hsorted : py.Sorted bounds) (hlabels : py.Labels bounds)
    (label : Text) : ∃ test : F → Bool, ∀ h xs, Tracks py bounds h xs →
      h.countUnder py label = xs.countP test := by
  by_cases hbound : ∃ b ∈ bounds, label = py.str b
  · obtain ⟨b, hb, rfl⟩ := hbound
    refine ⟨fun x ↦ !py.below x b, fun h xs ht ↦ ?_⟩
    rw [countUnder, get?_bound hsorted ht hlabels hb, Option.getD_some]
  · by_cases hinf : label = infLabel
    · refine ⟨fun _ ↦ true, fun h xs ht ↦ ?_⟩
      rw [hinf, countUnder, get?_inf hsorted ht hlabels, Option.getD_some, ht.count_eq,
        List.countP_true]
    · refine ⟨fun _ ↦ false, fun h xs ht ↦ ?_⟩
      rw [countUnder, List.countP_false]
      cases hget : (h.cumulativeCounts py).get? label with
      | none => rfl
      | some n =>
        rcases (mem_items_iff hsorted ht).mp (Dict.mem_of_get?_ofEntries hget) with
          ⟨b, hb, hstr, -⟩ | ⟨heq, -⟩
        · exact absurd ⟨b, hb, hstr⟩ hbound
        · exact absurd heq hinf

/-- However a stream is split, its counts are the sums of those of its parts. -/
theorem countUnder_append (hsorted : py.Sorted bounds) (hlabels : py.Labels bounds)
    (hnew : Tracks py bounds h []) (stream stream' : List (MetricValue F)) (label : Text) :
    (h.after py (stream ++ stream')).countUnder py label =
      (h.after py stream).countUnder py label + (h.after py stream').countUnder py label := by
  obtain ⟨test, htest⟩ := exists_test hsorted hlabels label
  rw [htest _ _ (hnew.after _), htest _ _ (hnew.after _), htest _ _ (hnew.after _),
    List.nil_append, List.nil_append, List.nil_append, observed, List.filterMap_append,
    List.countP_append]
  rfl

/-- A histogram with ascending bounds is accepted and counts exactly what it observes: under each
bound the values that are not above it, which are those at most the bound unless a NaN has been
observed. The counts are nondecreasing, the last one is `count`, and the counts of two streams add
up. -/
theorem create_exact (py : Numbers F) (name : MetricName) (tags : Tags)
    (bounds : List (MetricValue F)) (hsorted : py.Sorted bounds) (hlabels : py.Labels bounds) :
    ∃ h, create py name tags bounds = .ok h ∧ h.bucketBounds = bounds ∧
      (∀ stream, (h.after py stream).bucketBounds = bounds ∧
        Exact py (h.after py stream) (observed py stream)) ∧
      ∀ stream stream' label, (h.after py (stream ++ stream')).countUnder py label =
        (h.after py stream).countUnder py label + (h.after py stream').countUnder py label := by
  obtain ⟨h, hcreate⟩ : ∃ h, create py name tags bounds = .ok h :=
    ⟨_, if_pos hsorted.isSorted⟩
  have hnew := tracks_create hcreate
  refine ⟨h, hcreate, hnew.bounds_eq, fun stream ↦ ?_, countUnder_append hsorted hlabels hnew⟩
  have hafter := hnew.after stream
  rw [List.nil_append] at hafter
  exact ⟨hafter.bounds_eq, hafter.exact hsorted hlabels⟩

end Histogram

section Default

/-- Comparisons of floats with rationals are those of numbers, and ints have their digits. -/
structure Numbers.Lawful (py : Numbers F) : Prop where
  exceeds_eq : ∀ x q, py.exceeds x q = less (some (.ofRat q)) (py.number x)
  str_int : ∀ n : Nat, py.str (.int n) = Nat.toDigits 10 n

/-- A bound and a rational with its text. -/
structure Numbers.Models (py : Numbers F) (b : MetricValue F) (bound : Bound) : Prop where
  number : py.numberOf b = some (.ofRat bound.value)
  str : py.str b = bound.label

/-- A histogram and the one with rational bounds. -/
structure Represents (py : Numbers F) (h : Histogram F) (h' : Performance.Histogram F) : Prop where
  name : h'.name = h.name
  tags : h'.tags = h.tags
  bounds : List.Forall₂ py.Models h.bucketBounds h'.bucketBounds
  sorted : h'.bucketBounds.Pairwise fun bound bound' ↦ bound.value ≤ bound'.value
  bucketCounts : h'.bucketCounts = h.bucketCounts
  count : h'.count = h.count
  total : h'.total = h.total
  minimum : h'.minimum = h.minimum
  maximum : h'.maximum = h.maximum

private theorem exists_model {bounds' : List Bound} (h : List.Forall₂ py.Models bounds bounds')
    {b : MetricValue F} (hb : b ∈ bounds) : ∃ bound ∈ bounds', py.Models b bound := by
  induction h with
  | nil => cases hb
  | @cons c bound bounds bounds' hc _ ih =>
    rcases List.mem_cons.mp hb with rfl | hb
    · exact ⟨bound, List.mem_cons_self, hc⟩
    · obtain ⟨bound', hbound', hmodel⟩ := ih hb
      exact ⟨bound', List.mem_cons_of_mem _ hbound', hmodel⟩

/-- Rational bounds in order are bounds in order. -/
theorem sorted_of_models {bounds' : List Bound} (h : List.Forall₂ py.Models bounds bounds')
    (hsorted : bounds'.Pairwise fun bound bound' ↦ bound.value ≤ bound'.value) :
    py.Sorted bounds := by
  induction h with
  | nil => exact .nil
  | @cons b bound bounds bounds' hb hrest ih =>
    obtain ⟨hfirst, hsorted⟩ := List.pairwise_cons.mp hsorted
    refine List.pairwise_cons.mpr ⟨fun c hc ↦ ?_, ih hsorted⟩
    obtain ⟨bound', hbound', hc⟩ := exists_model hrest hc
    rw [hb.number, hc.number]
    exact decide_eq_true (Extended.ofRat_le_ofRat.mpr (hfirst bound' hbound'))

namespace Represents

variable {h : Histogram F} {h' : Performance.Histogram F}

private theorem length_takeWhile {bounds' : List Bound} (hpy : py.Lawful) (x : F)
    (hbounds : List.Forall₂ py.Models bounds bounds') :
    (bounds'.takeWhile fun bound ↦ py.exceeds x bound.value).length =
      (bounds.takeWhile (py.below x)).length := by
  induction hbounds with
  | nil => rfl
  | @cons b bound bounds bounds' hb _ ih =>
    have hsame : py.exceeds x bound.value = py.below x b := by
      rw [hpy.exceeds_eq, Numbers.below, hb.number]
    rw [List.takeWhile_cons, List.takeWhile_cons, hsame]
    split
    · rw [List.length_cons, List.length_cons, ih]
    · rfl

/-- Both models of a histogram find the same bucket. -/
theorem bisectLeft_eq (hpy : py.Lawful) (hr : Represents py h h') (x : F) :
    Performance.Histogram.bisectLeft py.toFloats h'.bucketBounds x =
      bisectLeft (py.below x) h.bucketBounds := by
  have hascending := (sorted_of_models hr.bounds hr.sorted).ascending x
  rw [bisectLeft_eq_length_takeWhile hascending, ← length_takeWhile hpy x hr.bounds]
  rfl

/-- Both models of a histogram observe alike. -/
theorem observe (hpy : py.Lawful) (hr : Represents py h h') (value : MetricValue F) :
    (∃ e, h.observe py value = .error e ∧ h'.observe py.toFloats value = .error e) ∨
      ∃ next next', h.observe py value = .ok next ∧ h'.observe py.toFloats value = .ok next' ∧
        Represents py next next' := by
  unfold Histogram.observe Performance.Histogram.observe
  cases value.toFloat py.toFloats with
  | error e => exact .inl ⟨e, rfl, rfl⟩
  | ok x =>
    refine .inr ⟨_, _, rfl, rfl, hr.name, hr.tags, hr.bounds, hr.sorted, ?_, ?_, ?_, ?_, ?_⟩
    · dsimp only
      rw [hr.bisectLeft_eq hpy, hr.bucketCounts]
    · dsimp only
      rw [hr.count]
    · dsimp only
      rw [hr.total]
    · cases hleast : h.minimum with
      | none => simp only [hr.minimum, hleast]
      | some least => simp only [hr.minimum, hleast]
    · cases hgreatest : h.maximum with
      | none => simp only [hr.maximum, hgreatest]
      | some greatest => simp only [hr.maximum, hgreatest]

/-- Both models of a histogram report the same counts. -/
theorem cumulativeCounts_eq (hr : Represents py h h') :
    h.cumulativeCounts py = h'.cumulativeCounts := by
  have hlabels {bounds : List (MetricValue F)} {bounds' : List Bound}
      (hbounds : List.Forall₂ py.Models bounds bounds') :
      bounds.map py.str = bounds'.map (·.label) := by
    induction hbounds with
    | nil => rfl
    | cons hb _ ih => rw [List.map_cons, List.map_cons, hb.str, ih]
  rw [Histogram.cumulativeCounts, Performance.Histogram.cumulativeCounts, Histogram.labels,
    Performance.Histogram.labels, hlabels hr.bounds, hr.bucketCounts]

end Represents

/-- `DEFAULT_HISTOGRAM_BUCKET_BOUNDS_MS` (`constants.py:25–40`): the float 0.5 and some ints. -/
def defaultBounds (half : F) : List (MetricValue F) :=
  .float half :: [1, 2, 5, 10, 25, 50, 100, 250, 500, 1000, 2500, 5000, 10000].map .int

/-- The default histogram is the one of the other modules. -/
theorem represents_create (hpy : py.Lawful) {half : F}
    (hnumber : py.number half = some (.ofRat (1 / 2))) (hstr : py.str (.float half) = "0.5".toList)
    (name : MetricName) (tags : Tags) :
    ∃ h, Histogram.create py name tags (defaultBounds half) = .ok h ∧
      Represents py h (.create py.toFloats name tags) := by
  have hint (n : Nat) {label : Text} (hlabel : Nat.toDigits 10 n = label) :
      py.Models (.int n) ⟨n, label⟩ := ⟨rfl, (hpy.str_int n).trans hlabel⟩
  have hbounds : List.Forall₂ py.Models (defaultBounds half) defaultHistogramBucketBoundsMs :=
    .cons ⟨hnumber, hstr⟩ <| .cons (hint 1 rfl) <| .cons (hint 2 rfl) <| .cons (hint 5 rfl) <|
    .cons (hint 10 rfl) <| .cons (hint 25 rfl) <| .cons (hint 50 rfl) <| .cons (hint 100 rfl) <|
    .cons (hint 250 rfl) <| .cons (hint 500 rfl) <| .cons (hint 1000 rfl) <|
    .cons (hint 2500 rfl) <| .cons (hint 5000 rfl) <| .cons (hint 10000 rfl) .nil
  have hsorted : defaultHistogramBucketBoundsMs.Pairwise fun bound bound' ↦
      bound.value ≤ bound'.value := by
    decide +kernel
  exact ⟨_, if_pos (sorted_of_models hbounds hsorted).isSorted,
    rfl, rfl, hbounds, hsorted, rfl, rfl, rfl, rfl, rfl⟩

end Default

section Examples

-- Rational floats and a NaN, with the texts of those that are written below.
private def rationals : Numbers (Option ℚ) where
  zero := some 0
  add x y := x.bind fun x ↦ y.map (x + ·)
  lt := less
  exceeds x q := less (some q) x
  ofInt n := some (some n)
  number x := x.map Extended.ofRat
  str
    | .int n => (if n < 0 then ['-'] else []) ++ Nat.toDigits 10 n.natAbs
    | .float x => if x = some (1 / 2) then "0.5".toList else "nan".toList

private def half : MetricValue (Option ℚ) := .float (some (1 / 2))

private theorem sorted_repeated : rationals.Sorted [half, half, .int 2] := by
  unfold Numbers.Sorted
  decide +kernel

private theorem labels_repeated : rationals.Labels [half, half, .int 2] := by
  constructor
  · decide +kernel
  · decide +kernel

namespace Histogram

/-- A value at a repeated bound, one between the bounds, one above them and a NaN. -/
theorem create_exact_repeated :
    ∃ h, create rationals "ms".toList .empty [half, half, .int 2] = .ok h ∧
      ((h.after rationals [half, .float (some 1), .int 3, .float none]).cumulativeCounts
        rationals).get? (rationals.str half) = some 2 := by
  obtain ⟨h, hcreate, -, hexact, -⟩ := create_exact rationals "ms".toList .empty
    [half, half, .int 2] sorted_repeated labels_repeated
  obtain ⟨hbounds, hexact⟩ := hexact [half, .float (some 1), .int 3, .float none]
  refine ⟨h, hcreate, (hexact.notAbove half ?_).trans ?_⟩
  · rw [hbounds]
    exact List.mem_cons_self
  · decide +kernel

/-- A NaN is counted under a bound and is not at most it. -/
theorem nan_counted :
    rationals.Sorted [half] ∧ ∃ h, create rationals "ms".toList .empty [half] = .ok h ∧
      ((h.after rationals [.float none]).cumulativeCounts rationals).get? (rationals.str half) =
        some 1 ∧
      ((h.after rationals [.float none]).cumulativeCounts rationals).get? (rationals.str half) ≠
        some ((observed rationals [.float none]).countP (rationals.within half)) := by
  refine ⟨List.pairwise_singleton _ _, _, if_pos rfl, ?_, ?_⟩
  · decide +kernel
  · decide +kernel

end Histogram

end Examples
end SalesData.Performance.AnyBounds

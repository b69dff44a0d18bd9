import Mathlib.Algebra.Order.Ring.Rat
import Mathlib.Data.Int.ConditionallyCompleteOrder
import Mathlib.Data.Fin.VecNotation
import Mathlib.Data.List.Sort
import Mathlib.Data.Rat.Floor
import Mathlib.Order.Bounds.Basic
import Mathlib.Tactic.Linarith
import Mathlib.Tactic.FieldSimp
import Mathlib.Tactic.Positivity
import SalesData.Base.Update

/-!
# Streaming percentiles

`StreamingPercentileEstimator` (`core/performance/histogram.py:84–185`): five markers that
estimate a quantile of a stream. Arithmetic is exact; a division by zero raises, and `none` stands
for the exception.
-/

namespace SalesData.Performance

open Base Function

/-- Python's `/`. -/
def divide (a b : ℚ) : Option ℚ := if b = 0 then none else some (a / b)

/-- A division by something else than zero. -/
theorem divide_of_ne {a b : ℚ} (h : b ≠ 0) : divide a b = some (a / b) := if_neg h

/-- `_heights`, `_positions`, `_desired_positions` and `_increments`, which
`_initialize_markers` fills. -/
structure Markers where
  heights : Fin 5 → ℚ
  positions : Fin 5 → Int
  desiredPositions : Fin 5 → ℚ
  increments : Fin 5 → ℚ

namespace Markers

/-- `_parabolic` (`histogram.py:173–178`). -/
def parabolic (heights : Fin 5 → ℚ) (positions : Fin 5 → Int) (i : Fin 5) (d : Int) : Option ℚ := do
  let nLeft := positions (i - 1)
  let nMid := positions i
  let nRight := positions (i + 1)
  let hLeft := heights (i - 1)
  let hMid := heights i
  let hRight := heights (i + 1)
  let termA ← divide ((nMid - nLeft + d : Int) * (hRight - hMid)) (nRight - nMid : Int)
  let termB ← divide ((nRight - nMid - d : Int) * (hMid - hLeft)) (nMid - nLeft : Int)
  let scale ← divide d (nRight - nLeft : Int)
  return hMid + scale * (termA + termB)

/-- `_linear` (`histogram.py:181–185`); `d` is 1 or -1. -/
def linear (heights : Fin 5 → ℚ) (positions : Fin 5 → Int) (i : Fin 5) (d : Int) : Option ℚ := do
  let neighbor := if d = 1 then i + 1 else i - 1
  let slope ← divide (d * (heights neighbor - heights i)) (positions neighbor - positions i : Int)
  return heights i + slope

/-- `_initialize_markers` (`histogram.py:118–125`). -/
def initializeMarkers (quantile : ℚ) (initialSamples : List ℚ) : Markers where
  heights i := (initialSamples.insertionSort (· ≤ ·)).getD i 0
  positions := ![1, 2, 3, 4, 5]
  desiredPositions := ![1, 1 + 2 * quantile, 1 + 4 * quantile, 3 + 2 * quantile, 5]
  increments := ![0, quantile / 2, quantile, (1 + quantile) / 2, 1]

/-- `bisect_left(heights, value)` of heights in order. -/
def bisectLeft (heights : Fin 5 → ℚ) (value : ℚ) : Nat :=
  (List.finRange 5).countP fun i ↦ decide (heights i < value)

/-- The cell in which a new value falls, with the heights once an extreme has moved
(`histogram.py:131–139`). -/
def place (m : Markers) (value : ℚ) : Int × (Fin 5 → ℚ) :=
  if value < m.heights 0 then (0, update m.heights 0 value)
  else if m.heights 4 ≤ value then (3, update m.heights 4 value)
  else (max 0 (min ((bisectLeft m.heights value : Int) - 1) 3), m.heights)

/-- The markers behind the new value move up, and all desired positions move on
(`histogram.py:141–144`). -/
def shift (m : Markers) (value : ℚ) : Markers :=
  let (cell, heights) := m.place value
  { m with
    heights
    positions := fun i ↦ if cell + 1 ≤ i.val then m.positions i + 1 else m.positions i
    desiredPositions := fun i ↦ m.desiredPositions i + m.increments i }

/-- The height of a middle marker that moves (`histogram.py:154–158`). -/
def movedHeight (heights : Fin 5 → ℚ) (positions : Fin 5 → Int) (i : Fin 5) (direction : Int) :
    Option ℚ := do
  let adjusted ← parabolic heights positions i direction
  if heights (i - 1) < adjusted ∧ adjusted < heights (i + 1) then some adjusted
  else linear heights positions i direction

/-- A middle marker moves by one position (`histogram.py:153–159`). -/
def move (m : Markers) (i : Fin 5) (direction : Int) : Option Markers :=
  (movedHeight m.heights m.positions i direction).map fun height ↦
    { m with
      heights := update m.heights i height
      positions := update m.positions i (m.positions i + direction) }

/-- One turn of the loop over the middle markers (`histogram.py:146–159`). -/
def adjust (m : Markers) (i : Fin 5) : Option Markers :=
  let diff := m.desiredPositions i - m.positions i
  let rightGap := m.positions (i + 1) - m.positions i
  let leftGap := m.positions i - m.positions (i - 1)
  if 1 ≤ diff ∧ 1 < rightGap ∨ diff ≤ -1 ∧ 1 < leftGap then
    m.move i (if 1 ≤ diff then 1 else -1)
  else some m

/-- `_update_markers` (`histogram.py:127–159`). -/
def updateMarkers (m : Markers) (value : ℚ) : Option Markers := do
  let m ← (m.shift value).adjust 1
  let m ← m.adjust 2
  m.adjust 3

/-- The height of the middle marker for a high quantile once there are six values. -/
def sixth (samples : List ℚ) (value : ℚ) : Option ℚ :=
  let m := (initializeMarkers (1 / 2) samples).shift value
  if 1 < m.positions 3 - m.positions 2 then movedHeight m.heights m.positions 2 1
  else some (m.heights 2)

end Markers

/-- `StreamingPercentileEstimator`; there are no markers before the fifth value. -/
structure StreamingPercentileEstimator where
  quantile : ℚ
  initialSamples : List ℚ
  markers : Option Markers
  observationCount : Nat
  quantile_pos : 0 < quantile
  quantile_lt_one : quantile < 1

namespace StreamingPercentileEstimator

/-- The constructor. -/
def new (quantile : ℚ) (hpos : 0 < quantile) (hlt : quantile < 1) : StreamingPercentileEstimator :=
  ⟨quantile, [], none, 0, hpos, hlt⟩

/-- `observe` (`histogram.py:105–116`); `none` is an exception. -/
def observe (e : StreamingPercentileEstimator) (value : ℚ) : Option StreamingPercentileEstimator :=
  let e := { e with observationCount := e.observationCount + 1 }
  if e.initialSamples.length < 5 then
    let e := { e with initialSamples := e.initialSamples ++ [value] }
    if e.initialSamples.length = 5 then
      some { e with markers := some (.initializeMarkers e.quantile e.initialSamples) }
    else some e
  else
    match e.markers with
    | none => none
    | some m => (m.updateMarkers value).map fun m ↦ { e with markers := some m }

/-- `value` (`histogram.py:161–170`). -/
def value (e : StreamingPercentileEstimator) : Option ℚ :=
  if e.observationCount = 0 then none
  else if e.initialSamples.length < 5 then
    let samples := e.initialSamples.insertionSort (· ≤ ·)
    samples[min (samples.length - 1) (⌊e.quantile * ((samples.length - 1 : Nat) : ℚ)⌋.toNat)]?
  else e.markers.map (·.heights 2)

/-- The estimator after a stream. -/
def after (quantile : ℚ) (hpos : 0 < quantile) (hlt : quantile < 1) (stream : List ℚ) :
    Option StreamingPercentileEstimator := stream.foldlM observe (new quantile hpos hlt)

end StreamingPercentileEstimator

namespace Markers

/-- The positions increase, and the heights do not decrease. -/
structure InOrder (m : Markers) : Prop where
  positions : StrictMono m.positions
  heights : Monotone m.heights

private theorem neighbours : ∀ i : Fin 5, i ≠ 0 → i ≠ 4 → i - 1 < i ∧ i < i + 1 := by decide

private theorem le_left : ∀ i j : Fin 5, i ≠ 0 → j < i → j ≤ i - 1 := by decide

private theorem right_le : ∀ i j : Fin 5, i ≠ 4 → i < j → i + 1 ≤ j := by decide

section Move

variable {heights : Fin 5 → ℚ} {positions : Fin 5 → Int} {i : Fin 5} {d : Int}

/-- `_parabolic` divides by the gaps between positions. -/
theorem parabolic_eq (hpositions : StrictMono positions) (h0 : i ≠ 0) (h4 : i ≠ 4) :
    parabolic heights positions i d = some (heights i +
      d / ((positions (i + 1) - positions (i - 1) : Int) : ℚ) *
        (((positions i - positions (i - 1) + d : Int) : ℚ) * (heights (i + 1) - heights i) /
            ((positions (i + 1) - positions i : Int) : ℚ) +
          ((positions (i + 1) - positions i - d : Int) : ℚ) * (heights i - heights (i - 1)) /
            ((positions i - positions (i - 1) : Int) : ℚ))) := by
  obtain ⟨hleft, hright⟩ := neighbours i h0 h4
  have hl := hpositions hleft
  have hr := hpositions hright
  have h₁ : ((positions (i + 1) - positions i : Int) : ℚ) ≠ 0 := Int.cast_ne_zero.mpr (by omega)
  have h₂ : ((positions i - positions (i - 1) : Int) : ℚ) ≠ 0 := Int.cast_ne_zero.mpr (by omega)
  have h₃ : ((positions (i + 1) - positions (i - 1) : Int) : ℚ) ≠ 0 :=
    Int.cast_ne_zero.mpr (by omega)
  rw [parabolic]
  rw [divide_of_ne h₁, divide_of_ne h₂, divide_of_ne h₃]
  rfl

/-- A step to the right along a line stays before the right neighbour. -/
theorem linear_right (hpositions : StrictMono positions) (hheights : Monotone heights)
    (h0 : i ≠ 0) (h4 : i ≠ 4) : ∃ height, linear heights positions i 1 = some height ∧
      heights i ≤ height ∧ height ≤ heights (i + 1) := by
  obtain ⟨-, hright⟩ := neighbours i h0 h4
  have hr := hpositions hright
  have hh := hheights hright.le
  have hgap : (1 : ℚ) ≤ ((positions (i + 1) - positions i : Int) : ℚ) := by
    exact_mod_cast (by omega : (1 : Int) ≤ positions (i + 1) - positions i)
  have hrise : 0 ≤ (1 : Int) * (heights (i + 1) - heights i) := by
    rw [Int.cast_one, one_mul]
    exact sub_nonneg.mpr hh
  refine ⟨_, ?_, le_add_of_nonneg_right (div_nonneg hrise (zero_le_one.trans hgap)), ?_⟩
  · rw [linear, if_pos rfl]
    rw [divide_of_ne (ne_of_gt (zero_lt_one.trans_le hgap))]
    rfl
  · have hslope := div_le_self hrise hgap
    rw [Int.cast_one, one_mul] at hslope
    rw [Int.cast_one, one_mul]
    linarith only [hslope]

/-- A step to the left along a line stays behind the left neighbour. -/
theorem linear_left (hpositions : StrictMono positions) (hheights : Monotone heights)
    (h0 : i ≠ 0) (h4 : i ≠ 4) : ∃ height, linear heights positions i (-1) = some height ∧
      heights (i - 1) ≤ height ∧ height ≤ heights i := by
  obtain ⟨hleft, -⟩ := neighbours i h0 h4
  have hl := hpositions hleft
  have hh := hheights hleft.le
  have hgap : (1 : ℚ) ≤ ((positions i - positions (i - 1) : Int) : ℚ) := by
    exact_mod_cast (by omega : (1 : Int) ≤ positions i - positions (i - 1))
  have hfall : 0 ≤ heights i - heights (i - 1) := sub_nonneg.mpr hh
  have hslope : ((-1 : Int) : ℚ) * (heights (i - 1) - heights i) /
      ((positions (i - 1) - positions i : Int) : ℚ) =
        -((heights i - heights (i - 1)) / ((positions i - positions (i - 1) : Int) : ℚ)) := by
    have hneg : ((positions (i - 1) - positions i : Int) : ℚ) =
        -((positions i - positions (i - 1) : Int) : ℚ) := by
      push_cast
      ring
    rw [hneg, div_neg, Int.cast_neg, Int.cast_one, neg_one_mul, neg_sub]
  refine ⟨heights i + -((heights i - heights (i - 1)) /
    ((positions i - positions (i - 1) : Int) : ℚ)), ?_, ?_, ?_⟩
  · rw [linear, if_neg (by decide)]
    rw [divide_of_ne, ← hslope]
    · rfl
    · exact Int.cast_ne_zero.mpr (by omega)
  · have hle := div_le_self hfall hgap
    linarith only [hle]
  · have hnonneg := div_nonneg hfall (zero_le_one.trans hgap)
    linarith only [hnonneg]

/-- A parabolic step to the right does not go down. -/
theorem le_parabolic_right (hpositions : StrictMono positions) (hheights : Monotone heights)
    (h0 : i ≠ 0) (h4 : i ≠ 4) {adjusted : ℚ}
    (h : parabolic heights positions i 1 = some adjusted) : heights i ≤ adjusted := by
  obtain ⟨hleft, hright⟩ := neighbours i h0 h4
  have hl := hpositions hleft
  have hr := hpositions hright
  have cast_nonneg {n : Int} (hn : 0 ≤ n) : (0 : ℚ) ≤ (n : ℚ) := Int.cast_nonneg hn
  rw [parabolic_eq hpositions h0 h4, Option.some.injEq] at h
  rw [← h]
  apply le_add_of_nonneg_right
  apply mul_nonneg
  · exact div_nonneg (cast_nonneg (by decide)) (cast_nonneg (by omega))
  · apply add_nonneg
    · apply div_nonneg _ (cast_nonneg (by omega))
      exact mul_nonneg (cast_nonneg (by omega)) (sub_nonneg.mpr (hheights hright.le))
    · apply div_nonneg _ (cast_nonneg (by omega))
      exact mul_nonneg (cast_nonneg (by omega)) (sub_nonneg.mpr (hheights hleft.le))


/-- A marker that moves stays between its neighbours, and goes up if it moves to the right. -/
theorem movedHeight_spec (hpositions : StrictMono positions) (hheights : Monotone heights)
    (h0 : i ≠ 0) (h4 : i ≠ 4) (hd : d = 1 ∨ d = -1) :
    ∃ height, movedHeight heights positions i d = some height ∧ heights (i - 1) ≤ height ∧
      height ≤ heights (i + 1) ∧ (d = 1 → heights i ≤ height) := by
  obtain ⟨hleft, hright⟩ := neighbours i h0 h4
  obtain ⟨adjusted, hadjusted⟩ : ∃ adjusted, parabolic heights positions i d = some adjusted :=
    ⟨_, parabolic_eq hpositions h0 h4⟩
  rw [movedHeight, hadjusted]
  dsimp only [Option.bind_eq_bind, Option.bind_some]
  split
  · next hinside =>
    refine ⟨adjusted, rfl, hinside.1.le, hinside.2.le, ?_⟩
    rintro rfl
    exact le_parabolic_right hpositions hheights h0 h4 hadjusted
  · -- the line is taken, which never leaves the two neighbours
    rcases hd with rfl | rfl
    · obtain ⟨height, heq, hlow, hhigh⟩ := linear_right hpositions hheights h0 h4
      exact ⟨height, heq, (hheights hleft.le).trans hlow, hhigh, fun _ ↦ hlow⟩
    · obtain ⟨height, heq, hlow, hhigh⟩ := linear_left hpositions hheights h0 h4
      exact ⟨height, heq, hlow, hhigh.trans (hheights hright.le), fun hd ↦ by cases hd⟩

end Move

variable {m : Markers} {i : Fin 5}

/-- A middle marker moves in a direction in which there is room, and keeps the order. -/
theorem move_spec (hm : m.InOrder) (h0 : i ≠ 0) (h4 : i ≠ 4) {direction : Int}
    (hroom : direction = 1 ∧ 1 < m.positions (i + 1) - m.positions i ∨
      direction = -1 ∧ 1 < m.positions i - m.positions (i - 1)) :
    ∃ height m', m.move i direction = some m' ∧ m'.InOrder ∧
      m'.heights = update m.heights i height ∧
      m'.positions = update m.positions i (m.positions i + direction) ∧
      m'.desiredPositions = m.desiredPositions := by
  obtain ⟨hleft, hright⟩ := neighbours i h0 h4
  have hl := hm.positions hleft
  have hr := hm.positions hright
  obtain ⟨height, hheight, hlow, hhigh, -⟩ :=
    movedHeight_spec hm.positions hm.heights h0 h4 (hroom.imp And.left And.left)
  refine ⟨height, { m with
    heights := update m.heights i height
    positions := update m.positions i (m.positions i + direction) }, ?_, ⟨?_, ?_⟩, rfl, rfl, rfl⟩
  · rw [move, hheight]
    rfl
  · apply strictMono_update hm.positions
    · intro j hj
      have hle := hm.positions.monotone (le_left i j h0 hj)
      omega
    · intro j hj
      have hle := hm.positions.monotone (right_le i j h4 hj)
      omega
  · apply monotone_update hm.heights
    · exact fun j hj ↦ (hm.heights (le_left i j h0 hj)).trans hlow
    · exact fun j hj ↦ hhigh.trans (hm.heights (right_le i j h4 hj))

/-- A turn of the loop divides by no zero, keeps the order and touches no other marker. -/
theorem adjust_spec (hm : m.InOrder) (h0 : i ≠ 0) (h4 : i ≠ 4) :
    ∃ m', m.adjust i = some m' ∧ m'.InOrder ∧ m'.desiredPositions = m.desiredPositions ∧
      ∀ j, j ≠ i → m'.heights j = m.heights j ∧ m'.positions j = m.positions j := by
  rw [adjust]
  split
  · next hmoves =>
    have hroom : (if 1 ≤ m.desiredPositions i - m.positions i then (1 : Int) else -1) = 1 ∧
          1 < m.positions (i + 1) - m.positions i ∨
        (if 1 ≤ m.desiredPositions i - m.positions i then (1 : Int) else -1) = -1 ∧
          1 < m.positions i - m.positions (i - 1) := by
      rcases hmoves with ⟨hdiff, hgap⟩ | ⟨hdiff, hgap⟩
      · exact .inl ⟨if_pos hdiff, hgap⟩
      · right
        refine ⟨if_neg ?_, hgap⟩
        linarith only [hdiff]
    obtain ⟨height, m', hmove, hm', hheights, hpositions, hdesired⟩ := move_spec hm h0 h4 hroom
    refine ⟨m', hmove, hm', hdesired, fun j hj ↦ ?_⟩
    rw [hheights, hpositions, update_of_ne hj, update_of_ne hj]
    exact ⟨rfl, rfl⟩
  · exact ⟨m, rfl, hm, rfl, fun j _ ↦ ⟨rfl, rfl⟩⟩

/-- The new value becomes an extreme or falls in one of the cells. -/
theorem place_spec (hm : m.InOrder) (value : ℚ) :
    (0 ≤ (m.place value).1 ∧ (m.place value).1 ≤ 3) ∧ Monotone (m.place value).2 ∧
      (m.place value).2 0 = min (m.heights 0) value ∧
      (m.place value).2 4 = max (m.heights 4) value := by
  have hends : m.heights 0 ≤ m.heights 4 := hm.heights (by decide)
  rw [place]
  split
  · next hlow =>
    dsimp only
    refine ⟨by decide, ?_, ?_, ?_⟩
    · apply monotone_update hm.heights
      · exact fun j hj ↦ absurd hj (Fin.not_lt_zero j)
      · exact fun j _ ↦ hlow.le.trans (hm.heights (Fin.zero_le j))
    · rw [update_self, min_eq_right hlow.le]
    · rw [update_of_ne (by decide), max_eq_left (hlow.le.trans hends)]
  · next hlow =>
    split
    · next hhigh =>
      dsimp only
      refine ⟨by decide, ?_, ?_, ?_⟩
      · apply monotone_update hm.heights
        · exact fun j hj ↦ (hm.heights hj.le).trans hhigh
        · exact fun j hj ↦ absurd hj (Nat.not_lt.mpr (Nat.le_of_lt_succ j.isLt))
      · rw [update_of_ne (by decide), min_eq_left (not_lt.mp hlow)]
      · rw [update_self, max_eq_right hhigh]
    · next hhigh =>
      refine ⟨⟨le_max_left _ _, ?_⟩, hm.heights, ?_, ?_⟩
      · exact max_le (by decide) (min_le_right _ _)
      · exact (min_eq_left (not_lt.mp hlow)).symm
      · exact (max_eq_left (not_le.mp hhigh).le).symm

/-- The shift keeps the order, and the last position counts the value. -/
theorem shift_spec (hm : m.InOrder) (value : ℚ) :
    (m.shift value).InOrder ∧ (m.shift value).heights = (m.place value).2 ∧
      (m.shift value).positions 0 = m.positions 0 ∧
      (m.shift value).positions 4 = m.positions 4 + 1 := by
  obtain ⟨⟨hlow, hhigh⟩, hheights, -, -⟩ := place_spec hm value
  refine ⟨⟨?_, hheights⟩, rfl, ?_, ?_⟩
  · intro a b hab
    have hlt := hm.positions hab
    have hval : a.val < b.val := hab
    show (if (m.place value).1 + 1 ≤ a.val then m.positions a + 1 else m.positions a) <
      if (m.place value).1 + 1 ≤ b.val then m.positions b + 1 else m.positions b
    split <;> split <;> omega
  · exact if_neg (show ¬ (m.place value).1 + 1 ≤ ((0 : Fin 5).val : Int) by simp; omega)
  · exact if_pos (show (m.place value).1 + 1 ≤ ((4 : Fin 5).val : Int) by simp; omega)

/-- The inner markers are adjusted one after the other. -/
theorem updateMarkers_eq {m m₁ m₂ m₃ : Markers} {value : ℚ}
    (h₁ : (m.shift value).adjust 1 = some m₁) (h₂ : m₁.adjust 2 = some m₂)
    (h₃ : m₂.adjust 3 = some m₃) : m.updateMarkers value = some m₃ := by
  rw [updateMarkers, h₁]
  show (m₁.adjust 2).bind (fun m ↦ m.adjust 3) = some m₃
  rw [h₂]
  exact h₃

/-- A new value divides by no zero, keeps the order, extends the extremes and is counted by the last
position. -/
theorem updateMarkers_spec (hm : m.InOrder) (value : ℚ) :
    ∃ m', m.updateMarkers value = some m' ∧ m'.InOrder ∧
      m'.heights 0 = min (m.heights 0) value ∧ m'.heights 4 = max (m.heights 4) value ∧
      m'.positions 0 = m.positions 0 ∧ m'.positions 4 = m.positions 4 + 1 := by
  obtain ⟨-, -, hmin, hmax⟩ := place_spec hm value
  obtain ⟨hshift, hheights, hfirst, hlast⟩ := shift_spec hm value
  obtain ⟨m₁, hadjust₁, hm₁, -, hframe₁⟩ := adjust_spec hshift (i := 1) (by decide) (by decide)
  obtain ⟨m₂, hadjust₂, hm₂, -, hframe₂⟩ := adjust_spec hm₁ (i := 2) (by decide) (by decide)
  obtain ⟨m₃, hadjust₃, hm₃, -, hframe₃⟩ := adjust_spec hm₂ (i := 3) (by decide) (by decide)
  have hends {j : Fin 5} (h1 : j ≠ 1) (h2 : j ≠ 2) (h3 : j ≠ 3) :
      m₃.heights j = (m.shift value).heights j ∧ m₃.positions j = (m.shift value).positions j := by
    constructor
    · rw [(hframe₃ j h3).1, (hframe₂ j h2).1, (hframe₁ j h1).1]
    · rw [(hframe₃ j h3).2, (hframe₂ j h2).2, (hframe₁ j h1).2]
  have hzero := hends (j := 0) (by decide) (by decide) (by decide)
  have hfour := hends (j := 4) (by decide) (by decide) (by decide)
  refine ⟨m₃, ?_, hm₃, ?_, ?_, ?_, ?_⟩
  · exact updateMarkers_eq hadjust₁ hadjust₂ hadjust₃
  · rw [hzero.1, hheights, hmin]
  · rw [hfour.1, hheights, hmax]
  · rw [hzero.2, hfirst]
  · rw [hfour.2, hlast]

/-- Five samples give markers in order, with the extremes at the ends. -/
theorem initializeMarkers_spec (quantile : ℚ) {samples : List ℚ} (hlen : samples.length = 5) :
    (initializeMarkers quantile samples).InOrder ∧
      IsLeast {x | x ∈ samples} ((initializeMarkers quantile samples).heights 0) ∧
      IsGreatest {x | x ∈ samples} ((initializeMarkers quantile samples).heights 4) := by
  have hsorted : (samples.insertionSort (· ≤ ·)).length = 5 := by
    rw [List.length_insertionSort, hlen]
  have hget (i : Fin 5) : (initializeMarkers quantile samples).heights i =
      (samples.insertionSort (· ≤ ·)).get (i.cast hsorted.symm) := by
    show (samples.insertionSort (· ≤ ·)).getD i 0 = _
    rw [List.getD_eq_getElem?_getD, List.getElem?_eq_getElem (by rw [hsorted]; exact i.isLt)]
    rfl
  have hmono : Monotone (initializeMarkers quantile samples).heights := by
    intro i j hij
    rw [hget, hget]
    exact List.sortedLE_insertionSort hij
  have hmem (i : Fin 5) : (initializeMarkers quantile samples).heights i ∈ samples := by
    rw [hget, ← List.mem_insertionSort (· ≤ ·)]
    exact List.get_mem _ _
  have hfind {x : ℚ} (hx : x ∈ samples) :
      ∃ i, (initializeMarkers quantile samples).heights i = x := by
    rw [← List.mem_insertionSort (· ≤ ·)] at hx
    obtain ⟨k, hk⟩ := List.get_of_mem hx
    exact ⟨k.cast hsorted, (hget _).trans hk⟩
  refine ⟨⟨?_, hmono⟩, ⟨hmem 0, ?_⟩, hmem 4, ?_⟩
  · exact (by decide :
      ∀ a b : Fin 5, a < b → (![1, 2, 3, 4, 5] : Fin 5 → Int) a < ![1, 2, 3, 4, 5] b)
  · intro x hx
    obtain ⟨i, rfl⟩ := hfind hx
    exact hmono (Fin.zero_le i)
  · intro x hx
    obtain ⟨i, rfl⟩ := hfind hx
    exact hmono (Nat.le_of_lt_succ i.isLt)

end Markers

namespace StreamingPercentileEstimator

/-- The estimator has seen these values. -/
structure Saw (quantile : ℚ) (stream : List ℚ) (e : StreamingPercentileEstimator) : Prop where
  quantile : e.quantile = quantile
  count : e.observationCount = stream.length
  early : stream.length < 5 → e.initialSamples = stream
  late : 5 ≤ stream.length → e.initialSamples.length = 5 ∧ ∃ m, e.markers = some m ∧ m.InOrder ∧
    m.positions 0 = 1 ∧ m.positions 4 = stream.length ∧
    IsLeast {x | x ∈ stream} (m.heights 0) ∧ IsGreatest {x | x ∈ stream} (m.heights 4)

/-- A value extends the least of a stream. -/
theorem isLeast_append {stream : List ℚ} {least value : ℚ}
    (h : IsLeast {x | x ∈ stream} least) :
    IsLeast {x | x ∈ stream ++ [value]} (min least value) := by
  constructor
  · rcases min_choice least value with heq | heq
    · rw [heq]
      exact List.mem_append_left _ h.1
    · rw [heq]
      exact List.mem_append_right _ (List.mem_singleton_self value)
  · intro x hx
    rcases List.mem_append.mp hx with hx | hx
    · exact (min_le_left _ _).trans (h.2 hx)
    · rw [List.mem_singleton.mp hx]
      exact min_le_right _ _

/-- A value extends the greatest of a stream. -/
theorem isGreatest_append {stream : List ℚ} {greatest value : ℚ}
    (h : IsGreatest {x | x ∈ stream} greatest) :
    IsGreatest {x | x ∈ stream ++ [value]} (max greatest value) := by
  constructor
  · rcases max_choice greatest value with heq | heq
    · rw [heq]
      exact List.mem_append_left _ h.1
    · rw [heq]
      exact List.mem_append_right _ (List.mem_singleton_self value)
  · intro x hx
    rcases List.mem_append.mp hx with hx | hx
    · exact (h.2 hx).trans (le_max_left _ _)
    · rw [List.mem_singleton.mp hx]
      exact le_max_right _ _

/-- An observation does not raise, and the estimator has seen one more value. -/
theorem Saw.observe {quantile : ℚ} {stream : List ℚ} {e : StreamingPercentileEstimator}
    (h : Saw quantile stream e) (value : ℚ) :
    ∃ e', e.observe value = some e' ∧ Saw quantile (stream ++ [value]) e' := by
  have hlen : (stream ++ [value]).length = stream.length + 1 := List.length_append
  rw [StreamingPercentileEstimator.observe]
  by_cases hshort : stream.length < 5
  · have hinitial := h.early hshort
    dsimp only
    rw [hinitial, if_pos hshort]
    split
    · next hfive =>
      obtain ⟨horder, hleast, hgreatest⟩ := Markers.initializeMarkers_spec e.quantile hfive
      refine ⟨_, rfl, h.quantile, ?_, fun _ ↦ rfl, fun _ ↦ ⟨hfive, _, rfl, horder, rfl, ?_, hleast,
        hgreatest⟩⟩
      · rw [hlen]
        exact congrArg (· + 1) h.count
      · rw [hfive]
        rfl
    · next hfew =>
      refine ⟨_, rfl, h.quantile, ?_, fun _ ↦ rfl, fun hlate ↦ ?_⟩
      · rw [hlen]
        exact congrArg (· + 1) h.count
      · omega
  · obtain ⟨hinitial, m, hmarkers, hm, hfirst, hlast, hleast, hgreatest⟩ := h.late (by omega)
    obtain ⟨m', hm', horder, hmin, hmax, hzero, hfour⟩ := Markers.updateMarkers_spec hm value
    dsimp only
    rw [hinitial, if_neg (by decide), hmarkers]
    dsimp only
    rw [hm']
    refine ⟨_, rfl, h.quantile, ?_, fun hearly ↦ ?_,
      fun _ ↦ ⟨hinitial, m', rfl, horder, ?_, ?_, ?_, ?_⟩⟩
    · rw [hlen]
      exact congrArg (· + 1) h.count
    · omega
    · rw [hzero, hfirst]
    · rw [hfour, hlast, hlen]
      push_cast
      rfl
    · rw [hmin]
      exact isLeast_append hleast
    · rw [hmax]
      exact isGreatest_append hgreatest

variable {quantile : ℚ}

/-- One more value. -/
theorem after_append (hpos : 0 < quantile) (hlt : quantile < 1) (stream : List ℚ) (value : ℚ) :
    after quantile hpos hlt (stream ++ [value]) =
      (after quantile hpos hlt stream).bind (·.observe value) := by
  rw [after, List.foldlM_append, after]
  cases stream.foldlM StreamingPercentileEstimator.observe (new quantile hpos hlt) with
  | none => rfl
  | some e =>
    show [value].foldlM StreamingPercentileEstimator.observe e = e.observe value
    rw [List.foldlM_cons]
    cases e.observe value <;> rfl

/-- No observation of a stream raises. -/
theorem saw_after (hpos : 0 < quantile) (hlt : quantile < 1) (stream : List ℚ) :
    ∃ e, after quantile hpos hlt stream = some e ∧ Saw quantile stream e := by
  induction stream using List.reverseRecOn with
  | nil => exact ⟨_, rfl, rfl, rfl, fun _ ↦ rfl, fun hlate ↦ by simp at hlate⟩
  | append_singleton stream value ih =>
    obtain ⟨e, he, hsaw⟩ := ih
    obtain ⟨e', he', hsaw'⟩ := hsaw.observe value
    refine ⟨e', ?_, hsaw'⟩
    rw [after_append, he]
    exact he'

/-- Before the fifth value the estimate is one of the samples in order. -/
theorem Saw.value_early {stream : List ℚ} {e : StreamingPercentileEstimator}
    (h : Saw quantile stream e) (hne : stream ≠ []) (hearly : stream.length < 5) :
    e.value = (stream.insertionSort (· ≤ ·))[min (stream.length - 1)
      ⌊quantile * ((stream.length - 1 : Nat) : ℚ)⌋.toNat]? := by
  have hcount : e.observationCount ≠ 0 := by
    rw [h.count]
    exact fun hzero ↦ hne (List.length_eq_zero_iff.mp hzero)
  rw [value, if_neg hcount, h.early hearly, if_pos hearly]
  dsimp only
  rw [List.length_insertionSort, h.quantile]

/-- From the fifth value on the estimate is the height of the middle marker. -/
theorem Saw.value_late {stream : List ℚ} {e : StreamingPercentileEstimator}
    (h : Saw quantile stream e) (hlate : 5 ≤ stream.length) {m : Markers}
    (hm : e.markers = some m) : e.value = some (m.heights 2) := by
  have hcount : e.observationCount ≠ 0 := by
    rw [h.count]
    omega
  rw [value, if_neg hcount, (h.late hlate).1, if_neg (by decide), hm]
  rfl

/-- Before the fifth value the estimate is one of the values. -/
theorem Saw.exists_value_early {stream : List ℚ} {e : StreamingPercentileEstimator}
    (h : Saw quantile stream e) (hne : stream ≠ []) (hearly : stream.length < 5) :
    ∃ v ∈ stream, e.value = some v := by
  have hlen : 0 < stream.length := List.length_pos_iff.mpr hne
  rw [h.value_early hne hearly, List.getElem?_eq_getElem]
  · refine ⟨_, ?_, rfl⟩
    rw [← List.mem_insertionSort (· ≤ ·)]
    exact List.getElem_mem _
  · rw [List.length_insertionSort]
    omega

/-- Any number of values can be observed. From the fifth on the positions increase strictly from 1
to the number of values, the heights do not decrease from the least value to the greatest, and the
estimate is between these two; before, it is one of the values. -/
theorem markers_inOrder (quantile : ℚ) (hpos : 0 < quantile) (hlt : quantile < 1)
    (stream : List ℚ) :
    ∃ e, after quantile hpos hlt stream = some e ∧ e.observationCount = stream.length ∧
      (5 ≤ stream.length → ∃ m v, e.markers = some m ∧ e.value = some v ∧
        StrictMono m.positions ∧ m.positions 0 = 1 ∧ m.positions 4 = e.observationCount ∧
        Monotone m.heights ∧ IsLeast {x | x ∈ stream} (m.heights 0) ∧
        IsGreatest {x | x ∈ stream} (m.heights 4) ∧ m.heights 0 ≤ v ∧ v ≤ m.heights 4) ∧
      (stream ≠ [] → stream.length < 5 → ∃ v ∈ stream, e.value = some v) := by
  obtain ⟨e, he, hsaw⟩ := saw_after hpos hlt stream
  refine ⟨e, he, hsaw.count, fun hlate ↦ ?_, fun hne hearly ↦ ?_⟩
  · obtain ⟨-, m, hmarkers, hm, hfirst, hlast, hleast, hgreatest⟩ := hsaw.late hlate
    refine ⟨m, m.heights 2, hmarkers, hsaw.value_late hlate hmarkers, hm.positions, hfirst, ?_,
      hm.heights, hleast, hgreatest, hm.heights (by decide), hm.heights (by decide)⟩
    rw [hlast, hsaw.count]
  · exact hsaw.exists_value_early hne hearly

/-- Six values at the median. -/
theorem markers_inOrder_median : ∃ e, after (1 / 2) (by norm_num) (by norm_num)
    [8, 0, 4, 8, 1, 9] = some e ∧ ∃ m v, e.markers = some m ∧ e.value = some v ∧
      m.heights 0 ≤ v ∧ v ≤ m.heights 4 := by
  obtain ⟨e, he, -, hlate, -⟩ :=
    markers_inOrder (1 / 2) (by norm_num) (by norm_num) [8, 0, 4, 8, 1, 9]
  obtain ⟨m, v, hm, hv, -, -, -, -, -, -, hlow, hhigh⟩ := hlate (by decide)
  exact ⟨e, he, m, v, hm, hv, hlow, hhigh⟩

end StreamingPercentileEstimator
end SalesData.Performance

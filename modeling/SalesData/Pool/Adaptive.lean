import Mathlib.Algebra.Order.Ring.Rat
import Mathlib.Tactic.Linarith

/-!
# Adaptive pool size

`core/db/pool/adaptive.py:31–91`. The size grows by one on a call under queue or latency
pressure and shrinks by one after `_COOLDOWN_CHECKS` quiet calls in a row. Sizes are
natural numbers: `PoolSettings.validate` (`core/db/settings.py:63`) wants positive ones.
-/

namespace SalesData.Pool

/-- Quiet calls in a row before the pool shrinks; `core/db/pool/adaptive.py:40`. -/
def cooldownChecks : Nat := 5

/-- Average wait that counts as pressure; `core/db/pool/adaptive.py:45`. -/
def waitPressureThresholdMs : ℚ := 5

/-- `core/db/pool/adaptive.py:48–58`. -/
structure AdaptiveSizer where
  min : Nat
  max : Nat
  current : Nat
  idleStreak : Nat
  deriving DecidableEq, Repr

namespace AdaptiveSizer

/-- `AdaptiveSizer(min, max)` starts at its minimum; `core/db/pool/adaptive.py:57`. -/
def new (min max : Nat) : AdaptiveSizer := ⟨min, max, min, 0⟩

/-- Somebody waits, or acquires have waited long; `core/db/pool/adaptive.py:77`. -/
def underPressure (currentWaiters : Nat) (recentWaitMs : ℚ) : Bool :=
  currentWaiters > 0 || recentWaitMs > waitPressureThresholdMs

/-- Recompute the size; the call returns the new `current`.
`core/db/pool/adaptive.py:60–91`. -/
def adjust (z : AdaptiveSizer) (currentWaiters : Nat) (recentWaitMs : ℚ) : AdaptiveSizer :=
  if underPressure currentWaiters recentWaitMs then
    { z with
      idleStreak := 0
      current := if z.current < z.max then z.current + 1 else z.current }
  else if z.idleStreak + 1 ≥ cooldownChecks ∧ z.current > z.min then
    { z with current := z.current - 1, idleStreak := 0 }
  else { z with idleStreak := z.idleStreak + 1 }

/-- Let the pool grow to a warmup target; `core/db/session.py:312,374`. -/
def raise (z : AdaptiveSizer) (target : Nat) : AdaptiveSizer :=
  { z with current := Max.max z.current target }

/-- The size lies between the configured bounds. -/
structure Bounded (z : AdaptiveSizer) : Prop where
  ge_min : z.min ≤ z.current
  le_max : z.current ≤ z.max

/-- A new sizer is bounded when its bounds are in order. -/
theorem bounded_new {min max : Nat} (h : min ≤ max) : (new min max).Bounded :=
  ⟨Nat.le_refl _, h⟩

/-- The bounds themselves never change. -/
@[simp] theorem adjust_min (z : AdaptiveSizer) (n : Nat) (r : ℚ) :
    (z.adjust n r).min = z.min := by
  unfold adjust
  split
  · rfl
  · split <;> rfl

/-- The bounds themselves never change. -/
@[simp] theorem adjust_max (z : AdaptiveSizer) (n : Nat) (r : ℚ) :
    (z.adjust n r).max = z.max := by
  unfold adjust
  split
  · rfl
  · split <;> rfl

/-- Adjusting keeps the size between its bounds. -/
theorem Bounded.adjust {z : AdaptiveSizer} (h : z.Bounded) (n : Nat) (r : ℚ) :
    (z.adjust n r).Bounded := by
  obtain ⟨hmin, hmax⟩ := h
  unfold AdaptiveSizer.adjust
  split
  · constructor
    · dsimp only
      split <;> omega
    · dsimp only
      split <;> omega
  · split
    · next hs => exact ⟨by dsimp only; omega, by dsimp only; omega⟩
    · exact ⟨hmin, hmax⟩

/-- Raising to a target within the maximum keeps the size between its bounds. -/
theorem Bounded.raise {z : AdaptiveSizer} (h : z.Bounded) {target : Nat}
    (ht : target ≤ z.max) : (z.raise target).Bounded := by
  obtain ⟨hmin, hmax⟩ := h
  exact ⟨Nat.le_trans hmin (Nat.le_max_left _ _), Nat.max_le.mpr ⟨hmax, ht⟩⟩

/-- Without waiters and latency the size does not grow. -/
theorem adjust_le_of_quiet (z : AdaptiveSizer) {n : Nat} {r : ℚ}
    (h : underPressure n r = false) : (z.adjust n r).current ≤ z.current := by
  unfold adjust
  rw [if_neg (by simp [h])]
  split
  · exact Nat.sub_le _ _
  · exact Nat.le_refl _

/-- A size at its maximum does not grow. -/
theorem adjust_le_of_max_le (z : AdaptiveSizer) (n : Nat) (r : ℚ) (h : z.max ≤ z.current) :
    (z.adjust n r).current ≤ z.current := by
  cases hq : underPressure n r with
  | false => exact z.adjust_le_of_quiet hq
  | true =>
    unfold adjust
    rw [if_pos hq]
    dsimp only
    rw [if_neg (Nat.not_lt.mpr h)]

end AdaptiveSizer
end SalesData.Pool

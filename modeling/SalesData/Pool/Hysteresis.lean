import Mathlib.Data.List.Induction
import SalesData.Pool.Adaptive

/-!
# Hysteresis of the pool size

`AdaptiveSizer` (`core/db/pool/adaptive.py:47–91`) over bounds of any sign. Its streak counts the
calls behind the last one under pressure and the last decrease, so a decrease ends a run of quiet
calls, and decreases are rare.
-/

namespace SalesData.Pool

/-- The signals of a call of `adjust`. A wait of NaN compares with the threshold as zero does, and
an infinite one as a long wait. -/
structure Signals where
  currentWaiters : Int
  recentWaitMs : ℚ

/-- `under_pressure` (`adaptive.py:77–79`). -/
def Signals.underPressure (signals : Signals) : Bool :=
  decide (signals.currentWaiters > 0) || decide (signals.recentWaitMs > waitPressureThresholdMs)

/-- `AdaptiveSizer` with integers. -/
structure IntSizer where
  min : Int
  max : Int
  current : Int
  idleStreak : Nat
  deriving DecidableEq

namespace IntSizer

/-- `AdaptiveSizer(min, max)` (`adaptive.py:52–58`). -/
def new (min max : Int) : IntSizer := ⟨min, max, min, 0⟩

/-- `adjust` (`adaptive.py:60–91`). -/
def adjust (z : IntSizer) (signals : Signals) : IntSizer :=
  if signals.underPressure then
    { z with
      idleStreak := 0
      current := if z.current < z.max then z.current + 1 else z.current }
  else
    let z := { z with idleStreak := z.idleStreak + 1 }
    if z.idleStreak ≥ cooldownChecks ∧ z.current > z.min then
      { z with current := z.current - 1, idleStreak := 0 }
    else z

/-- Calls one after the other. -/
def run (z : IntSizer) (calls : List Signals) : IntSizer := calls.foldl adjust z

/-- A call makes the pool smaller. -/
def Shrinks (z : IntSizer) (signals : Signals) : Prop := (z.adjust signals).current < z.current

instance (z : IntSizer) (signals : Signals) : Decidable (z.Shrinks signals) :=
  inferInstanceAs (Decidable (_ < _))

/-- The number of calls that make the pool smaller. -/
def decreases (z : IntSizer) : List Signals → Nat
  | [] => 0
  | signals :: calls => (if z.Shrinks signals then 1 else 0) + decreases (z.adjust signals) calls

/-- The sizes as integers. -/
def ofSizer (z : AdaptiveSizer) : IntSizer := ⟨z.min, z.max, z.current, z.idleStreak⟩

/-- With natural sizes this is `AdaptiveSizer.adjust`. -/
theorem ofSizer_adjust (z : AdaptiveSizer) (waiters : Nat) (waitMs : ℚ) :
    ofSizer (z.adjust waiters waitMs) = (ofSizer z).adjust ⟨waiters, waitMs⟩ := by
  have hpressure : Signals.underPressure ⟨waiters, waitMs⟩ =
      AdaptiveSizer.underPressure waiters waitMs := by
    simp [Signals.underPressure, AdaptiveSizer.underPressure]
  unfold AdaptiveSizer.adjust adjust
  rw [hpressure]
  split
  · simp only [ofSizer, Nat.cast_lt]
    split <;> simp
  · have hiff : (ofSizer z).idleStreak + 1 ≥ cooldownChecks ∧
          (ofSizer z).current > (ofSizer z).min ↔
        z.idleStreak + 1 ≥ cooldownChecks ∧ z.current > z.min := by
      simp [ofSizer]
    dsimp only
    by_cases h : z.idleStreak + 1 ≥ cooldownChecks ∧ z.current > z.min
    · rw [if_pos h, if_pos (hiff.mpr h)]
      rw [IntSizer.mk.injEq]
      refine ⟨rfl, rfl, ?_, rfl⟩
      show ((z.current - 1 : Nat) : Int) = (z.current : Int) - 1
      omega
    · rw [if_neg h, if_neg (mt hiff.mp h)]
      rfl

variable {z : IntSizer} {signals : Signals}

/-- What a call does: under pressure the pool grows; a quiet call makes it smaller at the end of a
streak, or makes the streak longer. -/
theorem adjust_cases (z : IntSizer) (signals : Signals) :
    (signals.underPressure = true ∧ (z.adjust signals).idleStreak = 0 ∧
      (z.adjust signals).current = if z.current < z.max then z.current + 1 else z.current) ∨
    (signals.underPressure = false ∧ cooldownChecks ≤ z.idleStreak + 1 ∧ z.min < z.current ∧
      (z.adjust signals).idleStreak = 0 ∧ (z.adjust signals).current = z.current - 1) ∨
    (signals.underPressure = false ∧ (z.adjust signals).idleStreak = z.idleStreak + 1 ∧
      (z.adjust signals).current = z.current) := by
  unfold adjust
  cases hpressure : signals.underPressure with
  | true => exact .inl ⟨rfl, rfl, rfl⟩
  | false =>
    rw [if_neg Bool.false_ne_true]
    dsimp only
    split
    · next h => exact .inr (.inl ⟨rfl, h.1, h.2, rfl, rfl⟩)
    · exact .inr (.inr ⟨rfl, rfl, rfl⟩)

/-- The bounds never change. -/
theorem adjust_bounds (z : IntSizer) (signals : Signals) :
    (z.adjust signals).min = z.min ∧ (z.adjust signals).max = z.max := by
  unfold adjust
  split
  · exact ⟨rfl, rfl⟩
  · dsimp only
    split <;> exact ⟨rfl, rfl⟩

/-- A call changes the size by one at most. -/
theorem abs_adjust_le (z : IntSizer) (signals : Signals) :
    |(z.adjust signals).current - z.current| ≤ 1 := by
  rw [abs_le]
  rcases adjust_cases z signals with ⟨-, -, h⟩ | ⟨-, -, -, -, h⟩ | ⟨-, -, h⟩
  · rw [h]
    split <;> omega
  · omega
  · omega

/-- The pool grows under pressure only. -/
theorem underPressure_of_grows (h : z.current < (z.adjust signals).current) :
    signals.underPressure = true := by
  rcases adjust_cases z signals with ⟨hpressure, -⟩ | ⟨-, -, -, -, hcurrent⟩ | ⟨-, -, hcurrent⟩
  · exact hpressure
  · omega
  · omega

/-- The pool shrinks at the end of a streak only. -/
theorem Shrinks.spec (h : z.Shrinks signals) :
    signals.underPressure = false ∧ cooldownChecks ≤ z.idleStreak + 1 := by
  unfold Shrinks at h
  rcases adjust_cases z signals with ⟨-, -, hcurrent⟩ | ⟨hquiet, hstreak, -⟩ | ⟨-, -, hcurrent⟩
  · rw [hcurrent] at h
    split at h <;> omega
  · exact ⟨hquiet, hstreak⟩
  · omega

/-- The size is within the bounds. -/
def Bounded (z : IntSizer) : Prop := z.min ≤ z.current ∧ z.current ≤ z.max

/-- A call keeps the size within the bounds. -/
theorem Bounded.adjust (h : z.Bounded) (signals : Signals) : (z.adjust signals).Bounded := by
  obtain ⟨hmin, hmax⟩ := h
  unfold Bounded
  rw [(z.adjust_bounds signals).1, (z.adjust_bounds signals).2]
  rcases adjust_cases z signals with ⟨-, -, hcurrent⟩ | ⟨-, -, hlt, -, hcurrent⟩ | ⟨-, -, hcurrent⟩
  · rw [hcurrent]
    split <;> omega
  · omega
  · omega

/-- Calls keep the size within the bounds. -/
theorem Bounded.run (h : z.Bounded) (calls : List Signals) : (z.run calls).Bounded := by
  induction calls generalizing z with
  | nil => exact h
  | cons signals calls ih => exact ih (h.adjust signals)

/-- Decreases of one run and then of another. -/
theorem decreases_append (z : IntSizer) (calls calls' : List Signals) :
    z.decreases (calls ++ calls') = z.decreases calls + (z.run calls).decreases calls' := by
  induction calls generalizing z with
  | nil => simp [decreases, run]
  | cons signals calls ih =>
    rw [List.cons_append, decreases, decreases, ih, Nat.add_assoc]
    rfl

/-- A run and one more call. -/
theorem run_concat (z : IntSizer) (calls : List Signals) (signals : Signals) :
    z.run (calls ++ [signals]) = (z.run calls).adjust signals := by
  rw [run, List.foldl_append]
  rfl

/-- The streak is the length of the quiet calls without a decrease that the calls end with. -/
def Streak (start : IntSizer) (calls : List Signals) : Prop :=
  ∃ first quiet, calls = first ++ quiet ∧ quiet.length = (start.run calls).idleStreak ∧
    (∀ signals ∈ quiet, signals.underPressure = false) ∧ (start.run first).decreases quiet = 0

/-- The streak is counted through a run. -/
theorem streak_run {start : IntSizer} (h : start.idleStreak = 0) (calls : List Signals) :
    Streak start calls := by
  induction calls using List.reverseRecOn with
  | nil => exact ⟨[], [], rfl, h.symm, fun _ hs ↦ (by cases hs), rfl⟩
  | append_singleton calls signals ih =>
    have hrun := run_concat start calls signals
    have hempty (hzero : ((start.run calls).adjust signals).idleStreak = 0) :
        Streak start (calls ++ [signals]) :=
      ⟨calls ++ [signals], [], by simp, by rw [hrun, hzero]; rfl, fun _ hs ↦ (by cases hs), rfl⟩
    rcases adjust_cases (start.run calls) signals with
      ⟨-, hzero, -⟩ | ⟨-, -, -, hzero, -⟩ | ⟨hquiet, hstreak, hcurrent⟩
    · exact hempty hzero
    · exact hempty hzero
    · obtain ⟨first, quiet, hcalls, hlength, hall, hdecreases⟩ := ih
      refine ⟨first, quiet ++ [signals], by rw [hcalls, List.append_assoc], ?_, ?_, ?_⟩
      · rw [hrun, hstreak, List.length_append, hlength]
        rfl
      · intro s hs
        rcases List.mem_append.mp hs with hs | hs
        · exact hall s hs
        · rw [List.mem_singleton.mp hs]
          exact hquiet
      · have hstays : ¬(start.run calls).Shrinks signals := by
          unfold Shrinks
          omega
        have hrest : (start.run first).run quiet = start.run calls := by
          rw [hcalls, run, run, run, List.foldl_append]
        rw [decreases_append, hdecreases, hrest, decreases, if_neg hstays]
        rfl

/-- Decreases take a streak each. -/
theorem decreases_le (z : IntSizer) (calls : List Signals) :
    5 * z.decreases calls ≤ calls.length + Min.min z.idleStreak 4 := by
  induction calls generalizing z with
  | nil => simp [decreases]
  | cons signals calls ih =>
    have hrest := ih (z.adjust signals)
    rw [decreases, List.length_cons]
    by_cases hshrinks : z.Shrinks signals
    · have hstreak := hshrinks.spec.2
      have hzero : (z.adjust signals).idleStreak = 0 := by
        unfold Shrinks at hshrinks
        rcases adjust_cases z signals with ⟨-, hzero, -⟩ | ⟨-, -, -, hzero, -⟩ | ⟨-, -, hcurrent⟩
        · exact hzero
        · exact hzero
        · omega
      rw [cooldownChecks] at hstreak
      rw [if_pos hshrinks]
      omega
    · rw [if_neg hshrinks]
      rcases adjust_cases z signals with ⟨-, h, -⟩ | ⟨-, -, -, h, -⟩ | ⟨-, h, -⟩
      · omega
      · omega
      · omega

/-- Calls after a new sizer keep its bounds. -/
theorem run_new_bounds (min max : Int) (calls : List Signals) :
    ((new min max).run calls).min = min ∧ ((new min max).run calls).max = max := by
  induction calls using List.reverseRecOn with
  | nil => exact ⟨rfl, rfl⟩
  | append_singleton calls signals ih =>
    rw [run_concat]
    exact ⟨(adjust_bounds _ signals).1.trans ih.1, (adjust_bounds _ signals).2.trans ih.2⟩

/-- What a call may do to the size behind earlier calls of a sizer. -/
structure Hysteresis (start : IntSizer) (before : List Signals) (signals : Signals) : Prop where
  /-- One step at most. -/
  step : |((start.run before).adjust signals).current - (start.run before).current| ≤ 1
  /-- Growth under pressure only. -/
  grows : (start.run before).current < ((start.run before).adjust signals).current →
    signals.underPressure = true
  /-- A decrease ends five quiet calls or more, none of them an earlier decrease. -/
  shrinks : (start.run before).Shrinks signals →
    ∃ first quiet, before = first ++ quiet ∧ 5 ≤ (quiet ++ [signals]).length ∧
      (∀ s ∈ quiet ++ [signals], s.underPressure = false) ∧ (start.run first).decreases quiet = 0

/-- Every call of a run from a streak of zero obeys the hysteresis. -/
theorem hysteresis_of_idleStreak {start : IntSizer} (h : start.idleStreak = 0)
    (before : List Signals) (signals : Signals) : Hysteresis start before signals := by
  refine ⟨abs_adjust_le _ signals, underPressure_of_grows, fun hshrinks ↦ ?_⟩
  obtain ⟨hquiet, hstreak⟩ := hshrinks.spec
  obtain ⟨first, quiet, hbefore, hlength, hall, hdecreases⟩ := streak_run h before
  refine ⟨first, quiet, hbefore, ?_, ?_, hdecreases⟩
  · rw [List.length_append, hlength]
    exact hstreak
  · intro s hs
    rcases List.mem_append.mp hs with hs | hs
    · exact hall s hs
    · rw [List.mem_singleton.mp hs]
      exact hquiet

/-- From construction on the size stays within the bounds, every call obeys the hysteresis, and
calls in a row make the pool smaller once in five of them. -/
theorem run_hysteresis {min max : Int} (h : min ≤ max) (calls : List Signals) :
    (min ≤ ((new min max).run calls).current ∧ ((new min max).run calls).current ≤ max) ∧
      (∀ before signals after, calls = before ++ signals :: after →
        Hysteresis (new min max) before signals) ∧
      ∀ before window after, calls = before ++ window ++ after →
        ((new min max).run before).decreases window ≤ (window.length + 4) / 5 := by
  refine ⟨?_, fun before signals _ _ ↦ hysteresis_of_idleStreak rfl before signals, ?_⟩
  · have hbounded : (new min max).Bounded := ⟨le_refl min, h⟩
    obtain ⟨hmin, hmax⟩ := hbounded.run calls
    rw [(run_new_bounds min max calls).1] at hmin
    rw [(run_new_bounds min max calls).2] at hmax
    exact ⟨hmin, hmax⟩
  · intro before window after _
    have hle := decreases_le ((new min max).run before) window
    omega

/-- A waiter makes the pool of two grow, and the fifth quiet call behind it makes it shrink. -/
theorem run_hysteresis_fiveQuiet :
    (1 ≤ ((new 1 2).run (⟨1, 0⟩ :: List.replicate 5 ⟨0, 0⟩)).current ∧
        ((new 1 2).run (⟨1, 0⟩ :: List.replicate 5 ⟨0, 0⟩)).current ≤ 2) ∧
      Hysteresis (new 1 2) (⟨1, 0⟩ :: List.replicate 4 ⟨0, 0⟩) ⟨0, 0⟩ ∧
      ((new 1 2).run (⟨1, 0⟩ :: List.replicate 4 ⟨0, 0⟩)).Shrinks ⟨0, 0⟩ ∧
      ((new 1 2).run [⟨1, 0⟩]).decreases (List.replicate 5 ⟨0, 0⟩) ≤ 1 :=
  have hrun := run_hysteresis (by decide) (⟨1, 0⟩ :: List.replicate 5 ⟨0, 0⟩)
  ⟨hrun.1, hrun.2.1 (⟨1, 0⟩ :: List.replicate 4 ⟨0, 0⟩) ⟨0, 0⟩ [] rfl, by decide,
    hrun.2.2 [⟨1, 0⟩] (List.replicate 5 ⟨0, 0⟩) [] rfl⟩

end IntSizer
end SalesData.Pool

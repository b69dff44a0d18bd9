import Mathlib.Algebra.Order.Field.Basic
import Mathlib.Algebra.Order.Ring.Rat
import Mathlib.Tactic.Linarith
import Mathlib.Tactic.NormNum

/-!
# Adaptive sampling

`AdaptiveSampler` (`core/performance/adaptive_sampler.py`) with exact rates and times. The lock
orders the calls; each reads the clock for itself, `should_sample` up to three times.
-/

namespace SalesData.Performance

/-- `AdaptiveSamplerConfig` (`adaptive_sampler.py:45–57`). -/
structure AdaptiveSamplerConfig where
  targetSamplesPerSecond : ℚ := 5
  minRatePercent : ℚ := 1
  maxRatePercent : ℚ := 100
  adjustmentIntervalSeconds : ℚ := 5
  slowRequestThresholdSeconds : ℚ := 2
  escalationSeconds : ℚ := 30

/-- The rates are in order and positive, and so are the durations. -/
structure AdaptiveSamplerConfig.Valid (config : AdaptiveSamplerConfig) : Prop where
  min_pos : 0 < config.minRatePercent
  min_le_max : config.minRatePercent ≤ config.maxRatePercent
  escalation_pos : 0 < config.escalationSeconds
  interval_pos : 0 < config.adjustmentIntervalSeconds

/-- The defaults are valid. -/
theorem AdaptiveSamplerConfig.valid_default : Valid {} := by
  constructor <;> norm_num

/-- The state behind the lock (`adaptive_sampler.py:66–79`). -/
structure AdaptiveSampler where
  ratePercent : ℚ
  windowStart : ℚ
  windowSampled : Nat
  windowRequests : Nat
  escalatedUntil : ℚ
  totalRequests : Nat
  totalSampled : Nat
  totalEscalations : Nat
  totalBadOutcomes : Nat

namespace AdaptiveSampler

/-- A call and what it reads off the clock. The second reading of `should_sample` is made when the
window ends, and the draw matters when the sampler is not escalated. -/
inductive Call where
  | shouldSample (elapsedAt resetAt askedAt draw : ℚ)
  | recordOutcome (statusCode : Int) (durationSeconds escalatedAt : ℚ)

/-- The readings of a call in their order. -/
def Call.readings : Call → List ℚ
  | shouldSample elapsedAt resetAt askedAt _ => [elapsedAt, resetAt, askedAt]
  | recordOutcome _ _ escalatedAt => [escalatedAt]

section Functions

variable (config : AdaptiveSamplerConfig) (s : AdaptiveSampler)

/-- `__init__` (`adaptive_sampler.py:66–79`). -/
def new (start : ℚ) : AdaptiveSampler := ⟨config.maxRatePercent, start, 0, 0, 0, 0, 0, 0, 0⟩

/-- The rate at the end of a window (`adaptive_sampler.py:138–155`). -/
def adjustedRate (elapsed : ℚ) : ℚ :=
  let actualRate := if 0 < elapsed then s.windowSampled / elapsed else 0
  let target := config.targetSamplesPerSecond
  if actualRate < target then min config.maxRatePercent (s.ratePercent * (3 / 2) + 1)
  else if target * (6 / 5) < actualRate then max config.minRatePercent (s.ratePercent * (7 / 10))
  else s.ratePercent

/-- `_maybe_adjust_locked` (`adaptive_sampler.py:133–159`). -/
def maybeAdjust (elapsedAt resetAt : ℚ) : AdaptiveSampler :=
  let elapsed := elapsedAt - s.windowStart
  if elapsed < config.adjustmentIntervalSeconds then s
  else
    { s with
      ratePercent := adjustedRate config s elapsed
      windowStart := resetAt
      windowSampled := 0
      windowRequests := 0 }

/-- `should_sample` (`adaptive_sampler.py:81–97`). -/
def shouldSample (elapsedAt resetAt askedAt draw : ℚ) : AdaptiveSampler × Bool :=
  let s := { s with totalRequests := s.totalRequests + 1, windowRequests := s.windowRequests + 1 }
  let s := maybeAdjust config s elapsedAt resetAt
  let escalated := decide (askedAt < s.escalatedUntil)
  let sampled := escalated || decide (draw < s.ratePercent)
  if sampled then
    ({ s with windowSampled := s.windowSampled + 1, totalSampled := s.totalSampled + 1 }, true)
  else (s, false)

/-- An outcome that escalates (`adaptive_sampler.py:106–108`). -/
def isBad (statusCode : Int) (durationSeconds : ℚ) : Bool :=
  decide (500 ≤ statusCode) || decide (config.slowRequestThresholdSeconds ≤ durationSeconds)

/-- `_escalate_locked` (`adaptive_sampler.py:128–131`). -/
def escalate (escalatedAt : ℚ) : AdaptiveSampler :=
  { s with
    totalEscalations := s.totalEscalations + 1
    escalatedUntil := escalatedAt + config.escalationSeconds
    ratePercent := config.maxRatePercent }

/-- `record_outcome` (`adaptive_sampler.py:99–126`), up to the line that it logs. -/
def recordOutcome (statusCode : Int) (durationSeconds escalatedAt : ℚ) : AdaptiveSampler :=
  if isBad config statusCode durationSeconds then
    escalate config { s with totalBadOutcomes := s.totalBadOutcomes + 1 } escalatedAt
  else s

/-- One call. -/
def step (s : AdaptiveSampler) : Call → AdaptiveSampler
  | .shouldSample elapsedAt resetAt askedAt draw =>
    (shouldSample config s elapsedAt resetAt askedAt draw).1
  | .recordOutcome statusCode durationSeconds escalatedAt =>
    recordOutcome config s statusCode durationSeconds escalatedAt

/-- Calls one after the other. -/
def run (calls : List Call) : AdaptiveSampler := calls.foldl (step config) s

end Functions

/-- What holds in every state. -/
structure Inv (config : AdaptiveSamplerConfig) (s : AdaptiveSampler) : Prop where
  min_le : config.minRatePercent ≤ s.ratePercent
  le_max : s.ratePercent ≤ config.maxRatePercent
  counted : s.totalSampled ≤ s.totalRequests

variable {config : AdaptiveSamplerConfig} {s : AdaptiveSampler}

/-- A new sampler samples at the highest rate. -/
theorem inv_new (hvalid : config.Valid) (start : ℚ) : Inv config (new config start) :=
  ⟨hvalid.min_le_max, le_refl _, le_refl _⟩

/-- An adjusted rate is within the bounds. -/
theorem Inv.adjustedRate (h : Inv config s) (hvalid : config.Valid) (elapsed : ℚ) :
    config.minRatePercent ≤ AdaptiveSampler.adjustedRate config s elapsed ∧
      AdaptiveSampler.adjustedRate config s elapsed ≤ config.maxRatePercent := by
  have hpos := lt_of_lt_of_le hvalid.min_pos h.min_le
  have hmin := h.min_le
  have hmax := h.le_max
  unfold AdaptiveSampler.adjustedRate
  dsimp only
  generalize (if 0 < elapsed then (s.windowSampled : ℚ) / elapsed else 0) = actualRate
  split
  · refine ⟨le_min hvalid.min_le_max ?_, min_le_left _ _⟩
    linarith
  · split
    · refine ⟨le_max_left _ _, max_le hvalid.min_le_max ?_⟩
      linarith
    · exact ⟨hmin, hmax⟩

/-- The end of a window keeps the bounds. -/
theorem Inv.maybeAdjust (h : Inv config s) (hvalid : config.Valid) (elapsedAt resetAt : ℚ) :
    Inv config (AdaptiveSampler.maybeAdjust config s elapsedAt resetAt) := by
  unfold AdaptiveSampler.maybeAdjust
  dsimp only
  split
  · exact h
  · have hrate := h.adjustedRate hvalid (elapsedAt - s.windowStart)
    exact ⟨hrate.1, hrate.2, h.counted⟩

/-- The end of a window leaves an escalation alone. -/
@[simp] theorem maybeAdjust_escalatedUntil (elapsedAt resetAt : ℚ) :
    (maybeAdjust config s elapsedAt resetAt).escalatedUntil = s.escalatedUntil := by
  unfold maybeAdjust
  dsimp only
  split <;> rfl

/-- The totals count the requests of every window. -/
@[simp] theorem maybeAdjust_total (elapsedAt resetAt : ℚ) :
    (maybeAdjust config s elapsedAt resetAt).totalSampled = s.totalSampled ∧
      (maybeAdjust config s elapsedAt resetAt).totalRequests = s.totalRequests := by
  unfold maybeAdjust
  dsimp only
  split <;> exact ⟨rfl, rfl⟩

/-- What `should_sample` changes and answers. -/
theorem shouldSample_cases (elapsedAt resetAt askedAt draw : ℚ) :
    ∃ s₁ : AdaptiveSampler, s₁ = maybeAdjust config
        { s with
          totalRequests := s.totalRequests + 1, windowRequests := s.windowRequests + 1 }
        elapsedAt resetAt ∧
      shouldSample config s elapsedAt resetAt askedAt draw =
        if askedAt < s.escalatedUntil ∨ draw < s₁.ratePercent then
          ({ s₁ with
            windowSampled := s₁.windowSampled + 1, totalSampled := s₁.totalSampled + 1 }, true)
        else (s₁, false) := by
  refine ⟨_, rfl, ?_⟩
  unfold shouldSample
  simp only [maybeAdjust_escalatedUntil, Bool.or_eq_true, decide_eq_true_eq]

/-- A call keeps what holds in every state. -/
theorem Inv.step (h : Inv config s) (hvalid : config.Valid) (call : Call) :
    Inv config (AdaptiveSampler.step config s call) := by
  cases call with
  | shouldSample elapsedAt resetAt askedAt draw =>
    obtain ⟨s₁, hs₁, hcall⟩ := @shouldSample_cases config s elapsedAt resetAt askedAt draw
    have hcounted : s.totalSampled + 1 ≤ s.totalRequests + 1 := Nat.succ_le_succ h.counted
    have hasked : Inv config { s with
        totalRequests := s.totalRequests + 1, windowRequests := s.windowRequests + 1 } :=
      ⟨h.min_le, h.le_max, Nat.le_succ_of_le h.counted⟩
    have hinv : Inv config s₁ := hs₁ ▸ hasked.maybeAdjust hvalid elapsedAt resetAt
    have htotal : s₁.totalSampled = s.totalSampled ∧ s₁.totalRequests = s.totalRequests + 1 := by
      rw [hs₁]
      exact maybeAdjust_total _ _
    rw [AdaptiveSampler.step, hcall]
    split
    · refine ⟨hinv.min_le, hinv.le_max, ?_⟩
      dsimp only
      rw [htotal.1, htotal.2]
      exact hcounted
    · exact hinv
  | recordOutcome statusCode durationSeconds escalatedAt =>
    unfold AdaptiveSampler.step recordOutcome
    dsimp only
    split
    · exact ⟨hvalid.min_le_max, le_refl _, h.counted⟩
    · exact h

/-- Calls keep what holds in every state. -/
theorem Inv.run (h : Inv config s) (hvalid : config.Valid) (calls : List Call) :
    Inv config (AdaptiveSampler.run config s calls) := by
  induction calls generalizing s with
  | nil => exact h
  | cons call calls ih => exact ih (h.step hvalid call)

/-- A bad outcome escalates. -/
theorem escalatedUntil_recordOutcome {statusCode : Int} {durationSeconds : ℚ}
    (hbad : isBad config statusCode durationSeconds = true) (escalatedAt : ℚ) :
    (recordOutcome config s statusCode durationSeconds escalatedAt).escalatedUntil =
      escalatedAt + config.escalationSeconds := by
  rw [recordOutcome, if_pos hbad]
  rfl

/-- An escalation is not cut short by a later call. -/
theorem escalatedUntil_step {t : ℚ} (h : t + config.escalationSeconds ≤ s.escalatedUntil)
    {call : Call} (hcall : ∀ r ∈ call.readings, t ≤ r) :
    t + config.escalationSeconds ≤ (step config s call).escalatedUntil := by
  cases call with
  | shouldSample elapsedAt resetAt askedAt draw =>
    obtain ⟨s₁, hs₁, hshould⟩ := @shouldSample_cases config s elapsedAt resetAt askedAt draw
    have huntil : s₁.escalatedUntil = s.escalatedUntil := by
      rw [hs₁]
      exact maybeAdjust_escalatedUntil _ _
    rw [step, hshould]
    split
    · exact huntil ▸ h
    · exact huntil ▸ h
  | recordOutcome statusCode durationSeconds escalatedAt =>
    have ht : t ≤ escalatedAt := hcall escalatedAt (List.mem_singleton.mpr rfl)
    rw [step]
    cases hbad : isBad config statusCode durationSeconds with
    | true =>
      rw [escalatedUntil_recordOutcome hbad]
      linarith
    | false =>
      rw [recordOutcome, hbad, if_neg Bool.false_ne_true]
      exact h

/-- Calls that read the clock later do not shorten an escalation. -/
theorem escalatedUntil_run {t : ℚ} (h : t + config.escalationSeconds ≤ s.escalatedUntil)
    {calls : List Call} (hcalls : ∀ r ∈ calls.flatMap Call.readings, t ≤ r) :
    t + config.escalationSeconds ≤ (run config s calls).escalatedUntil := by
  induction calls generalizing s with
  | nil => exact h
  | cons call calls ih =>
    rw [List.flatMap_cons] at hcalls
    apply ih
    · exact escalatedUntil_step h fun r hr ↦ hcalls r (List.mem_append_left _ hr)
    · exact fun r hr ↦ hcalls r (List.mem_append_right _ hr)

/-- While the sampler is escalated every request is sampled. -/
theorem shouldSample_of_escalated {elapsedAt resetAt askedAt draw : ℚ}
    (h : askedAt < s.escalatedUntil) :
    (shouldSample config s elapsedAt resetAt askedAt draw).2 = true := by
  obtain ⟨s₁, -, hcall⟩ := @shouldSample_cases config s elapsedAt resetAt askedAt draw
  rw [hcall, if_pos (.inl h)]

/-- In every run the rate is within its bounds, no more is sampled than asked, and behind a bad
outcome at `t` every request is sampled that comes before `t + escalation_seconds`. -/
theorem run_bounded_escalated (config : AdaptiveSamplerConfig) (hvalid : config.Valid) (start : ℚ)
    (calls : List Call) (hclock : (start :: calls.flatMap Call.readings).Pairwise (· ≤ ·)) :
    (config.minRatePercent ≤ (run config (new config start) calls).ratePercent ∧
      (run config (new config start) calls).ratePercent ≤ config.maxRatePercent) ∧
      (run config (new config start) calls).totalSampled ≤
        (run config (new config start) calls).totalRequests ∧
      ∀ before between after statusCode durationSeconds t elapsedAt resetAt askedAt draw,
        calls = before ++ .recordOutcome statusCode durationSeconds t ::
          (between ++ .shouldSample elapsedAt resetAt askedAt draw :: after) →
        isBad config statusCode durationSeconds = true →
        askedAt < t + config.escalationSeconds →
        (shouldSample config (run config (new config start)
          (before ++ .recordOutcome statusCode durationSeconds t :: between))
          elapsedAt resetAt askedAt draw).2 = true := by
  have hinv := (inv_new hvalid start).run hvalid calls
  refine ⟨⟨hinv.min_le, hinv.le_max⟩, hinv.counted, ?_⟩
  rintro before between after statusCode durationSeconds t elapsedAt resetAt askedAt draw rfl hbad
    hasked
  apply shouldSample_of_escalated
  apply lt_of_lt_of_le hasked
  rw [run, List.foldl_append, List.foldl_cons]
  apply escalatedUntil_run
  · exact le_of_eq (escalatedUntil_recordOutcome hbad t).symm
  · intro r hr
    rw [List.pairwise_cons, List.flatMap_append, List.flatMap_cons, List.pairwise_append] at hclock
    have hlater := (List.pairwise_append.mp hclock.2.2.1).2.2
    refine hlater t (List.mem_singleton.mpr rfl) r ?_
    rw [List.flatMap_append]
    exact List.mem_append_left _ hr

/-- A server error and then three requests, the last behind the end of a window. -/
def errorCalls : List Call :=
  [.shouldSample 1 1 1 50, .recordOutcome 500 (1 / 10) 2, .shouldSample 3 3 3 99,
    .shouldSample 9 9 9 99]

/-- All of them are sampled. -/
theorem run_bounded_escalated_errorCalls :
    (1 ≤ (run {} (new {} 0) errorCalls).ratePercent ∧
      (run {} (new {} 0) errorCalls).ratePercent ≤ 100) ∧
      (shouldSample {} (run {} (new {} 0) (errorCalls.take 3)) 9 9 9 99).2 = true := by
  obtain ⟨hrate, -, hescalated⟩ := run_bounded_escalated {} AdaptiveSamplerConfig.valid_default 0
    errorCalls (by norm_num [errorCalls, Call.readings])
  refine ⟨hrate, ?_⟩
  exact hescalated [.shouldSample 1 1 1 50] [.shouldSample 3 3 3 99] [] 500 (1 / 10) 2 9 9 9 99 rfl
    rfl (by norm_num)

end AdaptiveSampler
end SalesData.Performance

import Mathlib.Data.List.Dedup
import SalesData.Base.Dict
import SalesData.Base.Watch
import SalesData.Observability.TraceRows

/-!
# Operational alerts

`AlertEvaluator` (`core/observability/alerts.py`), which the health route asks once for each of its
requests: gauges are compared with thresholds, counters with what they were at the evaluation
before. The metrics are the dictionaries that `health_check` (`core/app/api/routes/query.py:32–100`)
passes; they have every key. Floats are not rounded.
-/

namespace SalesData.Observability

open Base

/-- The codes of alerts. -/
inductive AlertCode
  | poolSaturated
  | poolUnderPressure
  | poolTimeouts
  | poolBrokenConnections
  | executorSaturated (name : Text)
  | queryConcurrencySaturated (cost : Text)
  | persistenceQueueBacklog
  | persistenceDropped
  | persistenceFailed
  | samplingEscalated
  deriving DecidableEq, Repr

namespace AlertCode

/-- The text that stands for a code. -/
def text : AlertCode → Text
  | poolSaturated => "pool_saturated".toList
  | poolUnderPressure => "pool_under_pressure".toList
  | poolTimeouts => "pool_timeouts".toList
  | poolBrokenConnections => "pool_broken_connections".toList
  | executorSaturated name => "executor_".toList ++ name ++ "_saturated".toList
  | queryConcurrencySaturated cost => "query_concurrency_".toList ++ cost ++ "_saturated".toList
  | persistenceQueueBacklog => "persistence_queue_backlog".toList
  | persistenceDropped => "persistence_dropped".toList
  | persistenceFailed => "persistence_failed".toList
  | samplingEscalated => "sampling_escalated".toList

private def initial : AlertCode → Char
  | executorSaturated _ => 'e'
  | queryConcurrencySaturated _ => 'q'
  | samplingEscalated => 's'
  | _ => 'p'

private theorem head?_text (code : AlertCode) : code.text.head? = some code.initial := by
  cases code <;> rfl

/-- Different codes have different texts. -/
theorem text_injective : Function.Injective text := by
  intro a b h
  have hinitial : a.initial = b.initial := by
    simpa only [head?_text, Option.some.injEq] using congrArg List.head? h
  cases a with
  | executorSaturated name =>
    cases b with
    | executorSaturated name' =>
      obtain rfl : _ = _ := List.append_cancel_left (List.append_cancel_right h)
      rfl
    | _ => simp [initial] at hinitial
  | queryConcurrencySaturated cost =>
    cases b with
    | queryConcurrencySaturated cost' =>
      obtain rfl : _ = _ := List.append_cancel_left (List.append_cancel_right h)
      rfl
    | _ => simp [initial] at hinitial
  | _ =>
    cases b with
    | executorSaturated | queryConcurrencySaturated => simp [initial] at hinitial
    | _ => first | rfl | exact absurd h (by decide)

end AlertCode

/-- `Alert.severity`. -/
inductive Severity
  | warning | critical
  deriving DecidableEq, Repr

/-- The values and thresholds of alerts. -/
inductive AlertValue
  | int (n : Int)
  | float (x : ℚ)
  | bool (b : Bool)
  | load (utilization : ℚ) (queued : Nat)
  deriving DecidableEq

/-- `Alert` (`alerts.py:48–63`). -/
structure Alert where
  code : AlertCode
  severity : Severity
  message : Text
  value : AlertValue
  threshold : AlertValue
  deriving DecidableEq

/-- `AlertThresholds` (`alerts.py:39–45`). -/
structure AlertThresholds where
  poolSaturationWarning : ℚ
  poolSaturationCritical : ℚ
  executorUtilizationWarning : ℚ
  queryConcurrencyWarning : ℚ
  persistenceQueueDepthWarningRatio : ℚ

/-- The defaults of `AlertThresholds`. -/
def AlertThresholds.default : AlertThresholds := ⟨4 / 5, 19 / 20, 9 / 10, 9 / 10, 3 / 4⟩

/-- What is read of the pool's metrics. -/
structure PoolMetrics where
  saturation : ℚ
  timedOutAcquires : Int
  brokenConnectionsEvicted : Int

/-- What is read of an executor's metrics. -/
structure ExecutorMetrics where
  maxWorkers : Nat
  active : Nat
  approxQueueDepth : Nat

/-- What is read of the metrics of a cost class. -/
structure CostClassMetrics where
  limit : Nat
  inUse : Nat

/-- What is read of the persistence queue's metrics. -/
structure PersistenceMetrics where
  queueDepth : Nat
  dropped : Int
  failed : Int

/-- The arguments of `evaluate`; `adaptiveSampler` is `escalated` of the sampler's metrics. -/
structure HealthMetrics where
  pool : Option PoolMetrics
  executors : Option (Dict Text ExecutorMetrics)
  queryConcurrency : Option (Dict Text CostClassMetrics)
  cachePersistence : Option PersistenceMetrics
  adaptiveSampler : Option Bool
  persistenceQueueMaxsize : Nat

/-- What `_log_newly_firing` logs. -/
inductive AlertLine
  | firing (alert : Alert)
  | resolved (code : AlertCode)
  deriving DecidableEq

/-- The code that a line is about, and whether it begins to fire. -/
def AlertLine.edge : AlertLine → AlertCode × Bool
  | firing alert => (alert.code, true)
  | resolved code => (code, false)

/-- `AlertEvaluator` (`alerts.py:66–70`). -/
structure AlertEvaluator where
  thresholds : AlertThresholds
  prevCounters : Dict AlertCode Int
  firing : List AlertCode

/-- `n or 1`. -/
def orOne (n : Nat) : Nat := if n = 0 then 1 else n

namespace AlertEvaluator

/-- `AlertEvaluator(thresholds)`. -/
def new (thresholds : AlertThresholds) : AlertEvaluator := ⟨thresholds, .empty, []⟩

/-- `_check_counter_delta` (`alerts.py:228–239`). -/
def checkCounterDelta (ev : AlertEvaluator) (code : AlertCode) (currentValue : Int)
    (severity : Severity) (message : Text) : List Alert × AlertEvaluator :=
  let previous := (ev.prevCounters.get? code).getD currentValue
  let delta := currentValue - previous
  let ev := { ev with prevCounters := ev.prevCounters.set code currentValue }
  (if 0 < delta then [⟨code, severity, message, .int delta, .int 0⟩] else [], ev)

variable (percent : ℚ → Text)

/-- The gauge of `_check_pool` (`alerts.py:115–135`); `percent` is the format `.0%`. -/
def saturationAlerts (ev : AlertEvaluator) (saturation : ℚ) : List Alert :=
  let message := "DB connection pool is at ".toList ++ percent saturation ++ " saturation".toList
  if ev.thresholds.poolSaturationCritical ≤ saturation then
    [⟨.poolSaturated, .critical, message, .float saturation,
      .float ev.thresholds.poolSaturationCritical⟩]
  else if ev.thresholds.poolSaturationWarning ≤ saturation then
    [⟨.poolUnderPressure, .warning, message, .float saturation,
      .float ev.thresholds.poolSaturationWarning⟩]
  else []

/-- `_check_pool` (`alerts.py:113–153`). -/
def checkPool (ev : AlertEvaluator) (m : PoolMetrics) : List Alert × AlertEvaluator :=
  let gauge := ev.saturationAlerts percent m.saturation
  let (timeouts, ev) := ev.checkCounterDelta .poolTimeouts m.timedOutAcquires .critical
    "New pool acquire timeouts since last check".toList
  let (broken, ev) := ev.checkCounterDelta .poolBrokenConnections m.brokenConnectionsEvicted
    .warning "New broken DB connections evicted since last check".toList
  (gauge ++ timeouts ++ broken, ev)

/-- One executor in `_check_executors` (`alerts.py:157–175`). -/
def executorAlert (ev : AlertEvaluator) (name : Text) (m : ExecutorMetrics) : Option Alert :=
  let utilization : ℚ := m.active / orOne m.maxWorkers
  if ev.thresholds.executorUtilizationWarning ≤ utilization ∨ 0 < m.approxQueueDepth then
    some ⟨.executorSaturated name, .warning,
      '\'' :: name ++ "' executor is at ".toList ++ percent utilization ++
        " utilization with ".toList ++ Nat.toDigits 10 m.approxQueueDepth ++
        " job(s) queued".toList,
      .load (round (utilization * 100) / 100) m.approxQueueDepth,
      .float ev.thresholds.executorUtilizationWarning⟩
  else none

/-- `_check_executors` (`alerts.py:155–176`). -/
def checkExecutors (ev : AlertEvaluator) (executors : Dict Text ExecutorMetrics) : List Alert :=
  executors.entries.filterMap fun e ↦ ev.executorAlert percent e.1 e.2

/-- One cost class in `_check_query_concurrency` (`alerts.py:180–193`). -/
def costClassAlert (ev : AlertEvaluator) (cost : Text) (m : CostClassMetrics) : Option Alert :=
  let ratio : ℚ := m.inUse / orOne m.limit
  if ev.thresholds.queryConcurrencyWarning ≤ ratio then
    some ⟨.queryConcurrencySaturated cost, .warning,
      '\'' :: cost ++ "' query concurrency limit is at ".toList ++ percent ratio ++
        " usage".toList,
      .float ratio, .float ev.thresholds.queryConcurrencyWarning⟩
  else none

/-- `_check_query_concurrency` (`alerts.py:178–194`). -/
def checkQueryConcurrency (ev : AlertEvaluator) (classes : Dict Text CostClassMetrics) :
    List Alert :=
  classes.entries.filterMap fun e ↦ ev.costClassAlert percent e.1 e.2

/-- The gauge of `_check_persistence` (`alerts.py:198–209`). -/
def backlogAlerts (ev : AlertEvaluator) (queueDepth maxsize : Nat) : List Alert :=
  let ratio : ℚ := queueDepth / max 1 maxsize
  if ev.thresholds.persistenceQueueDepthWarningRatio ≤ ratio then
    let threshold : ℚ := maxsize * ev.thresholds.persistenceQueueDepthWarningRatio
    [⟨.persistenceQueueBacklog, .warning,
      "Cache persistence queue is at ".toList ++ percent ratio ++ " of capacity".toList,
      .int queueDepth, .int (threshold.num.tdiv threshold.den)⟩]
  else []

/-- `_check_persistence` (`alerts.py:196–226`). -/
def checkPersistence (ev : AlertEvaluator) (m : PersistenceMetrics) (maxsize : Nat) :
    List Alert × AlertEvaluator :=
  let gauge := ev.backlogAlerts percent m.queueDepth maxsize
  let (dropped, ev) := ev.checkCounterDelta .persistenceDropped m.dropped .warning
    "Cache persistence queue dropped new writes since last check".toList
  let (failed, ev) := ev.checkCounterDelta .persistenceFailed m.failed .warning
    "Cache persistence jobs failed since last check".toList
  (gauge ++ dropped ++ failed, ev)

/-- The alert of an escalated sampler (`alerts.py:96–108`). -/
def escalationAlert : Alert :=
  ⟨.samplingEscalated, .warning,
    ("Adaptive performance sampling is escalated -- " ++
      "recent requests were slow or errored").toList, .bool true, .bool false⟩

/-- A check of metrics that may be missing. -/
def given {M : Type} (checks : M → List Alert × AlertEvaluator) (ev : AlertEvaluator) :
    Option M → List Alert × AlertEvaluator
  | some m => checks m
  | none => ([], ev)

/-- The checks of `evaluate` (`alerts.py:82–108`). -/
def check (ev : AlertEvaluator) (m : HealthMetrics) : List Alert × AlertEvaluator :=
  let (pool, ev) := given (ev.checkPool percent) ev m.pool
  let executors := (m.executors.map (ev.checkExecutors percent)).getD []
  let concurrency := (m.queryConcurrency.map (ev.checkQueryConcurrency percent)).getD []
  let (persistence, ev) :=
    given (ev.checkPersistence percent · m.persistenceQueueMaxsize) ev m.cachePersistence
  let sampling := if m.adaptiveSampler = some true then [escalationAlert] else []
  (pool ++ executors ++ concurrency ++ persistence ++ sampling, ev)

/-- `_log_newly_firing` (`alerts.py:241–257`); the order of the resolved ones is that of a set. -/
def logNewlyFiring (ev : AlertEvaluator) (alerts : List Alert) :
    List AlertLine × AlertEvaluator :=
  let currentCodes := (alerts.map (·.code)).dedup
  ((alerts.filter (·.code ∉ ev.firing)).map .firing ++
    (ev.firing.filter (· ∉ currentCodes)).map .resolved,
    { ev with firing := currentCodes })

/-- `evaluate` (`alerts.py:72–111`): the alerts, the lines logged and the evaluator behind it. -/
def evaluate (ev : AlertEvaluator) (m : HealthMetrics) :
    List Alert × List AlertLine × AlertEvaluator :=
  let (alerts, ev) := ev.check percent m
  let (lines, ev) := ev.logNewlyFiring alerts
  (alerts, lines, ev)

/-- Evaluations one after another: what each answers and all lines. -/
def evaluations (ev : AlertEvaluator) : List HealthMetrics → List (List Alert) × List AlertLine
  | [] => ([], [])
  | m :: ms =>
    let (alerts, lines, ev) := ev.evaluate percent m
    let (answers, rest) := ev.evaluations ms
    (alerts :: answers, lines ++ rest)

variable {ev : AlertEvaluator}

/-! ## Lines -/

/-- The codes that an evaluation may fire, in the order of its checks. -/
def codes (m : HealthMetrics) : List AlertCode :=
  [.poolSaturated, .poolUnderPressure, .poolTimeouts, .poolBrokenConnections] ++
    ((m.executors.map Dict.keys).getD []).map .executorSaturated ++
    ((m.queryConcurrency.map Dict.keys).getD []).map .queryConcurrencySaturated ++
    [.persistenceQueueBacklog, .persistenceDropped, .persistenceFailed] ++ [.samplingEscalated]

/-- A code is fired once at most: the names of executors and of cost classes are distinct. -/
theorem codes_nodup (m : HealthMetrics) : (codes m).Nodup := by
  have hkeys {V : Type} (d : Option (Dict Text V)) : ((d.map Dict.keys).getD []).Nodup := by
    cases d with
    | none => exact .nil
    | some d => exact d.keys_nodup
  have hexecutors := (hkeys m.executors).map
    fun a b h ↦ AlertCode.executorSaturated.inj h
  have hclasses := (hkeys m.queryConcurrency).map
    fun a b h ↦ AlertCode.queryConcurrencySaturated.inj h
  simp only [codes, List.nodup_append, List.mem_append, List.mem_map]
  refine ⟨⟨⟨⟨by decide, hexecutors, ?_⟩, hclasses, ?_⟩, by decide, ?_⟩, by decide, ?_⟩
  · rintro a ha b ⟨name, -, rfl⟩ rfl
    simp at ha
  · rintro a ha b ⟨cost, -, rfl⟩ rfl
    simp at ha
  · rintro a ha b hb rfl
    simp at hb
    rcases hb with rfl | rfl | rfl <;> simp at ha
  · rintro a ha b hb rfl
    simp at hb
    subst hb
    simp at ha

/-- The source fires texts, and the texts of an evaluation's codes are distinct too. -/
theorem texts_nodup (m : HealthMetrics) : ((codes m).map AlertCode.text).Nodup :=
  (codes_nodup m).map AlertCode.text_injective

/-- A counter fires its own code only, and nothing is forgotten of the conditions that hold. -/
theorem checkCounterDelta_spec (ev : AlertEvaluator) (code : AlertCode) (currentValue : Int)
    (severity : Severity) (message : Text) :
    ((ev.checkCounterDelta code currentValue severity message).1.map (·.code)).Sublist [code] ∧
      (ev.checkCounterDelta code currentValue severity message).2.firing = ev.firing := by
  refine ⟨?_, rfl⟩
  unfold checkCounterDelta
  dsimp only
  split
  · exact List.Sublist.refl _
  · exact List.nil_sublist _

private theorem map_filterMap_sublist {A B C : Type} {f : A → Option B} {g : B → C} {h : A → C}
    (hf : ∀ a b, f a = some b → g b = h a) (as : List A) :
    ((as.filterMap f).map g).Sublist (as.map h) := by
  induction as with
  | nil => exact List.Sublist.refl _
  | cons a as ih =>
    cases hfa : f a with
    | none =>
      rw [List.filterMap_cons_none hfa]
      exact ih.cons _
    | some b =>
      rw [List.filterMap_cons_some hfa, List.map_cons, List.map_cons, hf a b hfa]
      exact ih.cons_cons _

/-- The gauge of the pool has two codes. -/
theorem codes_saturationAlerts (ev : AlertEvaluator) (saturation : ℚ) :
    ((ev.saturationAlerts percent saturation).map (·.code)).Sublist
      [.poolSaturated, .poolUnderPressure] := by
  unfold saturationAlerts
  dsimp only
  split
  · exact (List.nil_sublist _).cons_cons _
  · split
    · exact (List.Sublist.refl _).cons _
    · exact List.nil_sublist _

/-- The codes of the pool's alerts. -/
theorem checkPool_spec (ev : AlertEvaluator) (m : PoolMetrics) :
    ((ev.checkPool percent m).1.map (·.code)).Sublist
        [.poolSaturated, .poolUnderPressure, .poolTimeouts, .poolBrokenConnections] ∧
      (ev.checkPool percent m).2.firing = ev.firing := by
  refine ⟨?_, rfl⟩
  unfold checkPool
  dsimp only
  rw [List.map_append, List.map_append]
  exact ((codes_saturationAlerts percent ev _).append (checkCounterDelta_spec ..).1).append
    (checkCounterDelta_spec ..).1

/-- The gauge of the persistence queue has one code. -/
theorem codes_backlogAlerts (ev : AlertEvaluator) (queueDepth maxsize : Nat) :
    ((ev.backlogAlerts percent queueDepth maxsize).map (·.code)).Sublist
      [.persistenceQueueBacklog] := by
  unfold backlogAlerts
  dsimp only
  split
  · exact List.Sublist.refl _
  · exact List.nil_sublist _

/-- The codes of the persistence queue's alerts. -/
theorem checkPersistence_spec (ev : AlertEvaluator) (m : PersistenceMetrics) (maxsize : Nat) :
    ((ev.checkPersistence percent m maxsize).1.map (·.code)).Sublist
        [.persistenceQueueBacklog, .persistenceDropped, .persistenceFailed] ∧
      (ev.checkPersistence percent m maxsize).2.firing = ev.firing := by
  refine ⟨?_, rfl⟩
  unfold checkPersistence
  dsimp only
  rw [List.map_append, List.map_append]
  exact ((codes_backlogAlerts percent ev _ _).append (checkCounterDelta_spec ..).1).append
    (checkCounterDelta_spec ..).1

/-- An executor's alert has its name. -/
theorem code_executorAlert {name : Text} {m : ExecutorMetrics} {alert : Alert}
    (h : ev.executorAlert percent name m = some alert) : alert.code = .executorSaturated name := by
  unfold executorAlert at h
  dsimp only at h
  split at h
  · cases h
    rfl
  · cases h

/-- The alert of a cost class has its name. -/
theorem code_costClassAlert {cost : Text} {m : CostClassMetrics} {alert : Alert}
    (h : ev.costClassAlert percent cost m = some alert) :
    alert.code = .queryConcurrencySaturated cost := by
  unfold costClassAlert at h
  dsimp only at h
  split at h
  · cases h
    rfl
  · cases h

private theorem given_sublist {V : Type} (alerts : Dict Text V → List Alert)
    {code : Text → AlertCode}
    (h : ∀ d, ((alerts d).map (·.code)).Sublist (d.entries.map fun e ↦ code e.1))
    (d : Option (Dict Text V)) :
    (((d.map alerts).getD []).map (·.code)).Sublist (((d.map Dict.keys).getD []).map code) := by
  cases d with
  | none => exact List.nil_sublist _
  | some d =>
    rw [Option.map_some, Option.map_some, Option.getD_some, Option.getD_some, Dict.keys,
      List.map_map]
    exact h d

private theorem given_spec {M : Type} {checks : M → List Alert × AlertEvaluator}
    {cs : List AlertCode} (h : ∀ m, ((checks m).1.map (·.code)).Sublist cs ∧
      (checks m).2.firing = ev.firing) (m : Option M) :
    ((given checks ev m).1.map (·.code)).Sublist cs ∧
      (given checks ev m).2.firing = ev.firing := by
  cases m with
  | some m => exact h m
  | none => exact ⟨List.nil_sublist _, rfl⟩

/-- The checks fire codes of their order, and leave the conditions that hold alone. -/
theorem check_spec (ev : AlertEvaluator) (m : HealthMetrics) :
    ((ev.check percent m).1.map (·.code)).Sublist (codes m) ∧
      (ev.check percent m).2.firing = ev.firing := by
  obtain ⟨hpool, hfiring⟩ := given_spec (checkPool_spec percent ev) m.pool
  unfold check
  dsimp only
  generalize given (ev.checkPool percent) ev m.pool = pool at hpool hfiring
  obtain ⟨hpersistence, hfiring'⟩ := given_spec
    (fun p ↦ checkPersistence_spec percent pool.2 p m.persistenceQueueMaxsize)
    m.cachePersistence
  refine ⟨?_, hfiring'.trans hfiring⟩
  simp only [List.map_append]
  refine (((hpool.append ?_).append ?_).append hpersistence).append ?_
  · exact given_sublist _
      (fun _ ↦ map_filterMap_sublist (fun _ _ h ↦ code_executorAlert percent h) _) _
  · exact given_sublist _
      (fun _ ↦ map_filterMap_sublist (fun _ _ h ↦ code_costClassAlert percent h) _) _
  · split
    · exact List.Sublist.refl _
    · exact List.nil_sublist _

/-- The lines of an evaluation are the edges of the conditions that hold. -/
theorem evaluate_spec (ev : AlertEvaluator) (m : HealthMetrics) :
    ((ev.evaluate percent m).1.map (·.code)).Nodup ∧
      (ev.evaluate percent m).2.1.map AlertLine.edge =
        edges ev.firing ((ev.evaluate percent m).1.map (·.code)) ∧
      (ev.evaluate percent m).2.2.firing = (ev.evaluate percent m).1.map (·.code) := by
  obtain ⟨hcodes, hfiring⟩ := check_spec percent ev m
  have hnodup := hcodes.nodup (codes_nodup m)
  refine ⟨hnodup, ?_, List.Nodup.dedup hnodup⟩
  unfold evaluate logNewlyFiring
  dsimp only
  rw [List.Nodup.dedup hnodup, hfiring, edges, List.map_append, List.map_map, List.map_map,
    List.filter_map, List.map_map]
  rfl

/-- The lines of a run are the edges along its answers. -/
theorem lines_evaluations (ev : AlertEvaluator) (ms : List HealthMetrics) :
    (ev.evaluations percent ms).2.map AlertLine.edge =
        edgesAlong ev.firing ((ev.evaluations percent ms).1.map (·.map (·.code))) ∧
      ∀ alerts ∈ (ev.evaluations percent ms).1, (alerts.map (·.code)).Nodup := by
  induction ms generalizing ev with
  | nil => exact ⟨rfl, fun alerts h ↦ absurd h List.not_mem_nil⟩
  | cons m ms ih =>
    obtain ⟨hnodup, hlines, hfiring⟩ := evaluate_spec percent ev m
    obtain ⟨hrest, hnodups⟩ := ih (ev.evaluate percent m).2.2
    rw [hfiring] at hrest
    constructor
    · change List.map AlertLine.edge ((ev.evaluate percent m).2.1 ++
        ((ev.evaluate percent m).2.2.evaluations percent ms).2) = _
      rw [List.map_append, hlines, hrest]
      rfl
    · intro alerts h
      rcases List.mem_cons.mp h with rfl | h
      · exact hnodup
      · exact hnodups alerts h

/-- In any run of evaluations the lines about a code announce in turn that it fires and that it is
resolved, and the last one tells whether it is among the last alerts. -/
theorem lines_toggle (percent : ℚ → Text) (thresholds : AlertThresholds) (ms : List HealthMetrics)
    (code : AlertCode) :
    Toggles false
        (edgesOf code (((new thresholds).evaluations percent ms).2.map AlertLine.edge)) ∧
      (edgesOf code (((new thresholds).evaluations percent ms).2.map AlertLine.edge)).getLastD
        false = decide
          (code ∈ (((new thresholds).evaluations percent ms).1.getLastD []).map (·.code)) := by
  obtain ⟨hlines, hnodups⟩ := lines_evaluations percent (new thresholds) ms
  rw [hlines]
  obtain ⟨htoggles, hlast⟩ := @toggles_edgesAlong _ _ (new thresholds).firing _ .nil
    (List.forall_mem_map.mpr hnodups) code
  refine ⟨htoggles, hlast.trans ?_⟩
  change decide (code ∈ (List.map _ _).getLastD (List.map Alert.code [])) = _
  rw [List.getLastD_map]

/-! ## Counters -/

/-- The counters that are watched. -/
inductive Counter
  | poolTimeouts | poolBrokenConnections | persistenceDropped | persistenceFailed
  deriving DecidableEq

namespace Counter

/-- The code under which a counter is watched. -/
def code : Counter → AlertCode
  | poolTimeouts => .poolTimeouts
  | poolBrokenConnections => .poolBrokenConnections
  | persistenceDropped => .persistenceDropped
  | persistenceFailed => .persistenceFailed

/-- What an evaluation reads of a counter. -/
def reading : Counter → HealthMetrics → Option Int
  | poolTimeouts, m => m.pool.map (·.timedOutAcquires)
  | poolBrokenConnections, m => m.pool.map (·.brokenConnectionsEvicted)
  | persistenceDropped, m => m.cachePersistence.map (·.dropped)
  | persistenceFailed, m => m.cachePersistence.map (·.failed)

end Counter

/-- The values of the alerts of a code. -/
def deltas (code : AlertCode) (alerts : List Alert) : List AlertValue :=
  (alerts.filter (·.code = code)).map (·.value)

/-- What an alert tells of a reading. -/
def rise (previous : Option Int) (current : Int) : List Int :=
  if 0 < increase previous current then [increase previous current] else []

private theorem deltas_append (code : AlertCode) (as bs : List Alert) :
    deltas code (as ++ bs) = deltas code as ++ deltas code bs := by
  rw [deltas, List.filter_append, List.map_append]
  rfl

private theorem deltas_eq_nil (code : AlertCode) {alerts : List Alert} {cs : List AlertCode}
    (h : (alerts.map (·.code)).Sublist cs) (hcode : code ∉ cs) : deltas code alerts = [] := by
  rw [deltas, List.filter_eq_nil_iff.mpr, List.map_nil]
  intro a ha
  have hne : a.code ≠ code := fun he ↦ hcode (he ▸ h.subset (List.mem_map_of_mem ha))
  simpa using hne

/-- The alert of a counter, and what is remembered of it. -/
theorem deltas_checkCounterDelta (ev : AlertEvaluator) (key code : AlertCode) (currentValue : Int)
    (severity : Severity) (message : Text) :
    deltas code (ev.checkCounterDelta key currentValue severity message).1 =
        (if code = key then (rise (ev.prevCounters.get? code) currentValue).map .int else []) ∧
      (ev.checkCounterDelta key currentValue severity message).2.prevCounters.get? code =
        if code = key then some currentValue else ev.prevCounters.get? code := by
  constructor
  · by_cases hcode : code = key
    · subst hcode
      have hincrease : increase (ev.prevCounters.get? code) currentValue =
          max 0 (currentValue - (ev.prevCounters.get? code).getD currentValue) := rfl
      unfold checkCounterDelta rise
      dsimp only
      rw [if_pos rfl, hincrease]
      split
      · next h => rw [if_pos (by omega), max_eq_right (by omega)]; simp [deltas]
      · next h => rw [if_neg (by omega)]; rfl
    · rw [if_neg hcode]
      exact deltas_eq_nil _ (checkCounterDelta_spec ..).1 (by simpa using hcode)
  · exact Dict.get?_set _ _ _ _

private theorem deltas_two {key key' code : AlertCode} (hne : key ≠ key') (ev : AlertEvaluator)
    (n n' : Int) (severity severity' : Severity) (message message' : Text) :
    let first := ev.checkCounterDelta key n severity message
    let second := first.2.checkCounterDelta key' n' severity' message'
    let reading := if code = key then some n else if code = key' then some n' else none
    deltas code (first.1 ++ second.1) =
        (reading.elim [] (rise (ev.prevCounters.get? code))).map .int ∧
      second.2.prevCounters.get? code = reading.or (ev.prevCounters.get? code) := by
  intro first second reading
  obtain ⟨hfirst, hprev⟩ := deltas_checkCounterDelta ev key code n severity message
  obtain ⟨hsecond, hprev'⟩ := deltas_checkCounterDelta first.2 key' code n' severity' message'
  rw [deltas_append, hfirst, hsecond, hprev', hprev]
  by_cases h : code = key
  · subst h
    simp [reading, hne]
  · by_cases h' : code = key'
    · subst h'
      simp [reading, h]
    · simp [reading, h, h']

/-- What the check of the pool tells of its counters. -/
theorem deltas_checkPool (ev : AlertEvaluator) (m : PoolMetrics) (code : AlertCode)
    (hcode : code ∉ [.poolSaturated, .poolUnderPressure]) :
    let reading := if code = .poolTimeouts then some m.timedOutAcquires
      else if code = .poolBrokenConnections then some m.brokenConnectionsEvicted else none
    deltas code (ev.checkPool percent m).1 =
        (reading.elim [] (rise (ev.prevCounters.get? code))).map .int ∧
      (ev.checkPool percent m).2.prevCounters.get? code =
        reading.or (ev.prevCounters.get? code) := by
  intro reading
  have hgauge := deltas_eq_nil code (codes_saturationAlerts percent ev m.saturation) hcode
  unfold checkPool
  dsimp only
  rw [List.append_assoc, deltas_append, hgauge, List.nil_append]
  exact deltas_two (by decide) ev _ _ _ _ _ _

/-- What the check of the persistence queue tells of its counters. -/
theorem deltas_checkPersistence (ev : AlertEvaluator) (m : PersistenceMetrics) (maxsize : Nat)
    (code : AlertCode) (hcode : code ∉ [.persistenceQueueBacklog]) :
    let reading := if code = .persistenceDropped then some m.dropped
      else if code = .persistenceFailed then some m.failed else none
    deltas code (ev.checkPersistence percent m maxsize).1 =
        (reading.elim [] (rise (ev.prevCounters.get? code))).map .int ∧
      (ev.checkPersistence percent m maxsize).2.prevCounters.get? code =
        reading.or (ev.prevCounters.get? code) := by
  intro reading
  have hgauge :=
    deltas_eq_nil code (codes_backlogAlerts percent ev m.queueDepth maxsize) hcode
  unfold checkPersistence
  dsimp only
  rw [List.append_assoc, deltas_append, hgauge, List.nil_append]
  exact deltas_two (by decide) ev _ _ _ _ _ _

private theorem deltas_given {M : Type} {checks : M → List Alert × AlertEvaluator}
    {code : AlertCode} {read : M → Option Int}
    (h : ∀ m, deltas code (checks m).1 =
        ((read m).elim [] (rise (ev.prevCounters.get? code))).map .int ∧
      (checks m).2.prevCounters.get? code = (read m).or (ev.prevCounters.get? code))
    (m : Option M) :
    deltas code (given checks ev m).1 =
        ((m.bind read).elim [] (rise (ev.prevCounters.get? code))).map .int ∧
      (given checks ev m).2.prevCounters.get? code =
        (m.bind read).or (ev.prevCounters.get? code) := by
  cases m with
  | none => exact ⟨rfl, rfl⟩
  | some m => exact h m

/-- What the checks tell of a counter, and what is remembered of it. -/
theorem deltas_check (ev : AlertEvaluator) (m : HealthMetrics) (c : Counter) :
    deltas c.code (ev.check percent m).1 =
        ((c.reading m).elim [] (rise (ev.prevCounters.get? c.code))).map .int ∧
      (ev.check percent m).2.prevCounters.get? c.code =
        (c.reading m).or (ev.prevCounters.get? c.code) := by
  obtain ⟨hpool, hprev⟩ := deltas_given
    (fun p ↦ deltas_checkPool percent ev p c.code (by cases c <;> decide))
    m.pool
  unfold check
  dsimp only
  generalize given (ev.checkPool percent) ev m.pool = pool at hpool hprev
  obtain ⟨hpersistence, hprev'⟩ := deltas_given
    (fun p ↦ deltas_checkPersistence percent pool.2 p m.persistenceQueueMaxsize
      c.code (by cases c <;> decide)) m.cachePersistence
  have hexecutors := deltas_eq_nil c.code
    (given_sublist (pool.2.checkExecutors percent)
      (fun _ ↦ map_filterMap_sublist (fun _ _ h ↦ code_executorAlert percent h) _) m.executors)
    (by cases c <;> simp [Counter.code])
  have hclasses := deltas_eq_nil c.code
    (given_sublist (pool.2.checkQueryConcurrency percent)
      (fun _ ↦ map_filterMap_sublist (fun _ _ h ↦ code_costClassAlert percent h) _)
      m.queryConcurrency)
    (by cases c <;> simp [Counter.code])
  have hsampling : deltas c.code (if m.adaptiveSampler = some true then [escalationAlert] else []) =
      [] := by
    split
    · cases c <;> rfl
    · rfl
  rw [deltas_append, deltas_append, deltas_append, deltas_append, hpool, hexecutors, hclasses,
    hpersistence, hsampling, hprev', hprev]
  clear hpool hprev hpersistence hprev' hexecutors hclasses hsampling
  -- either the pool knows the counter or the queue does
  cases c with
  | poolTimeouts | poolBrokenConnections | persistenceDropped | persistenceFailed =>
    simp only [Counter.code, Counter.reading]
    cases m.pool <;> cases m.cachePersistence <;> simp

/-- What the answers of a run tell of a counter that was `previous` before. -/
def rises (previous : Option Int) : List Int → List Int
  | [] => []
  | current :: readings => rise previous current ++ rises (some current) readings

private theorem mem_rise {previous : Option Int} {current n : Int} (h : n ∈ rise previous current) :
    0 < n := by
  unfold rise at h
  split at h
  · next hpos => exact List.mem_singleton.mp h ▸ hpos
  · exact absurd h List.not_mem_nil

/-- The alerts of a counter tell of every rise. -/
theorem sum_rises (previous : Option Int) (readings : List Int) :
    (rises previous readings).sum = risen previous readings ∧
      ∀ n ∈ rises previous readings, 0 < n := by
  induction readings generalizing previous with
  | nil => exact ⟨rfl, fun n h ↦ absurd h List.not_mem_nil⟩
  | cons current readings ih =>
    obtain ⟨hsum, hpos⟩ := ih (some current)
    constructor
    · have hrise : (rise previous current).sum = increase previous current := by
        unfold rise
        split
        · exact List.sum_singleton
        · next h => 
          have hle : 0 ≤ increase previous current := le_max_left _ _
          rw [List.sum_nil]
          omega
      rw [rises, List.sum_append, hrise, hsum, risen]
    · intro n h
      rcases List.mem_append.mp h with h | h
      · exact mem_rise h
      · exact hpos n h

/-- What the answers of a run tell of a counter. -/
theorem deltas_evaluations (ev : AlertEvaluator) (ms : List HealthMetrics) (c : Counter) :
    deltas c.code (ev.evaluations percent ms).1.flatten =
      (rises (ev.prevCounters.get? c.code) (ms.filterMap c.reading)).map .int := by
  induction ms generalizing ev with
  | nil => rfl
  | cons m ms ih =>
    obtain ⟨hdeltas, hprev⟩ := deltas_check percent ev m c
    have hrest := ih (ev.evaluate percent m).2.2
    have hnext : (ev.evaluate percent m).2.2.prevCounters = (ev.check percent m).2.prevCounters :=
      rfl
    rw [hnext, hprev] at hrest
    change deltas c.code ((ev.check percent m).1 ++
      ((ev.evaluate percent m).2.2.evaluations percent ms).1.flatten) = _
    rw [deltas_append, hdeltas, hrest]
    cases hreading : c.reading m with
    | none => rw [List.filterMap_cons_none hreading]; rfl
    | some n => rw [List.filterMap_cons_some hreading, rises, List.map_append]; rfl

/-- In any run of evaluations the alerts of a counter tell of its rises, and of nothing else: they
add up to what it has risen by since the first evaluation that saw it. -/
theorem sum_deltas_evaluations (percent : ℚ → Text) (thresholds : AlertThresholds)
    (ms : List HealthMetrics) (c : Counter) :
    ∃ ns : List Int,
      deltas c.code ((new thresholds).evaluations percent ms).1.flatten = ns.map .int ∧
        (∀ n ∈ ns, 0 < n) ∧ ns.sum = risen none (ms.filterMap c.reading) ∧
        ((ms.filterMap c.reading).Pairwise (· ≤ ·) → ns.sum =
          (ms.filterMap c.reading).getLastD 0 - (ms.filterMap c.reading).headD 0) := by
  obtain ⟨hsum, hpos⟩ := sum_rises none (ms.filterMap c.reading)
  refine ⟨_, deltas_evaluations percent _ ms c, hpos, hsum, fun hle ↦ hsum.trans ?_⟩
  cases hreadings : ms.filterMap c.reading with
  | nil => rfl
  | cons first readings =>
    rw [hreadings] at hle
    have hfirst : increase none first = 0 := by simp [increase]
    rw [risen, hfirst, zero_add, risen_of_pairwise hle, List.getLastD_cons, List.headD_cons]

end AlertEvaluator
end SalesData.Observability

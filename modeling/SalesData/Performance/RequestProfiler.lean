import SalesData.Performance.Trace

/-!
# Request profilers

`RequestProfiler` and the profile that it hands over (`core/performance/request_profiler.py`).
The clock readings of a call are its arguments. Profiler metadata is left out.
-/

namespace SalesData.Performance

open Base

/-- `_PROFILER_ALREADY_COMPLETED_MESSAGE`. -/
def profilerAlreadyCompleted : Error :=
  .profilerStateError "cannot reuse a profiler that has already completed".toList

/-- `_PROFILER_NOT_STARTED_MESSAGE`. -/
def profilerNotStarted : Error :=
  .profilerStateError "cannot open a stage before the profiler has started its root trace".toList

/-- `RequestProfile`. -/
structure RequestProfile (F : Type) where
  requestId : Text
  metricPoints : List (MetricPoint F)
  tags : Tags
  startedNs : Int
  finishedNs : Int
  durationNs : Int
  status : Text
  error : Option Text

/-- `RequestProfiler`. -/
structure RequestProfiler (F : Type) where
  requestId : Text
  tags : Tags
  trace : Trace
  metricPoints : List (MetricPoint F)
  startedNs : Int
  completed : Bool

namespace RequestProfiler

variable {F : Type}

/-- The constructor (`request_profiler.py:177–181`): the clock is read for the profiler and then
for the root node. -/
def create (requestId : Text) (tags : Tags) (startedNs rootNs : Int) :
    Except Error (RequestProfiler F) :=
  match Trace.empty.start .request "request".toList .empty rootNs with
  | .error e => .error e
  | .ok (trace, _) => .ok ⟨requestId, tags, trace, [], startedNs, false⟩

/-- `_start_stage` (`request_profiler.py:197–208`), with the node that it returns. -/
def startStage (profiler : RequestProfiler F) (stage : PerformanceStage) (name : MetricName)
    (tags : Tags) (now : Int) : Except Error (RequestProfiler F × Nat) :=
  if profiler.completed then .error profilerAlreadyCompleted
  else if profiler.trace.current = none then .error profilerNotStarted
  else
    match profiler.trace.start stage name tags now with
    | .error e => .error e
    | .ok (trace, node) => .ok ({ profiler with trace }, node)

/-- The point that `_finish_stage` emits for a node. -/
def timerPoint (node : TraceNode) (durationNs timestampNs : Int) : MetricPoint F :=
  ⟨node.name, .timer, .int durationNs, timestampNs, .nanoseconds, node.tags⟩

/-- `_finish_stage` (`request_profiler.py:210–223`): the node is the active one. -/
def finishStage (profiler : RequestProfiler F) (finishedNs timestampNs : Int) :
    Except Error (RequestProfiler F) :=
  match profiler.trace.finish finishedNs with
  | .error e => .error e
  | .ok (trace, durationNs) =>
    match profiler.trace.activeNode with
    | none => .ok { profiler with trace }
    | some node => .ok
      { profiler with
        trace
        metricPoints := profiler.metricPoints ++ [timerPoint node durationNs timestampNs] }

/-- `_emit` (`request_profiler.py:256–275`). -/
def emit (profiler : RequestProfiler F) (name : MetricName) (metricType : MetricType)
    (value : MetricValue F) (unit : MetricUnit) (tags : Tags) (timestampNs : Int) :
    Except Error (RequestProfiler F) :=
  if profiler.completed then .error profilerAlreadyCompleted
  else .ok
    { profiler with
      metricPoints :=
        profiler.metricPoints ++ [⟨name, metricType, value, timestampNs, unit, tags⟩] }

/-- `counter` (`request_profiler.py:225–229`). -/
def counter (profiler : RequestProfiler F) (name : MetricName) (amount : MetricValue F)
    (tags : Tags) (timestampNs : Int) : Except Error (RequestProfiler F) :=
  profiler.emit name .counter amount .count tags timestampNs

/-- `gauge` (`request_profiler.py:231–235`). -/
def gauge (profiler : RequestProfiler F) (name : MetricName) (value : MetricValue F)
    (tags : Tags) (timestampNs : Int) : Except Error (RequestProfiler F) :=
  profiler.emit name .gauge value .count tags timestampNs

/-- `event` (`request_profiler.py:237–254`), also on a completed profiler. -/
def event (profiler : RequestProfiler F) (name : MetricName) (tags : Tags)
    (timestampNs : Int) : RequestProfiler F :=
  { profiler with
    metricPoints :=
      profiler.metricPoints ++ [⟨name, .event, .int 1, timestampNs, .count, tags⟩] }

/-- `complete` (`request_profiler.py:277–303`); `now i` is the clock when node `i` finishes. -/
def complete (profiler : RequestProfiler F) (status : Text) (error : Option Text)
    (now : Nat → Int) (finishedNs : Int) :
    RequestProfiler F × Except Error (RequestProfile F) :=
  if profiler.completed then (profiler, .error profilerAlreadyCompleted)
  else
    match profiler.trace.finishAll now with
    | (trace, .error e) => ({ profiler with trace }, .error e)
    | (trace, .ok ()) =>
      ({ profiler with trace, completed := true }, .ok
        { requestId := profiler.requestId
          metricPoints := profiler.metricPoints
          tags := profiler.tags
          startedNs := profiler.startedNs
          finishedNs
          durationNs := finishedNs - profiler.startedNs
          status
          error })

/-- A completed profiler has no active node. -/
theorem current_complete {profiler profiler' : RequestProfiler F} {status : Text}
    {error : Option Text} {now : Nat → Int} {finishedNs : Int} {profile : RequestProfile F}
    (h : profiler.complete status error now finishedNs = (profiler', .ok profile)) :
    profiler'.completed = true ∧ profiler'.trace.current = none ∧
      profile.metricPoints = profiler.metricPoints := by
  unfold complete at h
  split at h
  · cases (Prod.mk.inj h).2
  · split at h
    · cases (Prod.mk.inj h).2
    · next trace hall =>
      cases h
      exact ⟨rfl, Trace.current_finishAll hall, rfl⟩

/-- Opening a stage adds a node under the active one, and makes it the active one. -/
theorem startStage_of_current {profiler : RequestProfiler F} {i : Nat}
    (stage : PerformanceStage) (name : MetricName) (tags : Tags) (now : Int)
    (hcompleted : profiler.completed = false) (hcurrent : profiler.trace.current = some i) :
    ∃ after, profiler.startStage stage name tags now = .ok (after, profiler.trace.nodes.length) ∧
      after.completed = false ∧
      after.trace.nodes = profiler.trace.nodes ++ [.started name stage now tags (some i)] ∧
      after.trace.current = some profiler.trace.nodes.length ∧
      after.metricPoints = profiler.metricPoints := by
  have hactive : profiler.trace.current ≠ none := by
    rw [hcurrent]
    exact Option.some_ne_none i
  rw [startStage, if_neg (by simp [hcompleted]), if_neg hactive, Trace.start,
    if_neg (fun h ↦ hactive h.2)]
  refine ⟨_, rfl, hcompleted, ?_, rfl, rfl⟩
  show profiler.trace.nodes ++ [.started name stage now tags profiler.trace.current] = _
  rw [hcurrent]

/-- Finishing the active stage, its node open: its parent is active, and its duration is
emitted. -/
theorem finishStage_of_open {profiler : RequestProfiler F} {i : Nat} {node : TraceNode}
    {finishedNs : Int} (timestampNs : Int) (hcurrent : profiler.trace.current = some i)
    (hnode : profiler.trace.nodes[i]? = some node) (hopen : node.durationNs = none)
    (hnow : node.startedNs ≤ finishedNs) :
    ∃ after, profiler.finishStage finishedNs timestampNs = .ok after ∧
      after.completed = profiler.completed ∧
      after.trace.nodes = profiler.trace.nodes.modify i (·.closed finishedNs) ∧
      after.trace.current = node.parent ∧
      after.metricPoints = profiler.metricPoints ++
        [timerPoint node (finishedNs - node.startedNs) timestampNs] := by
  have hactive : profiler.trace.activeNode = some node := by
    rw [Trace.activeNode, hcurrent]
    exact hnode
  have hparent : (profiler.trace.closing i (profiler.trace.current_lt i hcurrent)
      finishedNs).current = node.parent := by
    obtain ⟨hlt, rfl⟩ := List.getElem?_eq_some_iff.mp hnode
    rfl
  rw [finishStage, Trace.finish_of_open hcurrent hnode hopen hnow, hactive]
  exact ⟨_, rfl, rfl, rfl, hparent, rfl⟩

/-- A stage opens exactly on a profiler that is not completed and has an active node. -/
theorem startStage_ok_iff {profiler : RequestProfiler F} {stage : PerformanceStage}
    {name : MetricName} {tags : Tags} {now : Int} :
    (∃ r, profiler.startStage stage name tags now = .ok r) ↔
      profiler.completed = false ∧ profiler.trace.current ≠ none := by
  constructor
  · rintro ⟨r, h⟩
    unfold startStage at h
    split at h
    · cases h
    · next hcompleted =>
      split at h
      · cases h
      · next hcurrent => exact ⟨by simpa using hcompleted, hcurrent⟩
  · rintro ⟨hcompleted, hcurrent⟩
    obtain ⟨i, hi⟩ := Option.ne_none_iff_exists'.mp hcurrent
    obtain ⟨after, hafter, -⟩ := startStage_of_current stage name tags now hcompleted hi
    exact ⟨_, hafter⟩

/-- With a clock that is not behind, the active stage finishes exactly when there is one. -/
theorem finishStage_ok_iff {profiler : RequestProfiler F} {finishedNs timestampNs : Int}
    (hclock : ∀ node, profiler.trace.activeNode = some node → node.startedNs ≤ finishedNs) :
    (∃ after, profiler.finishStage finishedNs timestampNs = .ok after) ↔
      profiler.trace.current ≠ none := by
  constructor
  · rintro ⟨after, h⟩ hnone
    rw [finishStage, Trace.finish_of_none hnone] at h
    cases h
  · intro hcurrent
    obtain ⟨i, hi⟩ := Option.ne_none_iff_exists'.mp hcurrent
    have hactive : profiler.trace.activeNode =
        some (profiler.trace.nodes.get ⟨i, profiler.trace.current_lt i hi⟩) := by
      rw [Trace.activeNode, hi]
      exact List.getElem?_eq_getElem (profiler.trace.current_lt i hi)
    obtain ⟨r, hfinish⟩ := Trace.finish_ok finishedNs hi fun _ ↦ hclock _ hactive
    rw [finishStage, hfinish, hactive]
    exact ⟨_, rfl⟩

/-- A point is accepted exactly until the profiler is completed. -/
theorem gauge_ok_iff {profiler : RequestProfiler F} {name : MetricName} {value : MetricValue F}
    {tags : Tags} {timestampNs : Int} :
    (∃ after, profiler.gauge name value tags timestampNs = .ok after) ↔
      profiler.completed = false := by
  unfold gauge emit
  cases profiler.completed <;> simp

end RequestProfiler
end SalesData.Performance

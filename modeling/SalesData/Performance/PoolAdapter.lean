import SalesData.Performance.RequestProfiler

/-!
# Timed pools

`AsyncPoolTimingAdapter` and `SyncPoolTimingAdapter` (`core/performance/adapters/pool.py`) around
any pool. A profiler is shared by everything that runs for its request: what the others do to it
while the pool works, and in threads also between the adapter's own steps, is arbitrary here.
-/

namespace SalesData.Performance

open Base

variable {F σ C E : Type}

/-- The calls that are timed. -/
inductive PoolCall (C : Type)
  | acquire
  | release (conn : C) (broken : Bool)

/-- The interface of a pool (`adapters/pool.py:25–46`): a call hands out a connection, or nothing,
or raises. What else happens to the pool meanwhile is part of its state. -/
structure PoolLike (σ C E : Type) where
  call : σ → PoolCall C → σ × Except E (Option C)
  activeConnections : σ → Option Int
  idleConnections : σ → Option Int

/-- The stage of a call (`adapters/pool.py:76–78,88–90`). -/
def PoolCall.stage : PoolCall C → PerformanceStage × MetricName
  | .acquire => (.poolAcquire, "pool_acquire".toList)
  | .release _ _ => (.poolRelease, "pool_release".toList)

/-- A profiler that is bound during a call, with the clock readings of the call and what others
do to the profiler during it. -/
structure Context (F : Type) where
  profiler : RequestProfiler F
  during : RequestProfiler F → RequestProfiler F
  beforeActive : RequestProfiler F → RequestProfiler F
  beforeIdle : RequestProfiler F → RequestProfiler F
  startedNs : Int
  finishedNs : Int
  timestampNs : Int
  /-- The clock does not run backwards. -/
  clocked : ∀ stage name started place (node : TraceNode),
    profiler.startStage stage name .empty startedNs = .ok (started, place) →
    (during started).trace.activeNode = some node → node.startedNs ≤ finishedNs

/-- What `get_current_profiler` finds. -/
inductive Binding (F : Type)
  | unbound
  | disabled
  | profiler (context : Context F)

/-- What a caller can see raised. -/
inductive Failure (E : Type)
  | pool (e : E)
  | profiler (e : Error)
  deriving DecidableEq

/-- A call's end: the pool after it, whether the pool received it, and what the caller gets. -/
structure Outcome (σ C E : Type) where
  pool : σ
  received : Bool
  result : Except (Failure E) (Option C)

/-- A call on the pool itself. -/
def direct (pool : PoolLike σ C E) (s : σ) (call : PoolCall C) : Outcome σ C E where
  pool := (pool.call s call).1
  received := true
  result := (pool.call s call).2.mapError .pool

/-- One gauge of `_emit_pool_gauges`. -/
def emitGauge (profiler : RequestProfiler F) (name : MetricName) (value : Option Int)
    (timestampNs : Int) : Except Error (RequestProfiler F) :=
  match value with
  | none => .ok profiler
  | some n => profiler.gauge name (.int n) .empty timestampNs

/-- `_emit_pool_gauges` (`adapters/pool.py:49–60`). -/
def emitPoolGauges (context : Context F) (profiler : RequestProfiler F)
    (active idle : Option Int) : Except Error (RequestProfiler F) :=
  match emitGauge (context.beforeActive profiler) "pool_active_connections".toList active
      context.timestampNs with
  | .error e => .error e
  | .ok profiler =>
    emitGauge (context.beforeIdle profiler) "pool_idle_connections".toList idle
      context.timestampNs

/-- The body of all four timed methods (`adapters/pool.py:71–93,112–134`): what leaving the stage
raises takes the place of what the pool returned or raised. -/
def timed (pool : PoolLike σ C E) (s : σ) (call : PoolCall C) : Binding F → Outcome σ C E
  | .unbound | .disabled => direct pool s call
  | .profiler context =>
    match context.profiler.startStage call.stage.1 call.stage.2 .empty context.startedNs with
    | .error e => ⟨s, false, .error (.profiler e)⟩
    | .ok (started, _) =>
      let after := (pool.call s call).1
      match (context.during started).finishStage context.finishedNs context.timestampNs with
      | .error e => ⟨after, true, .error (.profiler e)⟩
      | .ok finished =>
        match (pool.call s call).2 with
        | .error e => ⟨after, true, .error (.pool e)⟩
        | .ok conn =>
          match emitPoolGauges context finished (pool.activeConnections after)
              (pool.idleConnections after) with
          | .error e => ⟨after, true, .error (.profiler e)⟩
          | .ok _ => ⟨after, true, .ok conn⟩

/-- On the event loop nothing runs between a stage and the gauges. -/
def Binding.onLoop : Binding F → Binding F
  | .unbound => .unbound
  | .disabled => .disabled
  | .profiler context => .profiler { context with beforeActive := id, beforeIdle := id }

/-- `AsyncPoolTimingAdapter.acquire` and `release` (`adapters/pool.py:71–93`). -/
def AsyncPoolTimingAdapter.call (pool : PoolLike σ C E) (s : σ) (call : PoolCall C)
    (binding : Binding F) : Outcome σ C E :=
  timed pool s call binding.onLoop

/-- `SyncPoolTimingAdapter.acquire` and `release` (`adapters/pool.py:112–134`). -/
def SyncPoolTimingAdapter.call (pool : PoolLike σ C E) (s : σ) (call : PoolCall C)
    (binding : Binding F) : Outcome σ C E :=
  timed pool s call binding

/-- The gauges that a pool reports find the profiler not completed. -/
def GaugesAccepted (context : Context F) (profiler : RequestProfiler F)
    (active idle : Option Int) : Prop :=
  (active ≠ none → (context.beforeActive profiler).completed = false) ∧
    ∀ profiler', emitGauge (context.beforeActive profiler) "pool_active_connections".toList
        active context.timestampNs = .ok profiler' →
      idle ≠ none → (context.beforeIdle profiler').completed = false

/-- The bound profiler, if there is one, is active when the call begins, has an active node when
the pool is done, and after a success is not completed before its gauges are emitted. -/
def Undisturbed (pool : PoolLike σ C E) (s : σ) (call : PoolCall C) : Binding F → Prop
  | .unbound | .disabled => True
  | .profiler context =>
    (context.profiler.completed = false ∧ context.profiler.trace.current ≠ none) ∧
    ∀ started place,
      context.profiler.startStage call.stage.1 call.stage.2 .empty context.startedNs =
        .ok (started, place) →
      (context.during started).trace.current ≠ none ∧
      ∀ finished conn,
        (context.during started).finishStage context.finishedNs context.timestampNs =
          .ok finished →
        (pool.call s call).2 = .ok conn →
        GaugesAccepted context finished (pool.activeConnections (pool.call s call).1)
          (pool.idleConnections (pool.call s call).1)

private theorem emitGauge_ok_iff {profiler : RequestProfiler F} (name : MetricName)
    {value : Option Int} (timestampNs : Int) :
    (∃ after, emitGauge profiler name value timestampNs = .ok after) ↔
      (value ≠ none → profiler.completed = false) := by
  unfold emitGauge
  cases value with
  | none => simp
  | some n =>
    rw [RequestProfiler.gauge_ok_iff]
    simp

/-- The gauges raise nothing exactly when they are accepted. -/
theorem emitPoolGauges_ok_iff {context : Context F} {profiler : RequestProfiler F}
    {active idle : Option Int} :
    (∃ after, emitPoolGauges context profiler active idle = .ok after) ↔
      GaugesAccepted context profiler active idle := by
  unfold emitPoolGauges GaugesAccepted
  constructor
  · rintro ⟨after, h⟩
    split at h
    · cases h
    · next profiler' hactive =>
      refine ⟨(emitGauge_ok_iff _ _).mp ⟨_, hactive⟩, ?_⟩
      intro other hother
      rw [hactive] at hother
      cases hother
      exact (emitGauge_ok_iff _ _).mp ⟨_, h⟩
  · rintro ⟨hactive, hidle⟩
    obtain ⟨profiler', hprofiler'⟩ := (emitGauge_ok_iff "pool_active_connections".toList
      context.timestampNs).mpr hactive
    obtain ⟨after, hafter⟩ := (emitGauge_ok_iff "pool_idle_connections".toList
      context.timestampNs).mpr (hidle profiler' hprofiler')
    rw [hprofiler']
    exact ⟨after, hafter⟩

private theorem ne_direct (pool : PoolLike σ C E) (s after : σ) (call : PoolCall C)
    (received : Bool) (e : Error) :
    (⟨after, received, .error (.profiler e)⟩ : Outcome σ C E) ≠ direct pool s call := by
  intro h
  have hresult := congrArg Outcome.result h
  unfold direct at hresult
  cases hreply : (pool.call s call).2 with
  | error e' =>
    rw [hreply] at hresult
    cases hresult
  | ok conn =>
    rw [hreply] at hresult
    cases hresult

private theorem gauges_eq_direct_iff (pool : PoolLike σ C E) (s : σ) (call : PoolCall C)
    (context : Context F) (finished : RequestProfiler F) {conn : Option C}
    (hreply : (pool.call s call).2 = .ok conn) :
    (match emitPoolGauges context finished (pool.activeConnections (pool.call s call).1)
        (pool.idleConnections (pool.call s call).1) with
      | .error e => (⟨(pool.call s call).1, true, .error (.profiler e)⟩ : Outcome σ C E)
      | .ok _ => ⟨(pool.call s call).1, true, .ok conn⟩) = direct pool s call ↔
    GaugesAccepted context finished (pool.activeConnections (pool.call s call).1)
      (pool.idleConnections (pool.call s call).1) := by
  rw [← emitPoolGauges_ok_iff]
  cases hgauges : emitPoolGauges context finished (pool.activeConnections (pool.call s call).1)
      (pool.idleConnections (pool.call s call).1) with
  | error e => exact iff_of_false (ne_direct pool s _ call true e) (by rintro ⟨_, h⟩; cases h)
  | ok after =>
    refine iff_of_true ?_ ⟨after, rfl⟩
    rw [direct, hreply]
    rfl

/-- A timed call is the pool's call exactly when the profiler is not disturbed. -/
theorem timed_eq_direct_iff (pool : PoolLike σ C E) (s : σ) (call : PoolCall C)
    (binding : Binding F) :
    timed pool s call binding = direct pool s call ↔ Undisturbed pool s call binding := by
  cases binding with
  | unbound => exact iff_of_true rfl trivial
  | disabled => exact iff_of_true rfl trivial
  | profiler context =>
    have hstart : (∃ r, context.profiler.startStage call.stage.1 call.stage.2 .empty
        context.startedNs = .ok r) ↔ _ := RequestProfiler.startStage_ok_iff
    unfold timed Undisturbed
    dsimp only
    rw [← hstart]
    cases hopened : context.profiler.startStage call.stage.1 call.stage.2 .empty
        context.startedNs with
    | error e =>
      refine iff_of_false (ne_direct pool s _ call false e) ?_
      rintro ⟨⟨r, h⟩, -⟩
      cases h
    | ok r =>
      obtain ⟨started, place⟩ := r
      have hfinish : (∃ after, (context.during started).finishStage context.finishedNs
          context.timestampNs = .ok after) ↔ _ :=
        RequestProfiler.finishStage_ok_iff fun node ↦ context.clocked _ _ _ _ node hopened
      dsimp only
      cases hclosed : (context.during started).finishStage context.finishedNs
          context.timestampNs with
      | error e =>
        refine iff_of_false (ne_direct pool s _ call true e) ?_
        rintro ⟨-, hrest⟩
        obtain ⟨after, hafter⟩ := hfinish.mpr (hrest started place rfl).1
        rw [hclosed] at hafter
        cases hafter
      | ok finished =>
        have hcurrent := hfinish.mp ⟨finished, hclosed⟩
        cases hreply : (pool.call s call).2 with
        | error e =>
          refine iff_of_true ?_ ⟨⟨_, rfl⟩, ?_⟩
          · rw [direct, hreply]
            rfl
          · intro started' place' h
            cases h
            exact ⟨hcurrent, fun _ _ _ h ↦ by cases h⟩
        | ok conn =>
          dsimp only
          rw [gauges_eq_direct_iff pool s call context finished hreply]
          constructor
          · intro hgauges
            refine ⟨⟨_, rfl⟩, ?_⟩
            intro started' place' h
            cases h
            refine ⟨hcurrent, ?_⟩
            intro finished' conn' h _
            rw [hclosed] at h
            cases h
            exact hgauges
          · rintro ⟨-, hrest⟩
            exact (hrest started place rfl).2 finished conn hclosed rfl

/-- The timing adapter lets a call through to its pool. -/
def Binding.passes (call : PoolCall C) : Binding F → Bool
  | .unbound | .disabled => true
  | .profiler context =>
    (context.profiler.startStage call.stage.1 call.stage.2 .empty context.startedNs).toBool

/-- The pool receives exactly the calls that are let through. -/
theorem timed_received (pool : PoolLike σ C E) (s : σ) (call : PoolCall C) (binding : Binding F) :
    (timed pool s call binding).received = binding.passes call := by
  cases binding with
  | unbound => rfl
  | disabled => rfl
  | profiler context =>
    unfold timed Binding.passes
    dsimp only
    split
    · next e h =>
      rw [h]
      rfl
    · next started place h =>
      rw [h]
      split
      · rfl
      · split
        · rfl
        · split <;> rfl

/-- The bound profiler, if there is one, is not completed and has an active node. -/
def Binding.Open : Binding F → Prop
  | .unbound | .disabled => True
  | .profiler context =>
    context.profiler.completed = false ∧ context.profiler.trace.current ≠ none

/-- A stage that opens finds the profiler with an active node when it is to be closed. -/
def Binding.Closes (stage : PerformanceStage × MetricName) : Binding F → Prop
  | .unbound | .disabled => True
  | .profiler context => ∀ started place,
    context.profiler.startStage stage.1 stage.2 .empty context.startedNs = .ok (started, place) →
    (context.during started).trace.current ≠ none

/-- An open binding is one that lets calls through. -/
theorem passes_iff (call : PoolCall C) {binding : Binding F} :
    binding.passes call = true ↔ binding.Open := by
  cases binding with
  | unbound => exact iff_of_true rfl trivial
  | disabled => exact iff_of_true rfl trivial
  | profiler context =>
    have hstart : (∃ r, context.profiler.startStage call.stage.1 call.stage.2 .empty
        context.startedNs = .ok r) ↔ _ := RequestProfiler.startStage_ok_iff
    unfold Binding.passes Binding.Open
    dsimp only
    rw [← hstart]
    cases context.profiler.startStage call.stage.1 call.stage.2 .empty context.startedNs with
    | error e => simp [Except.toBool]
    | ok r => simp [Except.toBool]

/-- Calls made one after the other through `perform`, each with its binding. -/
def performAll (perform : σ → PoolCall C → Binding F → Outcome σ C E) :
    σ → List (PoolCall C × Binding F) → List (Outcome σ C E)
  | _, [] => []
  | s, (call, binding) :: calls =>
    perform s call binding :: performAll perform (perform s call binding).pool calls

/-- No call of a sequence is disturbed, the pool being in the state that its own calls leave. -/
def AllUndisturbed (pool : PoolLike σ C E) : σ → List (PoolCall C × Binding F) → Prop
  | _, [] => True
  | s, (call, binding) :: calls =>
    Undisturbed pool s call binding ∧ AllUndisturbed pool (pool.call s call).1 calls

/-- A timed sequence is the pool's own sequence exactly when no call of it is disturbed. -/
theorem performAll_timed_iff (pool : PoolLike σ C E) (s : σ)
    (calls : List (PoolCall C × Binding F)) :
    performAll (timed pool) s calls = performAll (fun s call _ ↦ direct pool s call) s calls ↔
      AllUndisturbed pool s calls := by
  induction calls generalizing s with
  | nil => exact iff_of_true rfl trivial
  | cons call calls ih =>
    obtain ⟨call, binding⟩ := call
    rw [performAll, performAll, AllUndisturbed, ← timed_eq_direct_iff, ← ih, List.cons.injEq]
    constructor
    · rintro ⟨hhead, htail⟩
      rw [hhead] at htail
      exact ⟨hhead, htail⟩
    · rintro ⟨hhead, htail⟩
      rw [hhead]
      exact ⟨rfl, htail⟩

private theorem performAll_map (perform : σ → PoolCall C → Binding F → Outcome σ C E)
    (f : Binding F → Binding F) (s : σ) (calls : List (PoolCall C × Binding F)) :
    performAll (fun s call binding ↦ perform s call (f binding)) s calls =
      performAll perform s (calls.map fun (call, binding) ↦ (call, f binding)) := by
  induction calls generalizing s with
  | nil => rfl
  | cons call calls ih =>
    rw [performAll, List.map_cons, performAll, ih]

-- A pool of one connection; the state is the number of idle ones.
private def singlePool : PoolLike Nat Unit Unit where
  call
    | 0, .acquire => (0, .error ())
    | idle + 1, .acquire => (idle, .ok (some ()))
    | idle, .release _ _ => (idle + 1, .ok none)
  activeConnections idle := some (1 - idle)
  idleConnections idle := some idle

private def inUse : RequestProfiler Rat where
  requestId := "a".toList
  tags := .empty
  trace :=
    { nodes := [.started "request".toList .request 0 .empty none]
      current := some 0
      current_lt := by simp
      parent_lt := by
        intro i node h
        cases i with
        | zero =>
          cases h
          intro p hp
          cases hp
        | succ i => cases h }
  metricPoints := []
  startedNs := 0
  completed := false

private def complete (profiler : RequestProfiler Rat) : RequestProfiler Rat :=
  (profiler.complete "ok".toList none (fun _ ↦ 1) 1).1

-- The middleware has completed the profiler before the call.
private def alreadyCompleted : Context Rat where
  profiler := complete inUse
  during := id
  beforeActive := id
  beforeIdle := id
  startedNs := 2
  finishedNs := 2
  timestampNs := 2
  clocked := by
    intro stage name started place node h
    cases h

-- The middleware completes the profiler while the pool works.
private def completedMeanwhile : Context Rat where
  profiler := inUse
  during := complete
  beforeActive := id
  beforeIdle := id
  startedNs := 1
  finishedNs := 2
  timestampNs := 2
  clocked := by
    intro stage name started place node h hactive
    cases h
    cases hactive

-- The profiler is open when the pool is called and when it returns: the clock has run on.
private def openThroughout : Context Rat where
  profiler := inUse
  during := id
  beforeActive := id
  beforeIdle := id
  startedNs := 1
  finishedNs := 3
  timestampNs := 3
  clocked := by
    intro stage name started place node h hactive
    cases h
    cases hactive
    show (1 : Int) ≤ 3
    decide

/-- An open profiler changes nothing for the caller. -/
example : performAll (AsyncPoolTimingAdapter.call singlePool) 1
    [(.acquire, .profiler openThroughout), (.release () false, .profiler openThroughout)] =
      [⟨0, true, .ok (some ())⟩, ⟨1, true, .ok none⟩] := rfl

end SalesData.Performance

import SalesData.Performance.CollectorScheduler

/-!
# The performance step

`PerformanceStep` (`core/app/lifespan.py:256–385`) of an application that is started and shut down
again and again: its schedulers, its export loops, and the turns of all of them in between. As
`ApplicationLifespan` calls it, a start follows a shutdown that returned, and a start that raised
is followed by no shutdown.
-/

namespace SalesData.App

open Base Performance

namespace PerformanceStep

variable {F E : Type}

/-- The collectors (`scheduler.py:43–54`). -/
inductive Collector
  | memory | gc | threads | cpu | asyncio | process
  deriving DecidableEq, Repr

/-- What a start reads off the environment: `PerformanceConfig.from_env`, the `collect_*` flags,
`PERF_EXPORT_OTEL` and the interval, where `float` may raise. -/
structure Settings (E : Type) where
  enabled : Except E Bool
  collects : Collector → Bool
  exportOtel : Bool
  interval : Except E Unit

/-- `build_enabled_collectors` (`scheduler.py:34–55`). -/
def buildEnabledCollectors (collects : Collector → Bool) : List Collector :=
  [.memory, .gc, .threads, .cpu, .asyncio, .process].filter collects

/-- What a call of `shutdown_async` can raise: what ended one of the loops. -/
inductive Failure (E : Type)
  | sampler (trouble : CollectorScheduler.Trouble E)
  | exporter (e : E)
  deriving DecidableEq, Repr

/-- Where the step has got to; `stopping` is in its scheduler's `stop`, `flushing` waits for the
export loop. -/
inductive Phase (E : Type)
  | down
  | up
  | stopping (call : Nat)
  | flushing
  | failed (e : Failure E)
  deriving DecidableEq, Repr

/-- The registry's aggregator, the schedulers that were ever made, the export loops that were ever
begun, and the step with its `scheduler` and `_otel_export_task`. -/
structure State (F E : Type) where
  aggregator : MetricsAggregator F
  schedulers : List (CollectorScheduler.State F E)
  exports : List (Loop E)
  scheduler : Option Nat
  otelExportTask : Option Nat
  phase : Phase E

namespace State

/-- The first half of `startup_async` (`lifespan.py:325–333`): a scheduler that samples. -/
def startScheduler (s : State F E) (collects : Collector → Bool) : State F E :=
  if (buildEnabledCollectors collects).isEmpty then s
  else
    { s with
      schedulers := s.schedulers ++ [⟨s.aggregator, [.new], some 0, [], false⟩]
      scheduler := some s.schedulers.length }

/-- The constructor of a scheduler and its `start` (`scheduler.py:78–98`). -/
example (fl : Performance.Floats F) (agg : MetricsAggregator F) :
    CollectorScheduler.step fl (E := E) ⟨agg, [], none, [], true⟩ .start =
      some ⟨agg, [.new], some 0, [], false⟩ := rfl

/-- `startup_async` (`lifespan.py:307–356`). -/
def startup (s : State F E) (settings : Settings E) : State F E :=
  match settings.enabled with
  | .error _ => s
  | .ok false => { s with phase := .up }
  | .ok true =>
    let s := s.startScheduler settings.collects
    if settings.exportOtel then
      match settings.interval with
      | .error _ => s
      | .ok () =>
        { s with
          exports := s.exports ++ [.new]
          otelExportTask := some s.exports.length
          phase := .up }
    else { s with phase := .up }

/-- The wait for the export loop is over. -/
def stopped (s : State F E) : Stopping E → State F E
  | .waiting _ => { s with phase := .flushing }
  | .returned => { s with otelExportTask := none, phase := .down }
  | .raised e => { s with phase := .failed (.exporter e) }

/-- The second half of `shutdown_async` (`lifespan.py:381–385`). -/
def stopExport (s : State F E) : Option (State F E) :=
  match s.otelExportTask with
  | none => some { s with phase := .down }
  | some k => s.exports[k]?.map fun t ↦
      { s with exports := s.exports.set k t.cancel }.stopped (.await k t.cancel)

/-- A scheduler of the list at work on the registry. -/
def onScheduler (fl : Performance.Floats F) (s : State F E) (i : Nat)
    (event : CollectorScheduler.Event F E) : Option (State F E) :=
  (s.schedulers[i]?.bind fun sched ↦
    CollectorScheduler.step fl { sched with aggregator := s.aggregator } event).map fun sched ↦
      { s with aggregator := sched.aggregator, schedulers := s.schedulers.set i sched }

/-- A call of the scheduler's `stop`, as far as it has got. -/
def afterStop (s : State F E) (i call : Nat) : Option (State F E) :=
  (s.schedulers[i]?.bind (·.stops[call]?)).bind fun
    | .waiting _ => some { s with phase := .stopping call }
    | .returned => s.stopExport
    | .raised e => some { s with phase := .failed (.sampler e) }

/-- `shutdown_async` (`lifespan.py:378–385`) up to where it first waits. -/
def shutdown (fl : Performance.Floats F) (s : State F E) : Option (State F E) :=
  match s.scheduler with
  | none => s.stopExport
  | some i => s.schedulers[i]?.bind fun sched ↦
      (s.onScheduler fl i .stop).bind (·.afterStop i sched.stops.length)

/-- `shutdown_async` after a wait. -/
def resume (fl : Performance.Floats F) (s : State F E) : Option (State F E) :=
  match s.phase with
  | .stopping call => s.scheduler.bind fun i ↦
      (s.onScheduler fl i (.resume call)).bind (·.afterStop i call)
  | .flushing => s.otelExportTask.bind fun k ↦
      (s.exports[k]?.bind (·.ended)).map fun how ↦ s.stopped (.awaited how)
  | .down | .up | .failed _ => none

end State

/-- What the event loop runs: the application's calls, the loops, and whoever else records. A
shutdown that raised can be called again. -/
inductive Event (F E : Type)
  | startup (settings : Settings E)
  | shutdown
  | resume
  | sample (i k : Nat) (results : List (Except E (List (MetricPoint F))))
  | unwindSampler (i k : Nat)
  | export (k : Nat) (raises : Option E)
  | unwindExport (k : Nat)
  | ingest (points : List (MetricPoint F))

/-- One event. `_run_otel_export` (`lifespan.py:358–373`) catches what an export raises: what ends
a turn of it is an exception of `asyncio.sleep`. -/
def step (fl : Performance.Floats F) (s : State F E) : Event F E → Option (State F E)
  | .startup settings =>
    match s.phase with
    | .down => some (s.startup settings)
    | .up | .stopping _ | .flushing | .failed _ => none
  | .shutdown =>
    match s.phase with
    | .up | .failed _ => s.shutdown fl
    | .down | .stopping _ | .flushing => none
  | .resume => s.resume fl
  | .sample i k results => s.onScheduler fl i (.turn k results)
  | .unwindSampler i k => s.onScheduler fl i (.unwind k)
  | .export k raises => s.exports[k]?.bind fun t ↦
      (t.turn raises).map fun t ↦ { s with exports := s.exports.set k t }
  | .unwindExport k => s.exports[k]?.bind fun t ↦
      t.unwind.map fun t ↦ { s with exports := s.exports.set k t }
  | .ingest points => some { s with aggregator := (s.aggregator.ingest fl points).1 }

/-- An application from its first start on. -/
def application (fl : Performance.Floats F) : System (State F E) (Event F E) where
  init := ⟨.empty, [], [], none, none, .down⟩
  step := step fl

/-- A start that raises does so before its scheduler samples. -/
def Settings.Parses (settings : Settings E) : Prop :=
  settings.interval.isOk = true ∨ settings.exportOtel = false ∨
    (buildEnabledCollectors settings.collects).isEmpty = true ∨
    settings.enabled.toOption ≠ some true

/-- No start leaves a scheduler behind. -/
def Configured (_ : State F E) : Event F E → Prop
  | .startup settings => settings.Parses
  | _ => True

instance (s : State F E) (event : Event F E) : Decidable (Configured s event) :=
  match event with
  | .startup _ => inferInstanceAs (Decidable (_ ∨ _))
  | .shutdown | .resume | .sample .. | .unwindSampler .. | .export .. | .unwindExport _
  | .ingest _ => instDecidableTrue

/-- A sampling loop of scheduler `i` that is not over. -/
def Samples (s : State F E) (i k : Nat) : Prop :=
  ∃ sched, s.schedulers[i]? = some sched ∧ Loop.Live sched.tasks k

/-- A sampling loop at work belongs to the scheduler that the step names; a shutdown stops it
before the export loop. -/
structure SamplerInv (s : State F E) : Prop where
  sound : ∀ sched ∈ s.schedulers, CollectorScheduler.Inv sched
  current : ∀ i k, Samples s i k → s.scheduler = some i
  flushing : s.phase = .flushing → ∀ i k, ¬ Samples s i k
  down : s.phase = .down → ∀ i k, ¬ Samples s i k

/-- An export loop at work is the one that the step names; while the step is up nobody has asked it
to end. -/
structure ExportInv (s : State F E) : Prop where
  own : ∀ k, Loop.Live s.exports k → s.otelExportTask = some k
  fresh : s.phase = .up → ∀ (k : Nat) (t : Loop E), s.exports[k]? = some t → t.ended = none →
    t.cancelling = false
  down : s.phase = .down → ∀ k, ¬ Loop.Live s.exports k

variable {fl : Performance.Floats F} {s s' : State F E} {i : Nat}

section Schedulers

variable {event : CollectorScheduler.Event F E}

/-- What a scheduler of the list does. -/
theorem of_onScheduler (hs : s.onScheduler fl i event = some s') :
    ∃ sched sched', s.schedulers[i]? = some sched ∧
      CollectorScheduler.step fl { sched with aggregator := s.aggregator } event = some sched' ∧
      s' = { s with
        aggregator := sched'.aggregator
        schedulers := s.schedulers.set i sched' } := by
  obtain ⟨sched', hbind, rfl⟩ := Option.map_eq_some_iff.mp hs
  obtain ⟨sched, hsched, hstep⟩ := Option.bind_eq_some_iff.mp hbind
  exact ⟨sched, sched', hsched, hstep, rfl⟩

/-- A scheduler that does not start samples no more than before. -/
theorem samples_onScheduler (hs : s.onScheduler fl i event = some s') (hevent : event ≠ .start)
    {j k : Nat} (h : Samples s' j k) : Samples s j k := by
  obtain ⟨sched, sched', hsched, hstep, rfl⟩ := of_onScheduler hs
  obtain ⟨sched'', hj, hlive⟩ := h
  by_cases hij : i = j
  · subst hij
    obtain rfl : sched' = sched'' := by
      simpa [(List.getElem?_eq_some_iff.mp hsched).1] using hj
    exact ⟨sched, hsched, CollectorScheduler.live_of_step hstep hevent hlive⟩
  · exact ⟨sched'', by simpa [List.getElem?_set, hij] using hj, hlive⟩

/-- A scheduler at work touches neither the export loops nor the step. -/
theorem ExportInv.onScheduler (h : ExportInv s) (hs : s.onScheduler fl i event = some s') :
    ExportInv s' := by
  obtain ⟨_, _, -, -, rfl⟩ := of_onScheduler hs
  exact ⟨h.own, h.fresh, h.down⟩

/-- The schedulers stay sound. -/
theorem SamplerInv.onScheduler (h : SamplerInv s) (hs : s.onScheduler fl i event = some s')
    (hevent : event ≠ .start) : SamplerInv s' := by
  have hsamples := fun j k ↦ samples_onScheduler (j := j) (k := k) hs hevent
  obtain ⟨sched, sched', hsched, hstep, rfl⟩ := of_onScheduler hs
  refine ⟨fun x hx ↦ ?_, fun j k hjk ↦ h.current j k (hsamples j k hjk),
    fun hphase j k hjk ↦ h.flushing hphase j k (hsamples j k hjk),
    fun hphase j k hjk ↦ h.down hphase j k (hsamples j k hjk)⟩
  rcases List.mem_or_eq_of_mem_set hx with hx | rfl
  · exact h.sound x hx
  · have hsound := h.sound sched (List.mem_of_getElem? hsched)
    refine (hsound.tasks fun _ hj ↦ hj).step ?_ hstep
    cases event with
    | start => exact absurd rfl hevent
    | stop | resume | turn | unwind | collectOnce => trivial

end Schedulers

section Shutdown

/-- The end of a shutdown, which finds no export loop when it returns. -/
theorem ExportInv.stopped (h : ∀ k, Loop.Live s.exports k → s.otelExportTask = some k)
    {call : Stopping E} (hreturned : call = .returned → ∀ k, ¬ Loop.Live s.exports k) :
    ExportInv (s.stopped call) := by
  cases call with
  | waiting k => exact ⟨h, nofun, nofun⟩
  | returned =>
    have hnone := hreturned rfl
    exact ⟨fun k hk ↦ absurd hk (hnone k), nofun, fun _ ↦ hnone⟩
  | raised e => exact ⟨h, nofun, nofun⟩

/-- The second half of a shutdown. -/
theorem ExportInv.stopExport (h : ExportInv s) (hs : s.stopExport = some s') : ExportInv s' := by
  unfold State.stopExport at hs
  split at hs
  · next hnone =>
    obtain rfl := Option.some.inj hs
    refine ⟨h.own, nofun, fun _ k hk ↦ ?_⟩
    rw [h.own k hk] at hnone
    cases hnone
  · next k hk =>
    obtain ⟨t, ht, rfl⟩ := Option.map_eq_some_iff.mp hs
    have hlive : ∀ j, Loop.Live (s.exports.set k t.cancel) j → Loop.Live s.exports j :=
      fun j hj ↦ hj.of_set ht fun hended ↦ t.ended_cancel ▸ hended
    refine stopped (s := { s with exports := s.exports.set k t.cancel })
      (fun j hj ↦ h.own j (hlive j hj)) fun hreturned j hj ↦ ?_
    obtain rfl : j = k := Option.some.inj ((h.own j (hlive j hj)).symm.trans hk)
    obtain ⟨u, hu, hended⟩ := hlive j hj
    obtain rfl : t = u := Option.some.inj (ht.symm.trans hu)
    rw [Stopping.await_of_live (by rwa [Loop.ended_cancel])] at hreturned
    cases hreturned

/-- A call of the scheduler's `stop` leaves the export loop to the second half. -/
theorem ExportInv.afterStop (h : ExportInv s) {call : Nat} (hs : s.afterStop i call = some s') :
    ExportInv s' := by
  obtain ⟨how, -, hs⟩ := Option.bind_eq_some_iff.mp hs
  cases how with
  | waiting k =>
    obtain rfl := Option.some.inj hs
    exact ⟨h.own, nofun, nofun⟩
  | returned => exact h.stopExport hs
  | raised e =>
    obtain rfl := Option.some.inj hs
    exact ⟨h.own, nofun, nofun⟩

/-- A call of `shutdown_async` as far as it has got. -/
theorem ExportInv.shutdown (h : ExportInv s) (hs : s.shutdown fl = some s') : ExportInv s' := by
  unfold State.shutdown at hs
  split at hs
  · exact h.stopExport hs
  · obtain ⟨sched, -, hs⟩ := Option.bind_eq_some_iff.mp hs
    obtain ⟨s₁, hstop, hs⟩ := Option.bind_eq_some_iff.mp hs
    exact (h.onScheduler hstop).afterStop hs

/-- A call of `shutdown_async` that waited. -/
theorem ExportInv.resume (h : ExportInv s) (hs : s.resume fl = some s') : ExportInv s' := by
  unfold State.resume at hs
  split at hs
  · obtain ⟨i, -, hs⟩ := Option.bind_eq_some_iff.mp hs
    obtain ⟨s₁, hresume, hs⟩ := Option.bind_eq_some_iff.mp hs
    exact (h.onScheduler hresume).afterStop hs
  · obtain ⟨k, hk, hs⟩ := Option.bind_eq_some_iff.mp hs
    obtain ⟨how, hhow, rfl⟩ := Option.map_eq_some_iff.mp hs
    obtain ⟨t, ht, hended⟩ := Option.bind_eq_some_iff.mp hhow
    refine stopped h.own fun _ j hj ↦ ?_
    obtain rfl : j = k := Option.some.inj ((h.own j hj).symm.trans hk)
    obtain ⟨u, hu, hlive⟩ := hj
    obtain rfl : t = u := Option.some.inj (ht.symm.trans hu)
    rw [hlive] at hended
    cases hended
  all_goals cases hs

/-- The end of a shutdown leaves the schedulers alone. -/
theorem SamplerInv.stopped (h : SamplerInv s) (hquiet : ∀ j k, ¬ Samples s j k)
    (call : Stopping E) : SamplerInv (s.stopped call) := by
  cases call <;> exact ⟨h.sound, h.current, fun _ ↦ hquiet, fun _ ↦ hquiet⟩

/-- The second half of a shutdown finds no sampling loop. -/
theorem SamplerInv.stopExport (h : SamplerInv s) (hquiet : ∀ j k, ¬ Samples s j k)
    (hs : s.stopExport = some s') : SamplerInv s' := by
  unfold State.stopExport at hs
  split at hs
  · obtain rfl := Option.some.inj hs
    exact ⟨h.sound, h.current, fun _ ↦ hquiet, fun _ ↦ hquiet⟩
  · next k hk =>
    obtain ⟨t, ht, rfl⟩ := Option.map_eq_some_iff.mp hs
    have hset : SamplerInv { s with exports := s.exports.set k t.cancel } :=
      ⟨h.sound, h.current, h.flushing, h.down⟩
    exact hset.stopped hquiet _

/-- The first half of a shutdown: the scheduler that the step names returns without a loop. -/
theorem SamplerInv.afterStop (h : SamplerInv s) (hi : s.scheduler = some i) {call : Nat}
    {sched : CollectorScheduler.State F E}
    {how : Stopping (CollectorScheduler.Trouble E)} (hsched : s.schedulers[i]? = some sched)
    (hcall : sched.stops[call]? = some how) (hidle : how = .returned → sched.idle = true)
    (hs : s.afterStop i call = some s') : SamplerInv s' := by
  unfold State.afterStop at hs
  rw [hsched, Option.bind_some, hcall, Option.bind_some] at hs
  cases how with
  | waiting k =>
    obtain rfl := Option.some.inj hs
    exact ⟨h.sound, h.current, nofun, nofun⟩
  | returned =>
    refine h.stopExport (fun j k hjk ↦ ?_) hs
    obtain rfl := Option.some.inj (hi.symm.trans (h.current j k hjk))
    obtain ⟨sched', hsched', hlive⟩ := hjk
    obtain rfl : sched = sched' := Option.some.inj (hsched.symm.trans hsched')
    exact (h.sound sched (List.mem_of_getElem? hsched)).idle (hidle rfl) k hlive
  | raised e =>
    obtain rfl := Option.some.inj hs
    exact ⟨h.sound, h.current, nofun, nofun⟩

/-- A call of `shutdown_async` as far as it has got. -/
theorem SamplerInv.shutdown (h : SamplerInv s) (hs : s.shutdown fl = some s') :
    SamplerInv s' := by
  unfold State.shutdown at hs
  split at hs
  · next hnone =>
    refine h.stopExport (fun j k hjk ↦ ?_) hs
    rw [h.current j k hjk] at hnone
    cases hnone
  · next i hi =>
    obtain ⟨sched, hsched, hs⟩ := Option.bind_eq_some_iff.mp hs
    obtain ⟨s₁, hstop, hs⟩ := Option.bind_eq_some_iff.mp hs
    have hinv := h.onScheduler hstop nofun
    obtain ⟨sched₀, sched', hsched₀, hstep, rfl⟩ := of_onScheduler hstop
    obtain rfl : sched = sched₀ := Option.some.inj (hsched.symm.trans hsched₀)
    obtain ⟨how, hstops, hidle⟩ := CollectorScheduler.of_stop hstep
    refine hinv.afterStop hi ?_ ?_ hidle hs
    · simp [(List.getElem?_eq_some_iff.mp hsched).1]
    · simp [hstops]

/-- A call of `shutdown_async` that waited. -/
theorem SamplerInv.resume (h : SamplerInv s) (hs : s.resume fl = some s') : SamplerInv s' := by
  unfold State.resume at hs
  split at hs
  · next call hphase =>
    obtain ⟨i, hi, hs⟩ := Option.bind_eq_some_iff.mp hs
    obtain ⟨s₁, hresume, hs⟩ := Option.bind_eq_some_iff.mp hs
    have hinv := h.onScheduler hresume nofun
    obtain ⟨sched, sched', hsched, hstep, rfl⟩ := of_onScheduler hresume
    obtain ⟨how, hcall, hidle⟩ := CollectorScheduler.of_resume hstep
    refine hinv.afterStop hi ?_ hcall hidle hs
    simp [(List.getElem?_eq_some_iff.mp hsched).1]
  · next hphase =>
    obtain ⟨k, -, hs⟩ := Option.bind_eq_some_iff.mp hs
    obtain ⟨how, -, rfl⟩ := Option.map_eq_some_iff.mp hs
    exact h.stopped (h.flushing hphase) _
  all_goals cases hs

end Shutdown

section Startup

variable {collects : Collector → Bool}

/-- No export loop begins before the second half of a start. -/
theorem ExportInv.startScheduler (h : ExportInv s) : ExportInv (s.startScheduler collects) := by
  unfold State.startScheduler
  split
  · exact h
  · exact ⟨h.own, h.fresh, h.down⟩

/-- The half of a start before the export loop leaves the step down. -/
theorem phase_startScheduler : (s.startScheduler collects).phase = s.phase := by
  unfold State.startScheduler
  split <;> rfl

/-- A start that finds no export loop, raising or not. -/
theorem ExportInv.startup (h : ExportInv s) (hdown : s.phase = .down) (settings : Settings E) :
    ExportInv (s.startup settings) := by
  have hstart : ExportInv (s.startScheduler settings.collects) := h.startScheduler
  have hnone := hstart.down (phase_startScheduler.trans hdown)
  unfold State.startup
  split
  · exact h
  · exact ⟨h.own, fun _ k t ht hended ↦ absurd ⟨t, ht, hended⟩ (h.down hdown k), nofun⟩
  · dsimp only
    split
    · split
      · exact hstart
      · refine ⟨fun k hk ↦ ?_, fun _ k t ht hended ↦ ?_, nofun⟩
        · rcases Loop.live_concat_new.mp hk with hk | rfl
          · exact absurd hk (hnone k)
          · rfl
        · rcases Loop.live_concat_new.mp ⟨t, ht, hended⟩ with hk | rfl
          · exact absurd hk (hnone k)
          · obtain rfl : Loop.new = t := by simpa using ht
            rfl
    · exact ⟨hstart.own, fun _ k t ht hended ↦ absurd ⟨t, ht, hended⟩ (hnone k), nofun⟩

/-- A scheduler that has just been started. -/
theorem inv_startScheduler (agg : MetricsAggregator F) :
    CollectorScheduler.Inv (E := E) ⟨agg, [.new], some 0, [], false⟩ := by
  refine ⟨?_, nofun, nofun⟩
  rintro k ⟨t, ht, -⟩
  cases k with
  | zero => rfl
  | succ k => cases ht

/-- The one scheduler that samples is the new one. -/
theorem current_startScheduler (h : SamplerInv s) (hquiet : ∀ j k, ¬ Samples s j k) :
    (∀ sched ∈ (s.startScheduler collects).schedulers, CollectorScheduler.Inv sched) ∧
    ∀ j k, Samples (s.startScheduler collects) j k →
      (s.startScheduler collects).scheduler = some j := by
  unfold State.startScheduler
  split
  · exact ⟨h.sound, h.current⟩
  · refine ⟨fun sched hsched ↦ ?_, fun j k hjk ↦ ?_⟩
    · rcases List.mem_append.mp hsched with hsched | hsched
      · exact h.sound sched hsched
      · obtain rfl := List.mem_singleton.mp hsched
        exact inv_startScheduler s.aggregator
    · obtain ⟨sched, hsched, hlive⟩ := hjk
      dsimp only at hsched ⊢
      rcases Nat.lt_trichotomy j s.schedulers.length with hlt | rfl | hlt
      · rw [List.getElem?_append_left hlt] at hsched
        exact absurd ⟨sched, hsched, hlive⟩ (hquiet j k)
      · rfl
      · rw [List.getElem?_eq_none (by simp; omega)] at hsched
        cases hsched

/-- A start that raises before its scheduler samples leads to no loop, any other one to a step that
is up. -/
theorem SamplerInv.startup (h : SamplerInv s) (hdown : s.phase = .down) {settings : Settings E}
    (hparses : settings.Parses) : SamplerInv (s.startup settings) := by
  obtain ⟨hsound, hcurrent⟩ : (∀ sched ∈ (s.startScheduler settings.collects).schedulers,
      CollectorScheduler.Inv sched) ∧ ∀ j k, Samples (s.startScheduler settings.collects) j k →
        (s.startScheduler settings.collects).scheduler = some j :=
    current_startScheduler h (h.down hdown)
  unfold State.startup
  cases henabled : settings.enabled with
  | error e => exact h
  | ok enabled =>
    cases enabled with
    | false => exact ⟨h.sound, h.current, nofun, nofun⟩
    | true =>
      dsimp only
      split
      · next hexport =>
        cases hinterval : settings.interval with
        | error e =>
          cases hempty : (buildEnabledCollectors settings.collects).isEmpty with
          | true => rwa [State.startScheduler, if_pos hempty]
          | false =>
            rw [Settings.Parses, hinterval, hexport, hempty, henabled] at hparses
            simp [Except.isOk, Except.toBool, Except.toOption] at hparses
        | ok => exact ⟨hsound, hcurrent, nofun, nofun⟩
      · exact ⟨hsound, hcurrent, nofun, nofun⟩

end Startup

/-- A turn of an export loop, or its end. -/
theorem ExportInv.exports (h : ExportInv s) {k : Nat} {t t' : Loop E} (hk : s.exports[k]? = some t)
    (hended : t.ended = none) (hfresh : t'.ended = none → t'.cancelling = false) :
    ExportInv { s with exports := s.exports.set k t' } := by
  have hlive : ∀ j, Loop.Live (s.exports.set k t') j → Loop.Live s.exports j :=
    fun j hj ↦ hj.of_set hk fun _ ↦ hended
  refine ⟨fun j hj ↦ h.own j (hlive j hj), fun hup j u hu hu' ↦ ?_,
    fun hdown j hj ↦ h.down hdown j (hlive j hj)⟩
  by_cases hkj : k = j
  · subst hkj
    obtain rfl : t' = u := by simpa [(List.getElem?_eq_some_iff.mp hk).1] using hu
    exact hfresh hu'
  · exact h.fresh hup j u (by simpa [List.getElem?_set, hkj] using hu) hu'

/-- No event leaves an export loop at work that the step does not name. -/
theorem ExportInv.step {event : Event F E} (h : ExportInv s)
    (hs : PerformanceStep.step fl s event = some s') : ExportInv s' := by
  cases event with
  | startup settings =>
    simp only [PerformanceStep.step] at hs
    split at hs
    · next hdown =>
      obtain rfl := Option.some.inj hs
      exact h.startup hdown settings
    all_goals cases hs
  | shutdown =>
    simp only [PerformanceStep.step] at hs
    split at hs
    · exact h.shutdown hs
    · exact h.shutdown hs
    all_goals cases hs
  | resume => exact h.resume hs
  | sample i k results => exact h.onScheduler hs
  | unwindSampler i k => exact h.onScheduler hs
  | «export» k raises =>
    obtain ⟨t, ht, hs⟩ := Option.bind_eq_some_iff.mp hs
    obtain ⟨t', hturn, rfl⟩ := Option.map_eq_some_iff.mp hs
    obtain ⟨hended, -, rfl⟩ := Loop.of_turn hturn
    exact h.exports ht hended fun _ ↦ rfl
  | unwindExport k =>
    obtain ⟨t, ht, hs⟩ := Option.bind_eq_some_iff.mp hs
    obtain ⟨t', hunwind, rfl⟩ := Option.map_eq_some_iff.mp hs
    obtain ⟨hended, -, rfl⟩ := Loop.of_unwind hunwind
    exact h.exports ht hended nofun
  | ingest points =>
    obtain rfl := Option.some.inj hs
    exact ⟨h.own, h.fresh, h.down⟩

/-- No event leaves a sampling loop at work that the step does not name. -/
theorem SamplerInv.step {event : Event F E} (h : SamplerInv s) (hok : Configured s event)
    (hs : PerformanceStep.step fl s event = some s') : SamplerInv s' := by
  cases event with
  | startup settings =>
    simp only [PerformanceStep.step] at hs
    split at hs
    · next hdown =>
      obtain rfl := Option.some.inj hs
      exact h.startup hdown hok
    all_goals cases hs
  | shutdown =>
    simp only [PerformanceStep.step] at hs
    split at hs
    · exact h.shutdown hs
    · exact h.shutdown hs
    all_goals cases hs
  | resume => exact h.resume hs
  | sample i k results => exact h.onScheduler hs nofun
  | unwindSampler i k => exact h.onScheduler hs nofun
  | «export» k raises =>
    obtain ⟨t, -, hs⟩ := Option.bind_eq_some_iff.mp hs
    obtain ⟨t', -, rfl⟩ := Option.map_eq_some_iff.mp hs
    exact ⟨h.sound, h.current, h.flushing, h.down⟩
  | unwindExport k =>
    obtain ⟨t, -, hs⟩ := Option.bind_eq_some_iff.mp hs
    obtain ⟨t', -, rfl⟩ := Option.map_eq_some_iff.mp hs
    exact ⟨h.sound, h.current, h.flushing, h.down⟩
  | ingest points =>
    obtain rfl := Option.some.inj hs
    exact ⟨h.sound, h.current, h.flushing, h.down⟩

/-- The export loops of any run. -/
theorem exportInv_of_reach {G : State F E → Event F E → Prop} (h : (application fl).Reach G s) :
    ExportInv s := by
  refine h.invariant ⟨?_, nofun, fun _ ↦ ?_⟩ fun _ _ _ h _ hs ↦ h.step hs
  · rintro k ⟨t, ht, -⟩
    cases ht
  · rintro k ⟨t, ht, -⟩
    cases ht

/-- The sampling loops of a run. -/
theorem samplerInv_of_reach (h : (application fl).Reach Configured s) :
    SamplerInv (E := E) s := by
  refine h.invariant ⟨nofun, ?_, nofun, fun _ ↦ ?_⟩ fun _ _ _ h hok hs ↦ h.step hok hs
  · rintro j k ⟨sched, hsched, -⟩
    cases hsched
  · rintro j k ⟨sched, hsched, -⟩
    cases hsched

/-- However often the application starts and shuts down, and however its loops end, the loops at
work are the ones the step names, and none is at work after a shutdown has returned. -/
theorem none_after_shutdown (h : (application fl).Reach Configured s) :
    (∀ j k, Samples (E := E) s j k →
      s.scheduler = some j ∧ ∃ sched, s.schedulers[j]? = some sched ∧ sched.task = some k) ∧
    (∀ k, Loop.Live s.exports k → s.otelExportTask = some k) ∧
    (s.phase = .down → (∀ j k, ¬ Samples s j k) ∧ ∀ k, ¬ Loop.Live s.exports k) := by
  have hsampler := samplerInv_of_reach h
  have hexport := exportInv_of_reach h
  refine ⟨fun j k hjk ↦ ⟨hsampler.current j k hjk, ?_⟩, hexport.own,
    fun hdown ↦ ⟨hsampler.down hdown, hexport.down hdown⟩⟩
  obtain ⟨sched, hsched, hlive⟩ := hjk
  exact ⟨sched, hsched, (hsampler.sound sched (List.mem_of_getElem? hsched)).own k hlive⟩

/-- What a default configuration with every collector reads. -/
def everyCollector : Settings E := ⟨.ok true, fun _ ↦ true, true, .ok ()⟩

/-- A restart after an orderly shutdown. -/
theorem none_after_shutdown_restart : ∃ s : State Rat Empty,
    (application Floats.exact).Reach Configured s ∧
    (s.phase = .up ∧ s.schedulers.length = 2 ∧ s.exports.length = 2) ∧
    (∀ j k, Samples s j k →
      s.scheduler = some j ∧ ∃ sched, s.schedulers[j]? = some sched ∧ sched.task = some k) ∧
    (∀ k, Loop.Live s.exports k → s.otelExportTask = some k) ∧
    (s.phase = .down → (∀ j k, ¬ Samples s j k) ∧ ∀ k, ¬ Loop.Live s.exports k) := by
  obtain ⟨s, hreach, hs⟩ := System.exists_of_exec
    (application (E := Empty) Floats.exact) Configured
    [.startup everyCollector, .sample 0 0 [.ok []], .export 0 none, .shutdown, .unwindSampler 0 0,
      .resume, .unwindExport 0, .resume, .startup everyCollector]
    (fun s ↦ s.phase == .up && s.schedulers.length == 2 && s.exports.length == 2)
    (by decide +kernel)
  simp only [Bool.and_eq_true, beq_iff_eq, and_assoc] at hs
  exact ⟨s, hreach, hs, none_after_shutdown hreach⟩

/-! ## A sampling loop that a collector has ended -/

/-- The scheduler's loop ended with `e`, which every shutdown raises. -/
structure Dead (i k : Nat) (e : CollectorScheduler.Trouble E) (s : State F E) : Prop where
  scheduler : s.scheduler = some i
  sampler : ∃ sched t, s.schedulers[i]? = some sched ∧ sched.task = some k ∧
    sched.tasks[k]? = some t ∧ t.ended = some (.error e)

/-- Export loop `j` has been begun and nobody has asked it to end. -/
def Uncancelled (s : State F E) (j : Nat) : Prop :=
  ∃ t, s.exports[j]? = some t ∧ t.cancelling = false ∧ t.ended ≠ some .cancelledError

section Dead

variable {j k : Nat} {e : CollectorScheduler.Trouble E}

/-- Every shutdown raises what ended the loop, and gets no further. -/
theorem Dead.shutdown (fl : Performance.Floats F) (h : Dead i k e s) :
    ∃ s', s.shutdown fl = some s' ∧ s'.phase = .failed (.sampler e) ∧ Dead i k e s' ∧
      s'.exports = s.exports := by
  obtain ⟨hi, sched, t, hsched, hk, ht, hended⟩ := h
  have hlt := (List.getElem?_eq_some_iff.mp hsched).1
  have hstop := CollectorScheduler.stop_of_error fl
    (s := { sched with aggregator := s.aggregator }) hk ht hended
  have hon : s.onScheduler fl i .stop = some { s with
      schedulers := s.schedulers.set i { sched with
        aggregator := s.aggregator, stops := sched.stops ++ [.raised e] } } := by
    rw [State.onScheduler, hsched, Option.bind_some, hstop]
    rfl
  have hshutdown : s.shutdown fl = some { s with
      schedulers := s.schedulers.set i { sched with
        aggregator := s.aggregator, stops := sched.stops ++ [.raised e] }
      phase := .failed (.sampler e) } := by
    rw [State.shutdown, hi]
    dsimp only
    rw [hsched, Option.bind_some, hon, Option.bind_some, State.afterStop,
      List.getElem?_set_self hlt]
    simp [hi]
  exact ⟨_, hshutdown, rfl, ⟨hi, _, t, List.getElem?_set_self hlt, hk, ht, hended⟩, rfl⟩

/-- The turns of the loops leave a dead one dead. -/
theorem Dead.onScheduler {i' : Nat} {event : CollectorScheduler.Event F E} (h : Dead i k e s)
    (hevent : event.IsTurn) (hs : s.onScheduler fl i' event = some s') : Dead i k e s' := by
  obtain ⟨hi, sched, t, hsched, hk, ht, hended⟩ := h
  obtain ⟨sched₀, sched', hsched₀, hstep, rfl⟩ := of_onScheduler hs
  refine ⟨hi, ?_⟩
  by_cases hii : i' = i
  · subst hii
    obtain rfl : sched = sched₀ := Option.some.inj (hsched.symm.trans hsched₀)
    obtain ⟨htask, hkept⟩ := CollectorScheduler.ended_of_turn hevent hstep ht
      (by rw [hended]; simp)
    have hlt := (List.getElem?_eq_some_iff.mp hsched).1
    exact ⟨sched', t, List.getElem?_set_self hlt, htask.trans hk, hkept, hended⟩
  · exact ⟨sched, t, by simpa [List.getElem?_set, hii] using hsched, hk, ht, hended⟩

/-- A loop's own turn is no request to end it. -/
theorem Uncancelled.exports {m : Nat} {t t' : Loop E} (h : Uncancelled s j)
    (hm : s.exports[m]? = some t)
    (hfree : t.cancelling = false → t'.cancelling = false ∧ t'.ended ≠ some .cancelledError) :
    Uncancelled { s with exports := s.exports.set m t' } j := by
  obtain ⟨u, hu, hcancelling, hended⟩ := h
  by_cases hmj : m = j
  · subst hmj
    obtain rfl : t = u := Option.some.inj (hm.symm.trans hu)
    exact ⟨t', List.getElem?_set_self (List.getElem?_eq_some_iff.mp hm).1, hfree hcancelling⟩
  · exact ⟨u, by simpa [List.getElem?_set, hmj] using hu, hcancelling, hended⟩

/-- One event of a step that failed so: it stays failed, and no export loop is asked to end. -/
theorem Dead.step {event : Event F E} (h : Dead i k e s)
    (hfailed : s.phase = .failed (.sampler e))
    (hs : PerformanceStep.step fl s event = some s') :
    s'.phase = .failed (.sampler e) ∧ Dead i k e s' ∧
      ∀ j, Uncancelled s j → Uncancelled s' j := by
  cases event with
  | startup settings => simp [PerformanceStep.step, hfailed] at hs
  | shutdown =>
    obtain ⟨s₁, hs₁, hphase, hdead, hexports⟩ := h.shutdown fl
    obtain rfl : s₁ = s' := by simpa [PerformanceStep.step, hfailed, hs₁] using hs
    refine ⟨hphase, hdead, fun j hj ↦ ?_⟩
    rwa [Uncancelled, hexports]
  | resume => simp [PerformanceStep.step, State.resume, hfailed] at hs
  | sample i' k' results =>
    have hdead := h.onScheduler (by trivial) hs
    obtain ⟨_, _, -, -, rfl⟩ := of_onScheduler hs
    exact ⟨hfailed, hdead, fun _ hj ↦ hj⟩
  | unwindSampler i' k' =>
    have hdead := h.onScheduler (by trivial) hs
    obtain ⟨_, _, -, -, rfl⟩ := of_onScheduler hs
    exact ⟨hfailed, hdead, fun _ hj ↦ hj⟩
  | «export» m raises =>
    obtain ⟨t, ht, hs⟩ := Option.bind_eq_some_iff.mp hs
    obtain ⟨t', hturn, rfl⟩ := Option.map_eq_some_iff.mp hs
    obtain ⟨-, -, rfl⟩ := Loop.of_turn hturn
    exact ⟨hfailed, ⟨h.scheduler, h.sampler⟩, fun j hj ↦ hj.exports ht fun _ ↦ ⟨rfl, by simp⟩⟩
  | unwindExport m =>
    obtain ⟨t, ht, hs⟩ := Option.bind_eq_some_iff.mp hs
    obtain ⟨t', hunwind, rfl⟩ := Option.map_eq_some_iff.mp hs
    obtain ⟨-, hcancelling, -⟩ := Loop.of_unwind hunwind
    refine ⟨hfailed, ⟨h.scheduler, h.sampler⟩, fun j hj ↦ hj.exports ht fun hfree ↦ ?_⟩
    rw [hcancelling] at hfree
    cases hfree
  | ingest points =>
    obtain rfl := Option.some.inj hs
    exact ⟨hfailed, ⟨h.scheduler, h.sampler⟩, fun _ hj ↦ hj⟩

end Dead

end PerformanceStep
end SalesData.App

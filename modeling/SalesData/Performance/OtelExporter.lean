import SalesData.Base.Watch
import SalesData.Performance.PrometheusRuns
import SalesData.Performance.Snapshots

/-!
# Exporting to OpenTelemetry

`OTelExporter` (`core/performance/exporters/otel_exporter.py`) and the loop that runs it
(`core/app/lifespan.py:358–373`), which logs what an export raises and goes on. Any call of the
meter or of an instrument may raise; numbers are exact.
-/

namespace SalesData.Performance

open Base

/-- A call of the meter, or of the instrument that it has created for a name. -/
inductive OtelCall
  | createCounter (name : MetricName)
  | add (name : MetricName) (delta : ℚ) (attributes : Tags)
  | createGauge (name : MetricName)
  | set (name : MetricName) (value : ℚ) (attributes : Tags)

/-- `OTelExporter` and its calls so far, each with whether it returned. -/
structure OTelExporter where
  counterInstruments : List MetricName
  gaugeInstruments : List MetricName
  lastCounterValues : Dict MetricKey ℚ
  calls : List (OtelCall × Bool)

namespace OTelExporter

/-- `OTelExporter(meter)`. -/
def new : OTelExporter := ⟨[], [], .empty, []⟩

variable (raises : List (OtelCall × Bool) → OtelCall → Bool)

/-- A call, and whether it returns. -/
def call (exporter : OTelExporter) (c : OtelCall) : OTelExporter × Bool :=
  let returns := !raises exporter.calls c
  ({ exporter with calls := exporter.calls ++ [(c, returns)] }, returns)

/-- The counter of a name (`otel_exporter.py:84–87`). -/
def counterInstrument (exporter : OTelExporter) (name : MetricName) : OTelExporter × Bool :=
  if name ∈ exporter.counterInstruments then (exporter, true)
  else
    match exporter.call raises (.createCounter name) with
    | (exporter, true) =>
      ({ exporter with counterInstruments := exporter.counterInstruments ++ [name] }, true)
    | (exporter, false) => (exporter, false)

/-- The gauge of a name (`otel_exporter.py:91–94`). -/
def gaugeInstrument (exporter : OTelExporter) (name : MetricName) : OTelExporter × Bool :=
  if name ∈ exporter.gaugeInstruments then (exporter, true)
  else
    match exporter.call raises (.createGauge name) with
    | (exporter, true) =>
      ({ exporter with gaugeInstruments := exporter.gaugeInstruments ++ [name] }, true)
    | (exporter, false) => (exporter, false)

/-- `_export_counter` (`otel_exporter.py:77–88`). -/
def exportCounter (exporter : OTelExporter) (counter : Counter ℚ) : OTelExporter × Bool :=
  let k := key counter.name counter.tags
  let previous := (exporter.lastCounterValues.get? k).getD 0
  let delta := if previous ≤ counter.value then counter.value - previous else counter.value
  let exporter :=
    { exporter with lastCounterValues := exporter.lastCounterValues.set k counter.value }
  if delta ≤ 0 then (exporter, true)
  else
    match exporter.counterInstrument raises counter.name with
    | (exporter, true) => exporter.call raises (.add counter.name delta counter.tags)
    | (exporter, false) => (exporter, false)

/-- `_export_gauge` (`otel_exporter.py:90–95`). -/
def exportGauge (exporter : OTelExporter) (gauge : Gauge ℚ) : OTelExporter × Bool :=
  match exporter.gaugeInstrument raises gauge.name with
  | (exporter, true) => exporter.call raises (.set gauge.name gauge.value gauge.tags)
  | (exporter, false) => (exporter, false)

/-- A loop that what raises ends. -/
def each {A : Type} (body : OTelExporter → A → OTelExporter × Bool) (exporter : OTelExporter) :
    List A → OTelExporter × Bool
  | [] => (exporter, true)
  | a :: as =>
    match body exporter a with
    | (exporter, true) => each body exporter as
    | (exporter, false) => (exporter, false)

/-- The values that a histogram shows as gauges (`otel_exporter.py:69–75`). -/
def statGauges (h : StreamingHistogram) : List (Gauge ℚ) :=
  h.snapshot.entries.filterMap fun e ↦ e.2.map fun value ↦
    ⟨h.histogram.name, h.histogram.tags.set "stat".toList e.1, value⟩

/-- `export` (`otel_exporter.py:63–75`). -/
def «export» (exporter : OTelExporter) (counters : List (Counter ℚ)) (gauges : List (Gauge ℚ))
    (histograms : List StreamingHistogram) : OTelExporter × Bool :=
  match each (exportCounter raises) exporter counters with
  | (exporter, true) =>
    match each (exportGauge raises) exporter gauges with
    | (exporter, true) => each (exportGauge raises) exporter (histograms.flatMap statGauges)
    | (exporter, false) => (exporter, false)
  | (exporter, false) => (exporter, false)

end OTelExporter

/-! ## Runs -/

/-- A registry with the exporter of the loop, and what resets have taken from the counters. -/
structure Exporting where
  registry : PerformanceRegistry ℚ
  exporter : OTelExporter
  cleared : MetricKey → ℚ

/-- What happens to them; beside each histogram of the aggregator are its estimators. -/
inductive ExportEvent
  | feed (feed : Feed ℚ)
  | export (estimators : MetricKey → List StreamingPercentileEstimator)

/-- The counter of a series, which is `0` before its first point. -/
def counted (agg : MetricsAggregator ℚ) (k : MetricKey) : ℚ :=
  ((agg.counters.get? k).map (·.value)).getD 0

/-- The loop beside the requests that feed the registry. -/
def exporting (raises : List (OtelCall × Bool) → OtelCall → Bool) (maxRequestHistory : Nat) :
    System Exporting ExportEvent where
  init := ⟨.create maxRequestHistory, .new, fun _ ↦ 0⟩
  step s event :=
    match event with
    | .feed feed =>
      ((feeding .exact maxRequestHistory).step s.registry feed).map fun registry ↦
        { s with
          registry
          cleared := fun k ↦ s.cleared k +
            match feed with
            | .reset => counted s.registry.aggregator k
            | _ => 0 }
    | .export estimators =>
      some { s with
        exporter := (s.exporter.export raises s.registry.aggregator.counters.values
          s.registry.aggregator.gauges.values
          (histogramsOf s.registry.aggregator estimators)).1 }

namespace OTelExporter

variable {raises : List (OtelCall × Bool) → OtelCall → Bool} {exporter : OTelExporter}

/-- The last value exported of a series. -/
def last (exporter : OTelExporter) (k : MetricKey) : ℚ :=
  (exporter.lastCounterValues.get? k).getD 0

/-- What a call adds to the counter of a series. -/
def addedBy (k : MetricKey) : OtelCall × Bool → ℚ
  | (.add name delta attributes, true) => if key name attributes = k then delta else 0
  | _ => 0

/-- What all calls have added to the counter of a series. -/
def added (exporter : OTelExporter) (k : MetricKey) : ℚ := (exporter.calls.map (addedBy k)).sum

/-- What a call sets. -/
def setBy : OtelCall × Bool → Option (MetricKey × ℚ)
  | (.set name value attributes, true) => some (key name attributes, value)
  | _ => none

/-- What all calls have set, in their order. -/
def sets (exporter : OTelExporter) : List (MetricKey × ℚ) := exporter.calls.filterMap setBy

/-- The value that the gauge of a series has. -/
def gaugeValue (exporter : OTelExporter) (k : MetricKey) : Option ℚ :=
  ((exporter.sets.filter fun r ↦ r.1 = k).map Prod.snd).getLast?

/-- No call has raised. -/
def AllReturn (exporter : OTelExporter) : Prop := ∀ c ∈ exporter.calls, c.2 = true

/-- A call that adds adds something positive. -/
def Positive (exporter : OTelExporter) : Prop :=
  ∀ name delta attributes returns, (.add name delta attributes, returns) ∈ exporter.calls →
    0 < delta

/-! ## One call -/

/-- What is added with some more calls. -/
theorem added_of_calls {exporter' : OTelExporter} {more : List (OtelCall × Bool)}
    (h : exporter'.calls = exporter.calls ++ more) (k : MetricKey) :
    exporter'.added k = exporter.added k + (more.map (addedBy k)).sum := by
  rw [added, h, List.map_append, List.sum_append]
  rfl

/-- What is set with some more calls. -/
theorem sets_of_calls {exporter' : OTelExporter} {more : List (OtelCall × Bool)}
    (h : exporter'.calls = exporter.calls ++ more) :
    exporter'.sets = exporter.sets ++ more.filterMap setBy := by
  rw [sets, h, List.filterMap_append]
  rfl

/-- The calls that ask for an instrument: the one that creates it if there is none yet. -/
inductive Asks (create : OtelCall) : List (OtelCall × Bool) → Bool → Prop
  | known : Asks create [] true
  | creates (returns : Bool) : Asks create [(create, returns)] returns

/-- The calls that use an instrument, which there is if asking for it has not raised. -/
inductive Uses (create use : OtelCall) : List (OtelCall × Bool) → Bool → Prop
  | refused : Uses create use [(create, false)] false
  | known (returns : Bool) : Uses create use [(use, returns)] returns
  | created (returns : Bool) : Uses create use [(create, true), (use, returns)] returns

/-- An instrument that is there is used. -/
theorem Asks.uses {create use : OtelCall} {more : List (OtelCall × Bool)}
    (h : Asks create more true) (returns : Bool) :
    Uses create use (more ++ [(use, returns)]) returns := by
  cases h with
  | known => exact .known returns
  | creates => exact .created returns

/-- An instrument that is not there is not used. -/
theorem Asks.refused {create use : OtelCall} {more : List (OtelCall × Bool)}
    (h : Asks create more false) : Uses create use more false := by
  cases h with
  | creates => exact .refused

/-- Asking for a counter. -/
theorem counterInstrument_spec (raises : List (OtelCall × Bool) → OtelCall → Bool)
    (exporter : OTelExporter) (name : MetricName) :
    ∃ more, (exporter.counterInstrument raises name).1.calls = exporter.calls ++ more ∧
      (exporter.counterInstrument raises name).1.lastCounterValues = exporter.lastCounterValues ∧
      Asks (.createCounter name) more (exporter.counterInstrument raises name).2 := by
  unfold counterInstrument call
  dsimp only
  split
  · exact ⟨[], (List.append_nil _).symm, rfl, .known⟩
  · cases raises exporter.calls (.createCounter name) with
    | true => exact ⟨_, rfl, rfl, .creates false⟩
    | false => exact ⟨_, rfl, rfl, .creates true⟩

/-- Asking for a gauge. -/
theorem gaugeInstrument_spec (raises : List (OtelCall × Bool) → OtelCall → Bool)
    (exporter : OTelExporter) (name : MetricName) :
    ∃ more, (exporter.gaugeInstrument raises name).1.calls = exporter.calls ++ more ∧
      (exporter.gaugeInstrument raises name).1.lastCounterValues = exporter.lastCounterValues ∧
      Asks (.createGauge name) more (exporter.gaugeInstrument raises name).2 := by
  unfold gaugeInstrument call
  dsimp only
  split
  · exact ⟨[], (List.append_nil _).symm, rfl, .known⟩
  · cases raises exporter.calls (.createGauge name) with
    | true => exact ⟨_, rfl, rfl, .creates false⟩
    | false => exact ⟨_, rfl, rfl, .creates true⟩

/-- What `_export_counter` does: it remembers the value, and adds what is new of it. -/
theorem exportCounter_spec (raises : List (OtelCall × Bool) → OtelCall → Bool)
    (exporter : OTelExporter) (counter : Counter ℚ) :
    ∃ more, (exporter.exportCounter raises counter).1.calls = exporter.calls ++ more ∧
      (∀ k, (exporter.exportCounter raises counter).1.last k =
        if k = key counter.name counter.tags then counter.value else exporter.last k) ∧
      (unseen (exporter.last (key counter.name counter.tags)) counter.value ≤ 0 ∧ more = [] ∧
          (exporter.exportCounter raises counter).2 = true ∨
        0 < unseen (exporter.last (key counter.name counter.tags)) counter.value ∧
          Uses (.createCounter counter.name)
            (.add counter.name
              (unseen (exporter.last (key counter.name counter.tags)) counter.value)
              counter.tags) more (exporter.exportCounter raises counter).2) := by
  have hset (k : MetricKey) :
      ((exporter.lastCounterValues.set (key counter.name counter.tags) counter.value).get? k).getD
        0 = if k = key counter.name counter.tags then counter.value else exporter.last k := by
    rw [Dict.get?_set]
    split <;> rfl
  have hunseen : unseen (exporter.last (key counter.name counter.tags)) counter.value =
      if (exporter.lastCounterValues.get? (key counter.name counter.tags)).getD 0 ≤ counter.value
      then counter.value - (exporter.lastCounterValues.get?
        (key counter.name counter.tags)).getD 0
      else counter.value := rfl
  obtain ⟨more, hcalls, hkept, hasks⟩ := counterInstrument_spec raises
    { exporter with
      lastCounterValues :=
        exporter.lastCounterValues.set (key counter.name counter.tags) counter.value } counter.name
  unfold exportCounter
  dsimp only
  rw [← hunseen]
  split
  · next hle => exact ⟨[], (List.append_nil _).symm, hset, .inl ⟨hle, rfl, rfl⟩⟩
  · next hlt =>
    rw [not_le] at hlt
    split
    · next asked hinstrument =>
      rw [hinstrument] at hcalls hkept hasks
      refine ⟨more ++ [_], ?_, fun k ↦ ?_, .inr ⟨hlt, hasks.uses _⟩⟩
      · rw [← List.append_assoc, ← hcalls]
        rfl
      · exact (congrArg (fun d : Dict MetricKey ℚ ↦ (d.get? k).getD 0) hkept).trans (hset k)
    · next asked hinstrument =>
      rw [hinstrument] at hcalls hkept hasks
      refine ⟨more, hcalls, fun k ↦ ?_, .inr ⟨hlt, hasks.refused⟩⟩
      exact (congrArg (fun d : Dict MetricKey ℚ ↦ (d.get? k).getD 0) hkept).trans (hset k)

/-- What `_export_gauge` does: it sets the value. -/
theorem exportGauge_spec (raises : List (OtelCall × Bool) → OtelCall → Bool)
    (exporter : OTelExporter) (gauge : Gauge ℚ) :
    ∃ more, (exporter.exportGauge raises gauge).1.calls = exporter.calls ++ more ∧
      (∀ k, (exporter.exportGauge raises gauge).1.last k = exporter.last k) ∧
      Uses (.createGauge gauge.name) (.set gauge.name gauge.value gauge.tags) more
        (exporter.exportGauge raises gauge).2 := by
  obtain ⟨more, hcalls, hkept, hasks⟩ := gaugeInstrument_spec raises exporter gauge.name
  unfold exportGauge
  split
  · next asked hinstrument =>
    rw [hinstrument] at hcalls hkept hasks
    refine ⟨more ++ [_], ?_, fun k ↦ ?_, hasks.uses _⟩
    · rw [← List.append_assoc, ← hcalls]
      rfl
    · exact congrArg (fun d : Dict MetricKey ℚ ↦ (d.get? k).getD 0) hkept
  · next asked hinstrument =>
    rw [hinstrument] at hcalls hkept hasks
    refine ⟨more, hcalls, fun k ↦ ?_, hasks.refused⟩
    exact congrArg (fun d : Dict MetricKey ℚ ↦ (d.get? k).getD 0) hkept

/-- A use that no call of has raised is done. -/
theorem Uses.returns {create use : OtelCall} {more : List (OtelCall × Bool)} {returns : Bool}
    (h : Uses create use more returns) : returns = more.all Prod.snd := by
  cases h <;> simp

/-- Only the instrument is created and used. -/
theorem Uses.mem {create use : OtelCall} {more : List (OtelCall × Bool)} {returns : Bool}
    (h : Uses create use more returns) {c : OtelCall × Bool} (hc : c ∈ more) :
    c.1 = create ∨ c.1 = use := by
  cases h with
  | refused => exact .inl (List.mem_singleton.mp hc ▸ rfl)
  | known => exact .inr (List.mem_singleton.mp hc ▸ rfl)
  | created =>
    rcases List.mem_pair.mp hc with rfl | rfl
    · exact .inl rfl
    · exact .inr rfl

/-- What a counter is given. -/
theorem Uses.added {created name : MetricName} {delta : ℚ} {attributes : Tags}
    {more : List (OtelCall × Bool)} {returns : Bool}
    (h : Uses (.createCounter created) (.add name delta attributes) more returns) (k : MetricKey) :
    (more.map (addedBy k)).sum = if returns ∧ key name attributes = k then delta else 0 := by
  cases h with
  | refused => simp [addedBy]
  | known => cases returns <;> simp [addedBy]
  | created => cases returns <;> simp [addedBy]

/-- What a gauge is given. -/
theorem Uses.sets {created name : MetricName} {value : ℚ} {attributes : Tags}
    {more : List (OtelCall × Bool)} {returns : Bool}
    (h : Uses (.createGauge created) (.set name value attributes) more returns) :
    more.filterMap setBy = if returns then [(key name attributes, value)] else [] := by
  cases h with
  | refused => rfl
  | known => cases returns <;> rfl
  | created => cases returns <;> rfl

/-- What was not positive before is not behind more calls that add something positive. -/
theorem Positive.append {exporter' : OTelExporter} {more : List (OtelCall × Bool)}
    (h : exporter.Positive) (hcalls : exporter'.calls = exporter.calls ++ more)
    (hmore : ∀ name delta attributes returns, (.add name delta attributes, returns) ∈ more →
      0 < delta) : exporter'.Positive := by
  intro name delta attributes returns hmem
  rw [hcalls] at hmem
  rcases List.mem_append.mp hmem with hmem | hmem
  · exact h name delta attributes returns hmem
  · exact hmore name delta attributes returns hmem

/-- What a counter's export adds. -/
theorem exportCounter_added (raises : List (OtelCall × Bool) → OtelCall → Bool)
    (exporter : OTelExporter) {counter : Counter ℚ} (hvalue : 0 ≤ counter.value) (k : MetricKey) :
    let due := if k = key counter.name counter.tags then
      unseen (exporter.last (key counter.name counter.tags)) counter.value else 0
    (exporter.exportCounter raises counter).1.added k ≤ exporter.added k + due ∧
      ((exporter.exportCounter raises counter).1.AllReturn →
        (exporter.exportCounter raises counter).1.added k = exporter.added k + due) := by
  intro due
  obtain ⟨more, hcalls, -, hmore⟩ := exportCounter_spec raises exporter counter
  rw [added_of_calls hcalls]
  rcases hmore with ⟨hle, rfl, -⟩ | ⟨hlt, huses⟩
  · have hdue : due = 0 := by
      unfold due
      rw [le_antisymm hle (unseen_nonneg hvalue), ite_self]
    rw [hdue]
    exact ⟨le_rfl, fun _ ↦ rfl⟩
  · rw [huses.added k]
    have hdue : due = if key counter.name counter.tags = k then
        unseen (exporter.last (key counter.name counter.tags)) counter.value else 0 := by
      unfold due
      simp only [eq_comm]
    have hreturns := huses.returns
    rw [hdue]
    constructor
    · refine add_le_add le_rfl ?_
      split
      · next h => rw [if_pos h.2]
      · split
        · exact hlt.le
        · exact le_rfl
    · intro hall
      have hok : more.all Prod.snd = true := by
        rw [List.all_eq_true]
        intro c hc
        exact hall c (hcalls ▸ List.mem_append_right _ hc)
      rw [hreturns, hok]
      simp only [true_and]

end OTelExporter

end SalesData.Performance

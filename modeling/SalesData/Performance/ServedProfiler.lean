import SalesData.Performance.Middleware

/-!
# The profiler of a served request

What any work leaves of the profiler of a request that is not over, and the end of the request
(`core/performance/request_profiler.py:177–303`): as long as names keep their types and values are
accepted, nothing that the middleware does with it raises.
-/

namespace SalesData.Performance.Middleware

open Base

variable {F R : Type}

/-! ## The points that are accepted -/

section Accepted

variable (fl : Floats F) (types : MetricName → MetricType)

/-- A point of its name's type that the aggregate of the type takes: counters no negative amounts,
and all but events and traces a value that `float` takes. -/
structure Accepted (point : MetricPoint F) : Prop where
  metricType : point.metricType = types point.name
  amount : point.metricType = .counter → point.value.isNegative fl = false
  value : point.metricType ≠ .event → point.metricType ≠ .trace →
    (point.value.toFloat fl).isOk = true

instance (point : MetricPoint F) : Decidable (Accepted fl types point) :=
  decidable_of_iff (point.metricType = types point.name ∧
    (point.metricType = .counter → point.value.isNegative fl = false) ∧
    (point.metricType ≠ .event → point.metricType ≠ .trace →
      (point.value.toFloat fl).isOk = true))
    ⟨fun h ↦ ⟨h.1, h.2.1, h.2.2⟩, fun h ↦ ⟨h.1, h.2, h.3⟩⟩

/-- The names of an aggregator have their types. -/
def Typed (agg : MetricsAggregator F) : Prop :=
  ∀ name metricType, agg.metricTypes.get? name = some metricType → metricType = types name

variable {fl types} {agg : MetricsAggregator F} {point : MetricPoint F}

private theorem toFloat_of_isOk {value : MetricValue F}
    (h : (value.toFloat fl).isOk = true) : ∃ x, value.toFloat fl = .ok x := by
  cases hvalue : value.toFloat fl with
  | ok x => exact ⟨x, rfl⟩
  | error e =>
    rw [hvalue] at h
    cases h

/-- An accepted point raises nothing when its type is registered. -/
theorem registerType_accepted (h : Typed types agg) (hpoint : Accepted fl types point) :
    ∃ agg', agg.registerType point = .ok agg' ∧ Typed types agg' := by
  unfold MetricsAggregator.registerType
  cases hget : agg.metricTypes.get? point.name with
  | none =>
    refine ⟨_, rfl, ?_⟩
    intro name metricType hname
    rw [Dict.get?_set] at hname
    split at hname
    · next heq =>
      cases hname
      rw [hpoint.metricType, heq]
    · exact h name metricType hname
  | some existing =>
    have hsame : existing = point.metricType := (h _ _ hget).trans hpoint.metricType.symm
    exact ⟨agg, by rw [hsame]; simp [ensureSameType], h⟩

/-- An accepted point raises nothing when it is applied, and no type changes. -/
theorem applyPoint_accepted (agg : MetricsAggregator F) (hpoint : Accepted fl types point) :
    ∃ agg', agg.applyPoint fl point = (agg', .ok ()) ∧ agg'.metricTypes = agg.metricTypes := by
  have hvalue := hpoint.value
  have hamount := hpoint.amount
  unfold MetricsAggregator.applyPoint
  cases htype : point.metricType with
  | counter =>
    obtain ⟨x, hx⟩ := toFloat_of_isOk (hvalue (by simp [htype]) (by simp [htype]))
    have hcounter : (agg.counterFor fl point.name point.tags).2.metricTypes = agg.metricTypes := by
      unfold MetricsAggregator.counterFor
      split <;> rfl
    simp only [Counter.increment, hamount htype, hx, Bool.false_eq_true, if_false]
    exact ⟨_, rfl, hcounter⟩
  | gauge =>
    obtain ⟨x, hx⟩ := toFloat_of_isOk (hvalue (by simp [htype]) (by simp [htype]))
    have hgauge : (agg.gaugeFor fl point.name point.tags).2.metricTypes = agg.metricTypes := by
      unfold MetricsAggregator.gaugeFor
      split <;> rfl
    simp only [Gauge.set, hx]
    exact ⟨_, rfl, hgauge⟩
  | histogram | timer =>
    obtain ⟨x, hx⟩ := toFloat_of_isOk (hvalue (by simp [htype]) (by simp [htype]))
    have hhistogram :
        (agg.histogramFor fl point.name point.tags).2.metricTypes = agg.metricTypes := by
      unfold MetricsAggregator.histogramFor
      split <;> rfl
    simp only [Histogram.observe, hx]
    exact ⟨_, rfl, hhistogram⟩
  | event | trace => exact ⟨agg, rfl, rfl⟩

/-- Accepted points are folded without an exception. -/
theorem ingest_accepted {points : List (MetricPoint F)} (h : Typed types agg)
    (hpoints : ∀ point ∈ points, Accepted fl types point) :
    ∃ agg', agg.ingest fl points = (agg', .ok ()) ∧ Typed types agg' := by
  induction points generalizing agg with
  | nil => exact ⟨agg, rfl, h⟩
  | cons point points ih =>
    obtain ⟨registered, hregister, htyped⟩ :=
      registerType_accepted h (hpoints point List.mem_cons_self)
    obtain ⟨applied, happly, htypes⟩ :=
      applyPoint_accepted registered (hpoints point List.mem_cons_self)
    have htyped' : Typed types applied := by
      intro name metricType hname
      rw [htypes] at hname
      exact htyped name metricType hname
    obtain ⟨agg', hrest, hfinal⟩ :=
      ih htyped' fun other hother ↦ hpoints other (List.mem_cons_of_mem point hother)
    refine ⟨agg', ?_, hfinal⟩
    rw [MetricsAggregator.ingest, MetricsAggregator.ingestOne, hregister]
    dsimp only
    rw [happly]
    exact hrest

end Accepted

/-! ## The profiler of a request -/

/-- Points and stages whose names have the right types, with values that are taken. -/
def Work.Conforms (fl : Floats F) (types : MetricName → MetricType) : Work F → Prop
  | .enter _ name _ _ => types name = .timer
  | .exit _ _ => True
  | .counter name amount _ _ => types name = .counter ∧ amount.isNegative fl = false ∧
      (amount.toFloat fl).isOk = true
  | .gauge name value _ _ => types name = .gauge ∧ (value.toFloat fl).isOk = true
  | .event name _ _ => types name = .event

instance (fl : Floats F) (types : MetricName → MetricType) :
    DecidablePred (Work.Conforms fl types)
  | .enter _ name _ _ => inferInstanceAs (Decidable (types name = .timer))
  | .exit _ _ => inferInstanceAs (Decidable True)
  | .counter name amount _ _ => inferInstanceAs (Decidable
      (types name = .counter ∧ amount.isNegative fl = false ∧ (amount.toFloat fl).isOk = true))
  | .gauge name value _ _ => inferInstanceAs (Decidable
      (types name = .gauge ∧ (value.toFloat fl).isOk = true))
  | .event name _ _ => inferInstanceAs (Decidable (types name = .event))

/-- Durations up to the horizon are floats. -/
def Converts (fl : Floats F) (horizon : Int) : Prop :=
  ∀ n, 0 ≤ n → n ≤ horizon → fl.ofInt n ≠ none

/-- A profiler that is not completed, so many of its stages open, and what it has emitted is
accepted. -/
structure Live (fl : Floats F) (types : MetricName → MetricType) (start now : Int) (depth : Nat)
    (profiler : RequestProfiler F) : Prop where
  completed : profiler.completed = false
  path : ∃ path, OpenPath profiler.trace.nodes now profiler.trace.current path ∧
    path.length = depth
  started : ∀ (i : Nat) node, profiler.trace.nodes[i]? = some node → start ≤ node.startedNs
  names : ∀ (i : Nat) node, profiler.trace.nodes[i]? = some node → 0 < i →
    types node.name = .timer
  points : ∀ point ∈ profiler.metricPoints, Accepted fl types point

/-- The id and the tags of the request stay. -/
def SameRequest (profiler profiler' : RequestProfiler F) : Prop :=
  profiler'.requestId = profiler.requestId ∧ profiler'.tags = profiler.tags

/-- Entering a stage leaves the id and the tags. -/
theorem startStage_same {profiler profiler' : RequestProfiler F} {stage : PerformanceStage}
    {name : MetricName} {tags : Tags} {now : Int} {node : Nat}
    (h : profiler.startStage stage name tags now = .ok (profiler', node)) :
    SameRequest profiler profiler' := by
  unfold RequestProfiler.startStage at h
  split at h
  · cases h
  · split at h
    · cases h
    · split at h
      · cases h
      · cases h
        exact ⟨rfl, rfl⟩

/-- Leaving a stage leaves the id and the tags. -/
theorem finishStage_same {profiler profiler' : RequestProfiler F} {finishedNs timestampNs : Int}
    (h : profiler.finishStage finishedNs timestampNs = .ok profiler') :
    SameRequest profiler profiler' := by
  unfold RequestProfiler.finishStage at h
  split at h
  · cases h
  · split at h
    · cases h
      exact ⟨rfl, rfl⟩
    · cases h
      exact ⟨rfl, rfl⟩

namespace Live

variable {fl : Floats F} {types : MetricName → MetricType} {start now now' horizon : Int}
  {depth : Nat} {profiler profiler' : RequestProfiler F}

/-- Time may pass. -/
theorem later (h : Live fl types start now depth profiler) (hnow : now ≤ now') :
    Live fl types start now' depth profiler := by
  obtain ⟨path, hpath, hlength⟩ := h.path
  exact { h with path := ⟨path, hpath.later hnow, hlength⟩ }

/-- A point may be emitted. -/
theorem emit (h : Live fl types start now depth profiler) {point : MetricPoint F}
    (hpoint : Accepted fl types point) :
    Live fl types start now depth
      { profiler with metricPoints := profiler.metricPoints ++ [point] } := by
  refine { h with points := ?_ }
  intro other hother
  rcases List.mem_append.mp hother with hother | hother
  · exact h.points other hother
  · obtain rfl := List.mem_singleton.mp hother
    exact hpoint

/-- A stage may be entered. -/
theorem enter (h : Live fl types start now (depth + 1) profiler) (stage : PerformanceStage)
    {name : MetricName} (tags : Tags) (hname : types name = .timer) (hnow : now ≤ now')
    (hstart : start ≤ now') :
    ∃ profiler' node, profiler.startStage stage name tags now' = .ok (profiler', node) ∧
      Live fl types start now' (depth + 2) profiler' ∧ SameRequest profiler profiler' := by
  obtain ⟨path, hpath, hlength⟩ := h.path
  cases path with
  | nil => cases hlength
  | cons i rest =>
    obtain ⟨after, hafter, hcompleted, hnodes, hcurrent, hpoints⟩ :=
      RequestProfiler.startStage_of_current stage name tags now' h.completed hpath.1
    have hlater := hpath.later hnow
    have hget {j : Nat} {node : TraceNode} (hj : after.trace.nodes[j]? = some node) :
        profiler.trace.nodes[j]? = some node ∨
          j = profiler.trace.nodes.length ∧ node = .started name stage now' tags (some i) := by
      rw [hnodes] at hj
      rcases Nat.lt_trichotomy j profiler.trace.nodes.length with hlt | rfl | hlt
      · rw [List.getElem?_append_left hlt] at hj
        exact .inl hj
      · rw [List.getElem?_concat_length] at hj
        exact .inr ⟨rfl, (Option.some.inj hj).symm⟩
      · rw [List.getElem?_append_right (by omega), List.getElem?_eq_none
          (by rw [List.length_singleton]; omega)] at hj
        cases hj
    refine ⟨after, _, hafter, ⟨hcompleted, ?_, ?_, ?_, ?_⟩, startStage_same hafter⟩
    · refine ⟨profiler.trace.nodes.length :: i :: rest, ⟨hcurrent,
        .started name stage now' tags (some i), ?_, rfl, le_refl _, ?_⟩,
        congrArg (· + 1) hlength⟩
      · rw [hnodes]
        exact List.getElem?_concat_length ..
      · rw [hpath.1] at hlater
        rw [hnodes]
        exact hlater.append _
    · intro j node hj
      rcases hget hj with hj | ⟨-, rfl⟩
      · exact h.started j node hj
      · exact hstart
    · intro j node hj hpos
      rcases hget hj with hj | ⟨-, rfl⟩
      · exact h.names j node hj hpos
      · exact hname
    · rw [hpoints]
      exact h.points

/-- The active stage may be left; it is not the root. -/
theorem exit (h : Live fl types start now (depth + 2) profiler) (hofInt : Converts fl horizon)
    {finishedNs : Int} (timestampNs : Int) (hfinished : now ≤ finishedNs)
    (hhorizon : finishedNs ≤ start + horizon) :
    ∃ profiler', profiler.finishStage finishedNs timestampNs = .ok profiler' ∧
      Live fl types start finishedNs (depth + 1) profiler' ∧ SameRequest profiler profiler' := by
  obtain ⟨path, hpath, hlength⟩ := h.path
  cases path with
  | nil => cases hlength
  | cons i rest =>
    obtain ⟨hcurrent, node, hnode, hopen, hstarted, hrest⟩ := hpath
    obtain ⟨after, hafter, hcompleted, hnodes, hcurrent', hpoints⟩ :=
      RequestProfiler.finishStage_of_open timestampNs hcurrent hnode hopen
        (hstarted.trans hfinished)
    have hbeside : i ∉ rest := fun hmem ↦ Nat.lt_irrefl i (OpenPath.lt_of_mem hnode hrest i hmem)
    have hpos : 0 < i := by
      cases rest with
      | nil => cases hlength
      | cons p rest =>
        have := OpenPath.lt_of_mem hnode hrest p List.mem_cons_self
        omega
    have hget {j : Nat} {found : TraceNode} (hj : after.trace.nodes[j]? = some found) :
        ∃ old, profiler.trace.nodes[j]? = some old ∧ found.startedNs = old.startedNs ∧
          found.name = old.name := by
      rw [hnodes, List.getElem?_modify] at hj
      obtain ⟨old, hold, rfl⟩ := Option.map_eq_some_iff.mp hj
      refine ⟨old, hold, ?_⟩
      split
      · unfold TraceNode.closed
        split <;> exact ⟨rfl, rfl⟩
      · exact ⟨rfl, rfl⟩
    have hpoint : Accepted fl types
        (RequestProfiler.timerPoint node (finishedNs - node.startedNs) timestampNs) := by
      refine ⟨(h.names i node hnode hpos).symm, nofun, fun _ _ ↦ ?_⟩
      have hle := h.started i node hnode
      have hsome := hofInt (finishedNs - node.startedNs) (by omega) (by omega)
      obtain ⟨x, hx⟩ := Option.ne_none_iff_exists'.mp hsome
      show (MetricValue.toFloat fl (.int (finishedNs - node.startedNs))).isOk = true
      rw [MetricValue.toFloat, hx]
      rfl
    refine ⟨after, hafter, ⟨hcompleted.trans h.completed, ⟨rest, ?_, ?_⟩, ?_, ?_, ?_⟩,
      finishStage_same hafter⟩
    · rw [hcurrent', hnodes]
      exact (hrest.later hfinished).modify hbeside _
    · exact Nat.succ.inj hlength
    · intro j found hj
      obtain ⟨old, hold, hstart, -⟩ := hget hj
      rw [hstart]
      exact h.started j old hold
    · intro j found hj hj0
      obtain ⟨old, hold, -, hname⟩ := hget hj
      rw [hname]
      exact h.names j old hold hj0
    · rw [hpoints]
      exact (h.emit hpoint).points

end Live

/-- The profiler of a request that arrives. -/
theorem openProfiler_live (fl : Floats F) {types : MetricName → MetricType} {start now : Int}
    (a : Arrival) (hdispatch : types "dispatch".toList = .timer) (hnow : start ≤ now) :
    ∃ profiler : RequestProfiler F, openProfiler a now = .ok profiler ∧
      Live fl types start (now + a.created + a.rooted + a.dispatched) 2 profiler ∧
      profiler.requestId = a.requestId ∧ profiler.tags = methodTags a.method := by
  cases hcreate : (RequestProfiler.create a.requestId (methodTags a.method) (now + a.created)
      (now + a.created + a.rooted) : Except Error (RequestProfiler F)) with
  | error e => cases hcreate
  | ok profiler =>
    obtain ⟨hcompleted, hpath⟩ := create_current hcreate
    have hlive : Live fl types start (now + a.created + a.rooted) 1 profiler := by
      refine ⟨hcompleted, ⟨[0], hpath, rfl⟩, ?_, ?_, ?_⟩
      · intro i node hnode
        cases hcreate
        obtain ⟨rfl, rfl⟩ : i = 0 ∧ TraceNode.started "request".toList .request
            (now + a.created + a.rooted) .empty none = node := by
          cases i with
          | zero => exact ⟨rfl, Option.some.inj hnode⟩
          | succ i => cases hnode
        show start ≤ now + a.created + a.rooted
        omega
      · intro i node hnode hpos
        cases hcreate
        cases i with
        | zero => cases hpos
        | succ i => cases hnode
      · cases hcreate
        nofun
    obtain ⟨profiler', node, hstart, hlive', hid, htags⟩ := hlive.enter .response .empty hdispatch
      (Int.le_add_of_nonneg_right (Int.natCast_nonneg a.dispatched)) (by omega)
    have hopen : openProfiler a now = .ok profiler' := by
      rw [openProfiler, hcreate]
      dsimp only
      rw [hstart]
    cases hcreate
    exact ⟨profiler', hopen, hlive', hid, htags⟩

namespace Live

variable {fl : Floats F} {types : MetricName → MetricType} {start now now' horizon : Int}
  {depth scopes scopes' : Nat} {profiler profiler' : RequestProfiler F}

/-- Work on a profiler keeps it so; each stage that is entered makes it deeper. -/
theorem run (h : Live fl types start now (scopes + 2) profiler) (hofInt : Converts fl horizon)
    (hnow : start ≤ now) {w : Work F} (hw : w.Conforms fl types)
    (hhorizon : now + w.elapsed ≤ start + horizon)
    (hrun : w.run now profiler scopes = some (profiler', scopes')) :
    Live fl types start (now + w.elapsed) (scopes' + 2) profiler' := by
  cases w with
  | enter stage name tags elapsed =>
    obtain ⟨after, node, hafter, hlive, -⟩ :=
      h.enter stage tags hw (Int.le_add_of_nonneg_right (Int.natCast_nonneg elapsed)) (by omega)
    rw [Work.run, hafter] at hrun
    cases hrun
    exact hlive
  | exit elapsed elapsed' =>
    cases scopes with
    | zero => cases hrun
    | succ scopes =>
      have hend : now + elapsed ≤ start + horizon := by
        have : now + ((elapsed + elapsed' : Nat) : Int) ≤ start + horizon := hhorizon
        omega
      obtain ⟨left, hleft, hlive, -⟩ :=
        h.exit hofInt (now + elapsed + elapsed') (Int.le_add_of_nonneg_right (by omega)) hend
      rw [Work.run, hleft] at hrun
      cases hrun
      apply hlive.later
      show now + elapsed ≤ now + ((elapsed + elapsed' : Nat) : Int)
      omega
  | counter name amount tags elapsed =>
    obtain ⟨htype, hamount, hvalue⟩ := hw
    rw [Work.run, RequestProfiler.counter, RequestProfiler.emit,
      if_neg (by simp [h.completed])] at hrun
    cases hrun
    have hlater := h.later (Int.le_add_of_nonneg_right (Int.natCast_nonneg elapsed))
    exact hlater.emit ⟨htype.symm, fun _ ↦ hamount, fun _ _ ↦ hvalue⟩
  | gauge name value tags elapsed =>
    obtain ⟨htype, hvalue⟩ := hw
    rw [Work.run, RequestProfiler.gauge, RequestProfiler.emit,
      if_neg (by simp [h.completed])] at hrun
    cases hrun
    have hlater := h.later (Int.le_add_of_nonneg_right (Int.natCast_nonneg elapsed))
    exact hlater.emit ⟨htype.symm, nofun, fun _ _ ↦ hvalue⟩
  | event name tags elapsed =>
    have htype : types name = .event := hw
    rw [Work.run, RequestProfiler.event] at hrun
    cases hrun
    have hlater := h.later (Int.le_add_of_nonneg_right (Int.natCast_nonneg elapsed))
    exact hlater.emit ⟨htype.symm, nofun, fun hne ↦ absurd rfl hne⟩

end Live

/-- A profiler's operations leave the id and the tags of its request. -/
theorem run_same {w : Work F} {now : Int} {profiler profiler' : RequestProfiler F}
    {scopes scopes' : Nat} (h : w.run now profiler scopes = some (profiler', scopes')) :
    SameRequest profiler profiler' := by
  have hemit {name : MetricName} {metricType : MetricType} {value : MetricValue F}
      {unit : MetricUnit} {tags : Tags} {timestampNs : Int} :
      SameRequest profiler
        (after profiler (profiler.emit name metricType value unit tags timestampNs)) := by
    unfold RequestProfiler.emit
    split <;> exact ⟨rfl, rfl⟩
  cases w with
  | enter stage name tags elapsed =>
    rw [Work.run] at h
    split at h
    · next after node hafter =>
      cases h
      exact startStage_same hafter
    · cases h
      exact ⟨rfl, rfl⟩
  | exit elapsed elapsed' =>
    cases scopes with
    | zero => cases h
    | succ scopes =>
      cases h
      cases hfinish : profiler.finishStage (now + elapsed) (now + elapsed + elapsed') with
      | ok left => exact finishStage_same hfinish
      | error e => exact ⟨rfl, rfl⟩
  | counter name amount tags elapsed =>
    cases h
    exact hemit
  | gauge name value tags elapsed =>
    cases h
    exact hemit
  | event name tags elapsed =>
    cases h
    exact ⟨rfl, rfl⟩

/-! ## The end of a request -/

/-- The open nodes finish at any instants that are not past. -/
theorem finishLoop_of_openPath {trace : Trace} {t : Int} {path : List Nat} {now : Nat → Int}
    (fuel : Nat) (hpath : OpenPath trace.nodes t trace.current path) (hnow : ∀ i, t ≤ now i) :
    ∃ trace', Trace.finishLoop now fuel trace = (trace', .ok ()) := by
  induction fuel generalizing trace path with
  | zero => exact ⟨trace, rfl⟩
  | succ fuel ih =>
    cases path with
    | nil =>
      have hcurrent : trace.current = none := hpath
      exact ⟨trace, by rw [Trace.finishLoop, hcurrent]⟩
    | cons i rest =>
      obtain ⟨hcurrent, node, hnode, hopen, hstarted, hrest⟩ := hpath
      have hfinish := Trace.finish_of_open hcurrent hnode hopen (hstarted.trans (hnow i))
      have hbeside : i ∉ rest :=
        fun hmem ↦ Nat.lt_irrefl i (OpenPath.lt_of_mem hnode hrest i hmem)
      have hparent : (trace.closing i (trace.current_lt i hcurrent) (now i)).current =
          node.parent := congrArg TraceNode.parent (List.getElem?_eq_some_iff.mp hnode).2
      have hclosed : OpenPath (trace.closing i (trace.current_lt i hcurrent) (now i)).nodes t
          (trace.closing i (trace.current_lt i hcurrent) (now i)).current rest := by
        rw [hparent]
        exact hrest.modify hbeside _
      obtain ⟨trace', htrace'⟩ := ih hclosed
      exact ⟨trace', by rw [Trace.finishLoop, hcurrent]; dsimp only; rw [hfinish]; exact htrace'⟩

/-- What a profile says of its request. -/
structure Summary where
  requestId : Text
  tags : Tags
  status : Text
  error : Option Text

/-- What a profile says. -/
def summaryOf (profile : RequestProfile F) : Summary :=
  ⟨profile.requestId, profile.tags, profile.status, profile.error⟩

/-- What is to be said of a request with a profiler when it is over. -/
def Request.summary (code : R → Int) (request : Request F R) : Option Summary :=
  match request.profiler, request.ended with
  | some profiler, some ended => some
    ⟨profiler.requestId, ended.ending.tag code (methodTags request.method) ended.route,
      ended.ending.status, ended.ending.error⟩
  | _, _ => none

/-- The end of a request whose profile the registry can retain: the ending goes out as it is. -/
theorem leave_live {fl : Floats F} {types : MetricName → MetricType} {start now horizon : Int}
    {depth : Nat} {profiler : RequestProfiler F} (config : PerformanceConfig) (code : R → Int)
    (str : Error → Text) {registry : PerformanceRegistry F} (sampler : AdaptiveSampler)
    {request : Request F R} (ending : Ending R) (d : Departure)
    (h : Live fl types start now (depth + 2) profiler) (hofInt : Converts fl horizon)
    (hhorizon : now + d.finished ≤ start + horizon)
    (htags : profiler.tags = methodTags request.method)
    (htyped : Typed types registry.aggregator)
    (hretain : ∀ aggregator profile, profile.requestId = profiler.requestId →
      ({ registry with aggregator }.retain profile).2 = .ok ()) :
    ∃ profile aggregator, Typed types aggregator ∧
      summaryOf profile = ⟨profiler.requestId,
        ending.tag code (methodTags request.method) d.route, ending.status, ending.error⟩ ∧
      ∃ left, leave fl config code str registry sampler request profiler ending d now =
        ⟨({ registry with aggregator }.retain profile).1,
          recordOutcome config code sampler ending (d.endedAt - request.startedAt) d.escalatedAt,
          left, some profile, .inner ending⟩ ∧ left.requestId = profiler.requestId := by
  obtain ⟨profiler₁, hfinish, hlive, hid, htags₁⟩ := h.exit hofInt (now + d.finished + d.stamped)
    (Int.le_add_of_nonneg_right (Int.natCast_nonneg _)) hhorizon
  obtain ⟨path, hpath, -⟩ := hlive.path
  have hnodes (i : Nat) :
      now + d.finished ≤ now + d.finished + d.stamped + min (d.nodes i) d.completed := by omega
  obtain ⟨trace, hall⟩ := finishLoop_of_openPath profiler₁.trace.nodes.length hpath hnodes
  obtain ⟨aggregator, hingest, htyped'⟩ := ingest_accepted htyped hlive.points
  have htag : ending.tag code profiler₁.tags d.route =
      ending.tag code (methodTags request.method) d.route := by
    rw [htags₁, htags]
  refine ⟨⟨profiler₁.requestId, profiler₁.metricPoints, ending.tag code profiler₁.tags d.route,
    profiler₁.startedNs, now + d.finished + d.stamped + d.completed,
    now + d.finished + d.stamped + d.completed - profiler₁.startedNs, ending.status,
    ending.error⟩, aggregator, htyped', ?_, ?_⟩
  · rw [summaryOf, hid, htag]
  · refine ⟨{ profiler₁ with
      tags := ending.tag code profiler₁.tags d.route, trace, completed := true }, ?_, hid⟩
    have hretained := hretain aggregator ⟨profiler₁.requestId, profiler₁.metricPoints,
      ending.tag code profiler₁.tags d.route, profiler₁.startedNs,
      now + d.finished + d.stamped + d.completed,
      now + d.finished + d.stamped + d.completed - profiler₁.startedNs, ending.status,
      ending.error⟩ hid
    simp only [leave, leaveDispatch, hfinish, RequestProfiler.complete, hlive.completed,
      Trace.finishAll, hall, Bool.false_eq_true, if_false, Option.isSome_none]
    rw [PerformanceRegistry.record_of_ingest hingest]
    generalize PerformanceRegistry.retain _ _ = retained at hretained ⊢
    obtain ⟨registry', result⟩ := retained
    cases hretained
    rfl

end SalesData.Performance.Middleware

import SalesData.Base.Deque
import SalesData.Performance.Aggregator
import SalesData.Performance.RequestProfiler

/-!
# The performance registry

`PerformanceRegistry` (`core/performance/registry.py`): a completed request is folded into the
aggregator and kept in a bounded history with an index by request id. Collectors are left out.
-/

namespace SalesData.Performance

open Base

/-- `self.max_request_history or None`. -/
def maxlen (maxRequestHistory : Nat) : Option Nat :=
  if maxRequestHistory = 0 then none else some maxRequestHistory

/-- `PerformanceRegistry`. -/
structure PerformanceRegistry (F : Type) where
  maxRequestHistory : Nat
  aggregator : MetricsAggregator F
  history : Deque (RequestProfile F) (maxlen maxRequestHistory)
  historyById : Dict Text (RequestProfile F)
  totalRequestsRecorded : Nat

namespace PerformanceRegistry

variable {F : Type} (fl : Floats F)

/-- The constructor (`registry.py:71–73`). -/
def create (maxRequestHistory : Nat) : PerformanceRegistry F :=
  ⟨maxRequestHistory, .empty, .empty, .empty, 0⟩

/-- The id of the profile that the next append drops (`registry.py:91–96`). -/
def evictedId (registry : PerformanceRegistry F) : Option Text :=
  if registry.maxRequestHistory ≠ 0 ∧
      registry.maxRequestHistory ≤ registry.history.items.length then
    registry.history.items.head?.map (·.requestId)
  else none

/-- Everything before the index loses an id (`registry.py:90,97–98`). -/
def append (registry : PerformanceRegistry F) (profile : RequestProfile F) :
    PerformanceRegistry F :=
  { registry with
    totalRequestsRecorded := registry.totalRequestsRecorded + 1
    history := registry.history.append profile
    historyById := registry.historyById.set profile.requestId profile }

/-- `del self._history_by_id[evicted_id]`. -/
def forget (registry : PerformanceRegistry F) (id : Text) :
    PerformanceRegistry F × Except Error Unit :=
  if id ∈ registry.historyById.keys then
    ({ registry with historyById := registry.historyById.pop id }, .ok ())
  else (registry, .error (.keyError id))

/-- The history's part of `record_completed_request` (`registry.py:90–100`). -/
def retain (registry : PerformanceRegistry F) (profile : RequestProfile F) :
    PerformanceRegistry F × Except Error Unit :=
  match registry.evictedId with
  | none => (registry.append profile, .ok ())
  | some id =>
    if id ≠ profile.requestId then (registry.append profile).forget id
    else (registry.append profile, .ok ())

/-- `record_completed_request` (`registry.py:75–102`). -/
def recordCompletedRequest (registry : PerformanceRegistry F) (profile : RequestProfile F) :
    PerformanceRegistry F × Except Error Unit :=
  match registry.aggregator.ingest fl profile.metricPoints with
  | (aggregator, .error e) => ({ registry with aggregator }, .error e)
  | (aggregator, .ok ()) => { registry with aggregator }.retain profile

/-- `get_request` (`registry.py:147–149`). -/
def getRequest (registry : PerformanceRegistry F) (requestId : Text) :
    Option (RequestProfile F) :=
  registry.historyById.get? requestId

/-- `reset` (`registry.py:163–168`). -/
def reset (registry : PerformanceRegistry F) : PerformanceRegistry F :=
  { registry with
    history := .empty
    historyById := .empty
    totalRequestsRecorded := 0
    aggregator := .empty }

variable {fl} {registry : PerformanceRegistry F} {profile : RequestProfile F}

/-- A profile whose points fold is recorded by its retention. -/
theorem record_of_ingest {aggregator : MetricsAggregator F}
    (h : registry.aggregator.ingest fl profile.metricPoints = (aggregator, .ok ())) :
    registry.recordCompletedRequest fl profile = { registry with aggregator }.retain profile := by
  rw [recordCompletedRequest, h]

/-- A profile whose points raise changes the aggregator at most. -/
theorem record_of_ingest_error {aggregator : MetricsAggregator F} {e : Error}
    (h : registry.aggregator.ingest fl profile.metricPoints = (aggregator, .error e)) :
    registry.recordCompletedRequest fl profile = ({ registry with aggregator }, .error e) := by
  rw [recordCompletedRequest, h]

/-- Retention changes neither the aggregates nor the bound. -/
theorem retain_keeps (registry : PerformanceRegistry F) (profile : RequestProfile F) :
    (registry.retain profile).1.aggregator = registry.aggregator ∧
      (registry.retain profile).1.maxRequestHistory = registry.maxRequestHistory := by
  unfold retain forget
  split
  · exact ⟨rfl, rfl⟩
  · split
    · split <;> exact ⟨rfl, rfl⟩
    · exact ⟨rfl, rfl⟩

/-- Recording changes the aggregator as folding does. -/
theorem aggregator_record (registry : PerformanceRegistry F) (profile : RequestProfile F) :
    (registry.recordCompletedRequest fl profile).1.aggregator =
      (registry.aggregator.ingest fl profile.metricPoints).1 := by
  cases hingest : registry.aggregator.ingest fl profile.metricPoints with
  | mk aggregator result =>
    cases result with
    | ok _ => rw [record_of_ingest hingest, (retain_keeps _ profile).1]
    | error e => rw [record_of_ingest_error hingest]

end PerformanceRegistry
end SalesData.Performance

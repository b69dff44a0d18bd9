import SalesData.Base.Json
import SalesData.Base.Tally
import SalesData.Performance.AdaptiveSampler
import SalesData.Performance.History
import SalesData.Performance.StageScopes

/-!
# The profiling middleware

`profile_request` (`core/performance/middleware/fastapi.py:83–152`) over any number of requests at
once. A request is suspended in `call_next` only, where handlers and executor threads work on its
profiler in any order, and also when it is over. What stands before `call_next` is one step here and
so is what stands behind it: on the event loop nothing comes in between, and an executor thread that
works on the profiler just then is left out. So are metadata and the collectors of the registry.
-/

namespace SalesData.Performance

open Base

/-- What the middleware reads of `PerformanceConfig` (`config.py:28–53`). -/
structure PerformanceConfig where
  enabled : Bool
  sampleRatePercent : Int
  adaptiveSampling : Bool
  sampler : AdaptiveSamplerConfig

/-- `PerformanceConfig.should_sample` (`config.py:64–77`), with the number that it draws. -/
def PerformanceConfig.shouldSample (config : PerformanceConfig) (draw : Int) : Bool :=
  if !config.enabled then false
  else if 100 ≤ config.sampleRatePercent then true
  else if config.sampleRatePercent ≤ 0 then false
  else decide (draw ≤ config.sampleRatePercent)

namespace Middleware

variable {F R : Type}

/-! ## One request -/

/-- How `call_next` ends: also with a cancellation, or with a `BaseException` that is none. -/
inductive Ending (R : Type)
  | response (r : R)
  | exception (text : Text)
  | cancelled
  | exit

namespace Ending

/-- The response that there is at the end. -/
def response? : Ending R → Option R
  | .response r => some r
  | .exception _ | .cancelled | .exit => none

/-- `status` (`fastapi.py:119,129,133`): another `BaseException` changes it as little as a
response does. -/
def status : Ending R → Text
  | .response _ | .exit => "ok".toList
  | .exception _ | .cancelled => "error".toList

/-- `error` (`fastapi.py:120,130,134`). -/
def error : Ending R → Option Text
  | .response _ | .exit => none
  | .exception text => some text
  | .cancelled => some "cancelled".toList

/-- The status code that the sampler is told (`fastapi.py:103–106,147–149`). -/
def statusCode (code : R → Int) (ending : Ending R) : Int :=
  match ending.response? with
  | some r => code r
  | none => 500

/-- The tags of a request at its end (`fastapi.py:140–142`). -/
def tag (code : R → Int) (tags : Tags) (route : Text) (ending : Ending R) : Tags :=
  match ending.response? with
  | some r => (tags.set "route".toList route).set "status_code".toList (Json.dumpsInt (code r))
  | none => tags.set "route".toList route

end Ending

/-- What leaves the middleware: the ending of `call_next`, or an exception in its place. -/
inductive Answer (R : Type)
  | inner (ending : Ending R)
  | raised (e : Error)

/-- The end of a request. -/
structure Ended (R : Type) where
  ending : Ending R
  route : Text
  durationSeconds : ℚ
  answer : Answer R

/-- A request, with the profiler of a sampled one and the stages that are entered in it. -/
structure Request (F R : Type) where
  method : Text
  startedAt : ℚ
  profiler : Option (RequestProfiler F)
  scopes : Nat
  ended : Option (Ended R)

/-- A request that is over. -/
def Request.over (request : Request F R) (profiler : Option (RequestProfiler F))
    (ended : Ended R) : Request F R :=
  { request with profiler, ended := some ended }

/-- A request as it arrives: its id from `uuid4`, the sampler's readings and draws, and the time
until each reading of the profiler's clock. -/
structure Arrival where
  method : Text
  requestId : Text
  elapsedAt : ℚ
  resetAt : ℚ
  askedAt : ℚ
  draw : ℚ
  percent : Int
  startedAt : ℚ
  created : Nat
  rooted : Nat
  dispatched : Nat

/-- The end of a request: its route and the time until each reading of the profiler's clock. The
nodes that are still open finish at any instants of `completed`. -/
structure Departure where
  route : Text
  finished : Nat
  stamped : Nat
  nodes : Nat → Nat
  completed : Nat
  endedAt : ℚ
  escalatedAt : ℚ

/-- `was_sampled` (`fastapi.py:93–97`). -/
def wasSampled (config : PerformanceConfig) (sampler : AdaptiveSampler) (a : Arrival) :
    AdaptiveSampler × Bool :=
  if config.adaptiveSampling then
    AdaptiveSampler.shouldSample config.sampler sampler a.elapsedAt a.resetAt a.askedAt a.draw
  else (sampler, config.shouldSample a.percent)

/-- The sampler is told of an ending (`fastapi.py:109–114,145–152`). -/
def recordOutcome (config : PerformanceConfig) (code : R → Int) (sampler : AdaptiveSampler)
    (ending : Ending R) (durationSeconds escalatedAt : ℚ) : AdaptiveSampler :=
  if config.adaptiveSampling then
    AdaptiveSampler.recordOutcome config.sampler sampler (ending.statusCode code) durationSeconds
      escalatedAt
  else sampler

/-- The tags of a request that begins (`fastapi.py:116`). -/
def methodTags (method : Text) : Tags := Dict.empty.set "method".toList method

/-- The profiler of a sampled request in its stage `dispatch` (`fastapi.py:116–127`). -/
def openProfiler (a : Arrival) (now : Int) : Except Error (RequestProfiler F) :=
  match RequestProfiler.create a.requestId (methodTags a.method)
      (now + a.created) (now + a.created + a.rooted) with
  | .error e => .error e
  | .ok profiler =>
    match profiler.startStage .response "dispatch".toList .empty
        (now + a.created + a.rooted + a.dispatched) with
    | .error e => .error e
    | .ok (profiler, _) => .ok profiler

/-- The end of the stage `dispatch`, with what its `__exit__` raises. -/
def leaveDispatch (profiler : RequestProfiler F) (finishedNs timestampNs : Int) :
    RequestProfiler F × Option Error :=
  match profiler.finishStage finishedNs timestampNs with
  | .ok profiler => (profiler, none)
  | .error e => (profiler, some e)

/-- What the end of a request leaves, with the profile that was recorded. -/
structure Left (F R : Type) where
  registry : PerformanceRegistry F
  sampler : AdaptiveSampler
  profiler : RequestProfiler F
  recorded : Option (RequestProfile F)
  answer : Answer R

/-- The end of a sampled request (`fastapi.py:128–152`): what the `finally` clause raises takes the
place of the ending, and then the sampler is told nothing. `str` is that of an exception. -/
def leave (fl : Floats F) (config : PerformanceConfig) (code : R → Int) (str : Error → Text)
    (registry : PerformanceRegistry F) (sampler : AdaptiveSampler) (request : Request F R)
    (profiler : RequestProfiler F) (ending : Ending R) (d : Departure) (now : Int) : Left F R :=
  let timestampNs := now + d.finished + d.stamped
  let (profiler, raised) := leaveDispatch profiler (now + d.finished) timestampNs
  let status := if raised.isSome then "error".toList else ending.status
  let error := match raised with
    | some e => some (str e)
    | none => ending.error
  let profiler := { profiler with tags := ending.tag code profiler.tags d.route }
  match profiler.complete status error (fun i ↦ timestampNs + min (d.nodes i) d.completed)
      (timestampNs + d.completed) with
  | (profiler, .error e) => ⟨registry, sampler, profiler, none, .raised e⟩
  | (profiler, .ok profile) =>
    match registry.recordCompletedRequest fl profile with
    | (registry, .error e) => ⟨registry, sampler, profiler, none, .raised e⟩
    | (registry, .ok ()) =>
      { registry
        sampler :=
          recordOutcome config code sampler ending (d.endedAt - request.startedAt) d.escalatedAt
        profiler
        recorded := some profile
        answer := match raised with
          | some e => .raised e
          | none => .inner ending }

/-! ## Requests at once -/

/-- What a handler, an adapter or an executor thread does to a profiler. -/
inductive Work (F : Type)
  | enter (stage : PerformanceStage) (name : MetricName) (tags : Tags) (elapsed : Nat)
  | exit (elapsed elapsed' : Nat)
  | counter (name : MetricName) (amount : MetricValue F) (tags : Tags) (elapsed : Nat)
  | gauge (name : MetricName) (value : MetricValue F) (tags : Tags) (elapsed : Nat)
  | event (name : MetricName) (tags : Tags) (elapsed : Nat)

/-- The time that a call takes. -/
def Work.elapsed : Work F → Nat
  | .enter _ _ _ elapsed | .counter _ _ _ elapsed | .gauge _ _ _ elapsed | .event _ _ elapsed =>
    elapsed
  | .exit elapsed elapsed' => elapsed + elapsed'

/-- The profiler after a call that may raise. -/
def after (profiler : RequestProfiler F) : Except Error (RequestProfiler F) → RequestProfiler F
  | .ok profiler => profiler
  | .error _ => profiler

/-- The profiler and the stages entered in it after a call; what the call raises is raised to its
caller. A stage that was entered is left once. -/
def Work.run (now : Int) (profiler : RequestProfiler F) (scopes : Nat) :
    Work F → Option (RequestProfiler F × Nat)
  | .enter stage name tags elapsed =>
    match profiler.startStage stage name tags (now + elapsed) with
    | .ok (profiler, _) => some (profiler, scopes + 1)
    | .error _ => some (profiler, scopes)
  | .exit elapsed elapsed' =>
    match scopes with
    | 0 => none
    | scopes + 1 =>
      some (after profiler (profiler.finishStage (now + elapsed) (now + elapsed + elapsed')),
        scopes)
  | .counter name amount tags elapsed =>
    some (after profiler (profiler.counter name amount tags (now + elapsed)), scopes)
  | .gauge name value tags elapsed =>
    some (after profiler (profiler.gauge name value tags (now + elapsed)), scopes)
  | .event name tags elapsed => some (profiler.event name tags (now + elapsed), scopes)

/-- The middleware at work, with the profiles that were recorded. -/
structure Serving (F R : Type) where
  registry : PerformanceRegistry F
  sampler : AdaptiveSampler
  now : Int
  requests : List (Request F R)
  recorded : List (RequestProfile F)

/-- What happens to it. Resource collectors ingest points outside of any request
(`collectors/scheduler.py:109–123`). -/
inductive Event (F R : Type)
  | arrive (a : Arrival)
  | work (k : Nat) (w : Work F)
  | finish (k : Nat) (ending : Ending R) (d : Departure)
  | ingest (points : List (MetricPoint F))

/-- One event; a request is the place at which it arrived. -/
def step (fl : Floats F) (config : PerformanceConfig) (code : R → Int) (str : Error → Text)
    (s : Serving F R) : Event F R → Option (Serving F R)
  | .arrive a =>
    let (sampler, sampled) := wasSampled config s.sampler a
    if sampled then
      match openProfiler a s.now with
      | .error _ => none
      | .ok profiler => some
        { s with
          sampler
          now := s.now + a.created + a.rooted + a.dispatched
          requests := s.requests ++ [⟨a.method, a.startedAt, some profiler, 0, none⟩] }
    else some
      { s with
        sampler
        requests := s.requests ++ [⟨a.method, a.startedAt, none, 0, none⟩] }
  | .work k w =>
    match s.requests[k]? with
    | none => none
    | some request =>
      match request.profiler with
      | none => some s
      | some profiler =>
        (w.run s.now profiler request.scopes).map fun (profiler, scopes) ↦
          { s with
            now := s.now + w.elapsed
            requests := s.requests.set k { request with profiler := some profiler, scopes } }
  | .finish k ending d =>
    match s.requests[k]? with
    | none => none
    | some request =>
      if request.ended.isSome then none
      else
        let durationSeconds := d.endedAt - request.startedAt
        match request.profiler with
        | none => some
          { s with
            sampler := recordOutcome config code s.sampler ending durationSeconds d.escalatedAt
            requests := s.requests.set k
              (request.over none ⟨ending, d.route, durationSeconds, .inner ending⟩) }
        | some profiler =>
          let left :=
            leave fl config code str s.registry s.sampler request profiler ending d s.now
          some
            { registry := left.registry
              sampler := left.sampler
              now := s.now + d.finished + d.stamped + d.completed
              requests := s.requests.set k
                (request.over left.profiler ⟨ending, d.route, durationSeconds, left.answer⟩)
              recorded := s.recorded ++ left.recorded.toList }
  | .ingest points => some
    { s with
      registry :=
        { s.registry with aggregator := (s.registry.aggregator.ingest fl points).1 } }

/-- The middleware from its installation on (`fastapi.py:67–86`). -/
def serving (fl : Floats F) (config : PerformanceConfig) (code : R → Int) (str : Error → Text)
    (maxRequestHistory : Nat) (windowStart : ℚ) (start : Int) :
    System (Serving F R) (Event F R) where
  init := ⟨.create maxRequestHistory, .new config.sampler windowStart, start, [], []⟩
  step := step fl config code str

end Middleware
end SalesData.Performance

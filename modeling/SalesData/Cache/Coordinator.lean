import SalesData.Base.Future
import SalesData.Base.System
import SalesData.Cache.QueryCache

/-!
# The query cache coordinator

`core/caching/query_cache_coordinator.py` together with the callers that
`core/services/query_service.py:72–147` makes of it: lookups, which share one flight for each
key, and writes, which invalidate afterwards. No section under the coordinator's lock
suspends, so the lock is never contended, and a stretch between two suspensions is one step.
What the second-level cache and the warehouse answer is up to the environment.
-/

namespace SalesData.Cache

open Base

/-- Rows of a statement that names `tables`, from a lookup or execution that began at step
`since` of the run. The program passes on `data` only. -/
structure Rows (T D : Type) where
  data : D
  since : Nat
  tables : List T
  deriving DecidableEq, Repr

/-- `CacheLookupResult.source` (`query_cache_coordinator.py:59`). -/
inductive Source where
  | l1
  | l2
  | miss
  deriving DecidableEq, Repr

/-- `CacheLookupResult` (`query_cache_coordinator.py:56–63`). -/
structure CacheLookupResult (T D : Type) where
  data : Rows T D
  source : Source
  deriving DecidableEq, Repr

/-- `CacheLookupResult.cached`. -/
def CacheLookupResult.cached {T D : Type} (r : CacheLookupResult T D) : Bool :=
  r.source == .l1 || r.source == .l2

/-- `QueryCacheCoordinator` (`query_cache_coordinator.py:66–97`). The futures of the process
are numbered in order of creation; a set is a list of its elements. -/
structure QueryCacheCoordinator (K T D E : Type) where
  l1 : HybridQueryCache K (Rows T D)
  l1TtlSeconds : Int
  inflight : Dict K Nat
  futures : List (Future (CacheLookupResult T D) E)
  keyTables : Dict K (List T)
  tableKeys : Dict T (List K)

variable {K T D E S : Type}

namespace QueryCacheCoordinator

/-- `QueryCacheCoordinator(l2, l1_max_size, l1_ttl_seconds)`. -/
def new (l1MaxSize : Nat) (l1TtlSeconds : Int) (h : 0 < l1MaxSize) :
    QueryCacheCoordinator K T D E :=
  ⟨.new l1MaxSize l1TtlSeconds h, l1TtlSeconds, .empty, [], .empty, .empty⟩

/-- The keys listed under a table. -/
def keysOf [DecidableEq T] (c : QueryCacheCoordinator K T D E) (table : T) : List K :=
  (c.tableKeys.get? table).getD []

/-- What `await fut` gives, once the future is done. -/
def settled? (c : QueryCacheCoordinator K T D E) (f : Nat) :
    Option (Outcome (CacheLookupResult T D) E) :=
  c.futures[f]?.bind Future.get?

/-- `clear_all` up to its `await` (`query_cache_coordinator.py:201–209`). -/
def clearAll (c : QueryCacheCoordinator K T D E) : QueryCacheCoordinator K T D E :=
  { c with keyTables := .empty, tableKeys := .empty, l1 := c.l1.clear }

variable [DecidableEq K] [DecidableEq T]

/-- The flight of a key, created if there is none (`query_cache_coordinator.py:135–139`). -/
def join (c : QueryCacheCoordinator K T D E) (key : K) :
    Nat × Bool × QueryCacheCoordinator K T D E :=
  match c.inflight.get? key with
  | some f => (f, false, c)
  | none =>
    (c.futures.length, true,
      { c with
        futures := c.futures ++ [.pending]
        inflight := c.inflight.set key c.futures.length })

/-- `_tag_tables` (`query_cache_coordinator.py:187–193`). -/
def tagTables (c : QueryCacheCoordinator K T D E) (key : K) (tables : List T) :
    QueryCacheCoordinator K T D E :=
  if tables = [] then c
  else { c with
    keyTables := c.keyTables.set key tables
    tableKeys := tables.foldl (fun d t ↦ d.set t (((d.get? t).getD []).insert key)) c.tableKeys }

/-- `_resolve` after a fetch: L1 is filled and the key tagged
(`query_cache_coordinator.py:171–172` and `181–182`). -/
def fill (c : QueryCacheCoordinator K T D E) (now : Time) (key : K) (rows : Rows T D) :
    QueryCacheCoordinator K T D E :=
  tagTables { c with l1 := c.l1.put now key rows (some c.l1TtlSeconds) } key rows.tables

/-- The leader settles its future, unless it is done, and removes the flight
(`query_cache_coordinator.py:148–159`). -/
def conclude (c : QueryCacheCoordinator K T D E) (key : K) (f : Nat)
    (o : Outcome (CacheLookupResult T D) E) : QueryCacheCoordinator K T D E :=
  { c with
    futures := c.futures.modify f (Future.settle o)
    inflight := if c.inflight.get? key = some f then c.inflight.pop key else c.inflight }

/-- A task that awaits the bare future is cancelled. -/
def cancelFuture (c : QueryCacheCoordinator K T D E) (f : Nat) : QueryCacheCoordinator K T D E :=
  { c with futures := c.futures.modify f Future.cancel }

/-- `invalidate` (`query_cache_coordinator.py:195–199`). -/
def invalidate (c : QueryCacheCoordinator K T D E) (key : K) : QueryCacheCoordinator K T D E :=
  { c with l1 := c.l1.invalidate key }

/-- `invalidate_tables` up to its first `await`: whether something was dropped
(`query_cache_coordinator.py:231–244`). -/
def invalidateTables (c : QueryCacheCoordinator K T D E) (tables : List T) :
    Bool × QueryCacheCoordinator K T D E :=
  if tables = [] then (false, c)
  else
    let keysToDrop := (tables.flatMap c.keysOf).dedup
    let c := { c with
      tableKeys := tables.foldl Dict.pop c.tableKeys
      keyTables := keysToDrop.foldl Dict.pop c.keyTables }
    if keysToDrop = [] then (false, c)
    else (true, { c with l1 := keysToDrop.foldl HybridQueryCache.invalidate c.l1 })

/-- `QueryService._invalidate_after_write` up to its first `await`
(`query_service.py:140–147`). -/
def invalidateAfterWrite (c : QueryCacheCoordinator K T D E) (tables : List T) (precise : Bool) :
    QueryCacheCoordinator K T D E :=
  if precise then
    match c.invalidateTables tables with
    | (true, c) => c
    | (false, c) => c.clearAll
  else c.clearAll

end QueryCacheCoordinator

/-- A call of the query service: a lookup through the cache, or a write and its
invalidation. A `set` of tables is passed in some order. -/
inductive Call (K T S : Type) where
  | lookup (key : K) (sql : S) (tables : List T)
  | write (sql : S) (tables : List T) (precise : Bool)
  deriving DecidableEq, Repr

/-- The statement of a call. -/
def Call.sql : Call K T S → S
  | .lookup _ sql _ | .write sql _ _ => sql

/-- Where a fetch goes. -/
inductive Fetch where
  | l2
  | warehouse
  deriving DecidableEq, Repr

/-- How the answer to a fetch is labelled. -/
def Fetch.source : Fetch → Source
  | l2 => .l2
  | warehouse => .miss

/-- Where a task is suspended. -/
inductive Phase (T D E : Type) where
  /-- A follower in `await fut`; `query_cache_coordinator.py:144`. -/
  | awaiting
  /-- A fetch is asked for and has not started. -/
  | submitted (src : Fetch)
  /-- The fetch started at step `since`. -/
  | running (src : Fetch) (since : Nat)
  /-- The fetch ended at step `finished`; the second level may have had no row. -/
  | answered (src : Fetch) (since finished : Nat) (answer : Option D)
  /-- A write whose execution ended at step `finished` has invalidated the first level and
  awaits the invalidation of the second one. -/
  | flushing (data : D) (finished : Nat)
  /-- A write has returned. -/
  | written (data : D) (finished : Nat)
  /-- A lookup has returned, or a call has raised. -/
  | ended (o : Outcome (CacheLookupResult T D) E)
  deriving DecidableEq, Repr

namespace Phase

/-- In a fetch: from its submission to the task's next turn after its end. -/
def fetching : Phase T D E → Bool
  | submitted _ | running .. | answered .. => true
  | _ => false

/-- The call has neither returned nor raised. -/
def open? : Phase T D E → Bool
  | written .. | ended _ => false
  | _ => true

/-- In `run_query`, from its call to its return. -/
def querying : Phase T D E → Bool
  | submitted .warehouse | running .warehouse _ | answered .warehouse .. => true
  | _ => false

/-- A task in a fetch is open. -/
theorem open?_of_fetching {phase : Phase T D E} (h : phase.fetching = true) :
    phase.open? = true := by
  cases phase <;> first | rfl | cases h

/-- A task in `run_query` is in a fetch. -/
theorem fetching_of_querying {phase : Phase T D E} (h : phase.querying = true) :
    phase.fetching = true := by
  cases phase <;> first | rfl | cases h

end Phase

/-- A task with the local variables `fut` and `is_leader` of `get_or_execute`; `cancelled`
when a cancellation has been requested. -/
structure Task (K T D E S : Type) where
  call : Call K T S
  fut : Option Nat
  isLeader : Bool
  cancelled : Bool
  phase : Phase T D E
  deriving DecidableEq, Repr

/-- The coordinator and all calls ever made; `clock` counts the steps. -/
structure State (K T D E S : Type) where
  cache : QueryCacheCoordinator K T D E
  tasks : List (Task K T D E S)
  clock : Nat
  now : Time

/-- Scheduler actions. -/
inductive Act (K T D E S : Type) where
  | call (call : Call K T S)
  | begin (t : Nat)
  | finish (t : Nat) (answer : Option D)
  | resume (t : Nat)
  | raise (t : Nat) (e : E)
  | cancel (t : Nat)
  /-- The requested cancellation is raised in the task. -/
  | interrupt (t : Nat)
  | invalidate (key : K)
  /-- The reading of the clock changes. -/
  | tick (now : Time)
  deriving DecidableEq, Repr

variable [DecidableEq K] [DecidableEq T]

/-- The first stretch of a call. -/
def QueryCacheCoordinator.start (c : QueryCacheCoordinator K T D E) (now : Time) :
    Call K T S → QueryCacheCoordinator K T D E × Task K T D E S
  | .lookup key sql tables =>
    match c.l1.get now key with
    | (some rows, l1) =>
      ({ c with l1 := l1 },
        ⟨.lookup key sql tables, none, false, false, .ended (.returned ⟨rows, .l1⟩)⟩)
    | (none, l1) =>
      let (f, isLeader, c) := join { c with l1 := l1 } key
      let phase :=
        if isLeader then .submitted .l2 else ((c.settled? f).map .ended).getD .awaiting
      (c, ⟨.lookup key sql tables, some f, isLeader, false, phase⟩)
  | .write sql tables precise =>
    (c, ⟨.write sql tables precise, none, false, false, .submitted .warehouse⟩)

/-- The next stretch of a task that nobody interrupts. -/
def QueryCacheCoordinator.resume (c : QueryCacheCoordinator K T D E) (now : Time)
    (task : Task K T D E S) : Option (QueryCacheCoordinator K T D E × Phase T D E) :=
  match task.call, task.fut, task.phase with
  | .lookup .., some _, .answered .l2 _ _ none => some (c, .submitted .warehouse)
  | .lookup key _ tables, some f, .answered src since _ (some data) =>
    let result := ⟨⟨data, since, tables⟩, src.source⟩
    some ((c.fill now key result.data).conclude key f (.returned result),
      .ended (.returned result))
  | .lookup .., some f, .awaiting =>
    (c.settled? f).map fun o ↦ (c, .ended (if task.cancelled then .raised .cancelledError else o))
  | .write _ tables precise, _, .answered _ _ finished (some data) =>
    some (c.invalidateAfterWrite tables precise, .flushing data finished)
  -- An error in the invalidation is swallowed, so `flushing` always goes on.
  | .write .., _, .flushing data finished => some (c, .written data finished)
  | _, _, _ => none

/-- An exception is raised at the task's `await`. -/
def QueryCacheCoordinator.throw (c : QueryCacheCoordinator K T D E) (x : Raised E)
    (task : Task K T D E S) : Option (QueryCacheCoordinator K T D E × Phase T D E) :=
  match task.call, task.fut with
  | .lookup key _ _, some f =>
    if task.phase.fetching then some (c.conclude key f (.raised x), .ended (.raised x)) else none
  | .write .., _ =>
    match x, task.phase with
    | .cancelledError, .flushing .. => some (c, .ended (.raised x))
    | _, phase => if phase.fetching then some (c, .ended (.raised x)) else none
  | _, _ => none

/-- A cancellation is requested of an open task. -/
def QueryCacheCoordinator.requestCancel (c : QueryCacheCoordinator K T D E)
    (task : Task K T D E S) : QueryCacheCoordinator K T D E :=
  match task.fut, task.phase with
  | some f, .awaiting => c.cancelFuture f
  | _, _ => c

/-- One scheduler action on the task `t`. -/
def State.onTask (s : State K T D E S) (t : Nat)
    (turn : Task K T D E S → Option (QueryCacheCoordinator K T D E × Task K T D E S)) :
    Option (State K T D E S) :=
  match s.tasks[t]? with
  | none => none
  | some task => (turn task).map fun (c, task') ↦
      { s with cache := c, tasks := s.tasks.set t task', clock := s.clock + 1 }

/-- One scheduler action. -/
def step (s : State K T D E S) : Act K T D E S → Option (State K T D E S)
  | .call call =>
    let (c, task) := s.cache.start s.now call
    some { s with cache := c, tasks := s.tasks ++ [task], clock := s.clock + 1 }
  | .begin t => s.onTask t fun task ↦
    match task.phase with
    | .submitted src => some (s.cache, { task with phase := .running src s.clock })
    | _ => none
  | .finish t answer => s.onTask t fun task ↦
    match task.phase with
    | .running src since =>
      if src = .l2 ∨ answer.isSome then
        some (s.cache, { task with phase := .answered src since s.clock answer })
      else none
    | _ => none
  | .resume t => s.onTask t fun task ↦
    (s.cache.resume s.now task).map fun (c, phase) ↦ (c, { task with phase := phase })
  | .raise t e => s.onTask t fun task ↦
    (s.cache.throw (.error e) task).map fun (c, phase) ↦ (c, { task with phase := phase })
  | .cancel t => s.onTask t fun task ↦
    if task.phase.open? then some (s.cache.requestCancel task, { task with cancelled := true })
    else none
  | .interrupt t => s.onTask t fun task ↦
    if task.cancelled then
      (s.cache.throw .cancelledError task).map fun (c, phase) ↦ (c, { task with phase := phase })
    else none
  | .invalidate key => some { s with cache := s.cache.invalidate key, clock := s.clock + 1 }
  | .tick now => some { s with now := now, clock := s.clock + 1 }

/-- What a turn of the task `t` does to the coordinator and to the task. -/
inductive Turn (s : State K T D E S) (t : Nat) (task : Task K T D E S) :
    Act K T D E S → QueryCacheCoordinator K T D E → Task K T D E S → Prop
  | begin {src : Fetch} (hp : task.phase = .submitted src) :
      Turn s t task (.begin t) s.cache { task with phase := .running src s.clock }
  | finish {src : Fetch} {since : Nat} {answer : Option D} (hp : task.phase = .running src since)
      (ha : src = .l2 ∨ answer.isSome) :
      Turn s t task (.finish t answer) s.cache
        { task with phase := .answered src since s.clock answer }
  | miss {key : K} {sql : S} {tables : List T} {f since finished : Nat}
      (hc : task.call = .lookup key sql tables) (hf : task.fut = some f)
      (hp : task.phase = .answered .l2 since finished none) :
      Turn s t task (.resume t) s.cache { task with phase := .submitted .warehouse }
  | fill {key : K} {sql : S} {tables : List T} {f : Nat} {src : Fetch} {since finished : Nat}
      {data : D} (hc : task.call = .lookup key sql tables) (hf : task.fut = some f)
      (hp : task.phase = .answered src since finished (some data)) :
      Turn s t task (.resume t)
        ((s.cache.fill s.now key ⟨data, since, tables⟩).conclude key f
          (.returned ⟨⟨data, since, tables⟩, src.source⟩))
        { task with phase := .ended (.returned ⟨⟨data, since, tables⟩, src.source⟩) }
  | wake {key : K} {sql : S} {tables : List T} {f : Nat} {o : Outcome (CacheLookupResult T D) E}
      (hc : task.call = .lookup key sql tables) (hf : task.fut = some f)
      (hp : task.phase = .awaiting) (ho : s.cache.settled? f = some o) :
      Turn s t task (.resume t) s.cache
        { task with phase := .ended (if task.cancelled then .raised .cancelledError else o) }
  | invalidate {sql : S} {tables : List T} {precise : Bool} {src : Fetch} {since finished : Nat}
      {data : D} (hc : task.call = .write sql tables precise)
      (hp : task.phase = .answered src since finished (some data)) :
      Turn s t task (.resume t) (s.cache.invalidateAfterWrite tables precise)
        { task with phase := .flushing data finished }
  | flushed {sql : S} {tables : List T} {precise : Bool} {data : D} {finished : Nat}
      (hc : task.call = .write sql tables precise) (hp : task.phase = .flushing data finished) :
      Turn s t task (.resume t) s.cache { task with phase := .written data finished }
  | throwLookup {a : Act K T D E S} {key : K} {sql : S} {tables : List T} {f : Nat}
      {x : Raised E} (hc : task.call = .lookup key sql tables) (hf : task.fut = some f)
      (hp : task.phase.fetching = true)
      (hx : x = .cancelledError → a = .interrupt t ∧ task.cancelled = true) :
      Turn s t task a (s.cache.conclude key f (.raised x))
        { task with phase := .ended (.raised x) }
  | throwWrite {a : Act K T D E S} {sql : S} {tables : List T} {precise : Bool} {x : Raised E}
      (hc : task.call = .write sql tables precise) (hp : task.phase.open? = true) :
      Turn s t task a s.cache { task with phase := .ended (.raised x) }
  | cancelFollower {f : Nat} (hf : task.fut = some f) (hp : task.phase = .awaiting) :
      Turn s t task (.cancel t) (s.cache.cancelFuture f) { task with cancelled := true }
  | cancelOther (hp : task.phase.open? = true) (hne : task.fut = none ∨ task.phase ≠ .awaiting) :
      Turn s t task (.cancel t) s.cache { task with cancelled := true }

/-- What the first stretch of a call does. -/
inductive Start (c : QueryCacheCoordinator K T D E) (now : Time) :
    Call K T S → QueryCacheCoordinator K T D E → Task K T D E S → Prop
  | write (sql : S) (tables : List T) (precise : Bool) :
      Start c now (.write sql tables precise) c
        ⟨.write sql tables precise, none, false, false, .submitted .warehouse⟩
  | hit (key : K) (sql : S) (tables : List T) {rows : Rows T D}
      (h : (c.l1.get now key).1 = some rows) :
      Start c now (.lookup key sql tables) { c with l1 := (c.l1.get now key).2 }
        ⟨.lookup key sql tables, none, false, false, .ended (.returned ⟨rows, .l1⟩)⟩
  | lead (key : K) (sql : S) (tables : List T) (hmiss : (c.l1.get now key).1 = none)
      (h : c.inflight.get? key = none) :
      Start c now (.lookup key sql tables)
        { c with
          l1 := (c.l1.get now key).2
          futures := c.futures ++ [.pending]
          inflight := c.inflight.set key c.futures.length }
        ⟨.lookup key sql tables, some c.futures.length, true, false, .submitted .l2⟩
  | follow (key : K) (sql : S) (tables : List T) {f : Nat} (hmiss : (c.l1.get now key).1 = none)
      (h : c.inflight.get? key = some f) :
      Start c now (.lookup key sql tables) { c with l1 := (c.l1.get now key).2 }
        ⟨.lookup key sql tables, some f, false, false, ((c.settled? f).map .ended).getD .awaiting⟩

omit [DecidableEq T] in
/-- The first stretch of a call is one of these. -/
theorem start_spec (c : QueryCacheCoordinator K T D E) (now : Time) (call : Call K T S) :
    Start c now call (c.start now call).1 (c.start now call).2 := by
  cases call with
  | write sql tables precise => exact .write sql tables precise
  | lookup key sql tables =>
    rw [QueryCacheCoordinator.start]
    split
    · next rows l1 hg =>
      obtain rfl : (c.l1.get now key).2 = l1 := by rw [hg]
      exact .hit key sql tables (by rw [hg])
    · next l1 hg =>
      obtain rfl : (c.l1.get now key).2 = l1 := by rw [hg]
      rw [QueryCacheCoordinator.join]
      cases hf : c.inflight.get? key with
      | none => exact .lead key sql tables (by rw [hg]) hf
      | some f => exact .follow key sql tables (by rw [hg]) hf

omit [DecidableEq T] in
/-- The new task makes the call. -/
theorem Start.call_eq {c c' : QueryCacheCoordinator K T D E} {now : Time} {call : Call K T S}
    {task : Task K T D E S} (h : Start c now call c' task) : task.call = call := by
  cases h <;> rfl

omit [DecidableEq K] [DecidableEq T] in
private theorem onTask_eq_some {s s' : State K T D E S} {t : Nat}
    {turn : Task K T D E S → Option (QueryCacheCoordinator K T D E × Task K T D E S)}
    (h : s.onTask t turn = some s') : ∃ task c task', s.tasks[t]? = some task ∧
      turn task = some (c, task') ∧
      s' = { s with cache := c, tasks := s.tasks.set t task', clock := s.clock + 1 } := by
  unfold State.onTask at h
  split at h
  · cases h
  · next task ht =>
    obtain ⟨⟨c, task'⟩, hturn, rfl⟩ := Option.map_eq_some_iff.mp h
    exact ⟨task, c, task', ht, hturn, rfl⟩

private theorem turn_of_throw {s : State K T D E S} {t : Nat} {task : Task K T D E S}
    {x : Raised E} {a : Act K T D E S} {c : QueryCacheCoordinator K T D E} {phase : Phase T D E}
    (h : s.cache.throw x task = some (c, phase))
    (hx : x = .cancelledError → a = .interrupt t ∧ task.cancelled = true) :
    Turn s t task a c { task with phase := phase } := by
  unfold QueryCacheCoordinator.throw at h
  split at h
  · next key sql tables f hc hf =>
    split at h
    · next hp =>
      obtain ⟨rfl, rfl⟩ := Prod.mk.inj (Option.some.inj h)
      exact .throwLookup hc hf hp hx
    · cases h
  · next sql tables precise hc =>
    split at h
    · next hp =>
      obtain ⟨rfl, rfl⟩ := Prod.mk.inj (Option.some.inj h)
      exact .throwWrite hc (by rw [hp]; rfl)
    · split at h
      · next hp =>
        obtain ⟨rfl, rfl⟩ := Prod.mk.inj (Option.some.inj h)
        exact .throwWrite hc (Phase.open?_of_fetching hp)
      · cases h
  · cases h

private theorem turn_of_resume {s : State K T D E S} {t : Nat} {task : Task K T D E S}
    {c : QueryCacheCoordinator K T D E} {phase : Phase T D E}
    (h : s.cache.resume s.now task = some (c, phase)) :
    Turn s t task (.resume t) c { task with phase := phase } := by
  unfold QueryCacheCoordinator.resume at h
  split at h
  · next hc hf hp =>
    obtain ⟨rfl, rfl⟩ := Prod.mk.inj (Option.some.inj h)
    exact .miss hc hf hp
  · next hc hf hp =>
    obtain ⟨rfl, rfl⟩ := Prod.mk.inj (Option.some.inj h)
    exact .fill hc hf hp
  · next hc hf hp =>
    obtain ⟨o, ho, heq⟩ := Option.map_eq_some_iff.mp h
    obtain ⟨rfl, rfl⟩ := Prod.mk.inj heq
    exact .wake hc hf hp ho
  · next hc hp =>
    obtain ⟨rfl, rfl⟩ := Prod.mk.inj (Option.some.inj h)
    exact .invalidate hc hp
  · next hc hp =>
    obtain ⟨rfl, rfl⟩ := Prod.mk.inj (Option.some.inj h)
    exact .flushed hc hp
  · cases h

/-- A call adds a task that has run its first stretch. -/
theorem step_call {s s' : State K T D E S} {call : Call K T S}
    (h : step s (.call call) = some s') :
    s' = { s with cache := (s.cache.start s.now call).1,
                  tasks := s.tasks ++ [(s.cache.start s.now call).2], clock := s.clock + 1 } :=
  (Option.some.inj h).symm

/-- The task that an action is about. -/
def Act.task? : Act K T D E S → Option Nat
  | .begin t | .finish t _ | .resume t | .raise t _ | .cancel t | .interrupt t => some t
  | _ => none

/-- What a step of one task can do. -/
theorem step_task {s s' : State K T D E S} {a : Act K T D E S} {t : Nat} (ha : a.task? = some t)
    (h : step s a = some s') : ∃ task c task', s.tasks[t]? = some task ∧ Turn s t task a c task' ∧
      s' = { s with cache := c, tasks := s.tasks.set t task', clock := s.clock + 1 } := by
  cases a with
  | call call | invalidate key | tick now => cases ha
  | begin i =>
    obtain rfl := Option.some.inj ha
    obtain ⟨task, c, task', ht, hturn, rfl⟩ := onTask_eq_some h
    refine ⟨task, c, task', ht, ?_, rfl⟩
    split at hturn
    · next hp =>
      obtain ⟨rfl, rfl⟩ := Prod.mk.inj (Option.some.inj hturn)
      exact .begin hp
    · cases hturn
  | finish i answer =>
    obtain rfl := Option.some.inj ha
    obtain ⟨task, c, task', ht, hturn, rfl⟩ := onTask_eq_some h
    refine ⟨task, c, task', ht, ?_, rfl⟩
    split at hturn
    · next hp =>
      split at hturn
      · next ha =>
        obtain ⟨rfl, rfl⟩ := Prod.mk.inj (Option.some.inj hturn)
        exact .finish hp ha
      · cases hturn
    · cases hturn
  | resume i =>
    obtain rfl := Option.some.inj ha
    obtain ⟨task, c, task', ht, hturn, rfl⟩ := onTask_eq_some h
    obtain ⟨⟨c, phase⟩, hr, heq⟩ := Option.map_eq_some_iff.mp hturn
    obtain ⟨rfl, rfl⟩ := Prod.mk.inj heq
    exact ⟨task, c, _, ht, turn_of_resume hr, rfl⟩
  | raise i e =>
    obtain rfl := Option.some.inj ha
    obtain ⟨task, c, task', ht, hturn, rfl⟩ := onTask_eq_some h
    obtain ⟨⟨c, phase⟩, hr, heq⟩ := Option.map_eq_some_iff.mp hturn
    obtain ⟨rfl, rfl⟩ := Prod.mk.inj heq
    exact ⟨task, c, _, ht, turn_of_throw hr (by simp), rfl⟩
  | cancel i =>
    obtain rfl := Option.some.inj ha
    obtain ⟨task, c, task', ht, hturn, rfl⟩ := onTask_eq_some h
    refine ⟨task, c, task', ht, ?_, rfl⟩
    split at hturn
    · next hp =>
      obtain ⟨rfl, rfl⟩ := Prod.mk.inj (Option.some.inj hturn)
      unfold QueryCacheCoordinator.requestCancel
      split
      · next hf hp => exact .cancelFollower hf hp
      · next hne =>
        refine .cancelOther hp ?_
        cases hf : task.fut with
        | none => exact .inl rfl
        | some f => exact .inr (hne f hf)
    · cases hturn
  | interrupt i =>
    obtain rfl := Option.some.inj ha
    obtain ⟨task, c, task', ht, hturn, rfl⟩ := onTask_eq_some h
    refine ⟨task, c, task', ht, ?_, rfl⟩
    split at hturn
    · next hcan =>
      obtain ⟨⟨c, phase⟩, hr, heq⟩ := Option.map_eq_some_iff.mp hturn
      obtain ⟨rfl, rfl⟩ := Prod.mk.inj heq
      exact turn_of_throw hr fun _ ↦ ⟨rfl, hcan⟩
    · cases hturn

/-- Everything a step can do. -/
theorem step_cases {s s' : State K T D E S} {a : Act K T D E S} (h : step s a = some s') :
    (∃ call, a = .call call ∧
      s' = { s with cache := (s.cache.start s.now call).1,
                    tasks := s.tasks ++ [(s.cache.start s.now call).2], clock := s.clock + 1 }) ∨
    (∃ t task c task', s.tasks[t]? = some task ∧ Turn s t task a c task' ∧
      s' = { s with cache := c, tasks := s.tasks.set t task', clock := s.clock + 1 }) ∨
    (∃ key, a = .invalidate key ∧
      s' = { s with cache := s.cache.invalidate key, clock := s.clock + 1 }) ∨
    (∃ now, a = .tick now ∧ s' = { s with now := now, clock := s.clock + 1 }) := by
  cases a with
  | call call => exact .inl ⟨call, rfl, step_call h⟩
  | invalidate key => exact .inr (.inr (.inl ⟨key, rfl, (Option.some.inj h).symm⟩))
  | tick now => exact .inr (.inr (.inr ⟨now, rfl, (Option.some.inj h).symm⟩))
  | begin t | finish t answer | resume t | raise t e | cancel t | interrupt t =>
    exact .inr (.inl ⟨t, step_task rfl h⟩)

/-- The coordinator as a transition system. -/
def system (l1MaxSize : Nat) (l1TtlSeconds : Int) (h : 0 < l1MaxSize) :
    System (State K T D E S) (Act K T D E S) :=
  ⟨⟨.new l1MaxSize l1TtlSeconds h, [], 0, 0⟩, step⟩

end SalesData.Cache

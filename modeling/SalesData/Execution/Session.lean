import Mathlib.Logic.Function.Basic
import SalesData.Cache.ResultCache
import SalesData.Pool.AsyncPool
import SalesData.Service.QueryService

/-!
# Executing a statement

From `QueryService.run` down to the driver: the semaphore and the time limit of
`_execute_gated` (`core/services/query_service.py:149–168`), the session of a pooled connection
(`core/db/session.py:400–474`), its jobs in the db executor
(`core/concurrency/executors.py:78–100`), and the invalidation after a write
(`query_service.py:112–147`). A request is the coroutine of one call of `run`, from the point
at which the call turns to the warehouse; inside the pool it is one of the pool's tasks. A
timeout and a cancellation are first requested, and take effect as `CancelledError` when the
coroutine runs next.
-/

namespace SalesData.Execution

open Base Sql
open Cache (QueryCacheCoordinator Purge)
open Pool (Addr)
open Pool.Async (Choice PC)
open Service (Run)

/-- An exception of the driver: its type's name, its text, and whether it is an
`asyncio.TimeoutError`. -/
structure Exc where
  typeName : Text
  text : Text
  isTimeout : Bool
  deriving DecidableEq, Repr

/-- `_CONNECTION_LEVEL_SIGNALS` (`core/db/pool/base.py:62–76`). -/
def connectionLevelSignals : List Text :=
  ["connection is closed".toList, "connection already closed".toList, "connection closed".toList,
    "connection reset".toList, "broken pipe".toList, "not connected".toList,
    "no connection to the server".toList, "server closed the connection".toList,
    "could not connect".toList, "connection refused".toList, "eof occurred".toList,
    "ssl error".toList, "socket".toList]

/-- `is_connection_level_error` (`core/db/pool/base.py:79–90`). -/
def isConnectionLevelError (u : Unicode) (exc : Exc) : Bool :=
  let text := u.lower (exc.typeName ++ ": ".toList ++ exc.text)
  connectionLevelSignals.any fun signal ↦ decide (signal <:+: text)

/-- How a call of `run` ends other than by returning. -/
inductive Failure where
  | cancelledError
  | queryTimeoutError
  | maxConnectionsExceeded
  | creationFailed
  | driver (exc : Exc)
  deriving DecidableEq, Repr

/-- A failure of `acquire` or `release` goes through the session unchanged. -/
def Failure.ofPool : Pool.Async.Failure → Failure
  | .maxConnectionsExceeded => maxConnectionsExceeded
  | .cancelledError => cancelledError
  | .creationFailed => creationFailed

/-- The methods of `AsyncSessionWrapper` that a session calls (`session.py:150–165`). -/
inductive JobKind where
  | fetchAll
  | rollback
  | disconnect
  deriving DecidableEq, Repr

/-- The state of a job in the db executor. -/
inductive JobState where
  | queued
  | running
  | returned
  | raised (exc : Exc)
  | cancelled
  deriving DecidableEq, Repr

/-- A call that request `owner` has handed to the db executor. `committed` is the step at which
the warehouse committed the effect of its statement. -/
structure Job where
  owner : Nat
  kind : JobKind
  conn : Addr
  state : JobState
  committed : Option Nat
  deriving DecidableEq, Repr

/-- A worker thread has the job or may still take it. -/
def Job.active (job : Job) : Bool := job.state == .queued || job.state == .running

/-- Where a request is suspended. `t` is its task in the pool, `c` its connection and `j` the job
that it awaits; `outcome` is what leaves the session. -/
inductive Stage where
  /-- At `async with semaphore`; `query_service.py:153`. -/
  | gate
  /-- In `acquire`; `session.py:416`. -/
  | acquiring (t : Nat)
  /-- In `db.fetch_all`; `query_service.py:168`. -/
  | fetching (t : Nat) (c : Addr) (j : Nat)
  /-- In `session.rollback()`; `session.py:454`. -/
  | rollingBack (t : Nat) (c : Addr) (j : Nat) (exc : Exc)
  /-- In `release`, possibly in the `close` of a broken connection; `session.py:466`. -/
  | releasing (t : Nat) (c : Addr) (close : Option Nat) (outcome : Option Failure)
  /-- In `_invalidate_after_write`, begun at step `since`, with `k` of its `purges` done;
  `query_service.py:119`. -/
  | flushing (since : Nat) (purges : List Purge) (k : Nat)
  /-- `run` has returned or raised. -/
  | ended (outcome : Option Failure)
  deriving DecidableEq, Repr

namespace Stage

/-- The request's task in the pool. -/
def task? : Stage → Option Nat
  | acquiring t | fetching t _ _ | rollingBack t _ _ _ | releasing t _ _ _ => some t
  | _ => none

/-- The job on its connection that the request awaits. -/
def job? : Stage → Option Nat
  | fetching _ _ j | rollingBack _ _ j _ => some j
  | _ => none

/-- The session in the request's frame. -/
def session? : Stage → Option Addr
  | fetching _ c _ | rollingBack _ c _ _ | releasing _ c _ _ => some c
  | _ => none

/-- The request awaits the job `j` on the connection `c` that it holds. -/
def Awaits (stage : Stage) (j : Nat) (c : Addr) : Prop :=
  stage.job? = some j ∧ stage.session? = some c

/-- Inside `asyncio.wait_for`. -/
def timed (stage : Stage) : Bool := stage.task?.isSome

end Stage

/-- A call of `run`. `struck` while a `CancelledError` is about to be thrown into it; `expired`
once its time limit has passed, `cancelled` once its cancellation was requested. `invalidated`
tells when a finished invalidation began and what it purged. -/
structure Request (P : Type) where
  run : Run P
  stage : Stage
  struck : Bool
  expired : Bool
  cancelled : Bool
  invalidated : Option (Nat × List Purge)
  deriving DecidableEq, Repr

/-- What strikes a request. -/
inductive Strike where
  | timeout
  | cancel
  deriving DecidableEq, Repr

/-- The request notes what has struck it. -/
def Request.hit {P : Type} (req : Request P) (how : Strike) : Request P :=
  { req with
    expired := req.expired || how == .timeout
    cancelled := req.cancelled || how == .cancel }

/-- `asyncio.wait_for` and the handler around it (`query_service.py:155–164`): what leaves
`_execute_gated` when `_execute` ends. -/
def Request.gated {P : Type} (req : Request P) : Option Failure → Option Failure
  | some .cancelledError =>
    if req.expired && !req.cancelled then some .queryTimeoutError else some .cancelledError
  | some (.driver exc) =>
    if exc.isTimeout then some .queryTimeoutError else some (.driver exc)
  | outcome => outcome

/-- The connection pool, all requests and jobs ever made, the free permits of the semaphores, and
the cache that writes invalidate; `clock` counts the steps. -/
structure State (K P D E : Type) where
  pool : Pool.Async.State
  requests : List (Request P)
  jobs : List Job
  permits : Cost → Nat
  cache : QueryCacheCoordinator K Text D E
  clock : Nat

/-- Scheduler actions. -/
inductive Act (K P D E : Type) where
  | call (run : Run P)
  | resume (r : Nat) (ch : Choice)
  | strike (r : Nat) (how : Strike)
  /-- The pool's own time limit for a request that waits for a connection. -/
  | timer (r : Nat)
  | start (j : Nat)
  | commit (j : Nat)
  | finish (j : Nat) (exc : Option Exc)
  | metrics
  /-- The rest of the service goes on using the cache. -/
  | others (cache : QueryCacheCoordinator K Text D E)

variable {K P D E : Type}

namespace State

/-- The stage of request `r` changes; a `CancelledError` that was due has been thrown. -/
def put (s : State K P D E) (r : Nat) (req : Request P) (stage : Stage) : State K P D E :=
  { s with requests := s.requests.set r { req with stage := stage, struck := false } }

/-- `run_in_executor` (`executors.py:96`). -/
def submit (s : State K P D E) (r : Nat) (kind : JobKind) (c : Addr) : State K P D E :=
  { s with jobs := s.jobs ++ [⟨r, kind, c, .queued, none⟩] }

/-- The coroutine that awaits job `j` is cancelled: a queued job will not run, and one that a
thread has taken goes on. -/
def dropJob (s : State K P D E) (j : Nat) : State K P D E :=
  { s with jobs := s.jobs.modify j fun job ↦
    if job.state = .queued then { job with state := .cancelled } else job }

/-- The state of job `j`. -/
def jobState? (s : State K P D E) (j : Nat) : Option JobState := (s.jobs[j]?).map Job.state

/-- The program counter of task `t` in the pool. -/
def pc? (s : State K P D E) (t : Nat) : Option PC := (s.pool.tasks[t]?).map (·.pc)

/-- Task `t` of the pool goes on; a session's `close` always suspends (`session.py:164`). -/
def poolTurn (s : State K P D E) (t : Nat) (ch : Choice) : Option (State K P D E) :=
  (Pool.Async.step s.pool (.resume t { ch with suspends := true })).map fun pool ↦
    { s with pool := pool }

/-- The addresses of sessions that a job or a request's frame keeps alive. -/
def sessions (s : State K P D E) : List Addr :=
  (s.jobs.filter Job.active).map Job.conn ++ s.requests.filterMap fun req ↦ req.stage.session?

variable [DecidableEq K] (u : Unicode)

/-- `_invalidate_after_write` up to its first `await` (`query_service.py:140–147`). -/
def invalidateAfterWrite (s : State K P D E) (r : Nat) (req : Request P) : State K P D E :=
  let tables := extractTables u req.run.sql
  let precise := req.run.service.preciseCacheInvalidation
  { s.put r req (.flushing s.clock (Cache.purges s.cache tables precise) 0) with
    cache := s.cache.invalidateAfterWrite tables precise }

/-- `_execute` has ended: the semaphore is given back, and `run` goes on
(`query_service.py:114–123`). -/
def leave (s : State K P D E) (r : Nat) (req : Request P) (outcome : Option Failure) :
    State K P D E :=
  let cost := classifyCost u req.run.sql
  let s := { s with permits := Function.update s.permits cost (s.permits cost + 1) }
  match req.gated outcome with
  | some failure => s.put r req (.ended (some failure))
  | none =>
    if classifyOperation u req.run.sql = .write then s.invalidateAfterWrite u r req
    else s.put r req (.ended none)

/-- Behind `acquire`, once it has suspended or ended (`session.py:412–443`). -/
def acquired (s : State K P D E) (r : Nat) (req : Request P) (t : Nat) : State K P D E :=
  match s.pc? t with
  | some (.holding c) => (s.submit r .fetchAll c).put r req (.fetching t c s.jobs.length)
  | some (.ended (some failure)) => s.leave u r req (some (.ofPool failure))
  | _ => s.put r req (.acquiring t)

/-- Behind `release`, once it has suspended or ended (`session.py:462–474`). -/
def released (s : State K P D E) (r : Nat) (req : Request P) (t : Nat) (c : Addr)
    (outcome : Option Failure) : State K P D E :=
  match s.pc? t with
  | some (.ended none) => s.leave u r req outcome
  | some (.ended (some failure)) => s.leave u r req (some (.ofPool failure))
  | some (.closing d) =>
    (s.submit r .disconnect d).put r req (.releasing t c (some s.jobs.length) outcome)
  | _ => s.put r req (.releasing t c none outcome)

/-- The `finally` clause of the session (`session.py:462–468`). -/
def release (s : State K P D E) (r : Nat) (req : Request P) (t : Nat) (c : Addr) (broken : Bool)
    (outcome : Option Failure) (ch : Choice) : Option (State K P D E) :=
  (s.poolTurn t { ch with broken := broken }).map fun s ↦ s.released u r req t c outcome

/-- Through the semaphore and into the pool (`query_service.py:153–157`, `session.py:416`). -/
def enter (s : State K P D E) (r : Nat) (req : Request P) (ch : Choice) :
    Option (State K P D E) :=
  let cost := classifyCost u req.run.sql
  if 0 < s.permits cost then
    let t := s.pool.tasks.length
    (Pool.Async.step s.pool (.call .acquire)).bind fun pool ↦
      (poolTurn { s with
        pool := pool
        permits := Function.update s.permits cost (s.permits cost - 1) } t ch).map fun s ↦
          s.acquired u r req t
  else none

/-- Request `r` runs until it suspends again. A `CancelledError` is no `Exception`, so it passes
the handler of the session and the connection is released as a good one
(`session.py:444–468`). -/
def resume (s : State K P D E) (r : Nat) (req : Request P) (ch : Choice) :
    Option (State K P D E) :=
  match req.stage with
  | .gate =>
    if req.struck then some (s.put r req (.ended (some .cancelledError)))
    else s.enter u r req ch
  | .acquiring t => (s.poolTurn t ch).map fun s ↦ s.acquired u r req t
  | .fetching t c j =>
    if req.struck then (s.dropJob j).release u r req t c false (some .cancelledError) ch
    else match s.jobState? j with
      | some .returned => s.release u r req t c false none ch
      | some (.raised exc) =>
        if isConnectionLevelError u exc then s.release u r req t c true (some (.driver exc)) ch
        else some ((s.submit r .rollback c).put r req (.rollingBack t c s.jobs.length exc))
      | _ => none
  | .rollingBack t c j exc =>
    if req.struck then (s.dropJob j).release u r req t c false (some .cancelledError) ch
    else match s.jobState? j with
      | some .returned => s.release u r req t c false (some (.driver exc)) ch
      | some (.raised _) => s.release u r req t c true (some (.driver exc)) ch
      | _ => none
  | .releasing t c none outcome => s.release u r req t c false outcome ch
  | .releasing t c (some j) outcome =>
    if (s.pool.tasks[t]?).any (·.cancelled) then
      (s.dropJob j).release u r req t c false outcome ch
    else match s.jobState? j with
      | some .returned | some (.raised _) => s.release u r req t c false outcome ch
      | _ => none
  | .flushing since purges k =>
    if req.struck then some (s.put r req (.ended (some .cancelledError)))
    else if k + 1 < purges.length then some (s.put r req (.flushing since purges (k + 1)))
    else some (s.put r { req with invalidated := some (since, purges) } (.ended none))
  | .ended _ => none

omit [DecidableEq K] in
/-- A timeout or a cancellation of request `r` is requested. -/
def strike (s : State K P D E) (r : Nat) (req : Request P) (how : Strike) :
    Option (State K P D E) :=
  if how = .timeout ∧ (req.stage.timed = false ∨ req.expired) then none
  else match req.stage with
    | .ended _ => none
    | .acquiring t | .releasing t _ _ _ =>
      (Pool.Async.step s.pool (.cancel t)).map fun pool ↦
        { s with pool := pool, requests := s.requests.set r (req.hit how) }
    | _ => some { s with requests := s.requests.set r { req.hit how with struck := true } }

end State

/-- What happens to a job in the executor; `none` while it cannot. -/
def Job.advance (job : Job) (clock : Nat) : Act K P D E → Option Job
  | .start _ => if job.state = .queued then some { job with state := .running } else none
  | .commit _ =>
    if job.state = .running ∧ job.kind = .fetchAll ∧ job.committed = none then
      some { job with committed := some clock }
    else none
  | .finish _ exc =>
    -- `_safe_rollback` swallows what the driver raises (`session.py:122–127`).
    if job.state = .running ∧ (job.kind = .rollback → exc = none) then
      some { job with state := match exc with | none => .returned | some exc => .raised exc }
    else none
  | _ => none

variable [DecidableEq K] (u : Unicode)

/-- One scheduler action, before the clock moves. A new object is created where no session is
alive. -/
def State.act (s : State K P D E) : Act K P D E → Option (State K P D E)
  | .call run =>
    if run.denied u then none
    else some { s with requests := s.requests ++ [⟨run, .gate, false, false, false, none⟩] }
  | .resume r ch =>
    if ch.addr ∈ s.sessions then none
    else (s.requests[r]?).bind fun req ↦ s.resume u r req ch
  | .strike r how => (s.requests[r]?).bind fun req ↦ s.strike r req how
  | .timer r =>
    (s.requests[r]?).bind fun req ↦ match req.stage with
      | .acquiring t => (Pool.Async.step s.pool (.timer t)).map fun pool ↦ { s with pool := pool }
      | _ => none
  | .start j => (s.jobs[j]?).bind fun job ↦
    (job.advance s.clock (.start j : Act K P D E)).map fun job ↦
      { s with jobs := s.jobs.set j job }
  | .commit j => (s.jobs[j]?).bind fun job ↦
    (job.advance s.clock (.commit j : Act K P D E)).map fun job ↦
      { s with jobs := s.jobs.set j job }
  | .finish j exc => (s.jobs[j]?).bind fun job ↦
    (job.advance s.clock (.finish j exc : Act K P D E)).map fun job ↦
      { s with jobs := s.jobs.set j job }
  | .metrics => (Pool.Async.step s.pool .metrics).map fun pool ↦ { s with pool := pool }
  | .others cache => some { s with cache := cache }

/-- One scheduler action. -/
def step (s : State K P D E) (a : Act K P D E) : Option (State K P D E) :=
  (s.act u a).map fun s' ↦ { s' with clock := s.clock + 1 }

/-- The execution of statements as a transition system. -/
def system (minConn maxConn : Nat) (permits : Cost → Nat)
    (cache : QueryCacheCoordinator K Text D E) : System (State K P D E) (Act K P D E) :=
  ⟨⟨⟨.new minConn maxConn, []⟩, [], [], permits, cache, 0⟩, step u⟩

/-- What request `r` does when it runs; `ch'` is the environment's choice as the pool sees it. -/
inductive Turn (s : State K P D E) (r : Nat) (req : Request P) (ch : Choice) :
    State K P D E → Prop
  | refused (hg : req.stage = .gate) (hk : req.struck = true) :
      Turn s r req ch (s.put r req (.ended (some .cancelledError)))
  | enter {p p' : Pool.Async.State} {ch' : Choice} (hg : req.stage = .gate)
      (hk : req.struck = false) (hcall : Pool.Async.step s.pool (.call .acquire) = some p)
      (hp : Pool.Async.step p (.resume s.pool.tasks.length ch') = some p')
      (hch : ch'.addr = ch.addr) (permits : Cost → Nat) :
      Turn s r req ch
        (State.acquired u { s with pool := p', permits := permits } r req s.pool.tasks.length)
  | acquire {t : Nat} {p' : Pool.Async.State} {ch' : Choice} (hg : req.stage = .acquiring t)
      (hp : Pool.Async.step s.pool (.resume t ch') = some p') (hch : ch'.addr = ch.addr) :
      Turn s r req ch (State.acquired u { s with pool := p' } r req t)
  | drop {t j : Nat} {c : Addr} {p' : Pool.Async.State} {ch' : Choice}
      (ht : req.stage.task? = some t) (hj : req.stage.Awaits j c) (hk : req.struck = true)
      (hp : Pool.Async.step s.pool (.resume t ch') = some p') (hch : ch'.addr = ch.addr) :
      Turn s r req ch
        (State.released u { s.dropJob j with pool := p' } r req t c (some .cancelledError))
  | retry {t j : Nat} {c : Addr} {exc : Exc} (hg : req.stage = .fetching t c j)
      (hk : req.struck = false) (hj : s.jobState? j = some (.raised exc)) :
      Turn s r req ch
        ((s.submit r .rollback c).put r req (.rollingBack t c s.jobs.length exc))
  | release {t j : Nat} {c : Addr} {outcome : Option Failure} {p' : Pool.Async.State}
      {ch' : Choice} (ht : req.stage.task? = some t) (hj : req.stage.Awaits j c)
      (hk : req.struck = false)
      (hover : s.jobState? j = some .returned ∨ ∃ exc, s.jobState? j = some (.raised exc))
      (ho : outcome = none ↔ req.stage = .fetching t c j ∧ s.jobState? j = some .returned)
      (hp : Pool.Async.step s.pool (.resume t ch') = some p') (hch : ch'.addr = ch.addr) :
      Turn s r req ch (State.released u { s with pool := p' } r req t c outcome)
  | close {s₁ : State K P D E} {t : Nat} {c : Addr} {close : Option Nat}
      {outcome : Option Failure} {p' : Pool.Async.State} {ch' : Choice}
      (hg : req.stage = .releasing t c close outcome)
      (hs : s₁ = s ∨ ∃ j, close = some j ∧ s₁ = s.dropJob j)
      (hp : Pool.Async.step s.pool (.resume t ch') = some p') (hch : ch'.addr = ch.addr) :
      Turn s r req ch (State.released u { s₁ with pool := p' } r req t c outcome)
  | interrupt {since k : Nat} {purges : List Purge} (hg : req.stage = .flushing since purges k)
      (hk : req.struck = true) : Turn s r req ch (s.put r req (.ended (some .cancelledError)))
  | flush {since k : Nat} {purges : List Purge} (hg : req.stage = .flushing since purges k)
      (hk : req.struck = false) (hlt : k + 1 < purges.length) :
      Turn s r req ch (s.put r req (.flushing since purges (k + 1)))
  | flushed {since k : Nat} {purges : List Purge} (hg : req.stage = .flushing since purges k)
      (hk : req.struck = false) (hle : purges.length ≤ k + 1) :
      Turn s r req ch (s.put r { req with invalidated := some (since, purges) } (.ended none))

variable {u} {s s' : State K P D E}

omit [DecidableEq K] in
private theorem poolTurn_eq_some {t : Nat} {ch : Choice} (h : s.poolTurn t ch = some s') :
    ∃ (p' : Pool.Async.State) (ch' : Choice), Pool.Async.step s.pool (.resume t ch') = some p' ∧
      ch'.addr = ch.addr ∧ s' = { s with pool := p' } := by
  obtain ⟨p', hp, rfl⟩ := Option.map_eq_some_iff.mp h
  exact ⟨p', _, hp, rfl, rfl⟩

private theorem release_eq_some {r t : Nat} {req : Request P} {c : Addr} {broken : Bool}
    {outcome : Option Failure} {ch : Choice}
    (h : s.release u r req t c broken outcome ch = some s') :
    ∃ (p' : Pool.Async.State) (ch' : Choice),
      Pool.Async.step s.pool (.resume t ch') = some p' ∧ ch'.addr = ch.addr ∧
        s' = State.released u { s with pool := p' } r req t c outcome := by
  obtain ⟨s₁, h₁, rfl⟩ := Option.map_eq_some_iff.mp h
  obtain ⟨p', ch', hp, hch, rfl⟩ := poolTurn_eq_some h₁
  exact ⟨p', ch', hp, hch, rfl⟩

private theorem enter_turn {r : Nat} {req : Request P} {ch : Choice} (hg : req.stage = .gate)
    (hk : req.struck = false) (h : s.enter u r req ch = some s') : Turn u s r req ch s' := by
  unfold State.enter at h
  dsimp only at h
  split at h
  · obtain ⟨p, hcall, h⟩ := Option.bind_eq_some_iff.mp h
    obtain ⟨s₁, h₁, rfl⟩ := Option.map_eq_some_iff.mp h
    obtain ⟨p', ch', hp, hch, rfl⟩ := poolTurn_eq_some h₁
    exact .enter hg hk hcall hp hch _
  · cases h

/-- Everything that a request's turn can do. -/
theorem turn_of_resume {r : Nat} {req : Request P} {ch : Choice}
    (h : s.resume u r req ch = some s') : Turn u s r req ch s' := by
  have hfree (hk : ¬ req.struck = true) : req.struck = false := by simpa using hk
  unfold State.resume at h
  split at h
  · next hg =>
    split at h
    · next hk =>
      obtain rfl := Option.some.inj h
      exact .refused hg hk
    · next hk => exact enter_turn hg (hfree hk) h
  · next t hg =>
    obtain ⟨s₁, h₁, rfl⟩ := Option.map_eq_some_iff.mp h
    obtain ⟨p', ch', hp, hch, rfl⟩ := poolTurn_eq_some h₁
    exact .acquire hg hp hch
  · next t c j hg =>
    have ht : req.stage.task? = some t := by rw [hg]; rfl
    have hj : req.stage.Awaits j c := by rw [hg]; exact ⟨rfl, rfl⟩
    split at h
    · next hk =>
      obtain ⟨p', ch', hp, hch, rfl⟩ := release_eq_some h
      exact .drop ht hj hk hp hch
    · next hk =>
      split at h
      · next hret =>
        obtain ⟨p', ch', hp, hch, rfl⟩ := release_eq_some h
        exact .release ht hj (hfree hk) (.inl hret) (iff_of_true rfl ⟨hg, hret⟩) hp hch
      · next exc hexc =>
        split at h
        · obtain ⟨p', ch', hp, hch, rfl⟩ := release_eq_some h
          exact .release ht hj (hfree hk) (.inr ⟨exc, hexc⟩) (by simp [hexc]) hp hch
        · obtain rfl := Option.some.inj h
          exact .retry hg (hfree hk) hexc
      · cases h
  · next t c j exc hg =>
    have ht : req.stage.task? = some t := by rw [hg]; rfl
    have hj : req.stage.Awaits j c := by rw [hg]; exact ⟨rfl, rfl⟩
    split at h
    · next hk =>
      obtain ⟨p', ch', hp, hch, rfl⟩ := release_eq_some h
      exact .drop ht hj hk hp hch
    · next hk =>
      split at h
      · next hret =>
        obtain ⟨p', ch', hp, hch, rfl⟩ := release_eq_some h
        exact .release ht hj (hfree hk) (.inl hret) (by simp [hg]) hp hch
      · next exc' hexc =>
        obtain ⟨p', ch', hp, hch, rfl⟩ := release_eq_some h
        exact .release ht hj (hfree hk) (.inr ⟨exc', hexc⟩) (by simp [hg]) hp hch
      · cases h
  · next t c outcome hg =>
    obtain ⟨p', ch', hp, hch, rfl⟩ := release_eq_some h
    exact .close hg (.inl rfl) hp hch
  · next t c j outcome hg =>
    split at h
    · obtain ⟨p', ch', hp, hch, rfl⟩ := release_eq_some h
      exact .close hg (.inr ⟨j, rfl, rfl⟩) hp hch
    · split at h
      · obtain ⟨p', ch', hp, hch, rfl⟩ := release_eq_some h
        exact .close hg (.inl rfl) hp hch
      · obtain ⟨p', ch', hp, hch, rfl⟩ := release_eq_some h
        exact .close hg (.inl rfl) hp hch
      · cases h
  · next since purges k hg =>
    split at h
    · next hk =>
      obtain rfl := Option.some.inj h
      exact .interrupt hg hk
    · next hk =>
      split at h
      · next hlt =>
        obtain rfl := Option.some.inj h
        exact .flush hg (hfree hk) hlt
      · next hle =>
        obtain rfl := Option.some.inj h
        exact .flushed hg (hfree hk) (Nat.not_lt.mp hle)
  · cases h

/-- A request has left the session: it is in no call of the pool. -/
theorem State.leave_spec (s : State K P D E) (r : Nat) (req : Request P)
    (outcome : Option Failure) : ∃ stage : Stage,
      stage.task? = none ∧ (s.leave u r req outcome).pool = s.pool ∧
      (s.leave u r req outcome).jobs = s.jobs ∧
      (s.leave u r req outcome).requests =
        s.requests.set r { req with stage := stage, struck := false } := by
  unfold State.leave
  dsimp only
  split
  · exact ⟨_, rfl, rfl, rfl, rfl⟩
  · split
    · exact ⟨_, rfl, rfl, rfl, rfl⟩
    · exact ⟨_, rfl, rfl, rfl, rfl⟩

/-- Behind `acquire` a request has a connection, has failed, or waits for one. -/
theorem State.acquired_cases (s : State K P D E) (r : Nat) (req : Request P) (t : Nat) :
    (∃ c, s.pc? t = some (.holding c) ∧ s.acquired u r req t =
      (s.submit r .fetchAll c).put r req (.fetching t c s.jobs.length)) ∨
    (∃ failure, s.acquired u r req t = s.leave u r req (some failure)) ∨
    s.acquired u r req t = s.put r req (.acquiring t) := by
  unfold State.acquired
  split
  · next c hc => exact .inl ⟨c, hc, rfl⟩
  · exact .inr (.inl ⟨_, rfl⟩)
  · exact .inr (.inr rfl)

/-- Behind `release` a request has left, closes its connection, or waits for the pool's lock. -/
theorem State.released_cases (s : State K P D E) (r : Nat) (req : Request P) (t : Nat)
    (c : Addr) (outcome : Option Failure) :
    (∃ outcome', (outcome' = outcome ∨ outcome' ≠ none) ∧
      s.released u r req t c outcome = s.leave u r req outcome') ∨
    (∃ d, s.pc? t = some (.closing d) ∧ s.released u r req t c outcome =
      (s.submit r .disconnect d).put r req (.releasing t c (some s.jobs.length) outcome)) ∨
    s.released u r req t c outcome = s.put r req (.releasing t c none outcome) := by
  unfold State.released
  split
  · exact .inl ⟨outcome, .inl rfl, rfl⟩
  · exact .inl ⟨_, .inr (by simp), rfl⟩
  · next d hd => exact .inr (.inl ⟨d, hd, rfl⟩)
  · exact .inr (.inr rfl)

/-- Behind `acquire` the pool is as `acquire` left it. -/
theorem State.acquired_pool (s : State K P D E) (r : Nat) (req : Request P) (t : Nat) :
    (s.acquired u r req t).pool = s.pool := by
  rcases s.acquired_cases (u := u) r req t with ⟨c, -, h⟩ | ⟨failure, h⟩ | h
  · rw [h]; rfl
  · rw [h]
    exact (s.leave_spec r req (some failure)).choose_spec.2.1
  · rw [h]; rfl

/-- Behind `release` the pool is as `release` left it. -/
theorem State.released_pool (s : State K P D E) (r : Nat) (req : Request P) (t : Nat) (c : Addr)
    (outcome : Option Failure) : (s.released u r req t c outcome).pool = s.pool := by
  rcases s.released_cases (u := u) r req t c outcome with ⟨o, -, h⟩ | ⟨d, -, h⟩ | h
  · rw [h]
    exact (s.leave_spec r req o).choose_spec.2.1
  · rw [h]; rfl
  · rw [h]; rfl

omit [DecidableEq K] in
/-- Dropping a job cancels it while it is queued, and touches no other one. -/
theorem getElem?_dropJob {i j : Nat} {job : Job} (h : (s.dropJob j).jobs[i]? = some job) :
    ∃ job₀, s.jobs[i]? = some job₀ ∧
      (job = job₀ ∨ job₀.state = .queued ∧ job = { job₀ with state := .cancelled }) := by
  simp only [State.dropJob, List.getElem?_modify, Option.map_eq_map,
    Option.map_eq_some_iff] at h
  obtain ⟨job₀, hjob₀, rfl⟩ := h
  refine ⟨job₀, hjob₀, ?_⟩
  split
  · split
    · next hq => exact .inr ⟨hq, rfl⟩
    · exact .inl rfl
  · exact .inl rfl

/-- A turn of request `r` touches no other request; of the jobs it cancels a queued one at most,
and may add one of its own. -/
structure Frame (s : State K P D E) (r : Nat) (req : Request P) (s' : State K P D E) : Prop where
  clock : s'.clock = s.clock
  request : ∃ req', s'.requests = s.requests.set r req' ∧ req'.run = req.run
  jobs : ∀ (i : Nat) (job' : Job), s'.jobs[i]? = some job' →
    (∃ job, s.jobs[i]? = some job ∧ job'.owner = job.owner ∧ job'.kind = job.kind ∧
      job'.committed = job.committed ∧ (job.state ≠ .queued → job'.state = job.state)) ∨
    job'.owner = r ∧ job'.committed = none

namespace Frame

variable {r : Nat} {req : Request P}

omit [DecidableEq K] in
private theorem jobs_same {i : Nat} {job' : Job} (h : s.jobs[i]? = some job') :
    (∃ job, s.jobs[i]? = some job ∧ job'.owner = job.owner ∧ job'.kind = job.kind ∧
      job'.committed = job.committed ∧ (job.state ≠ .queued → job'.state = job.state)) ∨
    job'.owner = r ∧ job'.committed = none :=
  .inl ⟨job', h, rfl, rfl, rfl, fun _ ↦ rfl⟩

omit [DecidableEq K] in
/-- The request only goes on. -/
theorem put (s : State K P D E) (r : Nat) (req : Request P) (stage : Stage) :
    Frame s r req (s.put r req stage) :=
  ⟨rfl, ⟨_, rfl, rfl⟩, fun _ _ ↦ jobs_same⟩

omit [DecidableEq K] in
/-- The request goes on with a new job. -/
theorem submit (s : State K P D E) (r : Nat) (req : Request P) (kind : JobKind) (c : Addr)
    (stage : Stage) : Frame s r req ((s.submit r kind c).put r req stage) := by
  refine ⟨rfl, ⟨_, rfl, rfl⟩, fun i job' h ↦ ?_⟩
  rcases getElem?_append_singleton (show (s.jobs ++ [_])[i]? = some job' from h) with h | ⟨-, rfl⟩
  · exact jobs_same h
  · exact .inr ⟨rfl, rfl⟩

/-- The request leaves the session. -/
theorem leave (s : State K P D E) (r : Nat) (req : Request P) (outcome : Option Failure) :
    Frame s r req (s.leave u r req outcome) := by
  unfold State.leave
  dsimp only
  split
  · exact ⟨rfl, ⟨_, rfl, rfl⟩, fun _ _ ↦ jobs_same⟩
  · split
    · exact ⟨rfl, ⟨_, rfl, rfl⟩, fun _ _ ↦ jobs_same⟩
    · exact ⟨rfl, ⟨_, rfl, rfl⟩, fun _ _ ↦ jobs_same⟩

/-- The request goes on behind `acquire`. -/
theorem acquired (s : State K P D E) (r : Nat) (req : Request P) (t : Nat) :
    Frame s r req (s.acquired u r req t) := by
  rcases s.acquired_cases (u := u) r req t with ⟨c, -, heq⟩ | ⟨failure, heq⟩ | heq
  · rw [heq]
    exact submit s r req _ c _
  · rw [heq]
    exact leave s r req _
  · rw [heq]
    exact put s r req _

/-- The request goes on behind `release`. -/
theorem released (s : State K P D E) (r : Nat) (req : Request P) (t : Nat) (c : Addr)
    (outcome : Option Failure) : Frame s r req (s.released u r req t c outcome) := by
  rcases s.released_cases (u := u) r req t c outcome with ⟨o, -, heq⟩ | ⟨d, -, heq⟩ | heq
  · rw [heq]
    exact leave s r req o
  · rw [heq]
    exact submit s r req _ d _
  · rw [heq]
    exact put s r req _

omit [DecidableEq K] in
/-- The pool and the permits are no part of the frame. -/
theorem of_pool {pool : Pool.Async.State} {permits : Cost → Nat}
    (h : Frame { s with pool := pool, permits := permits } r req s') : Frame s r req s' :=
  ⟨h.clock, h.request, h.jobs⟩

omit [DecidableEq K] in
/-- A queued job is cancelled first. -/
theorem of_dropJob {j : Nat} {pool : Pool.Async.State}
    (h : Frame { s.dropJob j with pool := pool } r req s') : Frame s r req s' := by
  refine ⟨h.clock, h.request, fun i job' hi ↦ ?_⟩
  rcases h.jobs i job' hi with ⟨job, hjob, ho, hk, hc, hst⟩ | hnew
  · left
    obtain ⟨job₀, hjob₀, rfl | ⟨hq, rfl⟩⟩ := getElem?_dropJob hjob
    · exact ⟨job, hjob₀, ho, hk, hc, hst⟩
    · exact ⟨job₀, hjob₀, ho, hk, hc, fun hne ↦ absurd hq hne⟩
  · exact .inr hnew

end Frame

/-- Every turn keeps to its frame. -/
theorem Turn.frame {r : Nat} {req : Request P} {ch : Choice} (h : Turn u s r req ch s') :
    Frame s r req s' := by
  cases h with
  | refused hg hk => exact .put s r req _
  | enter hg hk hcall hp hch permits => exact (Frame.acquired _ r req _).of_pool
  | acquire hg hp hch => exact (Frame.acquired _ r req _).of_pool
  | drop ht hj hk hp hch => exact (Frame.released _ r req _ _ _).of_dropJob
  | retry hg hk hj => exact .submit s r req _ _ _
  | release ht hj hk hover ho hp hch => exact (Frame.released _ r req _ _ _).of_pool
  | close hg hs hp hch =>
    rcases hs with rfl | ⟨j, -, rfl⟩
    · exact (Frame.released _ r req _ _ _).of_pool
    · exact (Frame.released _ r req _ _ _).of_dropJob
  | interrupt hg hk => exact .put s r req _
  | flush hg hk hlt => exact .put s r req _
  | flushed hg hk hle => exact ⟨rfl, ⟨_, rfl, rfl⟩, fun _ _ ↦ Frame.jobs_same⟩

/-- In a turn of a request one task of the pool takes its turn at most, which may be a new one. -/
theorem Turn.pool_cases {r : Nat} {req : Request P} {ch : Choice} (h : Turn u s r req ch s') :
    s'.pool = s.pool ∨ ∃ (t : Nat) (p : Pool.Async.State) (ch' : Choice),
      (p = s.pool ∨ Pool.Async.step s.pool (.call .acquire) = some p) ∧
      Pool.Async.step p (.resume t ch') = some s'.pool ∧ ch'.addr = ch.addr := by
  cases h with
  | refused | interrupt | flush | flushed | retry => exact .inl rfl
  | enter hg hk hcall hp hch =>
    rw [State.acquired_pool]
    exact .inr ⟨_, _, _, .inr hcall, hp, hch⟩
  | acquire hg hp hch =>
    rw [State.acquired_pool]
    exact .inr ⟨_, _, _, .inl rfl, hp, hch⟩
  | drop ht hj hk hp hch =>
    rw [State.released_pool]
    exact .inr ⟨_, _, _, .inl rfl, hp, hch⟩
  | release ht hj hk hover ho hp hch =>
    rw [State.released_pool]
    exact .inr ⟨_, _, _, .inl rfl, hp, hch⟩
  | close hg hs hp hch =>
    rw [State.released_pool]
    exact .inr ⟨_, _, _, .inl rfl, hp, hch⟩

/-- The action is about the job `j` in the executor. -/
def Act.job? : Act K P D E → Option Nat
  | .start j | .commit j | .finish j _ => some j
  | _ => none

omit [DecidableEq K] in
/-- A request is struck: it notes the reason, and `CancelledError` is due in it or in the pool. -/
theorem strike_spec {r : Nat} {req : Request P} {how : Strike}
    (h : s.strike r req how = some s') : ∃ (struck : Bool) (pool : Pool.Async.State),
      s' = { s with
        pool := pool
        requests := s.requests.set r { req.hit how with struck := struck } } ∧
      (pool = s.pool ∨
        ∃ t, req.stage.task? = some t ∧ Pool.Async.step s.pool (.cancel t) = some pool) := by
  unfold State.strike at h
  split at h
  · cases h
  · split at h
    · cases h
    · next t hg =>
      obtain ⟨p', hp, rfl⟩ := Option.map_eq_some_iff.mp h
      exact ⟨_, p', rfl, .inr ⟨t, by rw [hg]; rfl, hp⟩⟩
    · next t _ _ _ hg =>
      obtain ⟨p', hp, rfl⟩ := Option.map_eq_some_iff.mp h
      exact ⟨_, p', rfl, .inr ⟨t, by rw [hg]; rfl, hp⟩⟩
    · obtain rfl := Option.some.inj h
      exact ⟨true, s.pool, rfl, .inl rfl⟩

/-- Everything that a step can do. -/
theorem step_cases {a : Act K P D E} (h : step u s a = some s') :
    (∃ run, a = .call run ∧ run.denied u = false ∧ s' = { s with
      requests := s.requests ++ [⟨run, .gate, false, false, false, none⟩],
      clock := s.clock + 1 }) ∨
    (∃ r ch req s₁, a = .resume r ch ∧ s.requests[r]? = some req ∧ ch.addr ∉ s.sessions ∧
      Turn u s r req ch s₁ ∧ s' = { s₁ with clock := s.clock + 1 }) ∨
    (∃ r how req s₁, a = .strike r how ∧ s.requests[r]? = some req ∧
      s.strike r req how = some s₁ ∧ s' = { s₁ with clock := s.clock + 1 }) ∨
    (∃ j job job', a.job? = some j ∧ s.jobs[j]? = some job ∧ job.advance s.clock a = some job' ∧
      s' = { s with jobs := s.jobs.set j job', clock := s.clock + 1 }) ∨
    (∃ pool, ((∃ t, Pool.Async.step s.pool (.timer t) = some pool) ∨
        Pool.Async.step s.pool .metrics = some pool) ∧
      s' = { s with pool := pool, clock := s.clock + 1 }) ∨
    (∃ cache, a = .others cache ∧ s' = { s with cache := cache, clock := s.clock + 1 }) := by
  obtain ⟨s₁, h₁, rfl⟩ := Option.map_eq_some_iff.mp h
  cases a with
  | call run =>
    simp only [State.act] at h₁
    split at h₁
    · cases h₁
    · next hd =>
      obtain rfl := Option.some.inj h₁
      exact .inl ⟨run, rfl, by simpa using hd, rfl⟩
  | resume r ch =>
    simp only [State.act] at h₁
    split at h₁
    · cases h₁
    · next hch =>
      obtain ⟨req, hreq, hres⟩ := Option.bind_eq_some_iff.mp h₁
      exact .inr (.inl ⟨r, ch, req, s₁, rfl, hreq, hch, turn_of_resume hres, rfl⟩)
  | strike r how =>
    obtain ⟨req, hreq, hstrike⟩ := Option.bind_eq_some_iff.mp h₁
    exact .inr (.inr (.inl ⟨r, how, req, s₁, rfl, hreq, hstrike, rfl⟩))
  | timer r =>
    obtain ⟨req, hreq, ht⟩ := Option.bind_eq_some_iff.mp h₁
    split at ht
    · next t hg =>
      obtain ⟨p', hp, rfl⟩ := Option.map_eq_some_iff.mp ht
      exact .inr (.inr (.inr (.inr (.inl ⟨p', .inl ⟨t, hp⟩, rfl⟩))))
    · cases ht
  | metrics =>
    obtain rfl := Option.some.inj h₁
    exact .inr (.inr (.inr (.inr (.inl ⟨_, .inr rfl, rfl⟩))))
  | others cache =>
    obtain rfl := Option.some.inj h₁
    exact .inr (.inr (.inr (.inr (.inr ⟨cache, rfl, rfl⟩))))
  | start j | commit j | finish j exc =>
    obtain ⟨job, hjob, hadv⟩ := Option.bind_eq_some_iff.mp h₁
    obtain ⟨job', hjob', rfl⟩ := Option.map_eq_some_iff.mp hadv
    exact .inr (.inr (.inr (.inl ⟨j, job, job', rfl, hjob, hjob', rfl⟩)))

end SalesData.Execution

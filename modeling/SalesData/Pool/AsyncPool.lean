import SalesData.Base.Lock
import SalesData.Base.System
import SalesData.Pool.Stats

/-!
# The asynchronous pool

`core/db/pool/async_pool.py:77–249`. A task runs without interruption between two `await`s
that really suspend; a program counter names the `await` at which it is suspended. The pool
lock is only held across a suspension while a broken connection is being closed, so the body
of every other `async with self._lock` is one atomic step, entered at once when the lock is
free and after queueing otherwise. A cancellation is first requested and takes effect when
the task runs next; the timer of `asyncio.wait_for` behaves the same way.
-/

namespace SalesData.Pool.Async

open Base

/-- How a call can end other than by returning. -/
inductive Failure where
  | maxConnectionsExceeded
  | cancelledError
  | creationFailed
  deriving DecidableEq, Repr

/-- Where a task is suspended. `start` is the clock at the beginning of its `acquire`. -/
inductive PC where
  /-- Created and not yet run. -/
  | called (job : Job)
  /-- Queued for the lock at the top of the loop, `again` after a wakeup; line 84. -/
  | loop (start : Time) (again : Bool)
  /-- In `wait_for(waiter.wait())` on event number `w`; line 114. -/
  | waiting (start : Time) (w : Nat)
  /-- Queued for the lock in the `TimeoutError` handler; line 116. -/
  | lockTimeout (start : Time) (w : Nat)
  /-- Queued for the lock in the `CancelledError` handler; line 155. -/
  | lockCancel (w : Nat)
  /-- In `await self._create()` with the slot `k` reserved; line 130. -/
  | creating (start createStart : Time) (k : Addr)
  /-- Queued for the lock in the creation's `BaseException` handler; line 136. -/
  | lockUndo (k : Addr) (err : Failure)
  /-- Queued for the lock with a created connection; line 142. -/
  | lockPublish (start elapsed : Time) (k c : Addr)
  /-- `acquire` has returned `c` to its caller. -/
  | holding (c : Addr)
  /-- Queued for the lock in `release`; line 190. -/
  | lockRelease (c : Addr) (broken stray : Bool)
  /-- In `await maybe_close` inside `release`, with the lock held; line 202. -/
  | closing (c : Addr)
  /-- Queued for the lock in `close_all`; line 227. -/
  | lockCloseAll
  /-- In `await conn.close()` inside `close_all`, with `rest` still to be closed; line 236. -/
  | closingAll (rest : List Addr)
  /-- Queued for the lock in `warmup_async`; `core/db/session.py:373`. -/
  | lockWarmup (target : Nat)
  /-- Returned, or raised a failure. -/
  | ended (outcome : Option Failure)
  deriving DecidableEq, Repr

namespace PC

/-- Placeholder objects in the task's frame. -/
def placeholders : PC → List Addr
  | creating _ _ k | lockUndo k _ | lockPublish _ _ k _ => [k]
  | _ => []

/-- Connections in the frames of the task and of its caller. -/
def conns : PC → List Addr
  | lockPublish _ _ _ c | holding c | lockRelease c _ _ => [c]
  | called (.release c _) => [c]
  | closingAll rest => rest
  | _ => []

/-- The task is suspended inside a call of the pool. -/
def suspended : PC → Bool
  | holding _ | ended _ => false
  | _ => true

/-- The task is queued for the pool lock. -/
def queued : PC → Bool
  | loop _ _ | lockTimeout _ _ | lockCancel _ | lockUndo _ _ | lockPublish _ _ _ _
  | lockRelease _ _ _ | lockCloseAll | lockWarmup _ => true
  | _ => false

end PC

/-- A task with its pending cancellation and its expired timer. -/
structure Task where
  pc : PC
  cancelled : Bool
  timedOut : Bool
  deriving DecidableEq, Repr

/-- `AsyncConnectionPool`. An event is known by the value of `_total_waiters_ever` at its
creation; `signalled` lists the events that are set and still referenced. -/
structure AsyncPool where
  store : Store
  lock : Lock
  waiters : List Nat
  signalled : List Nat
  stats : Stats

/-- What the environment decides when a task runs: the clock, the address of an object that
is created, whether creation succeeds, whether `close` suspends, and whether a holder
releases its connection as broken. -/
structure Choice where
  now : Time := 0
  addr : Addr := 0
  ok : Bool := true
  suspends : Bool := false
  broken : Bool := false
  deriving DecidableEq, Repr

namespace AsyncPool

/-- `AsyncConnectionPool.__init__`; `core/db/pool/async_pool.py:38–75`. -/
def new (minConn maxConn : Nat) : AsyncPool := ⟨.new minConn maxConn, .new, [], [], .new⟩

/-- Leave `async with self._lock`. -/
def unlock (p : AsyncPool) : AsyncPool := { p with lock := p.lock.release }

/-- Set the event of the oldest waiter; `core/db/pool/async_pool.py:221–222`. -/
def wakeOldest (p : AsyncPool) : AsyncPool :=
  match p.waiters with
  | [] => p
  | w :: ws => { p with waiters := ws, signalled := w :: p.signalled }

/-- Drop an event that nobody awaits any more. -/
def dropEvent (p : AsyncPool) (w : Nat) : AsyncPool :=
  { p with signalled := p.signalled.erase w }

/-- `if waiter in self._waiters: self._waiters.remove(waiter)`. -/
def removeWaiter (p : AsyncPool) (w : Nat) : AsyncPool :=
  { p with waiters := p.waiters.erase w }

/-- One pass of the loop in `acquire`; `core/db/pool/async_pool.py:85–111`. `waiter` is
`None` whenever the loop is entered, so a full pool always creates a new event. -/
def loopBody (p : AsyncPool) (start : Time) (ch : Choice) : AsyncPool × PC :=
  match p.store.take ch.now ch.addr with
  | (s, .hit c) =>
    ({ p with store := s, stats := p.stats.recordAcquire start ch.now true }.unlock, .holding c)
  | (s, .reserved) => ({ p with store := s }.unlock, .creating start ch.now ch.addr)
  | (s, .full) =>
    let w := p.stats.totalWaitersEver
    ({ p with store := s, waiters := p.waiters ++ [w], stats := p.stats.recordWaiter }.unlock,
      .waiting start w)

/-- The body of `release`; `core/db/pool/async_pool.py:191–222`. -/
def releaseBody (p : AsyncPool) (c : Addr) (broken : Bool) (ch : Choice) : AsyncPool × PC :=
  match p.store.release c broken with
  | (s, false) => ({ p with store := s }.unlock, .ended none)
  | (s, true) =>
    let p := { p with
      store := s, stats := if broken then p.stats.recordBroken else p.stats }
    if broken && ch.suspends then (p, .closing c)
    else (p.wakeOldest.unlock, .ended none)

/-- Call `close` on the next connection of `close_all`; `core/db/pool/async_pool.py:233–238`. -/
def nextClose (p : AsyncPool) : List Addr → AsyncPool × PC
  | [] => (p, .ended none)
  | c :: rest => ({ p with store := p.store.close c }, .closingAll rest)

/-- What a task does under the lock that it has just taken. -/
def underLock (p : AsyncPool) (ch : Choice) : PC → AsyncPool × PC
  | .loop start _ => p.loopBody start ch
  | .lockTimeout start w =>
    ({ (p.removeWaiter w).dropEvent w with
      stats := p.stats.recordTimeout start ch.now }.unlock,
      .ended (some .maxConnectionsExceeded))
  | .lockCancel w =>
    (((p.removeWaiter w).dropEvent w).unlock, .ended (some .cancelledError))
  | .lockUndo k err => ({ p with store := p.store.undo k }.unlock, .ended (some err))
  | .lockPublish start elapsed k c =>
    ({ p with
      store := p.store.publish ch.now k c
      stats := p.stats.recordCreation start ch.now elapsed }.unlock, .holding c)
  | .lockRelease c broken _ => p.releaseBody c broken ch
  | .lockCloseAll => nextClose { p with store := p.store.drain.1 }.unlock p.store.drain.2
  | .lockWarmup target =>
    let sizer := p.store.sizer.raise (min target p.store.sizer.max)
    ({ p with store := { p.store with sizer := sizer } }.unlock, .ended none)
  | pc => (p, pc)

/-- `async with self._lock` by task `t`: enter at once, or queue at `q`. -/
def arrive (p : AsyncPool) (t : Nat) (ch : Choice) (q : PC) : AsyncPool × PC :=
  if p.lock.free then { p with lock := p.lock.take }.underLock ch q
  else ({ p with lock := p.lock.enqueue t }, q)

/-- The pending cancellation of task `t` takes effect. -/
def throwCancelled (p : AsyncPool) (t : Nat) (ch : Choice) : PC → AsyncPool × PC
  | .waiting _ w => p.arrive t ch (.lockCancel w)
  | .lockTimeout _ w => { p with lock := p.lock.abandon t }.arrive t ch (.lockCancel w)
  | .lockCancel w =>
    (dropEvent { p with lock := p.lock.abandon t } w, .ended (some .cancelledError))
  | .creating _ _ k => p.arrive t ch (.lockUndo k .cancelledError)
  | .closing _ => (p.unlock, .ended (some .cancelledError))
  | .called _ | .closingAll _ => (p, .ended (some .cancelledError))
  | _ => ({ p with lock := p.lock.abandon t }, .ended (some .cancelledError))

/-- Task `t` goes on from where it is suspended; `none` while what it awaits is not ready. -/
def resume (p : AsyncPool) (t : Nat) (ch : Choice) : PC → Option (AsyncPool × PC)
  | .called .acquire =>
    some ({ p with stats := p.stats.recordRequest }.arrive t ch (.loop ch.now false))
  | .called (.release c broken) => some (p.arrive t ch (.lockRelease c broken true))
  | .called .closeAll => some (p.arrive t ch .lockCloseAll)
  | .called (.warmup target) => some (p.arrive t ch (.lockWarmup target))
  | .waiting start w =>
    if w ∈ p.signalled then some ((p.dropEvent w).arrive t ch (.loop start true)) else none
  | .creating start createStart k =>
    if ch.ok then
      some ({ p with store := p.store.allocate ch.addr }.arrive t ch
        (.lockPublish start (ch.now - createStart) k ch.addr))
    else some (p.arrive t ch (.lockUndo k .creationFailed))
  | .holding c => some (p.arrive t ch (.lockRelease c ch.broken false))
  | .closing _ => some (p.wakeOldest.unlock, .ended none)
  | .closingAll rest => some (p.nextClose rest)
  | .ended _ => none
  | q =>
    if p.lock.granted t then
      some ({ p with lock := (p.lock.leave t).take }.underLock ch q)
    else none

/-- Task `t` runs until it suspends again. -/
def run (p : AsyncPool) (t : Nat) (ch : Choice) (task : Task) : Option (AsyncPool × PC) :=
  if task.cancelled then some (p.throwCancelled t ch task.pc)
  else match task.pc with
    | .waiting start w =>
      if task.timedOut then some (p.arrive t ch (.lockTimeout start w))
      else p.resume t ch (.waiting start w)
    | pc => p.resume t ch pc

/-- `metrics()` lets the sizer adjust; `core/db/pool/async_pool.py:240–249`. -/
def metrics (p : AsyncPool) : AsyncPool :=
  { p with store := { p.store with
    sizer := p.store.sizer.adjust p.waiters.length p.stats.recentAvgMs } }

end AsyncPool

namespace AsyncPool

/-- How a task comes to the lock: what it does on the way, and where it enters or queues. -/
inductive Arrives (p : AsyncPool) (ch : Choice) : PC → AsyncPool → PC → Prop
  | acquire : Arrives p ch (.called .acquire) { p with stats := p.stats.recordRequest }
      (.loop ch.now false)
  | stray {c : Addr} {broken : Bool} :
      Arrives p ch (.called (.release c broken)) p (.lockRelease c broken true)
  | closeAll : Arrives p ch (.called .closeAll) p .lockCloseAll
  | warmup {target : Nat} : Arrives p ch (.called (.warmup target)) p (.lockWarmup target)
  | woken {start : Time} {w : Nat} : w ∈ p.signalled →
      Arrives p ch (.waiting start w) (p.dropEvent w) (.loop start true)
  | created {start createStart : Time} {k : Addr} : ch.ok = true →
      Arrives p ch (.creating start createStart k) { p with store := p.store.allocate ch.addr }
        (.lockPublish start (ch.now - createStart) k ch.addr)
  | failed {start createStart : Time} {k : Addr} : ch.ok = false →
      Arrives p ch (.creating start createStart k) p (.lockUndo k .creationFailed)
  | release {c : Addr} : Arrives p ch (.holding c) p (.lockRelease c ch.broken false)

/-- How a task goes on. -/
inductive Resumes (p : AsyncPool) (t : Nat) (ch : Choice) : PC → AsyncPool → PC → Prop
  | arrives {pc q : PC} {p₁ : AsyncPool} : Arrives p ch pc p₁ q →
      Resumes p t ch pc (p₁.arrive t ch q).1 (p₁.arrive t ch q).2
  | granted {q : PC} : q.queued → p.lock.granted t = true →
      Resumes p t ch q ({ p with lock := (p.lock.leave t).take }.underLock ch q).1
        ({ p with lock := (p.lock.leave t).take }.underLock ch q).2
  | closed {c : Addr} : Resumes p t ch (.closing c) p.wakeOldest.unlock (.ended none)
  | closes {rest : List Addr} :
      Resumes p t ch (.closingAll rest) (p.nextClose rest).1 (p.nextClose rest).2

/-- How a task runs: its cancellation or its timer takes effect, or it goes on. -/
inductive Runs (p : AsyncPool) (t : Nat) (ch : Choice) : Task → AsyncPool → PC → Prop
  | cancelled {pc : PC} {timedOut : Bool} :
      Runs p t ch ⟨pc, true, timedOut⟩ (p.throwCancelled t ch pc).1 (p.throwCancelled t ch pc).2
  | timedOut {start : Time} {w : Nat} :
      Runs p t ch ⟨.waiting start w, false, true⟩ (p.arrive t ch (.lockTimeout start w)).1
        (p.arrive t ch (.lockTimeout start w)).2
  | resumes {pc pc' : PC} {timedOut : Bool} {p' : AsyncPool} : Resumes p t ch pc p' pc' →
      (∀ start w, pc = .waiting start w → timedOut = false) →
      Runs p t ch ⟨pc, false, timedOut⟩ p' pc'

/-- There is no other way to go on. -/
theorem resumes_of_resume {p p' : AsyncPool} {t : Nat} {ch : Choice} {pc pc' : PC}
    (h : p.resume t ch pc = some (p', pc')) : p.Resumes t ch pc p' pc' := by
  unfold resume at h
  split at h
  · obtain ⟨rfl, rfl⟩ := Prod.mk.inj (Option.some.inj h)
    exact .arrives .acquire
  · obtain ⟨rfl, rfl⟩ := Prod.mk.inj (Option.some.inj h)
    exact .arrives .stray
  · obtain ⟨rfl, rfl⟩ := Prod.mk.inj (Option.some.inj h)
    exact .arrives .closeAll
  · obtain ⟨rfl, rfl⟩ := Prod.mk.inj (Option.some.inj h)
    exact .arrives .warmup
  · split at h
    · next hw =>
      obtain ⟨rfl, rfl⟩ := Prod.mk.inj (Option.some.inj h)
      exact .arrives (.woken hw)
    · cases h
  · split at h
    · next hok =>
      obtain ⟨rfl, rfl⟩ := Prod.mk.inj (Option.some.inj h)
      exact .arrives (.created hok)
    · next hok =>
      obtain ⟨rfl, rfl⟩ := Prod.mk.inj (Option.some.inj h)
      exact .arrives (.failed (Bool.eq_false_iff.mpr hok))
  · obtain ⟨rfl, rfl⟩ := Prod.mk.inj (Option.some.inj h)
    exact .arrives .release
  · obtain ⟨rfl, rfl⟩ := Prod.mk.inj (Option.some.inj h)
    exact .closed
  · obtain ⟨rfl, rfl⟩ := Prod.mk.inj (Option.some.inj h)
    exact .closes
  · cases h
  · split at h
    · next hgranted =>
      obtain ⟨rfl, rfl⟩ := Prod.mk.inj (Option.some.inj h)
      refine .granted ?_ hgranted
      cases pc with
      | called job => cases job <;> simp_all
      | _ => simp_all [PC.queued]
    · cases h

/-- There is no other way to run. -/
theorem runs_of_run {p p' : AsyncPool} {t : Nat} {ch : Choice} {task : Task} {pc' : PC}
    (h : p.run t ch task = some (p', pc')) : p.Runs t ch task p' pc' := by
  obtain ⟨pc, cancelled, timedOut⟩ := task
  unfold run at h
  split at h
  · next hcancelled =>
    obtain rfl : cancelled = true := hcancelled
    obtain ⟨rfl, rfl⟩ := Prod.mk.inj (Option.some.inj h)
    exact .cancelled
  · next hcancelled =>
    obtain rfl : cancelled = false := Bool.eq_false_iff.mpr hcancelled
    split at h
    · next start w hpc =>
      obtain rfl : pc = .waiting start w := hpc
      split at h
      · next htimer =>
        obtain rfl : timedOut = true := htimer
        obtain ⟨rfl, rfl⟩ := Prod.mk.inj (Option.some.inj h)
        exact .timedOut
      · next htimer =>
        exact .resumes (resumes_of_resume h) fun _ _ _ ↦ Bool.eq_false_iff.mpr htimer
    · next hwaiting =>
      exact .resumes (resumes_of_resume h) fun start w hpc ↦ (hwaiting start w hpc).elim

end AsyncPool

/-- The pool and all tasks that ever called it. -/
structure State where
  pool : AsyncPool
  tasks : List Task

namespace State

/-- Placeholders of all tasks. -/
def placeholders (s : State) : List Addr := s.tasks.flatMap fun t ↦ t.pc.placeholders

/-- The addresses of live objects; a new object is created at another one. -/
def live (s : State) : List Addr :=
  (s.tasks.flatMap fun t ↦ t.pc.placeholders ++ t.pc.conns) ++ s.pool.store.idle ++
    s.pool.store.used

end State

/-- Scheduler actions. -/
inductive Act where
  | call (job : Job)
  | resume (t : Nat) (ch : Choice)
  | cancel (t : Nat)
  | timer (t : Nat)
  | metrics
  deriving DecidableEq, Repr

/-- A caller can only release an object that it can refer to. -/
def State.callable (s : State) : Job → Bool
  | .release c _ => decide (c ∉ s.placeholders)
  | _ => true

/-- One scheduler action. -/
def step (s : State) : Act → Option State
  | .call job =>
    if s.callable job then some { s with tasks := s.tasks ++ [⟨.called job, false, false⟩] }
    else none
  | .resume t ch =>
    match s.tasks[t]? with
    | none => none
    | some task =>
      if ch.addr ∈ s.live then none
      else (s.pool.run t ch task).map fun (p, pc) ↦ ⟨p, s.tasks.set t ⟨pc, false, false⟩⟩
  | .cancel t =>
    match s.tasks[t]? with
    | none => none
    | some task =>
      if task.pc.suspended then
        some ⟨{ s.pool with lock := s.pool.lock.cancelTurn t },
          s.tasks.set t { task with cancelled := true }⟩
      else none
  | .timer t =>
    match s.tasks[t]? with
    | some ⟨.waiting start w, cancelled, _⟩ =>
      some { s with tasks := s.tasks.set t ⟨.waiting start w, cancelled, true⟩ }
    | _ => none
  | .metrics => some { s with pool := s.pool.metrics }

/-- What a task's turn does: the task runs, and its requests are spent. -/
theorem step_resume {s s' : State} {t : Nat} {ch : Choice} (h : step s (.resume t ch) = some s') :
    ∃ task p' pc', s.tasks[t]? = some task ∧ ch.addr ∉ s.live ∧
      s.pool.run t ch task = some (p', pc') ∧
      s' = ⟨p', s.tasks.set t ⟨pc', false, false⟩⟩ := by
  unfold step at h
  dsimp only at h
  split at h
  · cases h
  · next task ht =>
    split at h
    · cases h
    · next hch =>
      obtain ⟨⟨p', pc'⟩, hr, rfl⟩ := Option.map_eq_some_iff.mp h
      exact ⟨task, p', pc', ht, hch, hr, rfl⟩

/-- A cancellation is only requested, of a task that is suspended in a call. -/
theorem step_cancel {s s' : State} {t : Nat} (h : step s (.cancel t) = some s') :
    ∃ task, s.tasks[t]? = some task ∧ task.pc.suspended ∧
      s' = ⟨{ s.pool with lock := s.pool.lock.cancelTurn t },
        s.tasks.set t { task with cancelled := true }⟩ := by
  unfold step at h
  dsimp only at h
  split at h
  · cases h
  · next task ht =>
    split at h
    · next hsus => exact ⟨task, ht, hsus, (Option.some.inj h).symm⟩
    · cases h

/-- A timer expires only for a task that waits for its event. -/
theorem step_timer {s s' : State} {t : Nat} (h : step s (.timer t) = some s') :
    ∃ start w cancelled timedOut, s.tasks[t]? = some ⟨.waiting start w, cancelled, timedOut⟩ ∧
      s' = { s with tasks := s.tasks.set t ⟨.waiting start w, cancelled, true⟩ } := by
  unfold step at h
  dsimp only at h
  split at h
  · next start w cancelled timedOut ht =>
    exact ⟨start, w, cancelled, timedOut, ht, (Option.some.inj h).symm⟩
  · cases h

/-- A call adds a task that has not run yet. -/
theorem step_call {s s' : State} {job : Job} (h : step s (.call job) = some s') :
    s.callable job ∧ s' = { s with tasks := s.tasks ++ [⟨.called job, false, false⟩] } := by
  unfold step at h
  dsimp only at h
  split at h
  · next hc => exact ⟨hc, (Option.some.inj h).symm⟩
  · cases h

/-- The pool as a transition system. -/
def system (minConn maxConn : Nat) : System State Act := ⟨⟨.new minConn maxConn, []⟩, step⟩

end SalesData.Pool.Async

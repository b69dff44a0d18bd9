import SalesData.Base.System
import SalesData.Pool.Stats

/-!
# The thread pool

`core/db/pool/sync_pool.py:65–194`. Threads interleave everywhere except inside
`with self._lock`, whose body is one atomic step; `Condition.wait` ends such a body and goes
on, under the lock again, after a `notify` or after its timeout. A thread that had to wait
takes the lock once more before `acquire` returns. The counter `_requests`, which is written
without the lock, is left out.
-/

namespace SalesData.Pool.Sync

open Base

/-- How an acquire can fail; `interrupted` is a `BaseException` that is no `Exception`. -/
inductive Failure where
  | maxConnectionsExceeded
  | creationFailed
  | interrupted
  deriving DecidableEq, Repr

/-- Where a thread is. `counted` tells whether it is part of `_current_waiters`. -/
inductive PC where
  /-- Started and not yet run. -/
  | called (job : Job)
  /-- About to take the lock in `acquire`; line 72. -/
  | enter (start : Time)
  /-- In `self._not_empty.wait`; line 102. -/
  | waiting (start : Time)
  /-- In `self._create()` with the slot `k` reserved; line 110. -/
  | creating (start createStart : Time) (k : Addr) (counted : Bool)
  /-- About to take the lock after a failed creation; line 112. -/
  | undo (k : Addr) (counted : Bool)
  /-- About to take the lock with a created connection; line 117. -/
  | publish (start elapsed : Time) (k c : Addr) (counted : Bool)
  /-- About to take the lock in `finally`, and to return `c` then; line 129. -/
  | leaving (c : Addr)
  /-- About to take the lock in `finally`, and to raise then; line 129. -/
  | failing (err : Failure)
  /-- `acquire` has returned `c` to its caller. -/
  | holding (c : Addr)
  /-- In `close_all`, with `rest` still to be closed; line 189. -/
  | closingAll (rest : List Addr)
  /-- Returned, or raised a failure. -/
  | ended (outcome : Option Failure)
  deriving DecidableEq, Repr

namespace PC

/-- Placeholder objects in the thread's frame. -/
def placeholders : PC → List Addr
  | creating _ _ k _ | undo k _ | publish _ _ k _ _ => [k]
  | _ => []

/-- Connections in the frames of the thread and of its caller. -/
def conns : PC → List Addr
  | publish _ _ _ c _ | leaving c | holding c => [c]
  | called (.release c _) => [c]
  | closingAll rest => rest
  | _ => []

end PC

/-- `SyncConnectionPool`. `waiting` and `notified` are the threads in the condition's queue
and the threads that `notify` took out of it and that have not gone on yet. -/
structure SyncPool where
  store : Store
  timeout : Time
  waiting : List Nat
  notified : List Nat
  currentWaiters : Nat
  stats : Stats

/-- How `create_connection` ends. -/
inductive Creation where
  | made
  | failed
  | interrupted
  deriving DecidableEq, Repr

/-- What the environment decides when a thread runs: the clock, the address of an object that
is created, the end of the creation, whether a wait is over because of its timeout, and
whether a holder releases its connection as broken. -/
structure Choice where
  now : Time := 0
  addr : Addr := 0
  creation : Creation := .made
  expired : Bool := false
  broken : Bool := false
  deriving DecidableEq, Repr

namespace SyncPool

/-- `SyncConnectionPool.__init__`; `core/db/pool/sync_pool.py:28–63`. -/
def new (minConn maxConn : Nat) (timeout : Time) : SyncPool :=
  ⟨.new minConn maxConn, timeout, [], [], 0, .new⟩

/-- `self._not_empty.notify()`. -/
def notify (p : SyncPool) : SyncPool :=
  match p.waiting with
  | [] => p
  | t :: ts => { p with waiting := ts, notified := t :: p.notified }

/-- Thread `t` is back from `wait`. -/
def wake (p : SyncPool) (t : Nat) : SyncPool :=
  { p with waiting := p.waiting.erase t, notified := p.notified.erase t }

/-- `acquire` is done with `c`; a counted thread has to pass through `finally`. -/
def got (counted : Bool) (c : Addr) : PC := if counted then .leaving c else .holding c

/-- `acquire` raises; a counted thread has to pass through `finally`. -/
def raised (counted : Bool) (err : Failure) : PC :=
  if counted then .failing err else .ended (some err)

/-- Join `_current_waiters`, once; `core/db/pool/sync_pool.py:87–90`. -/
def count (p : SyncPool) (counted : Bool) : SyncPool :=
  if counted then p
  else { p with currentWaiters := p.currentWaiters + 1, stats := p.stats.recordWaiter }

/-- Give up once the deadline has passed, else wait; `core/db/pool/sync_pool.py:92–102`. -/
def awaitTurn (p : SyncPool) (t : Nat) (start : Time) (ch : Choice) : SyncPool × PC :=
  if start + p.timeout ≤ ch.now then
    ({ p with stats := p.stats.recordTimeout start ch.now }, .failing .maxConnectionsExceeded)
  else ({ p with waiting := p.waiting ++ [t] }, .waiting start)

/-- One pass of the loop in `acquire`; `core/db/pool/sync_pool.py:73–105`. -/
def loopBody (p : SyncPool) (t : Nat) (start : Time) (counted : Bool) (ch : Choice) :
    SyncPool × PC :=
  match p.store.take ch.now ch.addr with
  | (s, .hit c) =>
    ({ p with store := s, stats := p.stats.recordAcquire start ch.now true }, got counted c)
  | (s, .reserved) => ({ p with store := s }, .creating start ch.now ch.addr counted)
  | (s, .full) => (count { p with store := s } counted).awaitTurn t start ch

/-- The body of `release`; `core/db/pool/sync_pool.py:150–174`. -/
def releaseBody (p : SyncPool) (c : Addr) (broken : Bool) : SyncPool :=
  match p.store.release c broken with
  | (s, false) => { p with store := s }
  | (s, true) =>
    { p with store := s, stats := if broken then p.stats.recordBroken else p.stats }.notify

/-- Leave `_current_waiters`; `core/db/pool/sync_pool.py:130`. -/
def uncount (p : SyncPool) : SyncPool := { p with currentWaiters := p.currentWaiters - 1 }

/-- Thread `t` runs to its next step outside the lock; `none` while it is blocked. -/
def run (p : SyncPool) (t : Nat) (ch : Choice) : PC → Option (SyncPool × PC)
  | .called .acquire => some (p, .enter ch.now)
  | .called (.release c broken) => some (p.releaseBody c broken, .ended none)
  | .called .closeAll => some ({ p with store := p.store.drain.1 }, .closingAll p.store.drain.2)
  | .called (.warmup target) =>
    let sizer := p.store.sizer.raise (min target p.store.sizer.max)
    some ({ p with store := { p.store with sizer := sizer } }, .ended none)
  | .enter start => some (p.loopBody t start false ch)
  | .waiting start =>
    if t ∈ p.notified ∨ ch.expired then some ((p.wake t).loopBody t start true ch) else none
  | .creating start createStart k counted => match ch.creation with
    | .made => some ({ p with store := p.store.allocate ch.addr },
        .publish start (ch.now - createStart) k ch.addr counted)
    | .failed => some (p, .undo k counted)
    | .interrupted => some (p, raised counted .interrupted)
  | .undo k counted =>
    some ({ p with store := p.store.undo k }, raised counted .creationFailed)
  | .publish start elapsed k c counted =>
    some ({ p with
      store := p.store.publish ch.now k c
      stats := p.stats.recordCreation start ch.now elapsed }, got counted c)
  | .leaving c => some (p.uncount, .holding c)
  | .failing err => some (p.uncount, .ended (some err))
  | .holding c => some (p.releaseBody c ch.broken, .ended none)
  | .closingAll [] => some (p, .ended none)
  | .closingAll (c :: rest) => some ({ p with store := p.store.close c }, .closingAll rest)
  | .ended _ => none

/-- `metrics()` lets the sizer adjust; `core/db/pool/sync_pool.py:196–206`. -/
def metrics (p : SyncPool) : SyncPool :=
  { p with store := { p.store with
    sizer := p.store.sizer.adjust p.currentWaiters p.stats.recentAvgMs } }

end SyncPool

namespace SyncPool

/-- How a thread runs to its next step outside the lock. -/
inductive Runs (p : SyncPool) (t : Nat) (ch : Choice) : PC → SyncPool → PC → Prop
  | acquire : Runs p t ch (.called .acquire) p (.enter ch.now)
  | stray {c : Addr} {broken : Bool} :
      Runs p t ch (.called (.release c broken)) (p.releaseBody c broken) (.ended none)
  | closeAll : Runs p t ch (.called .closeAll) { p with store := p.store.drain.1 }
      (.closingAll p.store.drain.2)
  | warmup {target : Nat} : Runs p t ch (.called (.warmup target))
      { p with store := { p.store with
        sizer := p.store.sizer.raise (min target p.store.sizer.max) } } (.ended none)
  | look {start : Time} : Runs p t ch (.enter start) (p.loopBody t start false ch).1
      (p.loopBody t start false ch).2
  | woken {start : Time} : t ∈ p.notified ∨ ch.expired →
      Runs p t ch (.waiting start) ((p.wake t).loopBody t start true ch).1
        ((p.wake t).loopBody t start true ch).2
  | created {start createStart : Time} {k : Addr} {counted : Bool} : ch.creation = .made →
      Runs p t ch (.creating start createStart k counted)
        { p with store := p.store.allocate ch.addr }
        (.publish start (ch.now - createStart) k ch.addr counted)
  | failed {start createStart : Time} {k : Addr} {counted : Bool} : ch.creation = .failed →
      Runs p t ch (.creating start createStart k counted) p (.undo k counted)
  | interrupted {start createStart : Time} {k : Addr} {counted : Bool} :
      ch.creation = .interrupted →
      Runs p t ch (.creating start createStart k counted) p (raised counted .interrupted)
  | undone {k : Addr} {counted : Bool} : Runs p t ch (.undo k counted)
      { p with store := p.store.undo k } (raised counted .creationFailed)
  | published {start elapsed : Time} {k c : Addr} {counted : Bool} :
      Runs p t ch (.publish start elapsed k c counted)
        { p with
          store := p.store.publish ch.now k c
          stats := p.stats.recordCreation start ch.now elapsed } (got counted c)
  | left {c : Addr} : Runs p t ch (.leaving c) p.uncount (.holding c)
  | raises {err : Failure} : Runs p t ch (.failing err) p.uncount (.ended (some err))
  | release {c : Addr} : Runs p t ch (.holding c) (p.releaseBody c ch.broken) (.ended none)
  | closedAll : Runs p t ch (.closingAll []) p (.ended none)
  | closes {c : Addr} {rest : List Addr} : Runs p t ch (.closingAll (c :: rest))
      { p with store := p.store.close c } (.closingAll rest)

/-- There is no other way to run. -/
theorem runs_of_run {p p' : SyncPool} {t : Nat} {ch : Choice} {pc pc' : PC}
    (h : p.run t ch pc = some (p', pc')) : p.Runs t ch pc p' pc' := by
  unfold run at h
  split at h
  · obtain ⟨rfl, rfl⟩ := Prod.mk.inj (Option.some.inj h)
    exact .acquire
  · obtain ⟨rfl, rfl⟩ := Prod.mk.inj (Option.some.inj h)
    exact .stray
  · obtain ⟨rfl, rfl⟩ := Prod.mk.inj (Option.some.inj h)
    exact .closeAll
  · obtain ⟨rfl, rfl⟩ := Prod.mk.inj (Option.some.inj h)
    exact .warmup
  · obtain ⟨rfl, rfl⟩ := Prod.mk.inj (Option.some.inj h)
    exact .look
  · split at h
    · next hwoken =>
      obtain ⟨rfl, rfl⟩ := Prod.mk.inj (Option.some.inj h)
      exact .woken hwoken
    · cases h
  · split at h
    · next hmade =>
      obtain ⟨rfl, rfl⟩ := Prod.mk.inj (Option.some.inj h)
      exact .created hmade
    · next hfailed =>
      obtain ⟨rfl, rfl⟩ := Prod.mk.inj (Option.some.inj h)
      exact .failed hfailed
    · next hinterrupted =>
      obtain ⟨rfl, rfl⟩ := Prod.mk.inj (Option.some.inj h)
      exact .interrupted hinterrupted
  · obtain ⟨rfl, rfl⟩ := Prod.mk.inj (Option.some.inj h)
    exact .undone
  · obtain ⟨rfl, rfl⟩ := Prod.mk.inj (Option.some.inj h)
    exact .published
  · obtain ⟨rfl, rfl⟩ := Prod.mk.inj (Option.some.inj h)
    exact .left
  · obtain ⟨rfl, rfl⟩ := Prod.mk.inj (Option.some.inj h)
    exact .raises
  · obtain ⟨rfl, rfl⟩ := Prod.mk.inj (Option.some.inj h)
    exact .release
  · obtain ⟨rfl, rfl⟩ := Prod.mk.inj (Option.some.inj h)
    exact .closedAll
  · obtain ⟨rfl, rfl⟩ := Prod.mk.inj (Option.some.inj h)
    exact .closes
  · cases h

end SyncPool

/-- The pool and all threads that ever called it. -/
structure State where
  pool : SyncPool
  threads : List PC

namespace State

/-- Placeholders of all threads. -/
def placeholders (s : State) : List Addr := s.threads.flatMap PC.placeholders

/-- The addresses of live objects; a new object is created at another one. -/
def live (s : State) : List Addr :=
  (s.threads.flatMap fun pc ↦ pc.placeholders ++ pc.conns) ++ s.pool.store.idle ++
    s.pool.store.used

/-- A caller can only release an object that it can refer to. -/
def callable (s : State) : Job → Bool
  | .release c _ => decide (c ∉ s.placeholders)
  | _ => true

end State

/-- Scheduler actions. -/
inductive Act where
  | call (job : Job)
  | run (t : Nat) (ch : Choice)
  | metrics
  deriving DecidableEq, Repr

/-- One scheduler action. -/
def step (s : State) : Act → Option State
  | .call job =>
    if s.callable job then some { s with threads := s.threads ++ [.called job] } else none
  | .run t ch =>
    match s.threads[t]? with
    | none => none
    | some pc =>
      if ch.addr ∈ s.live then none
      else (s.pool.run t ch pc).map fun (p, pc') ↦ ⟨p, s.threads.set t pc'⟩
  | .metrics => some { s with pool := s.pool.metrics }

/-- What a thread's turn does. -/
theorem step_run {s s' : State} {t : Nat} {ch : Choice} (h : step s (.run t ch) = some s') :
    ∃ pc p' pc', s.threads[t]? = some pc ∧ ch.addr ∉ s.live ∧
      s.pool.run t ch pc = some (p', pc') ∧ s' = ⟨p', s.threads.set t pc'⟩ := by
  unfold step at h
  dsimp only at h
  split at h
  · cases h
  · next pc ht =>
    split at h
    · cases h
    · next hch =>
      obtain ⟨⟨p', pc'⟩, hr, rfl⟩ := Option.map_eq_some_iff.mp h
      exact ⟨pc, p', pc', ht, hch, hr, rfl⟩

/-- A call adds a thread that has not run yet. -/
theorem step_call {s s' : State} {job : Job} (h : step s (.call job) = some s') :
    s.callable job ∧ s' = { s with threads := s.threads ++ [.called job] } := by
  unfold step at h
  dsimp only at h
  split at h
  · next hc => exact ⟨hc, (Option.some.inj h).symm⟩
  · cases h

/-- The pool as a transition system. -/
def system (minConn maxConn : Nat) (timeout : Time) : System State Act :=
  ⟨⟨.new minConn maxConn timeout, []⟩, step⟩

end SalesData.Pool.Sync

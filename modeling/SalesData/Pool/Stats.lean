import SalesData.Pool.Store

/-!
# Pool counters

The counters behind `metrics()` that both pools keep, `core/db/pool/async_pool.py:52–73`.
Only the rolling window of recent waits feeds back into the pool, through the adaptive
sizer; the wait histogram is reported and never read.
-/

namespace SalesData.Pool

/-- `core/db/pool/async_pool.py:52–73`. -/
structure Stats where
  requests : Nat
  hits : Nat
  misses : Nat
  waitTime : Time
  timeouts : Nat
  successfulAcquires : Nat
  totalWaitersEver : Nat
  connectionCreationCount : Nat
  connectionCreationTime : Time
  brokenEvicted : Nat
  recentWaitsMs : List ℚ
  deriving DecidableEq, Repr

namespace Stats

/-- `_recent_window`; `core/db/pool/async_pool.py:73`. -/
def recentWindow : Nat := 50

/-- Counters of a new pool. -/
def new : Stats := ⟨0, 0, 0, 0, 0, 0, 0, 0, 0, 0, []⟩

/-- Append to the rolling window and drop its oldest entry past the limit;
`core/db/pool/async_pool.py:169–171`. -/
def pushWait (waits : List ℚ) (waitMs : ℚ) : List ℚ :=
  let waits := waits ++ [waitMs]
  if waits.length > recentWindow then waits.tail else waits

/-- `_record_acquire`; `core/db/pool/async_pool.py:160–171`. -/
def recordAcquire (st : Stats) (start now : Time) (hit : Bool) : Stats :=
  let wait := now - start
  { st with
    waitTime := st.waitTime + wait
    successfulAcquires := st.successfulAcquires + 1
    hits := if hit then st.hits + 1 else st.hits
    recentWaitsMs := pushWait st.recentWaitsMs (wait * 1000) }

/-- An acquire was called. -/
def recordRequest (st : Stats) : Stats := { st with requests := st.requests + 1 }

/-- An acquire starts to wait. -/
def recordWaiter (st : Stats) : Stats := { st with totalWaitersEver := st.totalWaitersEver + 1 }

/-- An acquire gave up; `core/db/pool/async_pool.py:119–120`. -/
def recordTimeout (st : Stats) (start now : Time) : Stats :=
  { st with timeouts := st.timeouts + 1, waitTime := st.waitTime + (now - start) }

/-- A connection was created for an acquire; `core/db/pool/async_pool.py:144–147`. -/
def recordCreation (st : Stats) (start now elapsed : Time) : Stats :=
  { st with
    connectionCreationCount := st.connectionCreationCount + 1
    connectionCreationTime := st.connectionCreationTime + elapsed
    misses := st.misses + 1 }.recordAcquire start now false

/-- A broken connection was evicted. -/
def recordBroken (st : Stats) : Stats := { st with brokenEvicted := st.brokenEvicted + 1 }

/-- Average of the rolling window; `core/db/pool/async_pool.py:241–245`. -/
def recentAvgMs (st : Stats) : ℚ :=
  if st.recentWaitsMs = [] then 0 else st.recentWaitsMs.sum / st.recentWaitsMs.length

end Stats
end SalesData.Pool

import SalesData.Execution.Session
import SalesData.Performance.PoolAdapter
import SalesData.Pool.Broken

/-!
# How a session ends after a failure

The handlers of `get_async_session` and `get_sync_session` (`core/db/session.py:441–474,517–536`),
the rollback of the session's wrapper underneath (`session.py:122–160`), and the pool's release
behind its timing adapter. A body can end with anything: `CancelledError`, `GeneratorExit` and
`KeyboardInterrupt` are no `Exception`s.
-/

namespace SalesData.Execution

open Base
open Pool (Addr)
open Performance (Binding PoolCall)

/-- How a call ends; `ordinary` tells whether what it raises is an `Exception`. -/
inductive Ending where
  | returned
  | raised (ordinary : Bool)
  deriving DecidableEq, Repr

/-- What a body raises. -/
structure Raised where
  exc : Exc
  ordinary : Bool
  deriving DecidableEq, Repr

/-- A session's adapter: whether `adapter.connection` is set, and what `rollback()` of it does. -/
structure Driver where
  connected : Bool
  rollback : Ending
  deriving DecidableEq, Repr

/-- `_safe_rollback` (`session.py:122–127`). -/
def safeRollback (driver : Driver) : Ending :=
  if driver.connected then
    match driver.rollback with
    | .raised true => .returned
    | ending => ending
  else .returned

/-- What becomes of a job that a coroutine hands to the db executor and awaits
(`session.py:83–119`, `core/concurrency/executors.py:78–100`). -/
inductive Await where
  /-- The coroutine goes on when the job is over. -/
  | finished
  /-- The executor is shut down and takes no job. -/
  | refused
  /-- `CancelledError` is thrown into the coroutine; `made` when the job's call is over by then. -/
  | cancelled (made : Bool)
  deriving DecidableEq, Repr

/-- Which session it is, and how an asynchronous one fares with its rollback. -/
inductive Path where
  | sync
  | async (job : Await)
  deriving DecidableEq, Repr

namespace Path

/-- `rollback` of `SyncSessionWrapper` and `AsyncSessionWrapper` (`session.py:147–148,170–171`). -/
def rollback (driver : Driver) : Path → Ending
  | sync | async .finished => safeRollback driver
  | async .refused => .raised true
  | async (.cancelled _) => .raised false

/-- The rollback's call is over when the handler goes on. -/
def makesCall : Path → Bool
  | sync | async .finished => true
  | async .refused => false
  | async (.cancelled made) => made

end Path

/-- The end of a session whose body has raised, with the profiler that its release finds bound. -/
structure SessionExit (F : Type) where
  path : Path
  raised : Raised
  driver : Driver
  binding : Binding F

namespace SessionExit

variable {F : Type} (u : Unicode) (exit : SessionExit F)

/-- `broken_connection` in the `finally` clause (`session.py:444–461,519–527`). -/
def brokenConnection : Bool :=
  if exit.raised.ordinary then
    if isConnectionLevelError u exit.raised.exc then true
    else match exit.path.rollback exit.driver with
      | .raised true => true
      | _ => false
  else false

/-- The flag with which the pool's `release` is called, if it is (`session.py:462–468,528–530`). -/
def released : Option Bool :=
  let broken := exit.brokenConnection u
  if exit.binding.passes (.release () broken) then some broken else none

/-- The body's exception said nothing against the connection, and the driver's rollback was
performed and succeeded. -/
def rolledBack : Bool :=
  exit.raised.ordinary && !isConnectionLevelError u exit.raised.exc && exit.path.makesCall &&
    exit.driver.connected && exit.driver.rollback == .returned

/-- The pool gets the connection back as a broken one and never hands it out again. -/
def Evicted : Prop :=
  exit.released u = some true ∧
  match exit.path with
  | .async _ => ∀ minConn maxConn s s' t ch task c,
    (Pool.Async.system minConn maxConn).Reach Pool.Async.OwnReleases s → s.tasks[t]? = some task →
    task.pc = .holding c → exit.released u = some ch.broken →
    Pool.Async.step s (.resume t ch) = some s' → s'.Retired minConn maxConn c
  | .sync => ∀ minConn maxConn timeout s s' t ch c,
    (Pool.Sync.system minConn maxConn timeout).Reach Pool.Sync.OwnReleases s →
    s.threads[t]? = some (.holding c) → exit.released u = some ch.broken →
    Pool.Sync.step s (.run t ch) = some s' → s'.Retired minConn maxConn timeout c

/-- Only a connection that was rolled back goes back as a good one; any other is evicted. -/
def Evicts : Prop :=
  (exit.released u = some false → exit.rolledBack u = true) ∧
    (exit.rolledBack u = false → exit.Evicted u)

/-- The body raises an `Exception`, and: it is a connection-level one; or the rollback is made by
an adapter that has a connection, and succeeds; or the executor takes no job. Where the connection
is to be evicted, the bound profiler does not stop the release. -/
def Orderly : Prop :=
  exit.raised.ordinary = true ∧
    if isConnectionLevelError u exit.raised.exc then exit.binding.Open
    else exit.path.makesCall ∧ exit.driver.connected ∧ exit.driver.rollback = .returned ∨
      exit.path = .async .refused ∧ exit.binding.Open

/-- What is released as broken is evicted. -/
theorem evicted_iff : exit.Evicted u ↔ exit.released u = some true := by
  refine ⟨And.left, fun h ↦ ⟨h, ?_⟩⟩
  split
  · intro minConn maxConn s s' t ch task c hr ht hpc hflag hs
    rw [h] at hflag
    exact Pool.Async.retired_of_broken hr ht hpc (Option.some.inj hflag).symm hs
  · intro minConn maxConn timeout s s' t ch c hr ht hflag hs
    rw [h] at hflag
    exact Pool.Sync.retired_of_broken hr ht (Option.some.inj hflag).symm hs

/-- The pool gets the connection back with the handler's flag, if the profiler is open. -/
theorem released_eq_some_iff {broken : Bool} :
    exit.released u = some broken ↔ exit.brokenConnection u = broken ∧ exit.binding.Open := by
  rw [← Performance.passes_iff (PoolCall.release () (exit.brokenConnection u))]
  unfold released
  dsimp only
  split
  · next h => simp [h]
  · next h => simp [h]

/-- A rollback that fails in the driver does not reach the handler; only a shut down executor
does. -/
theorem rollback_eq_raised_iff (path : Path) (driver : Driver) :
    path.rollback driver = .raised true ↔ path = .async .refused := by
  obtain ⟨connected, rollback⟩ := driver
  have hsafe : safeRollback ⟨connected, rollback⟩ ≠ .raised true := by
    unfold safeRollback
    cases connected with
    | false => simp
    | true => rcases rollback with _ | _ | _ <;> simp
  cases path with
  | sync => simpa [Path.rollback] using hsafe
  | async job =>
    cases job with
    | finished => simpa [Path.rollback] using hsafe
    | refused => simp [Path.rollback]
    | cancelled made => simp [Path.rollback]

/-- When the handler takes a connection for broken. -/
theorem brokenConnection_iff : exit.brokenConnection u = true ↔ exit.raised.ordinary = true ∧
    (isConnectionLevelError u exit.raised.exc = true ∨ exit.path = .async .refused) := by
  rw [← rollback_eq_raised_iff exit.path exit.driver]
  unfold brokenConnection
  split
  · next hordinary =>
    split
    · next hlevel => simp [hordinary, hlevel]
    · next hlevel =>
      split
      · next hraised => simp [hordinary, hraised]
      · next hraised =>
        have hne : exit.path.rollback exit.driver ≠ .raised true := hraised
        simp [hordinary, hlevel, hne]
  · next hordinary => simp [hordinary]

/-- When the driver's rollback is performed and succeeds. -/
theorem rolledBack_iff : exit.rolledBack u = true ↔ exit.raised.ordinary = true ∧
    isConnectionLevelError u exit.raised.exc = false ∧ exit.path.makesCall = true ∧
      exit.driver.connected = true ∧ exit.driver.rollback = .returned := by
  simp [rolledBack, and_assoc]

end SessionExit

/-- The session of a failed body evicts what was not rolled back exactly in the orderly cases. -/
theorem sessionExit_evicts_iff {F : Type} (u : Unicode) (exit : SessionExit F) :
    exit.Evicts u ↔ exit.Orderly u := by
  unfold SessionExit.Evicts SessionExit.Orderly
  rw [SessionExit.evicted_iff, SessionExit.released_eq_some_iff, SessionExit.released_eq_some_iff,
    SessionExit.brokenConnection_iff]
  constructor
  · rintro ⟨-, hevicted⟩
    cases hback : exit.rolledBack u with
    | true =>
      obtain ⟨hordinary, hlevel, hcall, hdriver⟩ := (exit.rolledBack_iff u).mp hback
      rw [hlevel]
      exact ⟨hordinary, .inl ⟨hcall, hdriver⟩⟩
    | false =>
      obtain ⟨⟨hordinary, hbroken⟩, hopen⟩ := hevicted hback
      refine ⟨hordinary, ?_⟩
      split
      · exact hopen
      · next hlevel => exact .inr ⟨hbroken.resolve_left hlevel, hopen⟩
  · rintro ⟨hordinary, h⟩
    split at h
    · next hlevel =>
      have hbroken := (exit.brokenConnection_iff u).mpr ⟨hordinary, .inl hlevel⟩
      refine ⟨fun hgood ↦ ?_, fun _ ↦ ⟨⟨hordinary, .inl hlevel⟩, h⟩⟩
      rw [hbroken] at hgood
      exact absurd hgood.1 (by decide)
    · next hlevel =>
      rcases h with ⟨hcall, hdriver⟩ | ⟨hrefused, hopen⟩
      · have hback := (exit.rolledBack_iff u).mpr
          ⟨hordinary, by simpa using hlevel, hcall, hdriver⟩
        rw [hback]
        exact ⟨fun _ ↦ rfl, fun h ↦ absurd h (by decide)⟩
      · have hbroken := (exit.brokenConnection_iff u).mpr ⟨hordinary, .inr hrefused⟩
        refine ⟨fun hgood ↦ ?_, fun _ ↦ ⟨⟨hordinary, .inr hrefused⟩, hopen⟩⟩
        rw [hbroken] at hgood
        exact absurd hgood.1 (by decide)

/-- A statement that the database refuses, and a driver that cannot roll back either. -/
def unrollable : SessionExit ℚ where
  path := .sync
  raised := ⟨⟨"CatalogException".toList, "Table with name x does not exist!".toList, false⟩, true⟩
  driver := ⟨true, .raised true⟩
  binding := .unbound

/-- The connection goes back as a good one, though its rollback has failed. -/
theorem not_evicts_unrollable : ¬ unrollable.Evicts Unicode.basic := by
  rintro ⟨hgood, -⟩
  have hreleased : unrollable.released Unicode.basic = some false := by decide
  exact absurd (hgood hreleased) (by decide)

end SalesData.Execution

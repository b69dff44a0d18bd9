import SalesData.Execution.Exclusive
import SalesData.Sql.Sqlite

/-!
# The drivers of the warehouse

A `DatabaseConfig` (`core/db/config.py`) chooses between two adapters. Both run the statement of a
request by `fetch_all`, and neither commits behind it (`core/db/adapters/sqlite.py:109–121`,
`core/db/adapters/duckdb.py:137–168`), so the driver decides when an effect is committed: Python's
`sqlite3` leaves a modification in the transaction that it has opened for it, and DuckDB commits
each statement outside an explicit transaction.
-/

namespace SalesData.Execution.Warehouse

open Base Sql
open Cache (QueryCacheCoordinator)
open Pool (Addr)

/-- `DatabaseType` (`core/db/config.py:10–14`). -/
inductive DatabaseType where
  | sqlite
  | duckdb
  deriving DecidableEq, Repr

/-- The text of a `DatabaseType`. -/
def DatabaseType.value : DatabaseType → Text
  | sqlite => "sqlite".toList
  | duckdb => "duckdb".toList

/-- `DatabaseConfig` (`core/db/config.py:17–39`), up to what `_create_adapter` reads. -/
structure DatabaseConfig where
  dbType : DatabaseType
  connectionString : Text
  deriving DecidableEq, Repr

namespace DatabaseConfig

/-- `f"{db_type}:///"`. -/
def scheme (dbType : DatabaseType) : Text := dbType.value ++ ":///".toList

/-- `DatabaseConfig.from_sqlite` (`core/db/config.py:70–78`). -/
def fromSqlite (path : Text) : DatabaseConfig := ⟨.sqlite, scheme .sqlite ++ path⟩

/-- `DatabaseConfig.from_duckdb` (`core/db/config.py:109–117`). -/
def fromDuckdb (path : Text) : DatabaseConfig := ⟨.duckdb, scheme .duckdb ++ path⟩

/-- The path that an adapter connects to (`core/db/session.py:226–229`). -/
def path (config : DatabaseConfig) : Text :=
  if (scheme config.dbType).isPrefixOf config.connectionString then
    config.connectionString.drop (scheme config.dbType).length
  else config.connectionString

/-- All connections to the path work on one database. An in-memory or a temporary database belongs
to the connection that has opened it. -/
def shared (config : DatabaseConfig) : Bool :=
  config.path != ":memory:".toList && config.path != []

/-- Whether a connection may be in a transaction `after` a statement, if it was `before`; `explicit`
are the texts by which DuckDB opens or ends one. -/
def allows (explicit : Text → Bool) (config : DatabaseConfig) (sql : Text) (result : Sqlite.Result)
    (before after : Bool) : Bool :=
  match config.dbType with
  | .sqlite => Sqlite.allows sql result before after
  | .duckdb => after == before || explicit sql

/-- A SQLite adapter connects to the path that its configuration is made from. -/
@[simp] theorem path_fromSqlite (path : Text) : (fromSqlite path).path = path := by
  rw [DatabaseConfig.path, if_pos]
  · exact List.drop_left
  · exact List.isPrefixOf_iff_prefix.mpr (List.prefix_append ..)

/-- A DuckDB adapter connects to the path that its configuration is made from. -/
@[simp] theorem path_fromDuckdb (path : Text) : (fromDuckdb path).path = path := by
  rw [DatabaseConfig.path, if_pos]
  · exact List.drop_left
  · exact List.isPrefixOf_iff_prefix.mpr (List.prefix_append ..)

end DatabaseConfig

/-- The requests and their jobs, the connections that are in a transaction, and how the driver's
call in a job ended. -/
structure State (K P D E : Type) where
  core : Execution.State K P D E
  inTransaction : List Addr
  results : Nat → Option Sqlite.Result

/-- Scheduler actions. -/
inductive Act (K P D E : Type) where
  | core (a : Execution.Act K P D E)
  /-- The driver runs the statement of job `j`. -/
  | execute (j : Nat) (result : Sqlite.Result) (after : Bool)
  /-- The driver's `rollback()` in job `j`; `core/db/session.py:125`. -/
  | rollback (j : Nat) (raises : Bool)

/-- A method of the adapter ends as the driver's call in it has. -/
def endsAs (job : Job) (result : Option Sqlite.Result) (exc : Option Exc) : Bool :=
  match job.kind with
  | .fetchAll => result.any fun result ↦ exc.isNone == (result == .done)
  | .rollback => result.isSome
  | .disconnect => true

variable {K P D E : Type}

/-- The driver has come back from its call in job `j`, with `c` in a transaction or not. -/
def State.drive (s : State K P D E) (j : Nat) (result : Sqlite.Result) (c : Addr) (after : Bool) :
    State K P D E :=
  { s with
    results := Function.update s.results j (some result)
    inTransaction := if after then c :: s.inTransaction else s.inTransaction.filter (· != c) }

variable [DecidableEq K] (u : Unicode) (explicit : Text → Bool) (config : DatabaseConfig)

/-- One scheduler action. An effect is committed with its statement if that leaves no transaction
open; a new connection object is in none. -/
def step (s : State K P D E) : Act K P D E → Option (State K P D E)
  | .core (.commit _) => none
  | .core (.finish j exc) => (s.core.jobs[j]?).bind fun job ↦
      if endsAs job (s.results j) exc then
        (Execution.step u s.core (.finish j exc)).map fun core ↦ { s with core }
      else none
  | .core (.resume r ch) => (Execution.step u s.core (.resume r ch)).map fun core ↦
      { s with core, inTransaction := s.inTransaction.filter (· != ch.addr) }
  | .core a => (Execution.step u s.core a).map fun core ↦ { s with core }
  | .execute j result after =>
    (s.core.jobs[j]?).bind fun job ↦ (s.core.requests[job.owner]?).bind fun req ↦
      if job.kind = .fetchAll ∧ job.state = .running ∧ s.results j = none ∧
          config.allows explicit req.run.sql result (decide (job.conn ∈ s.inTransaction)) after then
        if result = .done ∧ after = false then
          (Execution.step u s.core (.commit j)).map fun core ↦
            { s.drive j result job.conn after with core }
        else some (s.drive j result job.conn after)
      else none
  | .rollback j raises =>
    (s.core.jobs[j]?).bind fun job ↦
      if job.kind = .rollback ∧ job.state = .running ∧ s.results j = none then
        some (s.drive j (if raises then .failed else .done) job.conn
          (raises && decide (job.conn ∈ s.inTransaction)))
      else none

/-- The execution of statements over the configured driver as a transition system. -/
def system (minConn maxConn : Nat) (permits : Cost → Nat)
    (cache : QueryCacheCoordinator K Text D E) : System (State K P D E) (Act K P D E) :=
  ⟨⟨(Execution.system u minConn maxConn permits cache).init, [], fun _ ↦ none⟩,
    step u explicit config⟩

variable {u explicit config} {s s' : State K P D E}

/-- Everything that a step can do. -/
theorem step_cases {a : Act K P D E} (h : step u explicit config s a = some s') :
    (∃ b core, a = .core b ∧ (∀ r ch, b ≠ .resume r ch) ∧ (∀ j, b ≠ .commit j) ∧
      (∀ j exc, b = .finish j exc → ∃ job, s.core.jobs[j]? = some job ∧
        endsAs job (s.results j) exc = true) ∧
      Execution.step u s.core b = some core ∧ s' = { s with core }) ∨
    (∃ r ch core, a = .core (.resume r ch) ∧
      Execution.step u s.core (.resume r ch) = some core ∧
      s' = { s with core, inTransaction := s.inTransaction.filter (· != ch.addr) }) ∨
    (∃ j result after job req core, a = .execute j result after ∧ s.core.jobs[j]? = some job ∧
      s.core.requests[job.owner]? = some req ∧ job.kind = .fetchAll ∧ job.state = .running ∧
      s.results j = none ∧
      config.allows explicit req.run.sql result (decide (job.conn ∈ s.inTransaction)) after = true ∧
      (result = .done ∧ after = false ∧ Execution.step u s.core (.commit j) = some core ∨
        ¬ (result = .done ∧ after = false) ∧ core = s.core) ∧
      s' = { s.drive j result job.conn after with core }) ∨
    (∃ j raises job, a = .rollback j raises ∧ s.core.jobs[j]? = some job ∧ job.kind = .rollback ∧
      job.state = .running ∧ s.results j = none ∧
      s' = s.drive j (if raises then .failed else .done) job.conn
        (raises && decide (job.conn ∈ s.inTransaction))) := by
  cases a with
  | core b =>
    cases b with
    | commit j => cases h
    | finish j exc =>
      left
      rw [step] at h
      obtain ⟨job, hjob, h⟩ := Option.bind_eq_some_iff.mp h
      split at h
      · next hends =>
        obtain ⟨core, hcore, rfl⟩ := Option.map_eq_some_iff.mp h
        refine ⟨_, core, rfl, by simp, by simp, ?_, hcore, rfl⟩
        intro i exc' heq
        obtain ⟨rfl, rfl⟩ := Execution.Act.finish.inj heq
        exact ⟨job, hjob, hends⟩
      · cases h
    | resume r ch =>
      rw [step] at h
      obtain ⟨core, hcore, rfl⟩ := Option.map_eq_some_iff.mp h
      exact .inr (.inl ⟨r, ch, core, rfl, hcore, rfl⟩)
    | _ =>
      left
      rw [step] at h
      · obtain ⟨core, hcore, rfl⟩ := Option.map_eq_some_iff.mp h
        exact ⟨_, core, rfl, by simp, by simp, by simp, hcore, rfl⟩
      all_goals simp
  | execute j result after =>
    right
    right
    left
    rw [step] at h
    obtain ⟨job, hjob, h⟩ := Option.bind_eq_some_iff.mp h
    obtain ⟨req, hreq, h⟩ := Option.bind_eq_some_iff.mp h
    split at h
    · next hrun =>
      obtain ⟨hkind, hstate, hnone, hallows⟩ := hrun
      split at h
      · next hdone =>
        obtain ⟨core, hcore, rfl⟩ := Option.map_eq_some_iff.mp h
        exact ⟨j, result, after, job, req, core, rfl, hjob, hreq, hkind, hstate, hnone, hallows,
          .inl ⟨hdone.1, hdone.2, hcore⟩, rfl⟩
      · next hnot =>
        obtain rfl := Option.some.inj h
        exact ⟨j, result, after, job, req, s.core, rfl, hjob, hreq, hkind, hstate, hnone, hallows,
          .inr ⟨hnot, rfl⟩, rfl⟩
    · cases h
  | rollback j raises =>
    right
    right
    right
    rw [step] at h
    obtain ⟨job, hjob, h⟩ := Option.bind_eq_some_iff.mp h
    split at h
    · next hrun =>
      obtain ⟨hkind, hstate, hnone⟩ := hrun
      exact ⟨j, raises, job, rfl, hjob, hkind, hstate, hnone, (Option.some.inj h).symm⟩
    · cases h

/-- Over the driver the requests run as they do without it. -/
theorem core_reach {minConn maxConn : Nat} {permits : Cost → Nat}
    {cache : QueryCacheCoordinator K Text D E} {ok : State K P D E → Act K P D E → Prop}
    (h : (system u explicit config minConn maxConn permits cache).Reach ok s) :
    (Execution.system u minConn maxConn permits cache).Reachable s.core := by
  refine h.invariant
    (P := fun s ↦ (Execution.system u minConn maxConn permits cache).Reachable s.core) ?_ ?_
  · exact System.Reach.init
  intro s a s' hs _ hstep
  rcases step_cases hstep with ⟨b, core, rfl, -, -, -, hcore, rfl⟩ |
    ⟨r, ch, core, rfl, hcore, rfl⟩ |
    ⟨j, result, after, job, req, core, rfl, -, -, -, -, -, -, hcore, rfl⟩ |
    ⟨j, raises, job, rfl, -, -, -, -, rfl⟩
  · exact hs.step trivial hcore
  · exact hs.step trivial hcore
  · rcases hcore with ⟨-, -, hcore⟩ | ⟨-, rfl⟩
    · exact hs.step trivial hcore
    · exact hs
  · exact hs

end SalesData.Execution.Warehouse

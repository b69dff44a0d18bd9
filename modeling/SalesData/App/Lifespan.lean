import SalesData.Pool.AsyncShutdown
import SalesData.Pool.SyncShutdown

/-!
# Startup and shutdown of the application

`ApplicationLifespan` starts its steps in order and shuts the started ones down in reverse;
`core/app/lifespan.py:125–245,393–460,537–608`. Of what a step owns, the driver connections are
modelled: the introspection adapter and the session pool of the data warehouse
(`core/db/session.py:182–273,609–617`), and the pool of the service database
(`core/storage/service_db.py:81–117`). Both pools look for a method `close` on what they hold.
The write queues, the executors and the requests only use the pools, so their share in a run is
left to the scheduler.
-/

namespace SalesData.App

open Base Pool

/-- Values of `DatabaseType`, each with an adapter class of its own; `core/db/config.py:10–14`. -/
inductive DatabaseType where
  | sqlite
  | duckdb
  deriving DecidableEq, Repr

/-- Objects on the way from a pool to a driver connection, which is known by its number. -/
inductive Conn where
  /-- A `SQLiteAdapter` or a `DuckDBAdapter`, connected. -/
  | adapter (dbType : DatabaseType) (driver : Nat)
  /-- An `InstrumentedSQLAdapter`. -/
  | instrumented (inner : Conn)
  /-- An `AsyncSessionWrapper`. -/
  | asyncSession (inner : Conn)
  deriving DecidableEq, Repr

/-- The methods and fields of the two adapter classes; `core/db/adapters/sqlite.py:12–240`,
`core/db/adapters/duckdb.py:19–340`. -/
def DatabaseType.attributes : DatabaseType → List String
  | sqlite => ["db_path", "connection", "echo", "connect", "disconnect", "execute", "execute_many",
      "fetch_one", "fetch_all", "insert", "update", "delete", "get_tables", "get_schema", "vacuum",
      "create_backup"]
  | duckdb => ["db_path", "connection", "echo", "connect", "disconnect", "execute",
      "execute_query", "fetch_one", "fetch_all", "insert", "update", "delete", "get_tables",
      "get_schema", "create_table", "drop_table", "export_to_csv", "import_from_csv",
      "get_database_info"]

namespace Conn

/-- `hasattr(conn, name)`; an instrumented adapter forwards what it does not define, see
`core/performance/adapters/sql_adapter.py:55–62`, and a session forwards nothing, see
`core/db/session.py:126–151`. -/
def hasattr : Conn → String → Bool
  | adapter dbType _, name => dbType.attributes.contains name
  | instrumented inner, name =>
    ["_adapter", "execute", "fetch_one", "fetch_all", "_timed"].contains name || inner.hasattr name
  | asyncSession _, name =>
    ["_adapter", "execute", "fetch_all", "fetch_one", "rollback", "close"].contains name

/-- The driver connection underneath. -/
def driver : Conn → Nat
  | adapter _ driver => driver
  | instrumented inner | asyncSession inner => inner.driver

end Conn

/-- What opened a driver connection. -/
inductive Owner where
  | introspection
  | session
  | service
  deriving DecidableEq, Repr

/-- A driver connection, open until its own `close` is called. -/
structure Driver where
  owner : Owner
  closed : Bool
  deriving DecidableEq, Repr

/-- `connection.close()`. -/
def Driver.close (d : Driver) : Driver := { d with closed := true }

/-- A pool with the objects that its addresses stand for. -/
structure PoolOf (σ : Type) where
  state : σ
  objects : Dict Addr Conn

/-- Number the driver connection of a new object, and file the object under its address. -/
def enroll (owner : Owner) (wrap : Nat → Conn) (drivers : List Driver) (objects : Dict Addr Conn)
    (made : List Addr) : List Driver × Dict Addr Conn :=
  made.foldl (fun (ds, os) c ↦ (ds ++ [⟨owner, false⟩], os.set c (wrap ds.length)))
    (drivers, objects)

/-- `if hasattr(conn, "close"): conn.close()`. Closing a session disconnects its adapter, which
closes the driver connection; `core/db/session.py:150–151`, `core/db/adapters/sqlite.py:45–49`. -/
def closeObject (drivers : List Driver) (conn : Conn) : List Driver :=
  if conn.hasattr "close" then drivers.modify conn.driver Driver.close else drivers

/-- What a pool does with the objects at the addresses that it closes. -/
def closeObjects (drivers : List Driver) (objects : Dict Addr Conn) (cs : List Addr) :
    List Driver :=
  cs.foldl (fun ds c ↦ match objects.get? c with
    | some conn => closeObject ds conn
    | none => ds) drivers

/-- Arguments of `ApplicationLifespan`: the warehouse's type and pool sizes, the service
database's pool sizes and timeout, and whether `core.performance` is there. -/
structure Config where
  dbConfig : Option (DatabaseType × Nat × Nat)
  servicePool : Option (Nat × Nat × Time)
  instrument : Bool

/-- The steps of the lifespan; `core/app/lifespan.py:125–460`. -/
inductive Step where
  | performance
  | dataWarehouse
  | executors
  | serviceDatabase
  | persistenceQueue
  deriving DecidableEq, Repr

/-- `_steps`; `core/app/lifespan.py:537–547`. -/
def steps : List Step :=
  [.performance, .dataWarehouse, .executors, .serviceDatabase, .persistenceQueue]

/-- Where the lifespan is, with the steps that it still has to start or to shut down. -/
inductive Stage where
  | starting (rest : List Step)
  | serving
  | stopping (rest : List Step)
  /-- In `service_db.disconnect()`. -/
  | disconnecting (rest : List Step)
  | stopped
  deriving DecidableEq, Repr

/-- The application: all driver connections ever opened, the warehouse's `_adapter` and
`_async_pool`, the service database's `_pool`, and the lifespan itself. -/
structure Application where
  drivers : List Driver
  adapter : Option Conn
  sessions : Option (PoolOf Async.State)
  service : Option (PoolOf Sync.State)
  stage : Stage
  started : List Step

namespace Application

/-- The application before its startup. -/
def new : Application := ⟨[], none, none, none, .starting steps, []⟩

/-- `DatabaseSession.initialize`: connect the introspection adapter and make a pool;
`core/db/session.py:235–271`. -/
def initializeSession (app : Application) (dbType : DatabaseType) (minConn maxConn : Nat) :
    Application :=
  { app with
    drivers := app.drivers ++ [⟨.introspection, false⟩]
    adapter := some (.adapter dbType app.drivers.length)
    sessions := some ⟨(Async.system minConn maxConn).init, .empty⟩ }

/-- `ServiceDatabase.connect`; `core/storage/service_db.py:100–112`. The statements that follow
it in the startup use the pool like any other. -/
def connect (app : Application) (minSize maxSize : Nat) (timeout : Time) : Application :=
  { app with service := some ⟨(Sync.system minSize maxSize timeout).init, .empty⟩ }

/-- `startup_async` of one step. -/
def startupStep (cfg : Config) (app : Application) : Step → Application
  | .dataWarehouse => match cfg.dbConfig with
    | none => app
    | some (dbType, minConn, maxConn) => app.initializeSession dbType minConn maxConn
  | .serviceDatabase => match cfg.servicePool with
    | none => app
    | some (minSize, maxSize, timeout) => app.connect minSize maxSize timeout
  | .performance | .executors | .persistenceQueue => app

/-- What a session is made of; `core/db/session.py:241–254`. -/
def createSession (cfg : Config) (dbType : DatabaseType) (driver : Nat) : Conn :=
  if cfg.instrument then .asyncSession (.instrumented (.adapter dbType driver))
  else .asyncSession (.adapter dbType driver)

/-- A step of a task that uses the warehouse's pool. -/
def sessionStep (cfg : Config) (app : Application) (a : Async.Act) : Option Application :=
  match app.sessions, cfg.dbConfig with
  | some pool, some (dbType, _, _) => (Async.step pool.state a).map fun s' ↦
      let (drivers, objects) :=
        enroll .session (createSession cfg dbType) app.drivers pool.objects (pool.state.made a)
      { app with
        drivers := closeObjects drivers objects
          (pool.state.pool.store.closings s'.pool.store)
        sessions := some ⟨s', objects⟩ }
  | _, _ => none

/-- A step of a thread that uses the service database's pool, whose connections are
`SQLiteAdapter`s; `core/storage/service_db.py:85–98`. -/
def serviceStep (app : Application) (a : Sync.Act) : Option Application :=
  match app.service with
  | some pool => (Sync.step pool.state a).map fun s' ↦
      let (drivers, objects) :=
        enroll .service (.adapter .sqlite) app.drivers pool.objects (pool.state.made a)
      { app with
        drivers := closeObjects drivers objects
          (pool.state.pool.store.closings s'.pool.store)
        service := some ⟨s', objects⟩ }
  | none => none

/-- `shutdown_async` of one step. That of the data warehouse writes a line to the log;
`core/app/lifespan.py:153–155`. -/
def shutdownStep (app : Application) (rest : List Step) : Step → Option Application
  | .serviceDatabase => match app.service with
    | some _ => (app.serviceStep (.call .closeAll)).map fun app ↦
        { app with stage := .disconnecting rest }
    | none => some { app with stage := .stopping rest }
  | .performance | .dataWarehouse | .executors | .persistenceQueue =>
    some { app with stage := .stopping rest }

/-- Nobody is in a call of the pools, or has a connection. -/
def idle (app : Application) : Bool :=
  (app.sessions.all fun pool ↦ pool.state.tasks.all fun task ↦
    !task.pc.suspended && task.pc.conns.isEmpty) &&
  app.service.all fun pool ↦ pool.state.threads.all fun pc ↦ pc.outside && pc.conns.isEmpty

end Application

/-- Scheduler actions. -/
inductive Act where
  /-- `startup_async` starts its next step. -/
  | start
  /-- A task goes on in the warehouse's pool. -/
  | session (a : Async.Act)
  /-- A thread goes on in the service database's pool. -/
  | service (a : Sync.Act)
  /-- `shutdown_async` goes on. -/
  | stop
  deriving DecidableEq, Repr

/-- One action. Only the shutdown calls `close_all`. -/
def step (cfg : Config) (app : Application) : Act → Option Application
  | .start => match app.stage with
    | .starting (s :: rest) => some { app.startupStep cfg s with
        started := app.started ++ [s]
        stage := if rest = [] then .serving else .starting rest }
    | _ => none
  | .session a => if a = .call .closeAll then none else app.sessionStep cfg a
  | .service a => if a = .call .closeAll then none else app.serviceStep a
  | .stop => match app.stage with
    | .serving => some { app with stage := .stopping app.started.reverse }
    | .stopping (s :: rest) => app.shutdownStep rest s
    | .disconnecting rest =>
      if app.service.all fun pool ↦ pool.state.quiet then some { app with stage := .stopping rest }
      else none
    | .stopping [] => some { app with stage := .stopped, started := [] }
    | .starting _ | .stopped => none

/-- The application as a transition system. -/
def system (cfg : Config) : System Application Act := ⟨.new, step cfg⟩

end SalesData.App

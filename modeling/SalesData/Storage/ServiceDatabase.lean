import SalesData.Pool.SyncPool
import SalesData.Sql.Sqlite

/-!
# The service database

`execute`, `fetch_one`, `fetch_all` and `transaction` (`core/storage/service_db.py:125–284`) over
the pool of SQLite connections. A call is one thread of the pool: it acquires a connection, works on
it and gives it back. Threads interleave between the calls of the driver, and every statement,
commit and rollback may raise.
-/

namespace SalesData.Storage

open Base Sql
open Pool (Addr)
open Pool.Sync (Choice PC)

/-- The methods of `ServiceDatabase` that use a connection. -/
inductive Operation where
  | execute (sql : Text)
  | fetchOne (sql : Text)
  | fetchAll (sql : Text)
  | transaction
  deriving DecidableEq, Repr

/-- The statements that an operation may run; the body of a transaction runs any. -/
def Operation.allows : Operation → Text → Bool
  | execute own, sql | fetchOne own, sql | fetchAll own, sql => own == sql
  | transaction, _ => true

/-- Where a call is. -/
inductive Stage where
  /-- In `acquire`; line 144. -/
  | acquiring
  /-- At the next statement, or at the end of the body of a transaction. -/
  | working
  /-- At `commit()`; lines 212 and 237. -/
  | committing
  /-- At `rollback()`; line 215. -/
  | rollingBack
  /-- In `release`; line 168. -/
  | releasing
  | ended
  deriving DecidableEq, Repr

/-- A call of an operation. -/
structure Call where
  op : Operation
  stage : Stage
  deriving DecidableEq, Repr

/-- The pool, the connections that are in a transaction, and the calls; call `t` runs in thread
`t`. -/
structure State where
  pool : Pool.Sync.State
  inTransaction : List Addr
  calls : List Call

/-- What a call does with the driver. -/
inductive Drive where
  | statement (sql : Text) (result : Sqlite.Result)
  /-- The body of a transaction ends, by an exception or not. -/
  | endBody (raises : Bool)
  | commit (raises : Bool)
  | rollback (raises : Bool)
  deriving DecidableEq, Repr

/-- A step of the process. -/
inductive Act where
  | call (op : Operation)
  | run (t : Nat) (ch : Choice)
  | drive (t : Nat) (d : Drive)
  | metrics
  deriving DecidableEq, Repr

namespace State

/-- The call in thread `t` goes on to another stage. -/
def goto (s : State) (t : Nat) (call : Call) (stage : Stage) : State :=
  { s with calls := s.calls.set t { call with stage } }

/-- The connection in the hands of thread `t`. -/
def held (s : State) (t : Nat) : Option Addr :=
  match s.pool.threads[t]? with
  | some (.holding c) => some c
  | _ => none

end State

/-- `str.upper` up to the letters that a statement is compared with. -/
def upper (c : Char) : Char := if c.toNat = 0x17F then 'S' else c.toUpper

/-- `sql.strip().upper().startswith("SELECT")` (`service_db.py:236`). -/
def startsSelect (sql : Text) : Bool :=
  ("SELECT".toList).isPrefixOf ((Text.strip sql).map upper)

/-- Behind a statement: `execute` commits unless it ran a `SELECT`, the others do not, and a
transaction goes on. -/
def afterStatement (op : Operation) (result : Sqlite.Result) : Stage :=
  match op with
  | .execute sql => if result ≠ .done ∨ startsSelect sql then .releasing else .committing
  | .fetchOne _ | .fetchAll _ => .releasing
  | .transaction => .working

/-- Behind a turn of `acquire`. -/
def afterAcquire : Option PC → Stage
  | some (.holding _) => .working
  | some (.ended _) => .ended
  | _ => .acquiring

/-- A turn of the thread inside the pool. -/
def turn (s : State) (t : Nat) (ch : Choice) (call : Call) : Option State :=
  match call.stage with
  | .acquiring => (Pool.Sync.step s.pool (.run t ch)).map fun pool ↦
      { s with pool }.goto t call (afterAcquire pool.threads[t]?)
  | .releasing => (Pool.Sync.step s.pool (.run t { ch with broken := false })).map fun pool ↦
      { s with pool }.goto t call .ended
  | _ => none

/-- A call uses the driver on its connection `c`: the stage it gets to, and the connections that are
in a transaction then. -/
def Call.drive (call : Call) (c : Addr) (inTransaction : List Addr) :
    Drive → Option (Stage × List Addr)
  | .statement sql result =>
    if call.stage = .working ∧ call.op.allows sql then
      some (afterStatement call.op result,
        if Sqlite.opens sql result then c :: inTransaction else inTransaction)
    else none
  | .endBody raises =>
    if call.stage = .working ∧ call.op = .transaction then
      some (if raises then .rollingBack else .committing, inTransaction)
    else none
  | .commit raises =>
    if call.stage = .committing then
      if raises then
        some (if call.op = .transaction then .rollingBack else .releasing, inTransaction)
      else some (.releasing, inTransaction.filter (· != c))
    else none
  | .rollback raises =>
    if call.stage = .rollingBack then
      some (.releasing, if raises then inTransaction else inTransaction.filter (· != c))
    else none

/-- One step. -/
def step (s : State) : Act → Option State
  | .call op => (Pool.Sync.step s.pool (.call .acquire)).map fun pool ↦
      { s with pool, calls := s.calls ++ [⟨op, .acquiring⟩] }
  | .metrics => (Pool.Sync.step s.pool .metrics).map fun pool ↦ { s with pool }
  | .run t ch => s.calls[t]?.bind fun call ↦ turn s t ch call
  | .drive t d => s.calls[t]?.bind fun call ↦ (s.held t).bind fun c ↦
      (call.drive c s.inTransaction d).map fun (stage, inTransaction) ↦
        { s.goto t call stage with inTransaction }

/-- The service database with its pool. -/
def system (minSize maxSize : Nat) (timeout : Pool.Time) : System State Act where
  init := ⟨(Pool.Sync.system minSize maxSize timeout).init, [], []⟩
  step := step

end SalesData.Storage

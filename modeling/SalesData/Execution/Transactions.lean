import SalesData.Execution.SessionExits

/-!
# Transactions over a pool

`transaction` and `async_transaction` (`core/db/transactions.py:13–76`) and their instrumented
copies (`core/performance/adapters/transactions.py:28–119`), from the point at which the pool has
handed out a connection. Each call on the connection can fail, and the asynchronous ones can be
cancelled; what it leaves behind then is arbitrary.
-/

namespace SalesData.Execution

open Base
open Pool (Addr Store)
open Performance (Binding PerformanceStage MetricName)

/-- The statements of the helpers. -/
inductive Statement where
  | begin
  | commit
  | rollback
  deriving DecidableEq, Repr

/-- How a call ends, and whether it leaves the connection in a transaction. What a statement
leaves when it returns is known, so there the second part is not looked at. -/
structure Reply where
  ending : Ending
  inTransaction : Bool
  deriving DecidableEq, Repr

/-- A connection: whether it has `execute`, and its reply to each statement and to the body. -/
structure Connection where
  executes : Bool
  statement : Statement → Reply
  body : Reply

/-- How far a helper has come. `committed` while nothing that the body wrote waits for a COMMIT. -/
structure Progress where
  issued : List Statement
  entered : Bool
  inTransaction : Bool
  committed : Bool
  deriving DecidableEq, Repr

namespace Progress

/-- Before the first statement. -/
def start : Progress := ⟨[], false, false, true⟩

/-- A statement was issued. -/
def issue (p : Progress) (st : Statement) (reply : Reply) : Progress :=
  { p with
    issued := p.issued ++ [st]
    inTransaction := if reply.ending = .returned then st = .begin else reply.inTransaction
    committed := if st = .commit then reply.ending = .returned else p.committed }

/-- The body was run; what it writes outside a transaction commits by itself. -/
def enter (p : Progress) (body : Reply) : Progress :=
  { p with
    entered := true
    inTransaction := body.inTransaction
    committed := !body.inTransaction }

end Progress

/-- What issuing a statement does. -/
abbrev Execute := Statement → Progress → Progress × Ending

/-- `conn.execute(statement)`. -/
def Connection.execute (conn : Connection) : Execute := fun st p ↦
  (p.issue st (conn.statement st), (conn.statement st).ending)

/-- The stage that a statement is timed under. -/
def Statement.stage : Statement → PerformanceStage × MetricName
  | begin => (.transactionBegin, "transaction_begin".toList)
  | commit => (.transactionCommit, "transaction_commit".toList)
  | rollback => (.transactionRollback, "transaction_rollback".toList)

/-- `with profiler.stage(...): conn.execute(statement)`: a stage that does not open keeps the
statement back, and what closing it raises takes the place of the statement's own end. -/
def Connection.timedExecute {F : Type} (conn : Connection) (stages : Statement → Binding F) :
    Execute := fun st p ↦
  match stages st with
  | .unbound | .disabled => conn.execute st p
  | .profiler context =>
    match context.profiler.startStage st.stage.1 st.stage.2 .empty context.startedNs with
    | .error _ => (p, .raised true)
    | .ok (started, _) =>
      match (context.during started).finishStage context.finishedNs context.timestampNs with
      | .error _ => ((conn.execute st p).1, .raised true)
      | .ok _ => conn.execute st p

/-- The `except` clause (`transactions.py:32–38,67–73`): the ROLLBACK's own `Exception` is
swallowed, and what is no `Exception` passes by. -/
def recover (executes : Bool) (execute : Execute) (p : Progress) (ordinary : Bool) :
    Progress × Ending :=
  if ordinary && executes then
    match execute .rollback p with
    | (p, .raised false) => (p, .raised false)
    | (p, _) => (p, .raised true)
  else (p, .raised ordinary)

/-- Go on behind a call in the `try` clause, or into the handler. -/
def attempt (executes : Bool) (execute : Execute) (call : Progress × Ending)
    (next : Progress → Progress × Ending) : Progress × Ending :=
  match call with
  | (p, .returned) => next p
  | (p, .raised ordinary) => recover executes execute p ordinary

/-- The second half of the `try` clause, from the body on. -/
def bodyAndCommit (conn : Connection) (execute : Execute) (p : Progress) : Progress × Ending :=
  attempt conn.executes execute (p.enter conn.body, conn.body.ending) fun p ↦
    attempt conn.executes execute
      (if conn.executes then execute .commit p else (p, .returned)) fun p ↦ (p, .returned)

/-- The `try` clause and its handler (`transactions.py:26–38,61–73`). -/
def bracket (conn : Connection) (execute : Execute) : Progress × Ending :=
  attempt conn.executes execute
    (if conn.executes then execute .begin .start else (.start, .returned))
    (bodyAndCommit conn execute)

/-- A helper's run: what it did, how it ended, and whether the one `release` in its `finally`
clause took place. -/
structure TransactionRun where
  progress : Progress
  ending : Ending
  released : Bool
  deriving DecidableEq, Repr

/-- `transaction` (`core/db/transactions.py:13–40`). -/
def transaction (conn : Connection) : TransactionRun :=
  let (p, ending) := bracket conn conn.execute
  ⟨p, ending, true⟩

/-- `async_transaction` (`core/db/transactions.py:43–76`); `dropped` when `CancelledError` is
thrown into the release while it queues for the pool's lock. -/
def asyncTransaction (conn : Connection) (dropped : Bool) : TransactionRun :=
  let (p, ending) := bracket conn conn.execute
  ⟨p, if dropped then .raised false else ending, !dropped⟩

/-- `instrumented_transaction` (`core/performance/adapters/transactions.py:28–71`). -/
def instrumentedTransaction {F : Type} (stages : Statement → Binding F) (conn : Connection) :
    TransactionRun :=
  let (p, ending) := bracket conn (conn.timedExecute stages)
  ⟨p, ending, true⟩

/-- `instrumented_async_transaction` (`core/performance/adapters/transactions.py:74–119`). -/
def instrumentedAsyncTransaction {F : Type} (stages : Statement → Binding F) (conn : Connection)
    (dropped : Bool) : TransactionRun :=
  let (p, ending) := bracket conn (conn.timedExecute stages)
  ⟨p, if dropped then .raised false else ending, !dropped⟩

namespace TransactionRun

/-- The pool behind the helper, `c` being the connection. -/
def after (run : TransactionRun) (s : Store) (c : Addr) : Store :=
  if run.released then (s.release c false).1 else s

/-- The connection is released once, is in no transaction when that makes it idle, and an end
without an exception means that the body's effects are committed. -/
structure Clean (run : TransactionRun) : Prop where
  once : run.released = true
  closed : ∀ s c, c ∉ s.idle → c ∈ (run.after s c).idle → run.progress.inTransaction = false
  committed : run.ending = .returned → run.progress.committed = true

end TransactionRun

namespace Connection

/-- The first call of the `try` clause that raises. -/
def firstFailure (conn : Connection) : Option Reply :=
  [conn.statement .begin, conn.body, conn.statement .commit].find? (·.ending ≠ .returned)

/-- An `Exception` of BEGIN, of the body or of COMMIT is followed by a ROLLBACK that returns, or
fails and leaves no transaction open; what is no `Exception` leaves none open itself. Where there
is no `execute`, the body leaves none open. -/
def Closes (conn : Connection) : Prop :=
  if conn.executes then ∀ reply, conn.firstFailure = some reply →
    (reply.ending = .raised true → (conn.statement .rollback).ending = .returned ∨
      (conn.statement .rollback).inTransaction = false) ∧
    (reply.ending = .raised false → reply.inTransaction = false)
  else conn.body.inTransaction = false

/-- The handler leaves the connection as its ROLLBACK does, or as it was. -/
theorem recover_closes_iff (conn : Connection) (p : Progress) (ordinary : Bool)
    (h : conn.executes = true) :
    (recover conn.executes conn.execute p ordinary).1.inTransaction = false ↔
      (ordinary = true → (conn.statement .rollback).ending = .returned ∨
        (conn.statement .rollback).inTransaction = false) ∧
      (ordinary = false → p.inTransaction = false) := by
  cases ordinary with
  | false => simp [recover]
  | true =>
    simp only [recover, h, execute, Progress.issue]
    rcases hreply : (conn.statement .rollback).ending with _ | _ | _ <;> simp

/-- The try clause and its handler leave the connection outside a transaction exactly when the
last call on it does. -/
theorem bracket_closes_iff (conn : Connection) :
    (bracket conn conn.execute).1.inTransaction = false ↔ conn.Closes := by
  unfold Closes bracket bodyAndCommit
  cases h : conn.executes with
  | false =>
    cases hbody : conn.body.ending with
    | returned => simp [attempt, Progress.enter]
    | raised ordinary => simp [attempt, recover, Progress.enter]
  | true =>
    have hrecover := conn.recover_closes_iff
    rw [h] at hrecover
    cases hbegin : (conn.statement .begin).ending with
    | raised ordinary =>
      have hfirst : conn.firstFailure = some (conn.statement .begin) := by
        simp [firstFailure, hbegin]
      simp [attempt, execute, hbegin, hfirst, hrecover, Progress.issue]
    | returned =>
      cases hbody : conn.body.ending with
      | raised ordinary =>
        have hfirst : conn.firstFailure = some conn.body := by
          simp [firstFailure, hbegin, hbody]
        simp [attempt, execute, hbegin, hbody, hfirst, hrecover, Progress.enter]
      | returned =>
        cases hcommit : (conn.statement .commit).ending with
        | raised ordinary =>
          have hfirst : conn.firstFailure = some (conn.statement .commit) := by
            simp [firstFailure, hbegin, hbody, hcommit]
          simp [attempt, execute, hbegin, hcommit, hfirst, hrecover, Progress.issue]
        | returned =>
          have hfirst : conn.firstFailure = none := by
            simp [firstFailure, hbegin, hbody, hcommit]
          simp [attempt, execute, hbegin, hcommit, hfirst, Progress.issue]

/-- The handler raises. -/
theorem recover_ne_returned (executes : Bool) (execute : Execute) (p : Progress)
    (ordinary : Bool) : (recover executes execute p ordinary).2 ≠ .returned := by
  unfold recover
  split
  · split <;> simp
  · simp

/-- A helper with `execute` returns only behind its COMMIT; without it, what the body wrote outside
a transaction is committed anyway. -/
theorem bracket_committed (conn : Connection) (hcloses : conn.Closes)
    (h : (bracket conn conn.execute).2 = .returned) :
    (bracket conn conn.execute).1.committed = true := by
  unfold bracket bodyAndCommit at h ⊢
  unfold Closes at hcloses
  cases hexec : conn.executes with
  | false =>
    rw [hexec] at h hcloses
    cases hbody : conn.body.ending with
    | returned => simpa [attempt, Progress.enter] using hcloses
    | raised ordinary => simp [attempt, hbody, recover] at h
  | true =>
    rw [hexec] at h
    cases hbegin : (conn.statement .begin).ending with
    | raised ordinary =>
      simp [attempt, execute, hbegin, recover_ne_returned] at h
    | returned =>
      cases hbody : conn.body.ending with
      | raised ordinary => simp [attempt, execute, hbegin, hbody, recover_ne_returned] at h
      | returned =>
        cases hcommit : (conn.statement .commit).ending with
        | raised ordinary =>
          simp [attempt, execute, hbegin, hbody, hcommit, recover_ne_returned] at h
        | returned => simp [attempt, execute, hbegin, hcommit, Progress.issue]

/-- A pool that has handed out one connection. -/
def oneInUse : Store :=
  { Store.new 0 1 with inUse := Dict.empty.set 0 (some ⟨0, 0, 0, .inUse, 0⟩) }

/-- A run over the plain statements is clean exactly when they leave the connection outside a
transaction and the release takes place. -/
theorem clean_iff (conn : Connection) (ending : Ending) (released : Bool)
    (h : ending = .returned → (bracket conn conn.execute).2 = .returned) :
    (⟨(bracket conn conn.execute).1, ending, released⟩ : TransactionRun).Clean ↔
      conn.Closes ∧ released = true := by
  constructor
  · rintro ⟨once, closed, -⟩
    refine ⟨conn.bracket_closes_iff.mp ?_, once⟩
    obtain rfl : released = true := once
    have hidle : (0 : Addr) ∈ (oneInUse.release 0 false).1.idle := by decide
    exact closed oneInUse 0 (by decide) hidle
  · rintro ⟨hcloses, rfl⟩
    exact ⟨rfl, fun _ _ _ _ ↦ conn.bracket_closes_iff.mpr hcloses,
      fun hend ↦ conn.bracket_committed hcloses (h hend)⟩

/-- What a timed statement does: nothing when its stage does not open; the statement is issued in
every other case, and its own end is lost when the stage does not close. -/
theorem timedExecute_cases {F : Type} (conn : Connection) (stages : Statement → Binding F)
    (st : Statement) (p : Progress) :
    ¬ (stages st).Open ∧ conn.timedExecute stages st p = (p, .raised true) ∨
    (stages st).Open ∧
      (¬ (stages st).Closes st.stage ∧
          conn.timedExecute stages st p = ((conn.execute st p).1, .raised true) ∨
        (stages st).Closes st.stage ∧ conn.timedExecute stages st p = conn.execute st p) := by
  unfold timedExecute
  cases stages st with
  | unbound => exact .inr ⟨trivial, .inr ⟨trivial, rfl⟩⟩
  | disabled => exact .inr ⟨trivial, .inr ⟨trivial, rfl⟩⟩
  | profiler context =>
    have hstart : (∃ r, context.profiler.startStage st.stage.1 st.stage.2 .empty
        context.startedNs = .ok r) ↔ _ := Performance.RequestProfiler.startStage_ok_iff
    unfold Binding.Open Binding.Closes
    dsimp only
    rw [← hstart]
    cases hopened : context.profiler.startStage st.stage.1 st.stage.2 .empty
        context.startedNs with
    | error e =>
      refine .inl ⟨?_, rfl⟩
      rintro ⟨r, h⟩
      cases h
    | ok r =>
      obtain ⟨started, place⟩ := r
      have hfinish : (∃ after, (context.during started).finishStage context.finishedNs
          context.timestampNs = .ok after) ↔ _ :=
        Performance.RequestProfiler.finishStage_ok_iff
          fun node ↦ context.clocked _ _ _ _ node hopened
      dsimp only
      refine .inr ⟨⟨_, rfl⟩, ?_⟩
      cases hclosed : (context.during started).finishStage context.finishedNs
          context.timestampNs with
      | error e =>
        refine .inl ⟨fun h ↦ ?_, rfl⟩
        obtain ⟨after, hafter⟩ := hfinish.mpr (h started place rfl)
        rw [hclosed] at hafter
        cases hafter
      | ok finished =>
        refine .inr ⟨?_, rfl⟩
        rintro started' place' h
        cases h
        exact hfinish.mp ⟨finished, hclosed⟩

/-- The stage of a statement opens, and closes unless the statement has raised an `Exception`. -/
def Followed {F : Type} (conn : Connection) (stages : Statement → Binding F) (st : Statement) :
    Prop :=
  (stages st).Open ∧
    ((conn.statement st).ending ≠ .raised true → (stages st).Closes st.stage)

/-- Every stage that the plain helper would reach opens. It closes, too, unless its statement
raises an `Exception`; behind a ROLLBACK it need not close unless that was cancelled. -/
def Undisturbed {F : Type} (conn : Connection) (stages : Statement → Binding F) : Prop :=
  conn.executes = true →
    conn.Followed stages .begin ∧
    ((conn.statement .begin).ending = .returned → conn.body.ending = .returned →
      conn.Followed stages .commit) ∧
    ∀ reply, conn.firstFailure = some reply → reply.ending = .raised true →
      (stages .rollback).Open ∧ ((conn.statement .rollback).ending = .raised false →
        (stages .rollback).Closes Statement.rollback.stage)

variable {F : Type} (conn : Connection) (stages : Statement → Binding F)

/-- Issuing a statement is noted. -/
theorem ne_issue (p : Progress) (st : Statement) (reply : Reply) : p ≠ p.issue st reply := by
  intro h
  have hissued := congrArg Progress.issued h
  simp [Progress.issue] at hissued

/-- A timed statement is the plain one exactly when its stage follows it. -/
theorem timedExecute_eq_iff (st : Statement) (p : Progress) :
    conn.timedExecute stages st p = conn.execute st p ↔ conn.Followed stages st := by
  unfold Followed
  rcases conn.timedExecute_cases stages st p with ⟨hopen, h⟩ | ⟨hopen, ⟨hcloses, h⟩ | ⟨hcloses, h⟩⟩
  · refine iff_of_false (fun heq ↦ ?_) fun hf ↦ hopen hf.1
    rw [h] at heq
    exact ne_issue p st _ (congrArg Prod.fst heq)
  · rw [h, execute]
    simp [hopen, hcloses, eq_comm]
  · exact iff_of_true h ⟨hopen, fun _ ↦ hcloses⟩

/-- The instrumented handler does nothing, or it issues the ROLLBACK; it raises either way. -/
theorem recover_timed_cases (p : Progress) :
    recover true (conn.timedExecute stages) p true = (p, .raised true) ∨
    ∃ ordinary, recover true (conn.timedExecute stages) p true =
      (p.issue .rollback (conn.statement .rollback), .raised ordinary) := by
  unfold recover
  rcases conn.timedExecute_cases stages .rollback p with ⟨-, h⟩ | ⟨-, ⟨-, h⟩ | ⟨-, h⟩⟩
  · exact .inl (by simp [h])
  · exact .inr ⟨true, by simp [h, execute]⟩
  · rw [h, execute]
    rcases (conn.statement .rollback).ending with _ | _ | _
    · exact .inr ⟨true, rfl⟩
    · exact .inr ⟨false, rfl⟩
    · exact .inr ⟨true, rfl⟩

/-- The instrumented handler does the same as the plain one exactly when the stage of its ROLLBACK
opens, and closes if that was cancelled. -/
theorem recover_timed_eq_iff (p : Progress) :
    recover true (conn.timedExecute stages) p true = recover true conn.execute p true ↔
      (stages .rollback).Open ∧ ((conn.statement .rollback).ending = .raised false →
        (stages .rollback).Closes Statement.rollback.stage) := by
  unfold recover
  rcases conn.timedExecute_cases stages .rollback p with
    ⟨hopen, h⟩ | ⟨hopen, ⟨hcloses, h⟩ | ⟨hcloses, h⟩⟩
  · refine iff_of_false (fun heq ↦ ?_) fun hr ↦ hopen hr.1
    rw [h, execute] at heq
    rcases hreply : (conn.statement .rollback).ending with _ | _ | _ <;>
      simp [hreply, ne_issue] at heq
  · rw [h, execute]
    rcases hreply : (conn.statement .rollback).ending with _ | _ | _ <;> simp [hopen, hcloses]
  · rw [h]
    exact iff_of_true rfl ⟨hopen, fun _ ↦ hcloses⟩

/-- The plain handler issues its ROLLBACK. -/
theorem recover_progress (p : Progress) : (recover true conn.execute p true).1 =
    p.issue .rollback (conn.statement .rollback) := by
  simp only [recover, execute, Bool.and_self, if_true]
  rcases (conn.statement .rollback).ending with _ | _ | _ <;> rfl

/-- What the plain helper has issued behind a statement begins with it. -/
theorem attempt_issued (st : Statement) (p : Progress) (next : Progress → Progress × Ending)
    (hmore : ∀ q, ∃ more, (next q).1.issued = q.issued ++ more) :
    ∃ more, (attempt true conn.execute (conn.execute st p) next).1.issued =
      p.issued ++ st :: more := by
  have hissue : (p.issue st (conn.statement st)).issued = p.issued ++ [st] := rfl
  unfold attempt execute
  rcases (conn.statement st).ending with _ | _ | _
  · obtain ⟨more, h⟩ := hmore (p.issue st (conn.statement st))
    refine ⟨more, ?_⟩
    rw [h, hissue, List.append_assoc]
    rfl
  · exact ⟨[], hissue⟩
  · refine ⟨[.rollback], ?_⟩
    show (recover true conn.execute (p.issue st (conn.statement st)) true).1.issued = _
    rw [recover_progress, Progress.issue, hissue, List.append_assoc]
    rfl

/-- A stage that does not follow its statement shows in what the helper does. -/
theorem attempt_ne {st : Statement} (hst : st ≠ .rollback) (p : Progress)
    {timed plain : Progress → Progress × Ending}
    (hmore : ∀ q, ∃ more, (plain q).1.issued = q.issued ++ more)
    (hentered : ∀ q ordinary, plain (p.issue st (conn.statement st)) = (q, .raised ordinary) →
      q.entered ≠ p.entered)
    (h : ¬ conn.Followed stages st) :
    attempt true (conn.timedExecute stages) (conn.timedExecute stages st p) timed ≠
      attempt true conn.execute (conn.execute st p) plain := by
  intro heq
  rcases conn.timedExecute_cases stages st p with
    ⟨-, hskip⟩ | ⟨hopen, ⟨-, hlost⟩ | ⟨-, hsame⟩⟩
  · obtain ⟨more, hplain⟩ := conn.attempt_issued st p plain hmore
    rw [← heq, hskip] at hplain
    rcases conn.recover_timed_cases stages p with hr | ⟨ordinary, hr⟩
    · simp [attempt, hr] at hplain
    · simp [attempt, hr, Progress.issue, Ne.symm hst] at hplain
  · rw [hlost] at heq
    simp only [attempt, execute] at heq
    rcases hreply : (conn.statement st).ending with _ | _ | _
    · rw [hreply] at heq
      rcases conn.recover_timed_cases stages (p.issue st (conn.statement st)) with
        hr | ⟨ordinary, hr⟩
      · exact hentered _ true (heq.symm.trans hr) rfl
      · exact hentered _ ordinary (heq.symm.trans hr) rfl
    · rw [hreply] at heq
      have hpassed : recover true (conn.timedExecute stages) (p.issue st (conn.statement st)) true =
          (p.issue st (conn.statement st), .raised false) := heq
      rcases conn.recover_timed_cases stages (p.issue st (conn.statement st)) with
        hr | ⟨ordinary, hr⟩
      · rw [hr] at hpassed
        exact absurd (congrArg Prod.snd hpassed) (by simp)
      · rw [hr] at hpassed
        exact ne_issue _ _ _ (congrArg Prod.fst hpassed).symm
    · exact h ⟨hopen, fun hne ↦ absurd hreply hne⟩
  · exact h ((conn.timedExecute_eq_iff stages st p).mp hsame)

/-- From the body on, the plain helper only adds statements, and the body has been entered. -/
theorem bodyAndCommit_plain (hexec : conn.executes = true) (p : Progress) :
    (∃ more, (bodyAndCommit conn conn.execute p).1.issued = p.issued ++ more) ∧
      (bodyAndCommit conn conn.execute p).1.entered = true := by
  unfold bodyAndCommit
  rw [hexec]
  cases hbody : conn.body.ending with
  | raised ordinary =>
    simp only [attempt]
    cases ordinary with
    | false => exact ⟨⟨[], (List.append_nil _).symm⟩, rfl⟩
    | true =>
      rw [recover_progress]
      exact ⟨⟨[.rollback], rfl⟩, rfl⟩
  | returned =>
    constructor
    · obtain ⟨more, h⟩ := conn.attempt_issued .commit (p.enter conn.body)
        (fun p ↦ (p, .returned)) fun q ↦ ⟨[], (List.append_nil _).symm⟩
      exact ⟨.commit :: more, h⟩
    · simp only [attempt, execute, if_true]
      rcases (conn.statement .commit).ending with _ | _ | _
      · rfl
      · rfl
      · dsimp only
        rw [recover_progress]
        rfl

/-- Behind the first failure, both helpers do the same exactly when the ROLLBACK's stage, if it
comes to that, is not disturbed. -/
theorem recover_eq_iff {reply : Reply} {ordinary : Bool} (hfirst : conn.firstFailure = some reply)
    (hend : reply.ending = .raised ordinary) (p : Progress) :
    recover true (conn.timedExecute stages) p ordinary = recover true conn.execute p ordinary ↔
      ∀ reply, conn.firstFailure = some reply → reply.ending = .raised true →
        (stages .rollback).Open ∧ ((conn.statement .rollback).ending = .raised false →
          (stages .rollback).Closes Statement.rollback.stage) := by
  cases ordinary with
  | false => simp [recover, hfirst, hend]
  | true =>
    rw [recover_timed_eq_iff]
    simp [hfirst, hend]

/-- The instrumented helper does the same as the plain one exactly when no stage is disturbed. -/
theorem bracket_timed_eq_iff :
    bracket conn (conn.timedExecute stages) = bracket conn conn.execute ↔
      conn.Undisturbed stages := by
  unfold bracket Undisturbed
  cases hexec : conn.executes with
  | false =>
    refine iff_of_true ?_ fun h ↦ absurd h (by decide)
    cases hbody : conn.body.ending <;> simp [attempt, bodyAndCommit, hexec, hbody, recover]
  | true =>
    simp only [if_true, forall_const]
    by_cases hbegin : conn.Followed stages .begin
    · rw [(conn.timedExecute_eq_iff stages .begin .start).mpr hbegin]
      cases hend : (conn.statement .begin).ending with
      | raised ordinary =>
        have hfirst : conn.firstFailure = some (conn.statement .begin) := by
          simp [firstFailure, hend]
        simp only [attempt, execute, hend]
        rw [conn.recover_eq_iff stages hfirst hend]
        simp [hbegin]
      | returned =>
        simp only [attempt, execute, hend, bodyAndCommit, hexec, if_true]
        cases hbody : conn.body.ending with
        | raised ordinary =>
          have hfirst : conn.firstFailure = some conn.body := by
            simp [firstFailure, hend, hbody]
          rw [conn.recover_eq_iff stages hfirst hbody]
          simp [hbegin]
        | returned =>
          dsimp only
          by_cases hcommit : conn.Followed stages .commit
          · rw [(conn.timedExecute_eq_iff stages .commit _).mpr hcommit]
            cases hlast : (conn.statement .commit).ending with
            | raised ordinary =>
              have hfirst : conn.firstFailure = some (conn.statement .commit) := by
                simp [firstFailure, hend, hbody, hlast]
              simp only [execute, hlast]
              rw [conn.recover_eq_iff stages hfirst hlast]
              simp [hbegin, hcommit]
            | returned =>
              have hfirst : conn.firstFailure = none := by
                simp [firstFailure, hend, hbody, hlast]
              simp [execute, hlast, hbegin, hcommit, hfirst]
          · refine iff_of_false ?_ fun h ↦ hcommit (h.2.1 trivial rfl)
            exact conn.attempt_ne stages (by decide) _ (fun q ↦ ⟨[], (List.append_nil _).symm⟩)
              (fun q ordinary hq ↦ absurd (congrArg Prod.snd hq) (by simp)) hcommit
    · have hplain := conn.bodyAndCommit_plain hexec
      refine iff_of_false (conn.attempt_ne stages (by decide) .start (fun q ↦ (hplain q).1)
        (fun q ordinary hq ↦ ?_) hbegin) fun h ↦ hbegin h.1
      have hentered := (hplain (Progress.start.issue .begin (conn.statement .begin))).2
      rw [hq] at hentered
      rw [hentered]
      decide

end Connection

/-- A helper never leaves a connection in a transaction exactly when what it asks of the connection
closes one, and, for the asynchronous helpers, when no cancellation takes effect in the release.
The instrumented helpers do the same as the plain ones exactly when no stage is disturbed. -/
theorem transactions_clean_iff {F : Type} (conn : Connection) (dropped : Bool)
    (stages : Statement → Binding F) :
    ((transaction conn).Clean ↔ conn.Closes) ∧
    ((asyncTransaction conn dropped).Clean ↔ conn.Closes ∧ dropped = false) ∧
    ((instrumentedTransaction stages conn).Clean ∧
        instrumentedTransaction stages conn = transaction conn ↔
      conn.Closes ∧ conn.Undisturbed stages) ∧
    ((instrumentedAsyncTransaction stages conn dropped).Clean ∧
        instrumentedAsyncTransaction stages conn dropped = asyncTransaction conn dropped ↔
      (conn.Closes ∧ dropped = false) ∧ conn.Undisturbed stages) := by
  have hsync : (transaction conn).Clean ↔ conn.Closes := by
    rw [transaction, conn.clean_iff _ _ id]
    simp
  have hasync : (asyncTransaction conn dropped).Clean ↔ conn.Closes ∧ dropped = false := by
    rw [asyncTransaction, conn.clean_iff]
    · simp
    · cases dropped <;> simp
  have hsame : instrumentedTransaction stages conn = transaction conn ↔
      conn.Undisturbed stages := by
    rw [← conn.bracket_timed_eq_iff stages, instrumentedTransaction, transaction,
      TransactionRun.mk.injEq, Prod.ext_iff]
    simp
  refine ⟨hsync, hasync, ?_, ?_⟩
  · rw [← hsync, ← hsame]
    refine and_congr_left fun heq ↦ ?_
    rw [heq]
  · rw [← hasync, ← hsame]
    constructor
    · rintro ⟨hclean, heq⟩
      rw [heq] at hclean
      -- a dropped release is not clean, so the runs agree in how they end
      obtain rfl : dropped = false := (hasync.mp hclean).2
      exact ⟨hclean, heq⟩
    · rintro ⟨hclean, heq⟩
      obtain rfl : dropped = false := (hasync.mp hclean).2
      have hboth : instrumentedAsyncTransaction stages conn false =
          asyncTransaction conn false := heq
      rw [hboth]
      exact ⟨hclean, rfl⟩

/-- In the asynchronous pool, a release that has queued for the lock ends as the helper's run says:
it is dropped exactly when a cancellation takes effect first. -/
theorem asyncTransaction_after {p p' : Pool.Async.AsyncPool} {t : Nat} {ch : Pool.Async.Choice}
    {task : Pool.Async.Task} {pc' : Pool.Async.PC} {c : Addr} (conn : Connection)
    (h : p.run t ch task = some (p', pc')) (hpc : task.pc = .lockRelease c false false) :
    p'.store = (asyncTransaction conn task.cancelled).after p.store c := by
  unfold Pool.Async.AsyncPool.run at h
  cases hcancelled : task.cancelled with
  | true =>
    rw [hcancelled, hpc] at h
    obtain ⟨rfl, -⟩ := Prod.mk.inj (Option.some.inj h)
    rfl
  | false =>
    rw [hcancelled, hpc] at h
    simp only [Bool.false_eq_true, if_false, Pool.Async.AsyncPool.resume] at h
    split at h
    · have hstore := Pool.Async.AsyncPool.releaseBody_store
        { p with lock := (p.lock.leave t).take } c false ch
      have hp : ({ p with lock := (p.lock.leave t).take }.releaseBody c false ch).1 = p' :=
        congrArg Prod.fst (Option.some.inj h)
      rw [← hp, hstore.1]
      rfl
    · cases h

/-- In the thread pool the release always takes place. -/
theorem transaction_after {p p' : Pool.Sync.SyncPool} {t : Nat} {ch : Pool.Sync.Choice}
    {pc' : Pool.Sync.PC} {c : Addr} (conn : Connection)
    (h : p.run t ch (.holding c) = some (p', pc')) (hgood : ch.broken = false) :
    p'.store = (transaction conn).after p.store c := by
  obtain ⟨rfl, -⟩ := Prod.mk.inj (Option.some.inj h)
  rw [Pool.Sync.SyncPool.store_releaseBody, hgood]
  rfl

/-- A body that is cancelled inside its transaction. -/
def cancelledInside : Connection where
  executes := true
  statement _ := ⟨.returned, false⟩
  body := ⟨.raised false, true⟩

/-- The cancelled body's transaction is still open when the connection becomes idle. -/
theorem not_clean_cancelledInside : ¬ (asyncTransaction cancelledInside false).Clean := by
  rintro ⟨-, closed, -⟩
  have hidle : (0 : Addr) ∈
      ((asyncTransaction cancelledInside false).after Connection.oneInUse 0).idle := by decide
  exact absurd (closed Connection.oneInUse 0 (by decide) hidle) (by decide)

end SalesData.Execution

import SalesData.Pool.AsyncShutdown
import SalesData.Pool.SyncShutdown

/-!
# What `close_all` leaves open

`close_all` is meant to close every connection that the pool ever handed out
(`core/db/pool/async_pool.py:225`, `core/db/pool/sync_pool.py:177`). It closes those of its
snapshot. An acquire that was creating its connection at that time publishes it afterwards, into
a pool that accepts it as before, and its release makes it an idle one that nobody closes.
-/

namespace SalesData.Pool

open Base

/-- One `close_all`, no acquire after it, and nobody is cancelled. -/
def Async.OneShutdown (b : Audit State) : Act → Prop
  | .call .closeAll | .call .acquire => b.asked = false
  | .cancel _ => False
  | _ => True

instance (b : Audit Async.State) (a : Async.Act) : Decidable (Async.OneShutdown b a) :=
  match a with
  | .call .closeAll | .call .acquire => inferInstanceAs (Decidable (_ = _))
  | .cancel _ => isFalse id
  | .call (.release _ _) | .call (.warmup _) | .resume _ _ | .timer _ | .metrics => isTrue trivial

/-- One `close_all`, and no acquire after it. -/
def Sync.OneShutdown (b : Audit State) : Act → Prop
  | .call .closeAll | .call .acquire => b.asked = false
  | _ => True

instance (b : Audit Sync.State) (a : Sync.Act) : Decidable (Sync.OneShutdown b a) :=
  match a with
  | .call .closeAll | .call .acquire => inferInstanceAs (Decidable (_ = _))
  | .call (.release _ _) | .call (.warmup _) | .run _ _ | .metrics => isTrue trivial

/-- Neither pool leaves a connection open or idle after its shutdown, in any run in which no
connection is published after the snapshot and no cancellation drops one. -/
theorem closeAll_leavesNone (minConn maxConn : Nat) (timeout : Time) :
    (∀ b, (Async.audited minConn maxConn).Reach Async.SparesShutdown b → Async.LeavesNone b) ∧
    ∀ b, (Sync.audited minConn maxConn timeout).Reach Sync.SparesShutdown b → Sync.LeavesNone b :=
  ⟨fun _ h ↦ (Async.AuditInv.of_reach h).leavesNone,
    fun _ h ↦ (Sync.AuditInv.of_reach h).leavesNone⟩

/-- A task creates its connection while `close_all` empties the pool, and releases it later. -/
def Async.lateConnection : List Act :=
  [.call .acquire, .resume 0 { addr := 1 }, .call .closeAll, .resume 1 { addr := 2 },
    .resume 0 { addr := 3 }, .resume 0 { addr := 4 }]

/-- A thread creates its connection while another one is in `close_all`, and releases it later. -/
def Sync.lateConnection : List Act :=
  [.call .acquire, .run 0 { addr := 1 }, .run 0 { addr := 1 }, .call .closeAll,
    .run 1 { addr := 2 }, .run 1 { addr := 2 }, .run 0 { addr := 3 }, .run 0 { addr := 4 },
    .run 0 { addr := 4 }]

/-- In both pools a connection that is published after the snapshot stays open and idle. -/
theorem lateConnection_staysOpen :
    (∃ b, (Async.audited 1 1).Reach Async.OneShutdown b ∧ b.asked ∧ b.state.quiet ∧
      b.opened = [3] ∧ b.state.pool.store.idle = [3]) ∧
    (∃ b, (Sync.audited 1 1 5).Reach Sync.OneShutdown b ∧ b.asked ∧ b.state.quiet ∧
      b.opened = [3] ∧ b.state.pool.store.idle = [3]) ∧
    (¬ ∀ minConn maxConn b, (Async.audited minConn maxConn).Reach Async.OneShutdown b →
      Async.LeavesNone b) ∧
    ¬ ∀ minConn maxConn timeout b,
      (Sync.audited minConn maxConn timeout).Reach Sync.OneShutdown b → Sync.LeavesNone b := by
  obtain ⟨b, hb, hend⟩ := System.exists_of_exec (Async.audited 1 1) Async.OneShutdown
    Async.lateConnection
    (fun b ↦ b.asked && b.state.quiet && b.opened == [3] && b.state.pool.store.idle == [3])
    (by decide +kernel)
  obtain ⟨c, hc, hcend⟩ := System.exists_of_exec (Sync.audited 1 1 5) Sync.OneShutdown
    Sync.lateConnection
    (fun b ↦ b.asked && b.state.quiet && b.opened == [3] && b.state.pool.store.idle == [3])
    (by decide +kernel)
  simp only [Bool.and_eq_true, beq_iff_eq] at hend hcend
  obtain ⟨⟨⟨hasked, hquiet⟩, hopened⟩, hidle⟩ := hend
  obtain ⟨⟨⟨hasked', hquiet'⟩, hopened'⟩, hidle'⟩ := hcend
  refine ⟨⟨b, hb, hasked, hquiet, hopened, hidle⟩, ⟨c, hc, hasked', hquiet', hopened', hidle'⟩,
    fun h ↦ ?_, fun h ↦ ?_⟩
  · have hnone := (h 1 1 b hb hasked hquiet).1
    rw [hopened] at hnone
    cases hnone
  · have hnone := (h 1 1 5 c hc hasked' hquiet').1
    rw [hopened'] at hnone
    cases hnone

/-- With one connection idle and one in use at the snapshot, both pools close both. -/
theorem closeAll_leavesNone_twoConnections :
    (∃ b, (Async.audited 2 2).Reach Async.SparesShutdown b ∧ b.state.pool.store.closed = [2, 4] ∧
      b.opened = [] ∧ b.state.pool.store.available = []) ∧
    ∃ b, (Sync.audited 2 2 5).Reach Sync.SparesShutdown b ∧ b.state.pool.store.closed = [2, 4] ∧
      b.opened = [] ∧ b.state.pool.store.available = [] := by
  obtain ⟨b, hb, hend⟩ := System.exists_of_exec (Async.audited 2 2) Async.SparesShutdown
    [.call .acquire, .call .acquire, .resume 0 { addr := 1 }, .resume 0 { addr := 2 },
      .resume 1 { addr := 3 }, .resume 1 { addr := 4 }, .resume 1 { addr := 5 }, .call .closeAll,
      .resume 2 { addr := 5 }, .resume 2 { addr := 5 }, .resume 2 { addr := 5 },
      .resume 0 { addr := 5 }]
    (fun b ↦ b.asked && b.state.quiet && b.state.pool.store.closed == [2, 4]) (by decide +kernel)
  obtain ⟨c, hc, hcend⟩ := System.exists_of_exec (Sync.audited 2 2 5) Sync.SparesShutdown
    [.call .acquire, .call .acquire, .run 0 { addr := 1 }, .run 0 { addr := 1 },
      .run 0 { addr := 2 }, .run 0 { addr := 3 }, .run 1 { addr := 3 }, .run 1 { addr := 3 },
      .run 1 { addr := 4 }, .run 1 { addr := 5 }, .run 1 { addr := 5 }, .call .closeAll,
      .run 2 { addr := 5 }, .run 2 { addr := 5 }, .run 2 { addr := 5 }, .run 2 { addr := 5 },
      .run 0 { addr := 5 }]
    (fun b ↦ b.asked && b.state.quiet && b.state.pool.store.closed == [2, 4]) (by decide +kernel)
  simp only [Bool.and_eq_true, beq_iff_eq] at hend hcend
  exact ⟨⟨b, hb, hend.2, (closeAll_leavesNone 2 2 5).1 b hb hend.1.1 hend.1.2⟩,
    ⟨c, hc, hcend.2, (closeAll_leavesNone 2 2 5).2 c hc hcend.1.1 hcend.1.2⟩⟩

end SalesData.Pool

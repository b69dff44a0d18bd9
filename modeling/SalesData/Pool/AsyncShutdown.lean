import SalesData.Pool.Accounts
import SalesData.Pool.AsyncLedger

/-!
# Open connections of the asynchronous pool

`close_all` takes its snapshot under the lock and closes afterwards what it found there
(`core/db/pool/async_pool.py:224–238`). The account of open connections is kept beside the
pool: `create_connection` adds one, `close` removes one. It balances in every run in which no
connection is published after the snapshot and no cancellation drops one.
-/

namespace SalesData.Pool

open Base

namespace Async

/-- The connection that `create_connection` returns to a task in its turn. -/
def Task.made (task : Task) (ch : Choice) : List Addr :=
  match task with
  | ⟨.creating _ _ _, false, _⟩ => if ch.ok then [ch.addr] else []
  | _ => []

/-- The connections that an action creates. -/
def State.made (s : State) : Act → List Addr
  | .resume t ch => match s.tasks[t]? with
    | some task => task.made ch
    | none => []
  | _ => []

/-- An action of the pool, entered in the account of open connections. -/
def auditStep (b : Audit State) (a : Act) : Option (Audit State) :=
  (step b.state a).map fun s' ↦
    ⟨s', (b.state.made a ++ b.opened).diff (b.state.pool.store.closings s'.pool.store),
      b.asked || decide (a = .call .closeAll)⟩

/-- The pool with its account. -/
def audited (minConn maxConn : Nat) : System (Audit State) Act :=
  ⟨⟨(system minConn maxConn).init, [], false⟩, auditStep⟩

/-- `close_all` has not looked at the pool yet. -/
def PC.beforeSnapshot : PC → Bool
  | called .closeAll | lockCloseAll => true
  | _ => false

/-- `close_all` has been called and has taken its snapshot. -/
def AfterSnapshot (b : Audit State) : Prop :=
  b.asked ∧ ∀ task ∈ b.state.tasks, task.pc.beforeSnapshot = false

instance (b : Audit State) : Decidable (AfterSnapshot b) := by unfold AfterSnapshot; infer_instance

/-- The task publishes the connection created for it in this turn. -/
def Task.publishes (task : Task) (p : AsyncPool) (ch : Choice) : Bool :=
  !task.cancelled && match task.pc with
    | .creating _ _ _ => ch.ok && p.lock.free
    | .lockPublish _ _ _ _ => true
    | _ => false

/-- A cancellation here drops open connections: one that is to be published, or those that
`close_all` has not closed. -/
def PC.fragile : PC → Bool
  | lockPublish _ _ _ _ | closingAll (_ :: _) => true
  | pc => pc.beforeSnapshot

/-- `close_all` is fragile before its snapshot. -/
theorem PC.fragile_of_beforeSnapshot {pc : PC} (h : pc.beforeSnapshot) : pc.fragile = true := by
  cases pc with
  | called | lockCloseAll => exact h
  | _ => cases h

/-- No connection is published after the snapshot, and no cancellation drops one. -/
def SparesShutdown (b : Audit State) : Act → Prop
  | .resume t ch => ∀ task ∈ b.state.tasks[t]?,
      (AfterSnapshot b → task.publishes b.state.pool ch = false) ∧
        (task.cancelled → task.pc.fragile = false)
  | _ => True

instance (b : Audit State) (a : Act) : Decidable (SparesShutdown b a) :=
  match a with
  | .resume t _ => inferInstanceAs (Decidable (∀ task ∈ b.state.tasks[t]?, _))
  | .call _ | .cancel _ | .timer _ | .metrics => isTrue trivial

/-- Every call of the pool has ended. -/
def State.quiet (s : State) : Bool := s.tasks.all fun task ↦ !task.pc.suspended

/-- Once `close_all` and all other calls have ended, no connection is open or idle. -/
def LeavesNone (b : Audit State) : Prop :=
  b.asked → b.state.quiet → b.opened = [] ∧ b.state.pool.store.available = []

/-- Tasks outside the pool's calls have nothing in charge. -/
theorem charges_of_quiet {pc : PC} (h : pc.suspended = false) : pc.role.charges = [] := by
  cases pc with
  | holding | ended => rfl
  | _ => cases h

/-- A new task has nothing in charge. -/
theorem charges_called (job : Job) : (PC.called job).role.charges = [] ∧
    (PC.called job).role.placeholders = [] := by
  cases job <;> exact ⟨rfl, rfl⟩

namespace AsyncPool

variable {roles : List Role} {t : Nat}

/-- Going on to close the next connection settles. -/
theorem nextClose_settles (p : AsyncPool) (cs : List Addr) (ht : roles[t]? = some (.closer cs)) :
    Ledger.Settles roles t p.store [] (p.nextClose cs).1.store (p.nextClose cs).2.role := by
  cases cs with
  | nil => exact .of_move ht .finish fun _ ↦ rfl
  | cons c rest => exact .of_move ht .close (by simp)

/-- What a task does under the lock settles. -/
theorem underLock_settles (p : AsyncPool) (ch : Choice) (q : PC)
    (hch : ch.addr ∉ (⟨p.store, roles⟩ : Ledger).live) (ht : roles[t]? = some q.role) :
    Ledger.Settles roles t p.store [] (p.underLock ch q).1.store (p.underLock ch q).2.role := by
  cases q with
  | loop start again =>
    simp only [underLock, loopBody]
    split
    · next s c h => exact .of_move ht (.hit h) (by simp)
    · next s h => exact .of_move ht (.reserve h hch) (by simp)
    · next s h =>
      obtain ⟨-, -, rfl⟩ := Store.take_full h
      exact .stay ht
  | lockUndo k err => exact .of_move ht .undo (by simp)
  | lockPublish start elapsed k c => exact .of_move ht .publish (by simp)
  | lockRelease c broken stray =>
    obtain ⟨hs, hr⟩ := p.releaseBody_store c broken ch
    simp only [underLock, hs, hr]
    cases stray with
    | false => exact .of_move ht .release (by simp)
    | true => exact .of_move ht .releaseStray (by simp)
  | lockCloseAll =>
    simp only [underLock]
    cases hd : p.store.drain.2 with
    | nil => exact .drainEmpty ht hd
    | cons c cs => exact .drainClose ht hd
  | lockWarmup target =>
    intro opened h
    have hstay := Ledger.Settles.stay ht opened h
    exact hstay.resize _
  | _ => exact .stay ht

/-- Entering or queueing settles. -/
theorem arrive_settles (p : AsyncPool) (ch : Choice) (q : PC)
    (hch : ch.addr ∉ (⟨p.store, roles⟩ : Ledger).live) (ht : roles[t]? = some q.role) :
    Ledger.Settles roles t p.store [] (p.arrive t ch q).1.store (p.arrive t ch q).2.role := by
  unfold arrive
  split
  · exact underLock_settles { p with lock := p.lock.take } ch q hch ht
  · exact .stay ht

/-- A cancellation settles where no connection is dropped. -/
theorem throwCancelled_settles (p : AsyncPool) (ch : Choice) (pc : PC)
    (hch : ch.addr ∉ (⟨p.store, roles⟩ : Ledger).live) (ht : roles[t]? = some pc.role)
    (hfragile : pc.fragile = false) :
    Ledger.Settles roles t p.store [] (p.throwCancelled t ch pc).1.store
      (p.throwCancelled t ch pc).2.role := by
  cases pc with
  | called job =>
    cases job with
    | release c broken => exact .of_move ht .abandonStray (by simp)
    | _ => exact .stay ht
  | waiting start w => exact p.arrive_settles ch (.lockCancel w) hch ht
  | lockTimeout start w =>
    exact arrive_settles { p with lock := p.lock.abandon t } ch (.lockCancel w) hch ht
  | creating start createStart k => exact p.arrive_settles ch (.lockUndo k .cancelledError) hch ht
  | lockUndo k err => exact .of_move ht .leak fun _ ↦ rfl
  | lockPublish => cases hfragile
  | holding c => exact .of_move ht .abandon (by simp)
  | lockRelease c broken stray =>
    cases stray with
    | false => exact .of_move ht .abandon (by simp)
    | true => exact .of_move ht .abandonStray (by simp)
  | closingAll rest =>
    cases rest with
    | nil => exact .of_move ht .finish fun _ ↦ rfl
    | cons => cases hfragile
  | _ => exact .stay ht

private theorem create_settles (p : AsyncPool) (ch : Choice) (start elapsed : Time) (k : Addr)
    (hch : ch.addr ∉ (⟨p.store, roles⟩ : Ledger).live) (ht : roles[t]? = some (.reserving k)) :
    Ledger.Settles roles t p.store [ch.addr]
      ({ p with store := p.store.allocate ch.addr }.arrive t ch
        (.lockPublish start elapsed k ch.addr)).1.store
      ({ p with store := p.store.allocate ch.addr }.arrive t ch
        (.lockPublish start elapsed k ch.addr)).2.role := by
  unfold arrive
  split
  · exact .createPublish ch.now ht hch
  · exact .of_move ht (.create hch) (by simp)

/-- Going on settles, with the connection that a creation returns. -/
theorem resume_settles {p p' : AsyncPool} {ch : Choice} {pc pc' : PC} {timedOut : Bool}
    (h : p.Resumes t ch pc p' pc') (hch : ch.addr ∉ (⟨p.store, roles⟩ : Ledger).live)
    (ht : roles[t]? = some pc.role) :
    Ledger.Settles roles t p.store (Task.made ⟨pc, false, timedOut⟩ ch) p'.store pc'.role := by
  cases h with
  | arrives harrives =>
    cases harrives with
    | created hok =>
      simp only [Task.made, if_pos hok]
      exact p.create_settles ch _ _ _ hch ht
    | failed hok =>
      simp only [Task.made, hok, Bool.false_eq_true, if_false]
      exact p.arrive_settles ch (.lockUndo _ _) hch ht
    | acquire =>
      exact arrive_settles { p with stats := p.stats.recordRequest } ch (.loop _ _) hch ht
    | woken => exact arrive_settles (p.dropEvent _) ch (.loop _ _) hch ht
    | stray => exact p.arrive_settles ch (.lockRelease _ _ true) hch ht
    | release => exact p.arrive_settles ch (.lockRelease _ _ false) hch ht
    | closeAll => exact p.arrive_settles ch .lockCloseAll hch ht
    | warmup => exact p.arrive_settles ch (.lockWarmup _) hch ht
  | granted hq =>
    have hmade : Task.made ⟨pc, false, timedOut⟩ ch = [] := by
      cases pc with
      | creating => cases hq
      | _ => rfl
    rw [hmade]
    exact underLock_settles { p with lock := (p.lock.leave t).take } ch pc hch ht
  | closed =>
    simp only [store_unlock, store_wakeOldest]
    exact .stay ht
  | closes => exact p.nextClose_settles _ ht

/-- A turn settles where no connection is dropped. -/
theorem run_settles {p p' : AsyncPool} {ch : Choice} {task : Task} {pc' : PC}
    (h : p.run t ch task = some (p', pc')) (hch : ch.addr ∉ (⟨p.store, roles⟩ : Ledger).live)
    (ht : roles[t]? = some task.pc.role) (hfragile : task.cancelled → task.pc.fragile = false) :
    Ledger.Settles roles t p.store (task.made ch) p'.store pc'.role := by
  cases runs_of_run h with
  | @cancelled pc timedOut =>
    have hmade : Task.made ⟨pc, true, timedOut⟩ ch = [] := by cases pc <;> rfl
    rw [hmade]
    exact p.throwCancelled_settles ch pc hch ht (hfragile rfl)
  | timedOut => exact p.arrive_settles ch (.lockTimeout _ _) hch ht
  | resumes hresumes => exact resume_settles hresumes hch ht

private theorem arrive_queued (p : AsyncPool) (t : Nat) (ch : Choice) (q : PC)
    (hfree : p.lock.free = false) :
    p.arrive t ch q = ({ p with lock := p.lock.enqueue t }, q) := by
  rw [arrive, if_neg (by simp [hfree])]

/-- Without a publication an emptied pool stays empty. -/
theorem run_emptied {p p' : AsyncPool} {ch : Choice} {task : Task} {pc' : PC}
    (h : p.run t ch task = some (p', pc')) (hpub : task.publishes p ch = false)
    (he : p.store.Emptied) : p'.store.Emptied := by
  obtain ⟨pc, cancelled, timedOut⟩ := task
  have hnew : ch.addr ∉ ([] : List Addr) := List.not_mem_nil
  by_cases hcreating : ∃ start createStart k, pc = .creating start createStart k ∧
      cancelled = false
  · obtain ⟨start, createStart, k, rfl, rfl⟩ := hcreating
    have hresume : p.resume t ch (.creating start createStart k) = some (p', pc') := h
    unfold resume at hresume
    dsimp only at hresume
    split at hresume
    · next hok =>
      -- The lock is taken, so the new connection has to wait.
      have hfree : p.lock.free = false := by simpa [Task.publishes, hok] using hpub
      have hqueued := arrive_queued { p with store := p.store.allocate ch.addr } t ch
        (.lockPublish start (ch.now - createStart) k ch.addr) hfree
      rw [hqueued] at hresume
      obtain ⟨rfl, -⟩ := Prod.mk.inj (Option.some.inj hresume)
      exact he
    · obtain ⟨rfl, rfl⟩ := Prod.mk.inj (Option.some.inj hresume)
      have heff : Ledger.Effect (· ≠ .publish) [] p.store _ _ _ :=
        p.arrive_effect t ch (.lockUndo k .creationFailed) hnew (by simp [PC.kinds])
      exact heff.emptied (fun _ hκ ↦ hκ) he
  · have heff : Ledger.Effect (· ≠ .publish) [] p.store _ _ _ := run_effect h hnew (by
      cases pc with
      | called job => cases job <;> cases cancelled <;> simp [Task.kinds, PC.kinds, PC.cancelKinds]
      | lockRelease c broken stray =>
        cases stray <;> cases cancelled <;> simp [Task.kinds, PC.kinds, PC.cancelKinds]
      | _ =>
        cases cancelled <;> simp_all [Task.kinds, PC.kinds, PC.cancelKinds, Task.publishes])
    exact heff.emptied (fun _ hκ ↦ hκ) he

/-- `close_all` queues for the lock, or takes its snapshot. -/
theorem run_snapshot {p p' : AsyncPool} {ch : Choice} {task : Task} {pc' : PC}
    (h : p.run t ch task = some (p', pc')) (hpc : task.pc.beforeSnapshot)
    (hc : task.cancelled = false) : pc'.beforeSnapshot ∨ p'.store.Emptied := by
  obtain ⟨pc, cancelled, timedOut⟩ := task
  obtain rfl : cancelled = false := hc
  have hunder (p : AsyncPool) : (p.underLock ch .lockCloseAll).1.store.Emptied := by
    simp only [underLock]
    cases p.store.drain.2 with
    | nil => exact ⟨rfl, rfl⟩
    | cons => exact ⟨rfl, rfl⟩
  cases pc with
  | called job =>
    cases job with
    | closeAll =>
      have harrive : some (p.arrive t ch .lockCloseAll) = some (p', pc') := h
      cases hfree : p.lock.free with
      | false =>
        rw [p.arrive_queued t ch _ hfree] at harrive
        obtain ⟨-, rfl⟩ := Prod.mk.inj (Option.some.inj harrive)
        exact .inl rfl
      | true =>
        rw [arrive, if_pos hfree] at harrive
        obtain ⟨rfl, -⟩ := Prod.mk.inj (Option.some.inj harrive)
        exact .inr (hunder _)
    | _ => cases hpc
  | lockCloseAll =>
    have hresume : p.resume t ch .lockCloseAll = some (p', pc') := h
    unfold resume at hresume
    dsimp only at hresume
    split at hresume
    · obtain ⟨rfl, rfl⟩ := Prod.mk.inj (Option.some.inj hresume)
      exact .inr (hunder _)
    · cases hresume
  | _ => cases hpc

end AsyncPool

/-- The account is kept, and after the snapshot the pool is empty. -/
structure AuditInv (b : Audit State) : Prop where
  account : Ledger.AccountInv b.state.ledger b.opened
  emptied : AfterSnapshot b → b.state.pool.store.Emptied

/-- A state with the same ledger keeps the account, when no call has begun. -/
theorem AuditInv.of_ledger_eq {b b' : Audit State} (h : AuditInv b)
    (hledger : b'.state.ledger = b.state.ledger) (hopened : b'.opened = b.opened)
    (hafter : AfterSnapshot b' → AfterSnapshot b) : AuditInv b' := by
  constructor
  · rw [hledger, hopened]
    exact h.account
  · intro he
    have hstore : b'.state.pool.store = b.state.pool.store := congrArg Ledger.store hledger
    rw [hstore]
    exact h.emptied (hafter he)

/-- A change of one task's flags does not take the snapshot. -/
theorem afterSnapshot_of_set {b : Audit State} {t : Nat} {task task' : Task}
    (ht : b.state.tasks[t]? = some task) (hpc : task'.pc = task.pc) (hasked : b.asked)
    (h : ∀ u ∈ b.state.tasks.set t task', u.pc.beforeSnapshot = false) : AfterSnapshot b := by
  have hself := h task' (List.mem_of_getElem? (getElem?_set_of_some ht task'))
  rw [hpc] at hself
  exact ⟨hasked, forall_mem_of_set ht hself h⟩

/-- Every step that spares the shutdown keeps the account. -/
theorem AuditInv.step {b b' : Audit State} {a : Act} (h : AuditInv b) (hok : SparesShutdown b a)
    (hs : auditStep b a = some b') : AuditInv b' := by
  obtain ⟨s', hstep, rfl⟩ := Option.map_eq_some_iff.mp hs
  have hnone : b.state.pool.store.closings b.state.pool.store = [] :=
    Store.closings_eq_nil (Nat.le_refl _)
  cases a with
  | call job =>
    obtain ⟨-, rfl⟩ := step_call hstep
    have hjoin := h.account.join (charges_called job).1 (charges_called job).2
    constructor
    · simpa [State.made, hnone, State.ledger] using hjoin
    · intro he
      apply h.emptied
      have hnew := he.2 ⟨.called job, false, false⟩ (by simp)
      constructor
      · cases job with
        | closeAll => cases hnew
        | _ => simpa using he.1
      · exact fun task hmem ↦ he.2 task (List.mem_append_left _ hmem)
  | resume t ch =>
    obtain ⟨task, p', pc', ht, hch, hrun, rfl⟩ := step_resume hstep
    obtain ⟨hpub, hfragile⟩ := hok task ht
    have hrole : b.state.ledger.roles[t]? = some task.pc.role := by simp [State.ledger, ht]
    have hmade : b.state.made (.resume t ch) = task.made ch := by simp [State.made, ht]
    rw [← live_ledger] at hch
    constructor
    · have hsettled := AsyncPool.run_settles hrun hch hrole hfragile b.opened h.account
      rw [hmade]
      simp only [State.ledger, List.map_set] at hsettled ⊢
      exact hsettled
    · intro he
      have hnew := he.2 _ (List.mem_of_getElem? (getElem?_set_of_some ht ⟨pc', false, false⟩))
      cases hsnap : task.pc.beforeSnapshot with
      | true =>
        have hc : task.cancelled = false := by
          by_contra hc
          have hfr := hfragile (by simpa using hc)
          rw [PC.fragile_of_beforeSnapshot hsnap] at hfr
          cases hfr
        rcases AsyncPool.run_snapshot hrun hsnap hc with hpc | hempty
        · rw [hpc] at hnew
          cases hnew
        · exact hempty
      | false =>
        have hbefore : AfterSnapshot b := ⟨by simpa using he.1, forall_mem_of_set ht hsnap he.2⟩
        exact AsyncPool.run_emptied hrun (hpub hbefore) (h.emptied hbefore)
  | cancel t =>
    obtain ⟨task, ht, -, rfl⟩ := step_cancel hstep
    apply h.of_ledger_eq
    · simp only [State.ledger]
      rw [map_role_set ht (by rfl)]
    · simp [State.made, hnone]
    · exact fun he ↦ afterSnapshot_of_set ht (by rfl) (by simpa using he.1) he.2
  | timer t =>
    obtain ⟨start, w, cancelled, timedOut, ht, rfl⟩ := step_timer hstep
    apply h.of_ledger_eq
    · simp only [State.ledger]
      rw [map_role_set ht (by rfl)]
    · simp [State.made, hnone]
    · exact fun he ↦ afterSnapshot_of_set ht (by rfl) (by simpa using he.1) he.2
  | metrics =>
    obtain rfl : { b.state with pool := b.state.pool.metrics } = s' := Option.some.inj hstep
    have hsame : b.state.pool.store.closings b.state.pool.metrics.store = [] := hnone
    constructor
    · simp only [State.made, hsame, List.nil_append, List.diff_nil]
      exact h.account.resize _
    · intro he
      exact h.emptied ⟨by simpa using he.1, he.2⟩

/-- The account is kept in every run that spares the shutdown. -/
theorem AuditInv.of_reach {minConn maxConn : Nat} {b : Audit State}
    (h : (audited minConn maxConn).Reach SparesShutdown b) : AuditInv b := by
  apply h.invariant
  · refine ⟨Ledger.accountInv_new minConn maxConn, fun he ↦ ?_⟩
    cases he.1
  · exact fun _ _ _ hb hok hs ↦ hb.step hok hs

/-- With the account kept and the pool empty, a quiet pool leaves no connection open. -/
theorem AuditInv.leavesNone {b : Audit State} (h : AuditInv b) : LeavesNone b := by
  intro hasked hquiet
  have hsus (task : Task) (hmem : task ∈ b.state.tasks) : task.pc.suspended = false := by
    simpa using List.all_eq_true.mp hquiet task hmem
  have hemptied := h.emptied ⟨hasked, fun task hmem ↦ by
    have hs := hsus task hmem
    cases hpc : task.pc with
    | holding | ended => rfl
    | _ => rw [hpc] at hs; cases hs⟩
  refine ⟨h.account.opened_eq_nil ?_ hemptied, hemptied.1⟩
  intro r hr
  obtain ⟨task, hmem, rfl⟩ := List.mem_map.mp hr
  exact charges_of_quiet (hsus task hmem)

end Async
end SalesData.Pool

import SalesData.Pool.Accounts
import SalesData.Pool.SyncLedger

/-!
# Open connections of the thread pool

The account of open connections beside the thread pool, whose `close_all` takes its snapshot
under the lock as well (`core/db/pool/sync_pool.py:176–194`). Nothing cancels a thread, so only
a publication after the snapshot can unbalance it.
-/

namespace SalesData.Pool.Sync

open Base

/-- The connection that `create_connection` returns to a thread in its turn. -/
def PC.made (pc : PC) (ch : Choice) : List Addr :=
  match pc, ch.creation with
  | .creating _ _ _ _, .made => [ch.addr]
  | _, _ => []

/-- The connections that an action creates. -/
def State.made (s : State) : Act → List Addr
  | .run t ch => match s.threads[t]? with
    | some pc => pc.made ch
    | none => []
  | _ => []

/-- An action of the pool, entered in the account of open connections. -/
def auditStep (b : Audit State) (a : Act) : Option (Audit State) :=
  (step b.state a).map fun s' ↦
    ⟨s', (b.state.made a ++ b.opened).diff (b.state.pool.store.closings s'.pool.store),
      b.asked || decide (a = .call .closeAll)⟩

/-- The pool with its account. -/
def audited (minConn maxConn : Nat) (timeout : Time) : System (Audit State) Act :=
  ⟨⟨(system minConn maxConn timeout).init, [], false⟩, auditStep⟩

/-- `close_all` has not looked at the pool yet. -/
def PC.beforeSnapshot : PC → Bool
  | called .closeAll => true
  | _ => false

/-- `close_all` has been called and has taken its snapshot. -/
def AfterSnapshot (b : Audit State) : Prop :=
  b.asked ∧ ∀ pc ∈ b.state.threads, pc.beforeSnapshot = false

instance (b : Audit State) : Decidable (AfterSnapshot b) := by
  unfold AfterSnapshot; infer_instance

/-- The thread is about to publish a connection. -/
def PC.publishes : PC → Bool
  | publish _ _ _ _ _ => true
  | _ => false

/-- No connection is published after the snapshot. -/
def SparesShutdown (b : Audit State) : Act → Prop
  | .run t _ => ∀ pc ∈ b.state.threads[t]?, AfterSnapshot b → pc.publishes = false
  | _ => True

instance (b : Audit State) (a : Act) : Decidable (SparesShutdown b a) :=
  match a with
  | .run t _ => inferInstanceAs (Decidable (∀ pc ∈ b.state.threads[t]?, _))
  | .call _ | .metrics => isTrue trivial

/-- The thread is in no call of the pool. -/
def PC.outside : PC → Bool
  | holding _ | ended _ => true
  | _ => false

/-- Every call of the pool has ended. -/
def State.quiet (s : State) : Bool := s.threads.all PC.outside

/-- Once `close_all` and all other calls have ended, no connection is open or idle. -/
def LeavesNone (b : Audit State) : Prop :=
  b.asked → b.state.quiet → b.opened = [] ∧ b.state.pool.store.available = []

/-- A new thread has nothing in charge. -/
theorem charges_called (job : Job) : (PC.called job).role.charges = [] ∧
    (PC.called job).role.placeholders = [] := by
  cases job <;> exact ⟨rfl, rfl⟩

namespace SyncPool

variable {roles : List Role} {t : Nat}

/-- One pass of the loop settles. -/
theorem loopBody_settles (p : SyncPool) (start : Time) (counted : Bool) (ch : Choice)
    (hch : ch.addr ∉ (⟨p.store, roles⟩ : Ledger).live) (ht : roles[t]? = some .idle) :
    Ledger.Settles roles t p.store [] (p.loopBody t start counted ch).1.store
      (p.loopBody t start counted ch).2.role := by
  unfold loopBody
  split
  · next s c h =>
    rw [role_got]
    exact .of_move ht (.hit h) (by simp)
  · next s h => exact .of_move ht (.reserve h hch) (by simp)
  · next s h =>
    obtain ⟨-, -, rfl⟩ := Store.take_full h
    rw [store_awaitTurn, store_count, role_awaitTurn]
    exact .stay ht

/-- A thread's turn settles, with the connection that a creation returns. -/
theorem run_settles {p p' : SyncPool} {ch : Choice} {pc pc' : PC}
    (h : p.run t ch pc = some (p', pc')) (hch : ch.addr ∉ (⟨p.store, roles⟩ : Ledger).live)
    (ht : roles[t]? = some pc.role) :
    Ledger.Settles roles t p.store (pc.made ch) p'.store pc'.role := by
  cases runs_of_run h with
  | acquire | left | raises => exact .stay ht
  | stray =>
    rw [store_releaseBody]
    exact .of_move ht .releaseStray (by simp)
  | closeAll => exact .of_move ht .drain (by simp)
  | warmup =>
    intro opened hinv
    have hstay := Ledger.Settles.stay ht opened hinv
    exact hstay.resize _
  | look => exact p.loopBody_settles _ false ch hch ht
  | woken => exact (p.wake t).loopBody_settles _ true ch hch ht
  | created hcreation =>
    simp only [PC.made, hcreation]
    exact .of_move ht (.create hch) (by simp)
  | failed hcreation =>
    simp only [PC.made, hcreation]
    exact .stay ht
  | interrupted hcreation =>
    simp only [PC.made, hcreation]
    rw [role_raised]
    exact .of_move ht .leak fun _ ↦ rfl
  | undone =>
    rw [role_raised]
    exact .of_move ht .undo (by simp)
  | published =>
    rw [role_got]
    exact .of_move ht .publish (by simp)
  | release =>
    rw [store_releaseBody]
    exact .of_move ht .release (by simp)
  | closedAll => exact .of_move ht .finish fun _ ↦ rfl
  | closes => exact .of_move ht .close (by simp)

/-- Without a publication an emptied pool stays empty. -/
theorem run_emptied {p p' : SyncPool} {ch : Choice} {pc pc' : PC}
    (h : p.run t ch pc = some (p', pc')) (hpub : pc.publishes = false)
    (he : p.store.Emptied) : p'.store.Emptied := by
  have hnew : ch.addr ∉ ([] : List Addr) := List.not_mem_nil
  have heff : Ledger.Effect (· ≠ .publish) [] p.store _ _ _ := run_effect h hnew (by
    cases pc with
    | called job => cases job <;> simp [PC.kinds]
    | _ => simp_all [PC.kinds, PC.publishes])
  exact heff.emptied (fun _ hκ ↦ hκ) he

/-- `close_all` takes its snapshot in its first turn. -/
theorem run_snapshot {p p' : SyncPool} {ch : Choice} {pc pc' : PC}
    (h : p.run t ch pc = some (p', pc')) (hpc : pc.beforeSnapshot) : p'.store.Emptied := by
  cases pc with
  | called job =>
    cases job with
    | closeAll =>
      obtain ⟨rfl, -⟩ := Prod.mk.inj (Option.some.inj h)
      exact ⟨rfl, rfl⟩
    | _ => cases hpc
  | _ => cases hpc

end SyncPool

/-- The account is kept, and after the snapshot the pool is empty. -/
structure AuditInv (b : Audit State) : Prop where
  account : Ledger.AccountInv b.state.ledger b.opened
  emptied : AfterSnapshot b → b.state.pool.store.Emptied

/-- Every step that spares the shutdown keeps the account. -/
theorem AuditInv.step {b b' : Audit State} {a : Act} (h : AuditInv b) (hok : SparesShutdown b a)
    (hs : auditStep b a = some b') : AuditInv b' := by
  obtain ⟨s', hstep, rfl⟩ := Option.map_eq_some_iff.mp hs
  have hnone : b.state.pool.store.closings b.state.pool.store = [] :=
    Store.closings_eq_nil (Nat.le_refl _)
  cases a with
  | call job =>
    obtain ⟨-, rfl⟩ := step_call hstep
    have hjoin := h.account.join (charges_called job).1 (charges_called job).2
    constructor
    · simpa [State.made, hnone, State.ledger] using hjoin
    · intro he
      apply h.emptied
      have hnew := he.2 (.called job) (by simp)
      constructor
      · cases job with
        | closeAll => cases hnew
        | _ => simpa using he.1
      · exact fun pc hmem ↦ he.2 pc (List.mem_append_left _ hmem)
  | run t ch =>
    obtain ⟨pc, p', pc', ht, hch, hrun, rfl⟩ := step_run hstep
    have hrole : b.state.ledger.roles[t]? = some pc.role := by simp [State.ledger, ht]
    have hmade : b.state.made (.run t ch) = pc.made ch := by simp [State.made, ht]
    rw [← live_ledger] at hch
    constructor
    · have hsettled := SyncPool.run_settles hrun hch hrole b.opened h.account
      rw [hmade]
      simp only [State.ledger, List.map_set] at hsettled ⊢
      exact hsettled
    · intro he
      cases hsnap : pc.beforeSnapshot with
      | true => exact SyncPool.run_snapshot hrun hsnap
      | false =>
        have hbefore : AfterSnapshot b := ⟨by simpa using he.1, forall_mem_of_set ht hsnap he.2⟩
        exact SyncPool.run_emptied hrun (hok pc ht hbefore) (h.emptied hbefore)
  | metrics =>
    obtain rfl : { b.state with pool := b.state.pool.metrics } = s' := Option.some.inj hstep
    have hsame : b.state.pool.store.closings b.state.pool.metrics.store = [] := hnone
    constructor
    · simp only [State.made, hsame, List.nil_append, List.diff_nil]
      exact h.account.resize _
    · intro he
      exact h.emptied ⟨by simpa using he.1, he.2⟩

/-- The account is kept in every run that spares the shutdown. -/
theorem AuditInv.of_reach {minConn maxConn : Nat} {timeout : Time} {b : Audit State}
    (h : (audited minConn maxConn timeout).Reach SparesShutdown b) : AuditInv b := by
  apply h.invariant
  · refine ⟨Ledger.accountInv_new minConn maxConn, fun he ↦ ?_⟩
    cases he.1
  · exact fun _ _ _ hb hok hs ↦ hb.step hok hs

/-- With the account kept and the pool empty, a quiet pool leaves no connection open. -/
theorem AuditInv.leavesNone {b : Audit State} (h : AuditInv b) : LeavesNone b := by
  intro hasked hquiet
  have hout (pc : PC) (hmem : pc ∈ b.state.threads) : pc.outside :=
    List.all_eq_true.mp hquiet pc hmem
  have hemptied := h.emptied ⟨hasked, fun pc hmem ↦ by
    have ho := hout pc hmem
    cases pc with
    | holding | ended => rfl
    | _ => cases ho⟩
  refine ⟨h.account.opened_eq_nil ?_ hemptied, hemptied.1⟩
  intro r hr
  obtain ⟨pc, hmem, rfl⟩ := List.mem_map.mp hr
  have ho := hout pc hmem
  cases pc with
  | holding | ended => rfl
  | _ => cases ho

end SalesData.Pool.Sync

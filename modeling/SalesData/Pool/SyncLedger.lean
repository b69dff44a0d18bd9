import SalesData.Pool.Ledger
import SalesData.Pool.SyncPool

/-!
# The thread pool follows the ledger

Every scheduler action of the thread pool is at most one ledger step of the thread that runs.
A thread that is on its way out of `acquire` with a connection already holds it.
-/

namespace SalesData.Pool.Sync

open Base

namespace PC

/-- The part of a program counter that concerns the ledger. -/
def role : PC → Role
  | called (.release c _) => .straying c
  | creating _ _ k _ | undo k _ => .reserving k
  | publish _ _ k c _ => .made k c
  | leaving c | holding c => .holding c
  | closingAll rest => .closer rest
  | _ => .idle

/-- Kinds of ledger steps that a thread may take when it runs. -/
def kinds : PC → List Kind
  | enter _ | waiting _ => [.take]
  | called (.release _ _) => [.stray]
  | called .closeAll => [.drain]
  | called (.warmup _) => [.resize]
  | creating _ _ _ _ => [.create, .leak]
  | undo _ _ => [.undo]
  | publish _ _ _ _ _ => [.publish]
  | holding _ => [.release]
  | closingAll _ => [.close, .finish]
  | called .acquire | leaving _ | failing _ | ended _ => []

/-- A role keeps the same placeholders alive as the program counter. -/
theorem placeholders_role (pc : PC) : pc.role.placeholders = pc.placeholders := by
  cases pc with
  | called job => cases job <;> rfl
  | _ => rfl

/-- A role keeps the same connections alive as the program counter. -/
theorem conns_role (pc : PC) : pc.role.conns = pc.conns := by
  cases pc with
  | called job => cases job <;> rfl
  | _ => rfl

end PC

/-- The ledger that a state of the pool stands for. -/
def State.ledger (s : State) : Ledger := ⟨s.pool.store, s.threads.map PC.role⟩

/-- Both levels agree on the placeholders. -/
theorem placeholders_ledger (s : State) :
    s.ledger.roles.flatMap Role.placeholders = s.placeholders := by
  simp only [State.ledger, State.placeholders, List.flatMap_map, PC.placeholders_role]

/-- Both levels agree on the live addresses. -/
theorem live_ledger (s : State) : s.ledger.live = s.live := by
  simp only [State.ledger, State.live, Ledger.live, List.flatMap_map, Role.refs,
    PC.placeholders_role, PC.conns_role]

variable {ok : Kind → Prop} {live : List Addr}

namespace SyncPool

@[simp] private theorem store_notify (p : SyncPool) : p.notify.store = p.store := by
  unfold notify
  split <;> rfl

/-- Joining the waiters changes no connection. -/
@[simp] theorem store_count (p : SyncPool) (counted : Bool) :
    (p.count counted).store = p.store := by
  cases counted <;> rfl

/-- Waiting changes no connection. -/
theorem store_awaitTurn (p : SyncPool) (t : Nat) (start : Time) (ch : Choice) :
    (p.awaitTurn t start ch).1.store = p.store := by
  unfold awaitTurn
  split <;> rfl

/-- Whoever waits has nothing in hand. -/
theorem role_awaitTurn (p : SyncPool) (t : Nat) (start : Time) (ch : Choice) :
    (p.awaitTurn t start ch).2.role = .idle := by
  unfold awaitTurn
  split <;> rfl

/-- A connection is in hand, whether or not the thread has left `acquire`. -/
@[simp] theorem role_got (counted : Bool) (c : Addr) : (got counted c).role = .holding c := by
  cases counted <;> rfl

/-- A thread that raises has nothing in hand. -/
@[simp] theorem role_raised (counted : Bool) (err : Failure) :
    (raised counted err).role = .idle := by
  cases counted <;> rfl

/-- One pass of the loop takes a connection, reserves a slot, or changes nothing. -/
theorem loopBody_effect (p : SyncPool) (t : Nat) (start : Time) (counted : Bool) (ch : Choice)
    (hch : ch.addr ∉ live) (hok : ok .take) :
    Ledger.Effect ok live p.store .idle (p.loopBody t start counted ch).1.store
      (p.loopBody t start counted ch).2.role := by
  unfold loopBody
  split
  · next s c h =>
    rw [role_got]
    exact .move hok (.hit h)
  · next s h => exact .move hok (.reserve h hch)
  · next s h =>
    obtain ⟨-, -, rfl⟩ := Store.take_full h
    rw [store_awaitTurn, store_count, role_awaitTurn]
    exact .stay

/-- The body of `release` takes the connection back from whoever calls it. -/
theorem store_releaseBody (p : SyncPool) (c : Addr) (broken : Bool) :
    (p.releaseBody c broken).store = (p.store.release c broken).1 := by
  unfold releaseBody
  split
  · next s h => rw [h]
  · next s h => rw [store_notify, h]

/-- A thread's turn is an effect of the announced kinds. -/
theorem run_effect {p p' : SyncPool} {t : Nat} {ch : Choice} {pc pc' : PC}
    (h : p.run t ch pc = some (p', pc')) (hch : ch.addr ∉ live) (hok : ∀ κ ∈ pc.kinds, ok κ) :
    Ledger.Effect ok live p.store pc.role p'.store pc'.role := by
  cases runs_of_run h with
  | acquire | left | raises => exact .stay
  | stray =>
    rw [store_releaseBody]
    exact .move (hok .stray (by simp [PC.kinds])) .releaseStray
  | closeAll => exact .move (hok .drain (by simp [PC.kinds])) .drain
  | warmup => exact .raise (hok .resize (by simp [PC.kinds])) (Nat.min_le_right _ _)
  | look => exact p.loopBody_effect t _ false ch hch (hok _ (by simp [PC.kinds]))
  | woken => exact (p.wake t).loopBody_effect t _ true ch hch (hok _ (by simp [PC.kinds]))
  | created => exact .move (hok .create (by simp [PC.kinds])) (.create hch)
  | failed => exact .stay
  | interrupted =>
    rw [role_raised]
    exact .move (hok .leak (by simp [PC.kinds])) .leak
  | undone =>
    rw [role_raised]
    exact .move (hok .undo (by simp [PC.kinds])) .undo
  | published =>
    rw [role_got]
    exact .move (hok .publish (by simp [PC.kinds])) .publish
  | release =>
    rw [store_releaseBody]
    exact .move (hok .release (by simp [PC.kinds])) .release
  | closedAll => exact .move (hok .finish (by simp [PC.kinds])) .finish
  | closes => exact .move (hok .close (by simp [PC.kinds])) .close

end SyncPool

/-- Kinds of ledger steps that an action may take. -/
def State.kinds (s : State) : Act → List Kind
  | .call (.release _ _) => [.stray]
  | .call _ => [.join]
  | .run t _ => match s.threads[t]? with
    | some pc => pc.kinds
    | none => []
  | .metrics => [.resize]

/-- Every action is made of ledger steps of the announced kinds. -/
theorem step_ledger {s s' : State} {a : Act} {minConn maxConn : Nat}
    (hr : Ledger.Reach ok minConn maxConn s.ledger) (hok : ∀ κ ∈ s.kinds a, ok κ)
    (h : step s a = some s') : Ledger.Reach ok minConn maxConn s'.ledger := by
  cases a with
  | call job =>
    obtain ⟨hc, rfl⟩ := step_call h
    have hroles : State.ledger { s with threads := s.threads ++ [.called job] } =
        ⟨s.ledger.store, s.ledger.roles ++ [(PC.called job).role]⟩ := by
      simp [State.ledger]
    rw [hroles]
    cases job with
    | release c broken =>
      apply hr.step (hok .stray (by simp [State.kinds]))
      apply Ledger.Step.stray
      rw [placeholders_ledger]
      simpa [State.callable] using hc
    | _ => exact hr.step (hok .join (by simp [State.kinds])) .join
  | run t ch =>
    obtain ⟨pc, p', pc', ht, hch, hrun, rfl⟩ := step_run h
    have hrole : s.ledger.roles[t]? = some pc.role := by
      simp [State.ledger, ht]
    rw [← live_ledger] at hch
    have heff := SyncPool.run_effect hrun hch fun κ hκ ↦ hok κ (by simpa [State.kinds, ht] using hκ)
    have hset := hr.effect hrole heff
    simp only [State.ledger, List.map_set] at hset ⊢
    exact hset
  | metrics =>
    obtain rfl : { s with pool := s.pool.metrics } = s' := Option.some.inj h
    exact hr.step (hok .resize (by simp [State.kinds])) .adjust

/-- A run whose actions only announce admitted kinds is a run of the ledger. -/
theorem ledger_of_reach {okAct : State → Act → Prop} {minConn maxConn : Nat} {timeout : Time}
    {s : State} (h : (system minConn maxConn timeout).Reach okAct s)
    (hok : ∀ s a, (system minConn maxConn timeout).Reach okAct s → okAct s a →
      ∀ κ ∈ s.kinds a, ok κ) :
    Ledger.Reach ok minConn maxConn s.ledger := by
  induction h with
  | init => exact .new
  | step hr ha hs ih => exact step_ledger ih (hok _ _ hr ha) hs

/-- The call that a program counter belongs to. -/
def PC.origin : PC → Origin
  | called .acquire | enter _ | waiting _ | creating _ _ _ _ | undo _ _ | publish _ _ _ _ _
  | leaving _ | failing _ | holding _ => .acquire
  | called (.release _ _) => .stray
  | called .closeAll | closingAll _ => .shutdown
  | called (.warmup _) => .warmup
  | ended _ => .over

private theorem SyncPool.loopBody_origin (p : SyncPool) (t : Nat) (start : Time) (counted : Bool)
    (ch : Choice) : (p.loopBody t start counted ch).2.origin = .acquire := by
  unfold loopBody
  split
  · cases counted <;> rfl
  · rfl
  · unfold awaitTurn
    split <;> rfl

/-- A thread stays in its call until it is over. -/
theorem SyncPool.run_origin {p p' : SyncPool} {t : Nat} {ch : Choice} {pc pc' : PC}
    (h : p.run t ch pc = some (p', pc')) : pc'.origin = pc.origin ∨ pc'.origin = .over := by
  cases runs_of_run h with
  | look => exact .inl (loopBody_origin p t _ false ch)
  | woken => exact .inl (loopBody_origin _ t _ true ch)
  | @interrupted start createStart k counted | @undone k counted =>
    cases counted
    · exact .inr rfl
    · exact .inl rfl
  | @published start elapsed k c counted => cases counted <;> exact .inl rfl
  | stray | warmup | raises | release | closedAll => exact .inr rfl
  | acquire | closeAll | created | failed | left | closes => exact .inl rfl

/-- In a run that starts calls of some kinds only, every thread is in a call of these kinds. -/
theorem origin_of_reach {okAct : State → Act → Prop} (allowed : Origin → Prop)
    {minConn maxConn : Nat} {timeout : Time} {s : State}
    (h : (system minConn maxConn timeout).Reach okAct s) (hover : allowed .over)
    (hcall : ∀ s job, okAct s (.call job) → allowed (PC.called job).origin) :
    ∀ pc ∈ s.threads, allowed pc.origin := by
  refine h.invariant (P := fun s ↦ ∀ pc ∈ s.threads, allowed pc.origin) (by simp [system]) ?_
  intro s a s' ih hok hs
  cases a with
  | call job =>
    obtain ⟨-, rfl⟩ := step_call hs
    intro pc hmem
    rcases List.mem_append.mp hmem with hmem | hmem
    · exact ih pc hmem
    · rw [List.mem_singleton.mp hmem]
      exact hcall s job hok
  | run t ch =>
    obtain ⟨pc, p', pc', ht, -, hrun, rfl⟩ := step_run hs
    apply forall_mem_set ih
    rcases SyncPool.run_origin hrun with he | he
    · rw [he]
      exact ih pc (List.mem_of_getElem? ht)
    · rw [he]
      exact hover
  | metrics =>
    obtain rfl : { s with pool := s.pool.metrics } = s' := Option.some.inj hs
    exact ih

end SalesData.Pool.Sync

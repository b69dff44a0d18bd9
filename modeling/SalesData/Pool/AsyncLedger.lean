import SalesData.Pool.AsyncPool
import SalesData.Pool.Ledger

/-!
# The asynchronous pool follows the ledger

Every scheduler action of the asynchronous pool is at most two ledger steps of the task that
runs. The kinds of these steps can be read off the task's program counter beforehand, which
turns a condition on actions into a condition on ledger steps.
-/

namespace SalesData.Pool.Async

open Base

namespace PC

/-- The part of a program counter that concerns the ledger. -/
def role : PC → Role
  | called (.release c _) => .straying c
  | creating _ _ k | lockUndo k _ => .reserving k
  | lockPublish _ _ k c => .made k c
  | holding c => .holding c
  | lockRelease c _ stray => if stray then .straying c else .holding c
  | closingAll rest => .closer rest
  | _ => .idle

/-- Kinds of ledger steps that a task may take when it runs. -/
def kinds : PC → List Kind
  | called .acquire | loop _ _ | waiting _ _ => [.take]
  | called (.release _ _) => [.stray]
  | lockRelease _ _ stray => if stray then [.stray] else [.release]
  | holding _ => [.release]
  | creating _ _ _ => [.create, .publish, .undo]
  | lockUndo _ _ => [.undo]
  | lockPublish _ _ _ _ => [.publish]
  | called .closeAll | lockCloseAll => [.drain, .close, .finish]
  | closingAll _ => [.close, .finish]
  | called (.warmup _) | lockWarmup _ => [.resize]
  | lockTimeout _ _ | lockCancel _ | closing _ | ended _ => []

/-- Kinds of ledger steps that a task may take when its cancellation takes effect. -/
def cancelKinds : PC → List Kind
  | called (.release _ _) => [.stray]
  | lockRelease _ _ stray => if stray then [.stray] else [.abandon]
  | holding _ => [.abandon]
  | creating _ _ _ => [.undo]
  | lockUndo _ _ | lockPublish _ _ _ _ => [.leak]
  | closingAll _ => [.finish]
  | _ => []

/-- A role keeps the same placeholders alive as the program counter. -/
theorem placeholders_role (pc : PC) : pc.role.placeholders = pc.placeholders := by
  cases pc with
  | called job => cases job <;> rfl
  | lockRelease c broken stray => cases stray <;> rfl
  | _ => rfl

/-- A role keeps the same connections alive as the program counter. -/
theorem conns_role (pc : PC) : pc.role.conns = pc.conns := by
  cases pc with
  | called job => cases job <;> rfl
  | lockRelease c broken stray => cases stray <;> rfl
  | _ => rfl

end PC

/-- Kinds of ledger steps of a task, by what is about to happen to it. -/
def Task.kinds (task : Task) : List Kind :=
  if task.cancelled then task.pc.cancelKinds else task.pc.kinds

/-- The ledger that a state of the pool stands for. -/
def State.ledger (s : State) : Ledger := ⟨s.pool.store, s.tasks.map fun t ↦ t.pc.role⟩

/-- Both levels agree on the placeholders. -/
theorem placeholders_ledger (s : State) :
    s.ledger.roles.flatMap Role.placeholders = s.placeholders := by
  simp only [State.ledger, State.placeholders, List.flatMap_map, PC.placeholders_role]

/-- Both levels agree on the live addresses. -/
theorem live_ledger (s : State) : s.ledger.live = s.live := by
  simp only [State.ledger, State.live, Ledger.live, List.flatMap_map, Role.refs,
    PC.placeholders_role, PC.conns_role]

variable {ok : Kind → Prop} {live : List Addr}

namespace AsyncPool

/-- Leaving the lock changes no connection. -/
@[simp] theorem store_unlock (p : AsyncPool) : p.unlock.store = p.store := rfl

/-- Waking a waiter changes no connection. -/
@[simp] theorem store_wakeOldest (p : AsyncPool) : p.wakeOldest.store = p.store := by
  unfold wakeOldest
  split <;> rfl

/-- One pass of the loop takes a connection, reserves a slot, or changes nothing. -/
theorem loopBody_effect (p : AsyncPool) (start : Time) (ch : Choice) (hch : ch.addr ∉ live)
    (hok : ok .take) :
    Ledger.Effect ok live p.store .idle (p.loopBody start ch).1.store
      (p.loopBody start ch).2.role := by
  unfold loopBody
  split
  · next s c h => exact .move hok (.hit h)
  · next s h => exact .move hok (.reserve h hch)
  · next s h =>
    obtain ⟨-, -, rfl⟩ := Store.take_full h
    exact .stay

/-- The body of `release` takes the connection back from whoever calls it. -/
theorem releaseBody_store (p : AsyncPool) (c : Addr) (broken : Bool) (ch : Choice) :
    (p.releaseBody c broken ch).1.store = (p.store.release c broken).1 ∧
      (p.releaseBody c broken ch).2.role = .idle := by
  unfold releaseBody
  split
  · next s h => exact ⟨by rw [h]; rfl, rfl⟩
  · next s h =>
    simp only [h]
    split
    · exact ⟨rfl, rfl⟩
    · exact ⟨store_wakeOldest _, rfl⟩

/-- Closing the next connection, or ending after the last one, is one move. -/
theorem nextClose_move (p : AsyncPool) (cs : List Addr) :
    ∃ κ ∈ [Kind.close, Kind.finish], ∀ live,
      Move live p.store (.closer cs) κ (p.nextClose cs).1.store (p.nextClose cs).2.role := by
  cases cs with
  | nil => exact ⟨.finish, by simp, fun _ ↦ .finish⟩
  | cons c rest => exact ⟨.close, by simp, fun _ ↦ .close⟩

/-- What a task does under the lock is an effect of the announced kinds. -/
theorem underLock_effect (p : AsyncPool) (ch : Choice) (q : PC) (hch : ch.addr ∉ live)
    (hok : ∀ κ ∈ q.kinds, ok κ) :
    Ledger.Effect ok live p.store q.role (p.underLock ch q).1.store
      (p.underLock ch q).2.role := by
  cases q with
  | loop start again => exact p.loopBody_effect start ch hch (hok _ (by simp [PC.kinds]))
  | lockUndo k err => exact .move (hok .undo (by simp [PC.kinds])) .undo
  | lockPublish start elapsed k c => exact .move (hok .publish (by simp [PC.kinds])) .publish
  | lockRelease c broken stray =>
    obtain ⟨hs, hr⟩ := p.releaseBody_store c broken ch
    simp only [underLock, hs, hr]
    cases stray with
    | false => exact .move (hok .release (by simp [PC.kinds])) .release
    | true => exact .move (hok .stray (by simp [PC.kinds])) .releaseStray
  | lockCloseAll =>
    obtain ⟨κ, hκ, hm⟩ :=
      nextClose_move { p with store := p.store.drain.1 }.unlock p.store.drain.2
    refine .pair (hok .drain (by simp [PC.kinds])) .drain (hok κ ?_) hm
    exact List.mem_cons_of_mem _ hκ
  | lockWarmup target => exact .raise (hok .resize (by simp [PC.kinds])) (Nat.min_le_right _ _)
  | _ => exact .stay

/-- Entering or queueing is an effect of the kinds announced for the queue's program counter. -/
theorem arrive_effect (p : AsyncPool) (t : Nat) (ch : Choice) (q : PC) (hch : ch.addr ∉ live)
    (hok : ∀ κ ∈ q.kinds, ok κ) :
    Ledger.Effect ok live p.store q.role (p.arrive t ch q).1.store (p.arrive t ch q).2.role := by
  unfold arrive
  split
  · exact underLock_effect { p with lock := p.lock.take } ch q hch hok
  · exact .stay

/-- A cancellation that takes effect is an effect of the announced kinds. -/
theorem throwCancelled_effect (p : AsyncPool) (t : Nat) (ch : Choice) (pc : PC)
    (hch : ch.addr ∉ live) (hok : ∀ κ ∈ pc.cancelKinds, ok κ) :
    Ledger.Effect ok live p.store pc.role (p.throwCancelled t ch pc).1.store
      (p.throwCancelled t ch pc).2.role := by
  cases pc with
  | called job =>
    cases job with
    | release c broken => exact .move (hok .stray (by simp [PC.cancelKinds])) .abandonStray
    | _ => exact .stay
  | waiting start w => exact p.arrive_effect t ch (.lockCancel w) hch (by simp [PC.kinds])
  | lockTimeout start w =>
    exact arrive_effect { p with lock := p.lock.abandon t } t ch (.lockCancel w) hch
      (by simp [PC.kinds])
  | creating start createStart k =>
    exact p.arrive_effect t ch (.lockUndo k .cancelledError) hch hok
  | lockUndo k err => exact .move (hok .leak (by simp [PC.cancelKinds])) .leak
  | lockPublish start elapsed k c =>
    exact .move (hok .leak (by simp [PC.cancelKinds])) .leakMade
  | holding c => exact .move (hok .abandon (by simp [PC.cancelKinds])) .abandon
  | lockRelease c broken stray =>
    cases stray with
    | false => exact .move (hok .abandon (by simp [PC.cancelKinds])) .abandon
    | true => exact .move (hok .stray (by simp [PC.cancelKinds])) .abandonStray
  | closingAll rest => exact .move (hok .finish (by simp [PC.cancelKinds])) .finish
  | _ => exact .stay

private theorem create_effect (p : AsyncPool) (t : Nat) (ch : Choice) (start elapsed : Time)
    (k : Addr) (hch : ch.addr ∉ live) (hcreate : ok .create) (hpublish : ok .publish) :
    Ledger.Effect ok live p.store (.reserving k)
      ({ p with store := p.store.allocate ch.addr }.arrive t ch
        (.lockPublish start elapsed k ch.addr)).1.store
      ({ p with store := p.store.allocate ch.addr }.arrive t ch
        (.lockPublish start elapsed k ch.addr)).2.role := by
  unfold arrive
  split
  · exact .pair hcreate (.create hch) hpublish fun _ ↦ .publish
  · exact .move hcreate (.create hch)

/-- Going on is an effect of the announced kinds. -/
theorem Resumes.effect {p p' : AsyncPool} {t : Nat} {ch : Choice} {pc pc' : PC}
    (h : p.Resumes t ch pc p' pc') (hch : ch.addr ∉ live) (hok : ∀ κ ∈ pc.kinds, ok κ) :
    Ledger.Effect ok live p.store pc.role p'.store pc'.role := by
  cases h with
  | arrives harrives =>
    cases harrives with
    | created =>
      exact p.create_effect t ch _ _ _ hch (hok _ (by simp [PC.kinds])) (hok _ (by simp [PC.kinds]))
    | failed =>
      refine p.arrive_effect t ch (.lockUndo _ _) hch fun κ hκ ↦ hok κ ?_
      simp only [PC.kinds, List.mem_cons] at hκ ⊢
      exact .inr (.inr hκ)
    | acquire =>
      exact arrive_effect { p with stats := p.stats.recordRequest } t ch (.loop _ _) hch hok
    | woken => exact arrive_effect (p.dropEvent _) t ch (.loop _ _) hch hok
    | stray => exact p.arrive_effect t ch (.lockRelease _ _ true) hch hok
    | release => exact p.arrive_effect t ch (.lockRelease _ _ false) hch hok
    | closeAll => exact p.arrive_effect t ch .lockCloseAll hch hok
    | warmup => exact p.arrive_effect t ch (.lockWarmup _) hch hok
  | granted => exact underLock_effect { p with lock := (p.lock.leave t).take } ch pc hch hok
  | closed =>
    simp only [store_unlock, store_wakeOldest]
    exact .stay
  | closes =>
    obtain ⟨κ, hκ, hm⟩ := p.nextClose_move _
    exact .move (hok κ hκ) (hm _)

/-- An uninterrupted stretch of a task is an effect of the announced kinds. -/
theorem run_effect {p p' : AsyncPool} {t : Nat} {ch : Choice} {task : Task} {pc' : PC}
    (h : p.run t ch task = some (p', pc')) (hch : ch.addr ∉ live)
    (hok : ∀ κ ∈ task.kinds, ok κ) :
    Ledger.Effect ok live p.store task.pc.role p'.store pc'.role := by
  cases runs_of_run h with
  | cancelled => exact p.throwCancelled_effect t ch _ hch hok
  | timedOut => exact p.arrive_effect t ch (.lockTimeout _ _) hch (by simp [PC.kinds])
  | resumes hresumes => exact hresumes.effect hch hok

end AsyncPool

/-- Kinds of ledger steps that an action may take. -/
def State.kinds (s : State) : Act → List Kind
  | .call (.release _ _) => [.stray]
  | .call _ => [.join]
  | .resume t _ => match s.tasks[t]? with
    | some task => task.kinds
    | none => []
  | .metrics => [.resize]
  | .cancel _ | .timer _ => []

/-- A change of flags keeps every role. -/
theorem map_role_set {ts : List Task} {t : Nat} {task task' : Task}
    (h : ts[t]? = some task) (hpc : task'.pc = task.pc) :
    (ts.set t task').map (fun u ↦ u.pc.role) = ts.map fun u ↦ u.pc.role := by
  have hr : (ts.map fun u ↦ u.pc.role)[t]? = some task.pc.role := by
    rw [List.getElem?_map, h]
    rfl
  obtain ⟨hlt, hget⟩ := List.getElem?_eq_some_iff.mp hr
  rw [List.map_set, hpc, ← hget, List.set_getElem_self]

/-- Every action is made of ledger steps of the announced kinds. -/
theorem step_ledger {s s' : State} {a : Act} {minConn maxConn : Nat}
    (hr : Ledger.Reach ok minConn maxConn s.ledger) (hok : ∀ κ ∈ s.kinds a, ok κ)
    (h : step s a = some s') : Ledger.Reach ok minConn maxConn s'.ledger := by
  cases a with
  | call job =>
    obtain ⟨hc, rfl⟩ := step_call h
    have hroles : State.ledger { s with tasks := s.tasks ++ [⟨.called job, false, false⟩] } =
        ⟨s.ledger.store, s.ledger.roles ++ [(PC.called job).role]⟩ := by
      simp [State.ledger]
    rw [hroles]
    cases job with
    | release c broken =>
      apply hr.step (hok .stray (by simp [State.kinds]))
      apply Ledger.Step.stray
      rw [placeholders_ledger]
      simpa [State.callable] using hc
    | _ => exact hr.step (hok .join (by simp [State.kinds])) .join
  | resume t ch =>
    obtain ⟨task, p', pc', ht, hch, hrun, rfl⟩ := step_resume h
    have hrole : s.ledger.roles[t]? = some task.pc.role := by
      simp [State.ledger, ht]
    rw [← live_ledger] at hch
    have heff := AsyncPool.run_effect hrun hch fun κ hκ ↦
      hok κ (by simpa [State.kinds, ht] using hκ)
    have hset := hr.effect hrole heff
    simp only [State.ledger, List.map_set] at hset ⊢
    exact hset
  | cancel t =>
    obtain ⟨task, ht, -, rfl⟩ := step_cancel h
    simp only [State.ledger]
    rw [map_role_set ht (by rfl)]
    exact hr
  | timer t =>
    obtain ⟨start, w, cancelled, timedOut, ht, rfl⟩ := step_timer h
    simp only [State.ledger]
    rw [map_role_set ht (by rfl)]
    exact hr
  | metrics =>
    obtain rfl : { s with pool := s.pool.metrics } = s' := Option.some.inj h
    exact hr.step (hok .resize (by simp [State.kinds])) .adjust

/-- The call that a program counter belongs to. -/
def PC.origin : PC → Origin
  | called .acquire | loop _ _ | waiting _ _ | lockTimeout _ _ | lockCancel _ | creating _ _ _
  | lockUndo _ _ | lockPublish _ _ _ _ | holding _ => .acquire
  | called (.release _ _) => .stray
  | lockRelease _ _ stray => if stray then .stray else .acquire
  | called .closeAll | lockCloseAll | closingAll _ => .shutdown
  | called (.warmup _) | lockWarmup _ => .warmup
  | closing _ | ended _ => .over

namespace AsyncPool

private theorem underLock_origin (p : AsyncPool) (ch : Choice) (q : PC) :
    (p.underLock ch q).2.origin = q.origin ∨ (p.underLock ch q).2.origin = .over := by
  cases q with
  | loop start again =>
    simp only [underLock, loopBody]
    split <;> exact .inl rfl
  | lockRelease c broken stray =>
    simp only [underLock, releaseBody]
    split
    · exact .inr rfl
    · split <;> exact .inr rfl
  | lockCloseAll =>
    simp only [underLock]
    cases p.store.drain.2 with
    | nil => exact .inr rfl
    | cons c cs => exact .inl rfl
  | lockTimeout | lockCancel | lockUndo | lockWarmup => exact .inr rfl
  | _ => exact .inl rfl

private theorem arrive_origin (p : AsyncPool) (t : Nat) (ch : Choice) (q : PC) :
    (p.arrive t ch q).2.origin = q.origin ∨ (p.arrive t ch q).2.origin = .over := by
  unfold arrive
  split
  · exact underLock_origin _ ch q
  · exact .inl rfl

private theorem resume_origin {p p' : AsyncPool} {t : Nat} {ch : Choice} {pc pc' : PC}
    (h : p.Resumes t ch pc p' pc') : pc'.origin = pc.origin ∨ pc'.origin = .over := by
  cases h with
  | arrives harrives => cases harrives <;> exact arrive_origin _ t ch _
  | granted => exact underLock_origin _ ch pc
  | closed => exact .inr rfl
  | @closes rest =>
    cases rest with
    | nil => exact .inr rfl
    | cons c cs => exact .inl rfl

private theorem throwCancelled_origin (p : AsyncPool) (t : Nat) (ch : Choice) (pc : PC) :
    (p.throwCancelled t ch pc).2.origin = pc.origin ∨
      (p.throwCancelled t ch pc).2.origin = .over := by
  cases pc with
  | waiting start w => exact arrive_origin p t ch (.lockCancel w)
  | lockTimeout start w => exact arrive_origin _ t ch (.lockCancel w)
  | creating start createStart k => exact arrive_origin p t ch (.lockUndo k .cancelledError)
  | _ => exact .inr rfl

/-- A task stays in its call until it is over. -/
theorem run_origin {p p' : AsyncPool} {t : Nat} {ch : Choice} {task : Task} {pc' : PC}
    (h : p.run t ch task = some (p', pc')) :
    pc'.origin = task.pc.origin ∨ pc'.origin = .over := by
  cases runs_of_run h with
  | cancelled => exact p.throwCancelled_origin t ch _
  | timedOut => exact arrive_origin p t ch (.lockTimeout _ _)
  | resumes hresumes => exact resume_origin hresumes

end AsyncPool

/-- In a run that starts calls of some kinds only, every task is in a call of these kinds. -/
theorem origin_of_reach {okAct : State → Act → Prop} (allowed : Origin → Prop)
    {minConn maxConn : Nat} {s : State} (h : (system minConn maxConn).Reach okAct s)
    (hover : allowed .over)
    (hcall : ∀ s job, okAct s (.call job) → allowed (PC.called job).origin) :
    ∀ task ∈ s.tasks, allowed task.pc.origin := by
  refine h.invariant (P := fun s ↦ ∀ task ∈ s.tasks, allowed task.pc.origin) (by simp [system]) ?_
  intro s a s' ih hok hs
  cases a with
  | call job =>
    obtain ⟨-, rfl⟩ := step_call hs
    intro task hmem
    rcases List.mem_append.mp hmem with hmem | hmem
    · exact ih task hmem
    · rw [List.mem_singleton.mp hmem]
      exact hcall s job hok
  | resume t ch =>
    obtain ⟨task, p', pc', ht, -, hrun, rfl⟩ := step_resume hs
    apply forall_mem_set ih
    rcases AsyncPool.run_origin hrun with he | he
    · dsimp only
      rw [he]
      exact ih task (List.mem_of_getElem? ht)
    · dsimp only
      rw [he]
      exact hover
  | cancel t =>
    obtain ⟨task, ht, -, rfl⟩ := step_cancel hs
    exact forall_mem_set ih (ih task (List.mem_of_getElem? ht))
  | timer t =>
    obtain ⟨start, w, cancelled, timedOut, ht, rfl⟩ := step_timer hs
    have hmem := ih _ (List.mem_of_getElem? ht)
    exact forall_mem_set ih hmem
  | metrics =>
    obtain rfl : { s with pool := s.pool.metrics } = s' := Option.some.inj hs
    exact ih

/-- Only a task that is suspended in a call has a pending cancellation. -/
theorem suspended_of_cancelled {okAct : State → Act → Prop} {minConn maxConn : Nat} {s : State}
    (h : (system minConn maxConn).Reach okAct s) :
    ∀ task ∈ s.tasks, task.cancelled → task.pc.suspended := by
  refine h.invariant (P := fun s ↦ ∀ task ∈ s.tasks, task.cancelled → task.pc.suspended)
    (by simp [system]) ?_
  intro s a s' ih _ hs
  cases a with
  | call job =>
    obtain ⟨-, rfl⟩ := step_call hs
    intro task hmem
    rcases List.mem_append.mp hmem with hmem | hmem
    · exact ih task hmem
    · rw [List.mem_singleton.mp hmem]
      exact fun hc ↦ absurd hc (by simp)
  | resume t ch =>
    obtain ⟨task, p', pc', ht, -, hrun, rfl⟩ := step_resume hs
    exact forall_mem_set ih fun hc ↦ absurd hc (by simp)
  | cancel t =>
    obtain ⟨task, ht, hsus, rfl⟩ := step_cancel hs
    exact forall_mem_set ih fun _ ↦ hsus
  | timer t =>
    obtain ⟨start, w, cancelled, timedOut, ht, rfl⟩ := step_timer hs
    exact forall_mem_set ih fun _ ↦ rfl
  | metrics =>
    obtain rfl : { s with pool := s.pool.metrics } = s' := Option.some.inj hs
    exact ih

/-- A run whose actions only announce admitted kinds is a run of the ledger. -/
theorem ledger_of_reach {okAct : State → Act → Prop} {minConn maxConn : Nat} {s : State}
    (h : (system minConn maxConn).Reach okAct s)
    (hok : ∀ s a, (system minConn maxConn).Reach okAct s → okAct s a → ∀ κ ∈ s.kinds a, ok κ) :
    Ledger.Reach ok minConn maxConn s.ledger := by
  induction h with
  | init => exact .new
  | step hr ha hs ih => exact step_ledger ih (hok _ _ hr ha) hs

end SalesData.Pool.Async

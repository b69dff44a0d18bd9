import SalesData.Pool.AsyncLedger
import SalesData.Pool.Rotation
import SalesData.Pool.SyncLedger

/-!
# Both pools rotate their connections

The turns of a task of the asynchronous pool and of a thread, each at the clock reading of its
step.
-/

namespace SalesData.Pool

open Base

/-- A turn that touches neither the idle connections nor `_in_use` adds nothing. -/
theorem turn_same {now : Time} {live us : List Addr} {s s' : Store}
    (hav : s'.available = s.available) (hcounter : s'.counter = s.counter)
    (hin : s'.inUse = s.inUse) : Turn now live s us s' us :=
  .fade (.inl hav) hcounter (fun _ _ h ↦ hin ▸ h) (.inl rfl)

/-- A reservation adds no record. -/
theorem turn_reserve {now : Time} {live : List Addr} {s s' : Store} {k : Addr}
    (h : s.take now k = (s', .reserved)) : Turn now live s [] s' [] := by
  obtain ⟨-, -, rfl⟩ := Store.take_reserved h
  refine .fade (.inl rfl) rfl (fun a pc hpc ↦ ?_) (.inl rfl)
  rw [Store.inUse_reserve, Dict.get?_set] at hpc
  split at hpc
  · cases Option.some.inj hpc
  · exact hpc

/-- Giving a slot back adds no record. -/
theorem turn_undo {now : Time} {live : List Addr} (s : Store) (k : Addr) :
    Turn now live s [] (s.undo k) [] :=
  .fade (.inl rfl) rfl (fun _ _ h ↦ (Dict.get?_of_pop h).2) (.inl rfl)

/-- An emptied pool has no record and no idle connection. -/
theorem turn_empty {now : Time} {live us : List Addr} {s s' : Store} (hav : s'.available = [])
    (hcounter : s'.counter = s.counter) (hin : s'.inUse = .empty) : Turn now live s us s' us :=
  .fade (.inr hav) hcounter (fun _ _ h ↦ by simp [hin] at h) (.inl rfl)

namespace Async

/-- The part of a task that the shelf looks at. -/
def PC.unpublished (pc : PC) : List Addr := pc.role.unpublished

namespace AsyncPool

variable {live : List Addr}

private theorem loopBody_turn (p : AsyncPool) (start : Time) (ch : Choice) :
    Turn ch.now live p.store [] (p.loopBody start ch).1.store
      (p.loopBody start ch).2.unpublished := by
  unfold loopBody
  split
  · next s c h => exact .hit h
  · next s h => exact turn_reserve h
  · next s h =>
    obtain ⟨-, -, rfl⟩ := Store.take_full h
    exact turn_same rfl rfl rfl

private theorem nextClose_frame (p : AsyncPool) (cs : List Addr) :
    (p.nextClose cs).1.store.available = p.store.available ∧
      (p.nextClose cs).1.store.counter = p.store.counter ∧
      (p.nextClose cs).1.store.inUse = p.store.inUse ∧ (p.nextClose cs).2.unpublished = [] := by
  cases cs <;> exact ⟨rfl, rfl, rfl, rfl⟩

private theorem underLock_turn (p : AsyncPool) (ch : Choice) (q : PC) :
    Turn ch.now live p.store q.unpublished (p.underLock ch q).1.store
      (p.underLock ch q).2.unpublished := by
  cases q with
  | loop start again => exact p.loopBody_turn start ch
  | lockUndo k err => exact turn_undo p.store k
  | lockPublish start elapsed k c => exact .publish (.inl rfl) rfl rfl rfl
  | lockRelease c broken stray =>
    obtain ⟨hs, hr⟩ := p.releaseBody_store c broken ch
    have hun : (PC.lockRelease c broken stray).unpublished = [] := by cases stray <;> rfl
    simp only [underLock, hs, PC.unpublished, hr] at hun ⊢
    rw [hun]
    exact turn_release ch.now live p.store c broken
  | lockCloseAll =>
    obtain ⟨hav, hcounter, hin, hun⟩ :=
      nextClose_frame { p with store := p.store.drain.1 }.unlock p.store.drain.2
    simp only [underLock, hun]
    exact turn_empty hav hcounter hin
  | lockWarmup target => exact turn_same rfl rfl rfl
  | _ => exact turn_same rfl rfl rfl

private theorem arrive_turn (p : AsyncPool) (t : Nat) (ch : Choice) (q : PC) :
    Turn ch.now live p.store q.unpublished (p.arrive t ch q).1.store
      (p.arrive t ch q).2.unpublished := by
  unfold arrive
  split
  · exact underLock_turn { p with lock := p.lock.take } ch q
  · exact turn_same rfl rfl rfl

private theorem throwCancelled_turn (p : AsyncPool) (t : Nat) (ch : Choice) (pc : PC) :
    Turn ch.now live p.store pc.unpublished (p.throwCancelled t ch pc).1.store
      (p.throwCancelled t ch pc).2.unpublished := by
  cases pc with
  | waiting start w => exact p.arrive_turn t ch (.lockCancel w)
  | lockTimeout start w =>
    exact arrive_turn { p with lock := p.lock.abandon t } t ch (.lockCancel w)
  | creating start createStart k => exact p.arrive_turn t ch (.lockUndo k .cancelledError)
  | _ => exact .fade (.inl rfl) rfl (fun _ _ h ↦ h) (.inr rfl)

private theorem create_turn (p : AsyncPool) (t : Nat) (ch : Choice) (start elapsed : Time)
    (k : Addr) (hch : ch.addr ∉ live) :
    Turn ch.now live p.store []
      ({ p with store := p.store.allocate ch.addr }.arrive t ch
        (.lockPublish start elapsed k ch.addr)).1.store
      ({ p with store := p.store.allocate ch.addr }.arrive t ch
        (.lockPublish start elapsed k ch.addr)).2.unpublished := by
  unfold arrive
  split
  · exact .publish (.inr ⟨rfl, hch⟩) rfl rfl rfl
  · exact .create hch

private theorem resume_turn {p p' : AsyncPool} {t : Nat} {ch : Choice} {pc pc' : PC}
    (h : p.Resumes t ch pc p' pc') (hch : ch.addr ∉ live) :
    Turn ch.now live p.store pc.unpublished p'.store pc'.unpublished := by
  cases h with
  | arrives harrives =>
    cases harrives with
    | created => exact p.create_turn t ch _ _ _ hch
    | acquire => exact arrive_turn { p with stats := p.stats.recordRequest } t ch (.loop _ _)
    | woken => exact arrive_turn (p.dropEvent _) t ch (.loop _ _)
    | failed => exact p.arrive_turn t ch (.lockUndo _ _)
    | stray => exact p.arrive_turn t ch (.lockRelease _ _ true)
    | release => exact p.arrive_turn t ch (.lockRelease _ _ false)
    | closeAll => exact p.arrive_turn t ch .lockCloseAll
    | warmup => exact p.arrive_turn t ch (.lockWarmup _)
  | granted => exact underLock_turn { p with lock := (p.lock.leave t).take } ch pc
  | closed =>
    rw [store_unlock, store_wakeOldest]
    exact turn_same rfl rfl rfl
  | @closes rest => cases rest <;> exact turn_same rfl rfl rfl

/-- An uninterrupted stretch of a task is a turn at its clock reading. -/
theorem run_turn {p p' : AsyncPool} {t : Nat} {ch : Choice} {task : Task} {pc' : PC}
    (h : p.run t ch task = some (p', pc')) (hch : ch.addr ∉ live) :
    Turn ch.now live p.store task.pc.unpublished p'.store pc'.unpublished := by
  cases runs_of_run h with
  | cancelled => exact p.throwCancelled_turn t ch _
  | timedOut => exact p.arrive_turn t ch (.lockTimeout _ _)
  | resumes hresumes => exact resume_turn hresumes hch

end AsyncPool

/-- Only a task that runs reads the clock. -/
def Act.reading : Act → Option Time
  | .resume _ ch => some ch.now
  | _ => none

/-- Every step is a ledger step at the clock's time. -/
theorem step_tick {minConn maxConn : Nat} {start : Time} {s s' : State × Time} {a : Act}
    (h : ((system minConn maxConn).clocked Act.reading start).step s a = some s') :
    s.2 ≤ s'.2 ∧ s.1.ledger.Tick s'.2 s'.1.ledger := by
  obtain ⟨hs, hnow, hle⟩ := System.clocked_step h
  refine ⟨hle, ?_⟩
  rcases s with ⟨s, now⟩
  rcases s' with ⟨s', now'⟩
  cases a with
  | call job =>
    obtain ⟨-, rfl⟩ := step_call hs
    have hroles : State.ledger { s with tasks := s.tasks ++ [⟨.called job, false, false⟩] } =
        ⟨s.ledger.store, s.ledger.roles ++ [(PC.called job).role]⟩ := by
      simp [State.ledger]
    rw [hroles]
    cases job <;> exact .join rfl
  | resume t ch =>
    obtain ⟨task, p', pc', ht, hch, hrun, rfl⟩ := step_resume hs
    obtain rfl : now' = ch.now := hnow
    have hrole : s.ledger.roles[t]? = some task.pc.role := by
      simp [State.ledger, ht]
    rw [← live_ledger] at hch
    have htick := Ledger.Tick.turn hrole (AsyncPool.run_turn hrun hch)
    simp only [State.ledger, List.map_set] at htick ⊢
    exact htick
  | cancel t =>
    obtain ⟨task, ht, -, rfl⟩ := step_cancel hs
    simp only [State.ledger]
    rw [map_role_set ht (by rfl)]
    exact .resize
  | timer t =>
    obtain ⟨start, w, cancelled, timedOut, ht, rfl⟩ := step_timer hs
    simp only [State.ledger]
    rw [map_role_set ht (by rfl)]
    exact .resize
  | metrics =>
    obtain rfl : { s with pool := s.pool.metrics } = s' := Option.some.inj hs
    exact .resize

end Async

namespace Sync

namespace SyncPool

variable {live : List Addr}

private theorem loopBody_turn (p : SyncPool) (t : Nat) (start : Time) (counted : Bool)
    (ch : Choice) :
    Turn ch.now live p.store [] (p.loopBody t start counted ch).1.store
      (p.loopBody t start counted ch).2.role.unpublished := by
  unfold loopBody
  split
  · next s c h =>
    rw [role_got]
    exact .hit h
  · next s h => exact turn_reserve h
  · next s h =>
    obtain ⟨-, -, rfl⟩ := Store.take_full h
    rw [store_awaitTurn, store_count, role_awaitTurn]
    exact turn_same rfl rfl rfl

/-- A thread's turn is a turn at its clock reading. -/
theorem run_turn {p p' : SyncPool} {t : Nat} {ch : Choice} {pc pc' : PC}
    (h : p.run t ch pc = some (p', pc')) (hch : ch.addr ∉ live) :
    Turn ch.now live p.store pc.role.unpublished p'.store pc'.role.unpublished := by
  cases runs_of_run h with
  | acquire | warmup | left | raises | failed | closedAll | closes => exact turn_same rfl rfl rfl
  | @stray c broken =>
    rw [store_releaseBody]
    exact turn_release ch.now live p.store c broken
  | closeAll => exact turn_empty rfl rfl rfl
  | look => exact p.loopBody_turn t _ false ch
  | woken => exact (p.wake t).loopBody_turn t _ true ch
  | created => exact .create hch
  | interrupted =>
    rw [role_raised]
    exact turn_same rfl rfl rfl
  | @undone k =>
    rw [role_raised]
    exact turn_undo p.store k
  | published =>
    rw [role_got]
    exact .publish (.inl rfl) rfl rfl rfl
  | @release c =>
    rw [store_releaseBody]
    exact turn_release ch.now live p.store c ch.broken

end SyncPool

/-- Only a thread that runs reads the clock. -/
def Act.reading : Act → Option Time
  | .run _ ch => some ch.now
  | _ => none

/-- Every step is a ledger step at the clock's time. -/
theorem step_tick {minConn maxConn : Nat} {timeout start : Time} {s s' : State × Time} {a : Act}
    (h : ((system minConn maxConn timeout).clocked Act.reading start).step s a = some s') :
    s.2 ≤ s'.2 ∧ s.1.ledger.Tick s'.2 s'.1.ledger := by
  obtain ⟨hs, hnow, hle⟩ := System.clocked_step h
  refine ⟨hle, ?_⟩
  rcases s with ⟨s, now⟩
  rcases s' with ⟨s', now'⟩
  cases a with
  | call job =>
    obtain ⟨-, rfl⟩ := step_call hs
    have hroles : State.ledger { s with threads := s.threads ++ [.called job] } =
        ⟨s.ledger.store, s.ledger.roles ++ [(PC.called job).role]⟩ := by
      simp [State.ledger]
    rw [hroles]
    cases job <;> exact .join rfl
  | run t ch =>
    obtain ⟨pc, p', pc', ht, hch, hrun, rfl⟩ := step_run hs
    obtain rfl : now' = ch.now := hnow
    have hrole : s.ledger.roles[t]? = some pc.role := by
      simp [State.ledger, ht]
    rw [← live_ledger] at hch
    have htick := Ledger.Tick.turn hrole (SyncPool.run_turn hrun hch)
    simp only [State.ledger, List.map_set] at htick ⊢
    exact htick
  | metrics =>
    obtain rfl : { s with pool := s.pool.metrics } = s' := Option.some.inj hs
    exact .resize

end Sync

/-- Whoever calls either pool in whatever order, with a clock that does not go back: no idle
connection is passed over by two hand-outs of the same other connection. -/
theorem pools_rotate (minConn maxConn : Nat) (timeout start : Time) :
    Rotates ((Async.system minConn maxConn).clocked Async.Act.reading start) (·.pool.store) ∧
      Rotates ((Sync.system minConn maxConn timeout).clocked Sync.Act.reading start)
        (·.pool.store) :=
  ⟨rotates_of_tick Async.State.ledger (Ledger.shelf_new minConn maxConn start)
      fun _ _ _ h ↦ Async.step_tick h,
    rotates_of_tick Sync.State.ledger (Ledger.shelf_new minConn maxConn start)
      fun _ _ _ h ↦ Sync.step_tick h⟩

end SalesData.Pool

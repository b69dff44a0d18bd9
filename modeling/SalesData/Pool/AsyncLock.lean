import SalesData.Base.Tally
import SalesData.Pool.AsyncPool

/-!
# The pool lock of the asynchronous pool is never stuck

In every run, whoever is queued for the pool lock is waiting for a task that can run: the
release that holds the lock while it closes a connection, or the task at the head of the queue.
-/

namespace SalesData.Pool.Async

open Base

namespace PC

/-- The task holds the pool lock while it closes a connection. -/
def locking : PC → Bool
  | closing _ => true
  | _ => false

end PC

/-- Who is queued, who is cancelled, who holds the lock, and who is to take it next. -/
structure LockInv (s : State) : Prop where
  queued : ∀ u, u ∈ s.pool.lock.queue ↔ ∃ task : Task, s.tasks[u]? = some task ∧ task.pc.queued
  cancelled : ∀ u, (u, .cancelled) ∈ s.pool.lock.waiters →
    ∃ task : Task, s.tasks[u]? = some task ∧ task.cancelled
  awake : s.pool.lock.Awake
  locked : s.pool.lock.locked → ∃ (u : Nat) (task : Task), s.tasks[u]? = some task ∧ task.pc.locking

/-- What a stretch of task `t` does to the lock. -/
structure LockStep (l : Lock) (t : Nat) (pc : PC) (l' : Lock) (pc' : PC) : Prop where
  queue : l'.queue = l.queue.filter (· != t) ++ if pc'.queued then [t] else []
  cancelled : ∀ u, (u, .cancelled) ∈ l'.waiters → u ≠ t ∧ (u, .cancelled) ∈ l.waiters
  awake : l.Awake → l'.Awake
  locked : l'.locked → pc'.locking ∨ l.locked ∧ pc.locking = false

/-- The lock with task `t` out of its queue. -/
structure Departed (l : Lock) (t : Nat) (pc : PC) (l₀ : Lock) : Prop where
  queue : l₀.queue = l.queue.filter (· != t)
  cancelled : ∀ u, (u, .cancelled) ∈ l₀.waiters → u ≠ t ∧ (u, .cancelled) ∈ l.waiters
  locked : l₀.locked → l.locked ∧ pc.locking = false

namespace Departed

variable {l l₀ : Lock} {t : Nat} {pc q : PC}

private theorem not_mem_of_filter {ts : List Nat} {t : Nat} (h : t ∉ ts) :
    ts.filter (· != t) = ts := by
  apply List.filter_eq_self.mpr
  intro u hu
  simpa using fun he : u = t ↦ h (he ▸ hu)

/-- A task that is not queued has departed already. -/
theorem of_not_mem (h : t ∉ l.queue) (hpc : pc.locking = false) : Departed l t pc l where
  queue := (not_mem_of_filter h).symm
  cancelled := by
    intro u hu
    refine ⟨?_, hu⟩
    rintro rfl
    exact h (List.mem_map.mpr ⟨_, hu, rfl⟩)
  locked := fun hl ↦ ⟨hl, hpc⟩

/-- A task whose turn it is leaves the queue. -/
theorem leave (hpc : pc.locking = false) : Departed l t pc (l.leave t) where
  queue := Lock.queue_leave l t
  cancelled := fun _ ↦ Lock.mem_leave
  locked := fun hl ↦ ⟨hl, hpc⟩

/-- A cancelled task leaves the queue. -/
theorem abandon (hpc : pc.locking = false) : Departed l t pc (l.abandon t) where
  queue := Lock.queue_abandon l t
  cancelled := fun _ ↦ Lock.mem_abandon
  locked := fun hl ↦ ⟨by rwa [Lock.locked_abandon] at hl, hpc⟩

/-- A task that has departed for good. -/
theorem stay (h : Departed l t pc l₀) (hq : q.queued = false) (ha : l.Awake → l₀.Awake) :
    LockStep l t pc l₀ q where
  queue := by rw [h.queue, hq]; simp
  cancelled := h.cancelled
  awake := ha
  locked := fun hl ↦ .inr (h.locked hl)

/-- A task that takes the lock and gives it back. -/
theorem pass (h : Departed l t pc l₀) (hq : q.queued = false) :
    LockStep l t pc l₀.take.release q where
  queue := by rw [Lock.queue_release, Lock.queue_take, h.queue, hq]; simp
  cancelled := fun u hu ↦ h.cancelled u (Lock.mem_release hu)
  awake := fun _ ↦ Lock.awake_release _
  locked := fun hl ↦ by simp at hl

/-- A task that takes the lock and keeps it. -/
theorem hold (h : Departed l t pc l₀) (hq : q.locking) : LockStep l t pc l₀.take q where
  queue := by
    have hnq : q.queued = false := by
      cases q with
      | closing c => rfl
      | _ => cases hq
    rw [Lock.queue_take, h.queue, hnq]
    simp
  cancelled := h.cancelled
  awake := fun _ ↦ Lock.awake_take _
  locked := fun _ ↦ .inl hq

/-- A task that holds the lock gives it back. -/
theorem giveBack (h : t ∉ l.queue) (hq : q.queued = false) : LockStep l t pc l.release q where
  queue := by rw [Lock.queue_release, not_mem_of_filter h, hq]; simp
  cancelled := fun u hu ↦
    (of_not_mem h rfl : Departed l t (.holding 0) l).cancelled u (Lock.mem_release hu)
  awake := fun _ ↦ Lock.awake_release _
  locked := fun hl ↦ by simp at hl

/-- A task that has to queue. -/
theorem enqueue (h : Departed l t pc l₀) (hq : q.queued) (hfree : l₀.free = false)
    (ha : l.Awake → l₀.Awake) : LockStep l t pc (l₀.enqueue t) q where
  queue := by rw [Lock.queue_enqueue, h.queue, hq]; rfl
  cancelled := by
    intro u hu
    rcases List.mem_append.mp hu with hu | hu
    · exact h.cancelled u hu
    · have := (Prod.mk.inj (List.mem_singleton.mp hu)).2
      cases this
  awake := fun hl ↦ (ha hl).enqueue hfree t
  locked := fun hl ↦ .inr (h.locked hl)

end Departed

namespace AsyncPool

private theorem lock_wakeOldest (p : AsyncPool) : p.wakeOldest.lock = p.lock := by
  unfold wakeOldest
  split <;> rfl

private theorem nextClose_lock (p : AsyncPool) (cs : List Addr) :
    (p.nextClose cs).1.lock = p.lock ∧ (p.nextClose cs).2.queued = false := by
  cases cs <;> exact ⟨rfl, rfl⟩

/-- The body of `async with self._lock` gives the lock back, or closes a connection first. -/
theorem underLock_lock (p : AsyncPool) (ch : Choice) {q : PC} (hq : q.queued) :
    (p.underLock ch q).1.lock = p.lock.release ∧ (p.underLock ch q).2.queued = false ∨
      (p.underLock ch q).1.lock = p.lock ∧ (p.underLock ch q).2.locking := by
  cases q with
  | loop start again =>
    simp only [underLock, loopBody]
    split <;> exact .inl ⟨rfl, rfl⟩
  | lockRelease c broken stray =>
    simp only [underLock, releaseBody]
    split
    · exact .inl ⟨rfl, rfl⟩
    · split
      · exact .inr ⟨rfl, rfl⟩
      · exact .inl ⟨by rw [unlock, lock_wakeOldest], rfl⟩
  | lockCloseAll =>
    obtain ⟨hl, hnq⟩ :=
      nextClose_lock { p with store := p.store.drain.1 }.unlock p.store.drain.2
    exact .inl ⟨hl, hnq⟩
  | lockTimeout | lockCancel | lockUndo | lockPublish | lockWarmup => exact .inl ⟨rfl, rfl⟩
  | _ => cases hq

/-- A task that has departed takes the lock and does its work. -/
theorem enter_lock {l l₀ : Lock} {t : Nat} {pc q : PC} (p : AsyncPool) (ch : Choice)
    (h : Departed l t pc l₀) (hp : p.lock = l₀.take) (hq : q.queued) :
    LockStep l t pc (p.underLock ch q).1.lock (p.underLock ch q).2 := by
  rcases p.underLock_lock ch hq with ⟨hl, hq'⟩ | ⟨hl, hq'⟩
  · rw [hl, hp]
    exact h.pass hq'
  · rw [hl, hp]
    exact h.hold hq'

/-- `async with self._lock` by a task that has departed. -/
theorem arrive_lock {l : Lock} {t : Nat} {pc q : PC} (p : AsyncPool) (ch : Choice)
    (h : Departed l t pc p.lock) (hq : q.queued) (ha : l.Awake → p.lock.Awake) :
    LockStep l t pc (p.arrive t ch q).1.lock (p.arrive t ch q).2 := by
  unfold arrive
  split
  · exact enter_lock { p with lock := p.lock.take } ch h rfl hq
  · next hfree => exact h.enqueue hq (by simpa using hfree) ha

/-- A cancellation that takes effect moves the lock on. -/
theorem throwCancelled_lock (p : AsyncPool) (t : Nat) (ch : Choice) (pc : PC)
    (hmem : pc.queued = false → t ∉ p.lock.queue) :
    LockStep p.lock t pc (p.throwCancelled t ch pc).1.lock (p.throwCancelled t ch pc).2 := by
  cases pc with
  | waiting start w =>
    exact p.arrive_lock ch (q := .lockCancel w) (.of_not_mem (hmem rfl) rfl) rfl id
  | lockTimeout start w =>
    exact arrive_lock { p with lock := p.lock.abandon t } ch (q := .lockCancel w) (.abandon rfl) rfl
      fun _ ↦ Lock.awake_abandon _ _
  | creating start createStart k =>
    exact p.arrive_lock ch (q := .lockUndo k .cancelledError) (.of_not_mem (hmem rfl) rfl) rfl id
  | closing c =>
    exact Departed.giveBack (hmem rfl) rfl
  | called | closingAll =>
    exact (Departed.of_not_mem (hmem rfl) rfl).stay rfl id
  | holding | ended | lockCancel | loop | lockUndo | lockPublish | lockRelease | lockCloseAll
  | lockWarmup =>
    exact (Departed.abandon rfl).stay rfl fun _ ↦ Lock.awake_abandon _ _

/-- Going on moves the lock on. -/
theorem resume_lock {p p' : AsyncPool} {t : Nat} {ch : Choice} {pc pc' : PC}
    (h : p.Resumes t ch pc p' pc') (hmem : pc.queued = false → t ∉ p.lock.queue) :
    LockStep p.lock t pc p'.lock pc' := by
  cases h with
  | arrives harrives =>
    cases harrives <;> exact arrive_lock _ ch (.of_not_mem (hmem rfl) rfl) rfl id
  | granted hq =>
    have hlocking : pc.locking = false := by
      cases pc with
      | closing => cases hq
      | _ => rfl
    exact enter_lock { p with lock := (p.lock.leave t).take } ch (.leave hlocking) rfl hq
  | closed =>
    rw [unlock, lock_wakeOldest]
    exact Departed.giveBack (hmem rfl) rfl
  | @closes rest => cases rest <;> exact (Departed.of_not_mem (hmem rfl) rfl).stay rfl id

/-- An uninterrupted stretch of a task moves the lock on. -/
theorem run_lock {p p' : AsyncPool} {t : Nat} {ch : Choice} {task : Task} {pc' : PC}
    (h : p.run t ch task = some (p', pc')) (hmem : task.pc.queued = false → t ∉ p.lock.queue) :
    LockStep p.lock t task.pc p'.lock pc' := by
  cases runs_of_run h with
  | cancelled => exact p.throwCancelled_lock t ch _ hmem
  | timedOut =>
    exact p.arrive_lock ch (q := .lockTimeout _ _) (.of_not_mem (hmem rfl) rfl) rfl id
  | resumes hresumes => exact resume_lock hresumes hmem

end AsyncPool

/-- A step of a task keeps the lock invariant. -/
theorem LockInv.resume {s : State} {t : Nat} {task : Task} {p' : AsyncPool} {pc' : PC}
    (h : LockInv s) (ht : s.tasks[t]? = some task)
    (hstep : LockStep s.pool.lock t task.pc p'.lock pc') :
    LockInv ⟨p', s.tasks.set t ⟨pc', false, false⟩⟩ := by
  have hnew := getElem?_set_of_some ht (⟨pc', false, false⟩ : Task)
  have hold {u : Nat} (hne : u ≠ t) (q : Task) : (s.tasks.set t q)[u]? = s.tasks[u]? :=
    List.getElem?_set_ne (Ne.symm hne)
  refine ⟨fun u ↦ ?_, fun u hu ↦ ?_, hstep.awake h.awake, fun hl ↦ ?_⟩
  · dsimp only
    rw [hstep.queue, List.mem_append, List.mem_filter]
    by_cases hut : u = t
    · rw [hut, hnew]
      cases hq : pc'.queued <;> simp [hq]
    · rw [hold hut, ← h.queued u]
      cases hq : pc'.queued <;> simp [hut]
  · obtain ⟨hne, hmem⟩ := hstep.cancelled u hu
    dsimp only
    rw [hold hne]
    exact h.cancelled u hmem
  · rcases hstep.locked hl with hlock | ⟨hl', hpc⟩
    · exact ⟨t, _, hnew, hlock⟩
    · obtain ⟨u, other, hu, hlock⟩ := h.locked hl'
      have hne : u ≠ t := by
        rintro rfl
        obtain rfl := Option.some.inj (hu.symm.trans ht)
        rw [hpc] at hlock
        cases hlock
      exact ⟨u, other, by dsimp only; rw [hold hne]; exact hu, hlock⟩

private theorem LockInv.flags {s : State} {t : Nat} {task task' : Task} {l : Lock}
    (h : LockInv s) (ht : s.tasks[t]? = some task) (hpc : task'.pc = task.pc)
    (hflag : task.cancelled → task'.cancelled) (hqueue : l.queue = s.pool.lock.queue)
    (hlocked : l.locked = s.pool.lock.locked) (hawake : l.Awake)
    (hturn : ∀ u, (u, .cancelled) ∈ l.waiters →
      (u, .cancelled) ∈ s.pool.lock.waiters ∨ u = t ∧ task'.cancelled) :
    LockInv ⟨{ s.pool with lock := l }, s.tasks.set t task'⟩ := by
  have hnew := getElem?_set_of_some ht task'
  have hold {u : Nat} (hne : u ≠ t) : (s.tasks.set t task')[u]? = s.tasks[u]? :=
    List.getElem?_set_ne (Ne.symm hne)
  refine ⟨fun u ↦ ?_, fun u hu ↦ ?_, hawake, fun hl ↦ ?_⟩
  · dsimp only
    rw [hqueue, h.queued u]
    by_cases hut : u = t
    · rw [hut, hnew, ht]
      simp [hpc]
    · rw [hold hut]
  · dsimp only
    by_cases hut : u = t
    · rw [hut, hnew]
      refine ⟨task', rfl, ?_⟩
      rcases hturn u hu with hmem | ⟨-, hc⟩
      · obtain ⟨other, ho, hc⟩ := h.cancelled u hmem
        rw [hut] at ho
        obtain rfl := Option.some.inj (ho.symm.trans ht)
        exact hflag hc
      · exact hc
    · rw [hold hut]
      exact h.cancelled u ((hturn u hu).resolve_right fun hc ↦ hut hc.1)
  · obtain ⟨u, other, hu, hlock⟩ := h.locked (hlocked ▸ hl)
    by_cases hut : u = t
    · rw [hut] at hu
      obtain rfl := Option.some.inj (hu.symm.trans ht)
      exact ⟨t, task', hnew, by rw [hpc]; exact hlock⟩
    · exact ⟨u, other, by dsimp only; rw [hold hut]; exact hu, hlock⟩

private theorem LockInv.call {s : State} (h : LockInv s) (job : Job) :
    LockInv { s with tasks := s.tasks ++ [⟨.called job, false, false⟩] } := by
  have hold {u : Nat} {task : Task} (hu : s.tasks[u]? = some task) :
      (s.tasks ++ [⟨.called job, false, false⟩])[u]? = some task := by
    obtain ⟨hlt, -⟩ := List.getElem?_eq_some_iff.mp hu
    rw [List.getElem?_append_left hlt, hu]
  refine ⟨fun u ↦ ?_, fun u hu ↦ ?_, h.awake, fun hl ↦ ?_⟩
  · rw [h.queued u]
    constructor
    · rintro ⟨task, hu, hq⟩
      exact ⟨task, hold hu, hq⟩
    · rintro ⟨task, hu, hq⟩
      refine ⟨task, ?_, hq⟩
      by_cases hlt : u < s.tasks.length
      · rwa [List.getElem?_append_left hlt] at hu
      · rw [List.getElem?_append_right (by omega)] at hu
        have hmem := List.mem_singleton.mp (List.mem_of_getElem? hu)
        rw [hmem] at hq
        cases hq
  · obtain ⟨task, ht, hc⟩ := h.cancelled u hu
    exact ⟨task, hold ht, hc⟩
  · obtain ⟨u, task, ht, hlock⟩ := h.locked hl
    exact ⟨u, task, hold ht, hlock⟩

/-- Nobody is stuck in the queue, in any run. -/
theorem LockInv.of_reach {okAct : State → Act → Prop} {minConn maxConn : Nat} {s : State}
    (h : (system minConn maxConn).Reach okAct s) : LockInv s := by
  refine h.invariant (P := LockInv) ?_ ?_
  · exact ⟨by simp [system, AsyncPool.new], by simp [system, AsyncPool.new, Lock.new],
      fun _ ↦ by simp [system, AsyncPool.new, Lock.new],
      fun hl ↦ by simp [system, AsyncPool.new, Lock.new] at hl⟩
  · intro s a s' ih _ hs
    cases a with
    | call job =>
      obtain ⟨-, rfl⟩ := step_call hs
      exact ih.call job
    | resume t ch =>
      obtain ⟨task, p', pc', ht, -, hrun, rfl⟩ := step_resume hs
      apply ih.resume ht
      apply AsyncPool.run_lock hrun
      intro hnq hmem
      obtain ⟨task', ht', hq⟩ := (ih.queued t).mp hmem
      obtain rfl := Option.some.inj (ht'.symm.trans ht)
      rw [hnq] at hq
      cases hq
    | cancel t =>
      obtain ⟨task, ht, -, rfl⟩ := step_cancel hs
      refine ih.flags ht rfl (fun _ ↦ rfl) (Lock.queue_cancelTurn _ _) rfl
        (ih.awake.cancelTurn t) fun u hu ↦ ?_
      obtain ⟨e, he, heq⟩ := List.mem_map.mp hu
      split at heq
      · exact .inr ⟨(Prod.mk.inj heq).1.symm, rfl⟩
      · exact .inl (heq ▸ he)
    | timer t =>
      obtain ⟨start, w, cancelled, timedOut, ht, rfl⟩ := step_timer hs
      exact ih.flags ht rfl id rfl rfl ih.awake fun _ ↦ .inl
    | metrics =>
      obtain rfl : { s with pool := s.pool.metrics } = s' := Option.some.inj hs
      exact ⟨ih.queued, ih.cancelled, ih.awake, ih.locked⟩

/-- A task that closes a connection under the lock can always go on. -/
theorem run_of_locking (p : AsyncPool) (t : Nat) (ch : Choice) {task : Task}
    (h : task.pc.locking) : (p.run t ch task).isSome := by
  obtain ⟨pc, cancelled, timedOut⟩ := task
  cases pc with
  | closing c => cases cancelled <;> rfl
  | _ => cases h

/-- A queued task can go on when it is cancelled or when it is its turn. -/
theorem run_of_queued (p : AsyncPool) (t : Nat) (ch : Choice) {task : Task}
    (h : task.pc.queued) (hturn : task.cancelled ∨ p.lock.granted t) :
    (p.run t ch task).isSome := by
  obtain ⟨pc, cancelled, timedOut⟩ := task
  unfold AsyncPool.run
  split
  · rfl
  · next hc =>
    have hgranted := hturn.resolve_left hc
    cases pc with
    | loop | lockTimeout | lockCancel | lockUndo | lockPublish | lockRelease | lockCloseAll
    | lockWarmup => simp [AsyncPool.resume, hgranted]
    | _ => cases h

/-- Whenever somebody is queued for the pool lock, some task that is queued or holds the lock
can run. -/
theorem LockInv.progress {s : State} (h : LockInv s) {t : Nat} {task : Task}
    (ht : s.tasks[t]? = some task) (hq : task.pc.queued) :
    ∃ u other, s.tasks[u]? = some other ∧ (other.pc.queued ∨ other.pc.locking) ∧
      ∀ ch, (s.pool.run u ch other).isSome := by
  cases hl : s.pool.lock.locked with
  | true =>
    obtain ⟨u, other, hu, hlock⟩ := h.locked hl
    exact ⟨u, other, hu, .inr hlock, fun ch ↦ run_of_locking s.pool u ch hlock⟩
  | false =>
    have hmem : t ∈ s.pool.lock.queue := (h.queued t).mpr ⟨task, ht, hq⟩
    cases hw : s.pool.lock.waiters with
    | nil =>
      rw [Lock.queue, hw] at hmem
      cases hmem
    | cons first rest =>
      obtain ⟨u, turn⟩ := first
      have hfirst : (u, turn) ∈ s.pool.lock.waiters := by
        rw [hw]
        exact List.mem_cons_self ..
      have hne := h.awake hl (u, turn) (by rw [hw]; rfl)
      obtain ⟨other, hu, hoq⟩ := (h.queued u).mp (List.mem_map.mpr ⟨_, hfirst, rfl⟩)
      refine ⟨u, other, hu, .inl hoq, fun ch ↦ run_of_queued s.pool u ch hoq ?_⟩
      cases turn with
      | pending => exact absurd rfl hne
      | woken => exact .inr (List.contains_iff_mem.mpr hfirst)
      | cancelled =>
        obtain ⟨other', hu', hc⟩ := h.cancelled u hfirst
        obtain rfl := Option.some.inj (hu'.symm.trans hu)
        exact .inl hc

end SalesData.Pool.Async

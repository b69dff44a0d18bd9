import Mathlib.Data.NNRat.Defs
import SalesData.Pool.AsyncLock
import SalesData.Pool.SyncLedger
import SalesData.Pool.Waits

/-!
# The acquire timeout

Both pools on a clock. The thread pool computes one deadline and looks at the pool again before it
gives up, `core/db/pool/sync_pool.py:68,92–102`. The asynchronous pool gives every `wait_for` the
whole timeout and gives up without another look, `core/db/pool/async_pool.py:112–121`: it honours
the timeout as long as its acquires are punctual.
-/

namespace SalesData.Pool

open Base

namespace Async

/-- Where a task is with its acquire. Whoever creates a connection has a slot. -/
def PC.phase : PC → Phase
  | called _ => .unstarted
  | loop start _ => .acquiring start
  | waiting start _ => .waiting start
  | ended (some .maxConnectionsExceeded) => .refused
  | _ => .finished

/-- The task's acquire can go on, or queues for the lock. -/
def AsyncPool.pending (p : AsyncPool) (task : Task) : Bool :=
  match task.pc with
  | .loop _ _ | .lockTimeout _ _ => true
  | .waiting _ w => task.cancelled || task.timedOut || p.signalled.contains w
  | _ => false

/-- Where task `t` is with its acquire. -/
def State.phase (s : State) (t : Nat) : Phase :=
  (s.tasks[t]?).elim .unstarted fun task ↦ task.pc.phase

/-- The acquires of the asynchronous pool. Every wait has a timer for the whole timeout;
`core/db/pool/async_pool.py:114`. -/
def acquires (timeout : Time) : Acquires State Act where
  step := step
  store s := s.pool.store
  size s := s.tasks.length
  phase := State.phase
  pending s t := (s.tasks[t]?).any s.pool.pending
  turn
    | .resume t ch => some (t, ch.now)
    | _ => none
  expiry
    | .timer t => some t
    | _ => none
  due since _ := since + timeout

/-- What must hold when a task goes on under the lock: whoever finds the pool full waits at the
very time of its call, and whoever gives up finds the pool full. -/
def PC.Ready (timeout clock : Time) (full : Prop) : PC → Prop
  | loop start _ => full → 0 < timeout ∧ clock = start
  | lockTimeout _ _ => full
  | lockUndo _ err => err ≠ .maxConnectionsExceeded
  | _ => True

/-- What a task in phase `before` goes on with under the lock. -/
def PC.From (clock : Time) (before : Phase) : PC → Prop
  | loop start _ =>
    before = .unstarted ∧ start = clock ∨ before = .acquiring start ∨ before = .waiting start
  | q => q.queued

/-- A task's acquire is punctual. A task that looks at the pool for the first time does so at the
time of its call, one that was woken may be late, and one whose timer fired may find the pool
changed. -/
def AsyncPool.Punctual (p : AsyncPool) (timeout clock : Time) (t : Nat) (task : Task) : Prop :=
  match task.pc with
  | .called .acquire => p.lock.free → p.store.Full → 0 < timeout
  | .loop start again =>
    p.lock.granted t → p.store.Full → 0 < timeout ∧ (again → clock = start)
  | .waiting start _ =>
    p.lock.free → if task.timedOut then p.store.Full
      else p.store.Full → 0 < timeout ∧ clock = start
  | .lockTimeout _ _ => p.lock.granted t → p.store.Full
  | _ => True

instance (p : AsyncPool) (timeout clock : Time) (t : Nat) (task : Task) :
    Decidable (p.Punctual timeout clock t task) :=
  match task with
  | ⟨.called .acquire, _, _⟩ | ⟨.loop _ _, _, _⟩ | ⟨.waiting _ _, _, _⟩ =>
    inferInstanceAs (Decidable (_ → _))
  | ⟨.lockTimeout _ _, _, _⟩ => inferInstanceAs (Decidable (_ → _))
  | ⟨.called (.release _ _), _, _⟩ | ⟨.called .closeAll, _, _⟩ | ⟨.called (.warmup _), _, _⟩
  | ⟨.lockCancel _, _, _⟩ | ⟨.creating _ _ _, _, _⟩ | ⟨.lockUndo _ _, _, _⟩
  | ⟨.lockPublish _ _ _ _, _, _⟩ | ⟨.holding _, _, _⟩ | ⟨.lockRelease _ _ _, _, _⟩
  | ⟨.closing _, _, _⟩ | ⟨.lockCloseAll, _, _⟩ | ⟨.closingAll _, _, _⟩
  | ⟨.lockWarmup _, _, _⟩ | ⟨.ended _, _, _⟩ => isTrue trivial

/-- The task that runs is punctual, or its acquire is being cancelled. -/
def Punctual (timeout : Time) (s : Timed State) : Event Act → Prop
  | .act (.resume t _) => ∀ task ∈ s.state.tasks[t]?, task.cancelled = false →
      s.state.pool.Punctual timeout s.clock t task
  | _ => True

variable {timeout : Time}

instance (timeout : Time) (s : Timed State) (e : Event Act) : Decidable (Punctual timeout s e) :=
  match e with
  | .act (.resume t _) =>
    inferInstanceAs (Decidable (∀ task ∈ s.state.tasks[t]?, task.cancelled = false →
      s.state.pool.Punctual timeout s.clock t task))
  | .pass _ | .act (.call _) | .act (.cancel _) | .act (.timer _) | .act .metrics => isTrue trivial

/-- What a turn leaves behind: a first look at the pool is queued at the time of the call, and a
failed creation is not reported as a full pool. -/
def PC.Prompt (clock : Time) : PC → Prop
  | loop start again => again = false → start = clock
  | lockUndo _ err => err ≠ .maxConnectionsExceeded
  | _ => True

namespace AsyncPool

private theorem underLock_prompt (p : AsyncPool) (ch : Choice) (q : PC) :
    (p.underLock ch q).2.Prompt ch.now := by
  cases q with
  | loop start again =>
    simp only [underLock, loopBody]
    split <;> exact trivial
  | lockRelease c broken stray =>
    simp only [underLock, releaseBody]
    split
    · exact trivial
    · split <;> exact trivial
  | lockCloseAll =>
    simp only [underLock]
    cases p.store.drain.2 <;> exact trivial
  | _ => exact trivial

private theorem arrive_prompt (p : AsyncPool) (t : Nat) (ch : Choice) {q : PC}
    (hq : q.Prompt ch.now) : (p.arrive t ch q).2.Prompt ch.now := by
  unfold arrive
  split
  · exact underLock_prompt _ ch q
  · exact hq

private theorem resume_prompt {p p' : AsyncPool} {t : Nat} {ch : Choice} {pc pc' : PC}
    (h : p.Resumes t ch pc p' pc') : pc'.Prompt ch.now := by
  cases h with
  | arrives harrives =>
    refine arrive_prompt _ t ch ?_
    cases harrives with
    | acquire => exact fun _ ↦ rfl
    | woken => exact fun hagain ↦ by cases hagain
    | failed => exact fun herr ↦ by cases herr
    | _ => exact trivial
  | granted => exact underLock_prompt _ ch pc
  | closed => exact trivial
  | @closes rest => cases rest <;> exact trivial

private theorem throwCancelled_finished (p : AsyncPool) (t : Nat) (ch : Choice) (pc : PC) :
    (p.throwCancelled t ch pc).2.phase = .finished ∧
      (p.throwCancelled t ch pc).2.Prompt ch.now := by
  cases pc with
  | waiting start w =>
    simp only [throwCancelled, arrive]
    split <;> exact ⟨rfl, trivial⟩
  | lockTimeout start w =>
    simp only [throwCancelled, arrive]
    split <;> exact ⟨rfl, trivial⟩
  | creating start createStart k =>
    simp only [throwCancelled, arrive]
    split
    · exact ⟨rfl, trivial⟩
    · exact ⟨rfl, fun herr ↦ by cases herr⟩
  | _ => exact ⟨rfl, trivial⟩

/-- Every turn leaves its task prompt. -/
theorem run_prompt {p p' : AsyncPool} {t : Nat} {ch : Choice} {task : Task} {pc' : PC}
    (h : p.run t ch task = some (p', pc')) : pc'.Prompt ch.now := by
  cases runs_of_run h with
  | cancelled => exact (p.throwCancelled_finished t ch _).2
  | timedOut => exact arrive_prompt p t ch trivial
  | resumes hresumes => exact resume_prompt hresumes

variable {before : Phase}

private theorem underLock_fair (p : AsyncPool) (ch : Choice) {q : PC}
    (hfrom : q.From ch.now before) (hready : q.Ready timeout ch.now p.store.Full) :
    (acquires timeout).Fair timeout ch.now (p.underLock ch q).1.store.Full before
      (p.underLock ch q).2.phase := by
  cases q with
  | loop start again =>
    simp only [underLock, loopBody]
    split
    · exact .finished
    · exact .finished
    · next s htake =>
      obtain ⟨hnone, hlen, rfl⟩ := Store.take_full htake
      obtain ⟨hpos, hclock⟩ := hready ⟨hnone, hlen⟩
      refine .wait hfrom ?_ ?_
      · rw [hclock]
        exact lt_add_of_pos_right start hpos
      · rw [hclock]
        rfl
  | lockTimeout start w => exact .refuse hready
  | lockUndo k err =>
    cases err with
    | maxConnectionsExceeded => exact absurd rfl hready
    | _ => exact .finished
  | lockRelease c broken stray =>
    simp only [underLock, releaseBody]
    split
    · exact .finished
    · split <;> exact .finished
  | lockCloseAll =>
    simp only [underLock]
    cases p.store.drain.2 <;> exact .finished
  | lockCancel | lockPublish | lockWarmup => exact .finished
  | _ => cases hfrom

private theorem arrive_fair (p : AsyncPool) (t : Nat) (ch : Choice) {q : PC}
    (hfrom : q.From ch.now before)
    (hready : p.lock.free = true → q.Ready timeout ch.now p.store.Full) :
    (acquires timeout).Fair timeout ch.now (p.arrive t ch q).1.store.Full before
      (p.arrive t ch q).2.phase := by
  unfold arrive
  split
  · next hfree => exact underLock_fair { p with lock := p.lock.take } ch hfrom (hready hfree)
  · cases q with
    | loop start again =>
      rcases hfrom with ⟨rfl, rfl⟩ | rfl | rfl
      · exact .start
      · exact .acquiring
      · exact .look
    | lockTimeout | lockCancel | lockUndo | lockPublish | lockRelease | lockCloseAll
    | lockWarmup => exact .finished
    | _ => cases hfrom

private theorem granted_ready {p : AsyncPool} {t : Nat} {clock : Time} {pc : PC}
    (hq : pc.queued) (hgranted : p.lock.granted t = true) (hprompt : pc.Prompt clock)
    (hpunctual : p.Punctual timeout clock t ⟨pc, false, false⟩) :
    pc.From clock pc.phase ∧ pc.Ready timeout clock p.store.Full := by
  cases pc with
  | loop start again =>
    refine ⟨.inr (.inl rfl), fun hfull ↦ ?_⟩
    obtain ⟨hpos, hagain⟩ := hpunctual hgranted hfull
    cases again with
    | false => exact ⟨hpos, (hprompt rfl).symm⟩
    | true => exact ⟨hpos, hagain rfl⟩
  | lockTimeout => exact ⟨rfl, hpunctual hgranted⟩
  | lockUndo => exact ⟨rfl, hprompt⟩
  | lockCancel | lockPublish | lockRelease | lockCloseAll | lockWarmup => exact ⟨rfl, trivial⟩
  | _ => cases hq

private theorem resume_fair {p p' : AsyncPool} {t : Nat} {ch : Choice} {pc pc' : PC}
    (hprompt : pc.Prompt ch.now)
    (hpunctual : p.Punctual timeout ch.now t ⟨pc, false, false⟩)
    (h : p.Resumes t ch pc p' pc') :
    (acquires timeout).Fair timeout ch.now p'.store.Full pc.phase pc'.phase := by
  cases h with
  | arrives harrives =>
    cases harrives with
    | acquire =>
      exact arrive_fair _ t ch (.inl ⟨rfl, rfl⟩) fun hfree hfull ↦ ⟨hpunctual hfree hfull, rfl⟩
    | woken => exact arrive_fair (p.dropEvent _) t ch (.inr (.inr rfl)) hpunctual
    | failed => exact arrive_fair _ t ch rfl fun _ herr ↦ by cases herr
    | stray | closeAll | warmup | created | release =>
      exact arrive_fair _ t ch rfl fun _ ↦ trivial
  | granted hq hgranted =>
    obtain ⟨hfrom, hready⟩ := granted_ready hq hgranted hprompt hpunctual
    exact underLock_fair { p with lock := (p.lock.leave t).take } ch hfrom hready
  | closed => exact .finished
  | @closes rest => cases rest <;> exact .finished

/-- A punctual task's turn is fair to its acquire. -/
theorem run_fair {p p' : AsyncPool} {t : Nat} {ch : Choice} {task : Task} {pc' : PC}
    (hprompt : task.pc.Prompt ch.now)
    (hpunctual : task.cancelled = false → p.Punctual timeout ch.now t task)
    (h : p.run t ch task = some (p', pc')) :
    (acquires timeout).Fair timeout ch.now p'.store.Full task.pc.phase pc'.phase := by
  cases runs_of_run h with
  | @cancelled pc timedOut =>
    rw [(p.throwCancelled_finished t ch pc).1]
    exact .finished
  | timedOut => exact arrive_fair p t ch rfl (hpunctual rfl)
  | @resumes pc pc' timedOut p' hresumes htimer =>
    refine resume_fair hprompt ?_ hresumes
    replace hpunctual := hpunctual rfl
    cases pc with
    | waiting start w =>
      obtain rfl : timedOut = false := htimer start w rfl
      exact hpunctual
    | called job => cases job <;> exact hpunctual
    | _ => exact hpunctual

end AsyncPool

/-- The phase of a task. -/
theorem phase_of_task {s : State} {t : Nat} {task : Task} (ht : s.tasks[t]? = some task) :
    s.phase t = task.pc.phase := by
  rw [State.phase, ht]
  rfl

/-- Tasks that do not exist have not started. -/
theorem phase_of_length_le {s : State} {t : Nat} (ht : s.tasks.length ≤ t) :
    s.phase t = .unstarted := by
  rw [State.phase, List.getElem?_eq_none ht]
  rfl

private theorem phase_set_self {s : State} {p : AsyncPool} {t : Nat} {task task' : Task}
    (ht : s.tasks[t]? = some task) :
    State.phase ⟨p, s.tasks.set t task'⟩ t = task'.pc.phase := by
  apply phase_of_task
  rw [List.getElem?_set_self (List.getElem?_eq_some_iff.mp ht).1]

private theorem phase_set_of_ne {s : State} {p : AsyncPool} {t u : Nat} {task : Task}
    (h : u ≠ t) : State.phase ⟨p, s.tasks.set t task⟩ u = s.phase u := by
  rw [State.phase, State.phase, List.getElem?_set_ne h.symm]

private theorem phase_flags {s : State} {p : AsyncPool} {t : Nat} {task task' : Task}
    (ht : s.tasks[t]? = some task) (hpc : task'.pc = task.pc) (u : Nat) :
    State.phase ⟨p, s.tasks.set t task'⟩ u = s.phase u := by
  by_cases hut : u = t
  · subst hut
    rw [phase_set_self ht, phase_of_task ht, hpc]
  · exact phase_set_of_ne hut

/-- An action changes the phase of the task that runs only. -/
theorem phase_of_step {s s' : State} {a : Act} (h : step s a = some s') {u : Nat}
    (hu : ∀ t ch, a = .resume t ch → t ≠ u) : s'.phase u = s.phase u := by
  cases a with
  | call job =>
    obtain ⟨-, rfl⟩ := step_call h
    rcases lt_trichotomy u s.tasks.length with hlt | rfl | hlt
    · rw [State.phase, State.phase, List.getElem?_append_left hlt]
    · rw [phase_of_length_le (Nat.le_refl _), State.phase, List.getElem?_concat_length]
      rfl
    · rw [phase_of_length_le hlt.le, phase_of_length_le]
      rw [List.length_append]
      exact hlt
  | resume t ch =>
    obtain ⟨task, p', pc', -, -, -, rfl⟩ := step_resume h
    exact phase_set_of_ne (hu t ch rfl).symm
  | cancel t =>
    obtain ⟨task, ht, -, rfl⟩ := step_cancel h
    exact phase_flags ht (by rfl) u
  | timer t =>
    obtain ⟨start, w, cancelled, timedOut, ht, rfl⟩ := step_timer h
    exact phase_flags ht (by rfl) u
  | metrics =>
    obtain rfl : { s with pool := s.pool.metrics } = s' := Option.some.inj h
    rfl

/-- At every moment the tasks are prompt. -/
theorem prompt_of_reach {minConn maxConn : Nat} {clock : Time}
    {ok : Timed State → Event Act → Prop} {s : Timed State}
    (hr : ((acquires timeout).timed (system minConn maxConn).init clock).Reach ok s) :
    ∀ task ∈ s.state.tasks, task.pc.Prompt s.clock := by
  refine hr.invariant (P := fun s ↦ ∀ task ∈ s.state.tasks, task.pc.Prompt s.clock) ?_ ?_
  · intro task hmem
    cases hmem
  · intro s e s' h _ hs
    cases e with
    | pass now =>
      obtain ⟨-, hall, rfl⟩ := Acquires.timedStep_pass hs
      intro task hmem
      obtain ⟨t, hlt, hget⟩ := List.getElem_of_mem hmem
      have hlets := hall t hlt
      obtain ⟨pc, cancelled, timedOut⟩ := task
      cases pc with
      | loop start again =>
        have htask : s.state.tasks[t]? = some ⟨.loop start again, cancelled, timedOut⟩ :=
          List.getElem?_eq_some_iff.mpr ⟨hlt, hget⟩
        simp [Acquires.letsPass, acquires, htask, AsyncPool.pending] at hlets
      | lockUndo => exact h _ hmem
      | _ => exact trivial
    | act a =>
      obtain ⟨htime, state, hstep, rfl⟩ := Acquires.timedStep_act hs
      obtain ⟨hstate, hclock⟩ := (acquires timeout).record_frame s a state
      rw [hstate, hclock]
      replace hstep : step s.state a = some state := hstep
      cases a with
      | call job =>
        obtain ⟨-, rfl⟩ := step_call hstep
        intro task hmem
        rcases List.mem_append.mp hmem with hmem | hmem
        · exact h task hmem
        · obtain rfl := List.mem_singleton.mp hmem
          exact trivial
      | resume t ch =>
        obtain ⟨task, p', pc', -, -, hrun, rfl⟩ := step_resume hstep
        intro task' hmem
        rcases List.mem_or_eq_of_mem_set hmem with hmem | rfl
        · exact h task' hmem
        · have hnow : ch.now = s.clock := Acquires.clock_of_onTime htime rfl
          rw [← hnow]
          exact AsyncPool.run_prompt hrun
      | cancel t =>
        obtain ⟨task, ht, -, rfl⟩ := step_cancel hstep
        intro task' hmem
        rcases List.mem_or_eq_of_mem_set hmem with hmem | rfl
        · exact h task' hmem
        · exact h task (List.mem_of_getElem? ht)
      | timer t =>
        obtain ⟨start, w, cancelled, timedOut, ht, rfl⟩ := step_timer hstep
        intro task' hmem
        rcases List.mem_or_eq_of_mem_set hmem with hmem | rfl
        · exact h task' hmem
        · exact trivial
      | metrics =>
        obtain rfl : { s.state with pool := s.state.pool.metrics } = state := Option.some.inj hstep
        exact h

/-- The asynchronous pool honours the timeout of punctual acquires. -/
theorem honours_of_punctual {minConn maxConn : Nat} {clock : Time} {s : Timed State}
    (ht : 0 ≤ timeout)
    (hr : ((acquires timeout).timed (system minConn maxConn).init clock).Reach
      (Punctual timeout) s) : (acquires timeout).Honours timeout s := by
  refine (acquires timeout).honours_of_fair ht (fun t ↦ rfl) (fun s t ↦ phase_of_length_le)
    ?_ ?_ hr
  · intro s a s' hs u hturn
    refine phase_of_step hs fun t ch ha htu ↦ ?_
    subst ha htu
    exact hturn ch.now rfl
  · intro s a s' t now hr hok hs hturn hnow
    cases a with
    | resume u ch =>
      obtain ⟨rfl, rfl⟩ := Prod.mk.inj (Option.some.inj hturn)
      obtain ⟨task, p', pc', htask, -, hrun, rfl⟩ := step_resume hs
      have hafter : State.phase ⟨p', s.state.tasks.set u ⟨pc', false, false⟩⟩ u = pc'.phase :=
        phase_set_self htask
      have hprompt := prompt_of_reach hr task (List.mem_of_getElem? htask)
      replace hok := hok task htask
      rw [← hnow] at hprompt hok ⊢
      have hfair := AsyncPool.run_fair hprompt hok hrun
      rw [← phase_of_task htask, ← hafter] at hfair
      exact hfair
    | _ => cases hturn

end Async

namespace Sync

/-- Where a thread is with its acquire. Whoever creates a connection has a slot. -/
def PC.phase : PC → Phase
  | called _ => .unstarted
  | enter start => .acquiring start
  | waiting start => .waiting start
  | failing .maxConnectionsExceeded | ended (some .maxConnectionsExceeded) => .refused
  | _ => .finished

/-- Where thread `t` is with its acquire. -/
def State.phase (s : State) (t : Nat) : Phase := (s.threads[t]?).elim .unstarted PC.phase

/-- Thread `t` can go on with its acquire. -/
def SyncPool.pending (p : SyncPool) (t : Nat) : PC → Bool
  | .enter _ => true
  | .waiting _ => p.notified.contains t
  | _ => false

/-- The acquires of the thread pool. A wait is over at the deadline of its acquire;
`core/db/pool/sync_pool.py:68,92,102`. -/
def acquires (timeout : Time) : Acquires State Act where
  step := step
  store s := s.pool.store
  size s := s.threads.length
  phase := State.phase
  pending s t := (s.threads[t]?).any (s.pool.pending t)
  turn
    | .run t ch => some (t, ch.now)
    | _ => none
  expiry
    | .run t ch => if ch.expired then some t else none
    | _ => none
  due _ start := start + timeout

variable {timeout : Time} {before : Phase}

namespace SyncPool

private theorem loopBody_fair {p : SyncPool} (t : Nat) {start : Time} (counted : Bool) (ch : Choice)
    (htimeout : p.timeout = timeout)
    (hbefore : before = .acquiring start ∨ before = .waiting start) :
    (acquires timeout).Fair timeout ch.now (p.loopBody t start counted ch).1.store.Full before
      (p.loopBody t start counted ch).2.phase := by
  unfold loopBody
  split
  · cases counted <;> exact .finished
  · exact .finished
  · next s htake =>
    obtain ⟨hnone, hlen, rfl⟩ := Store.take_full htake
    have hkept : (count { p with store := p.store } counted).timeout = timeout := by
      cases counted <;> exact htimeout
    rw [store_awaitTurn, store_count]
    unfold awaitTurn
    rw [hkept]
    split
    · exact .refuse ⟨hnone, hlen⟩
    · next hlate => exact .wait (.inr hbefore) (not_le.mp hlate) le_rfl

/-- A thread's turn is fair to its acquire. -/
theorem run_fair {p p' : SyncPool} {t : Nat} {ch : Choice} {pc pc' : PC}
    (htimeout : p.timeout = timeout) (h : p.run t ch pc = some (p', pc')) :
    (acquires timeout).Fair timeout ch.now p'.store.Full pc.phase pc'.phase := by
  cases runs_of_run h with
  | acquire => exact .start
  | look => exact loopBody_fair t false ch htimeout (.inl rfl)
  | woken => exact loopBody_fair (p := p.wake t) t true ch htimeout (.inr rfl)
  | @interrupted start createStart k counted | @undone k counted
  | @published start elapsed k c counted => cases counted <;> exact .finished
  | @raises err =>
    cases err with
    | maxConnectionsExceeded => exact .refused
    | creationFailed | interrupted => exact .finished
  | stray | closeAll | warmup | created | failed | left | release | closedAll | closes =>
    exact .finished

private theorem loopBody_timeout (p : SyncPool) (t : Nat) (start : Time) (counted : Bool)
    (ch : Choice) : (p.loopBody t start counted ch).1.timeout = p.timeout := by
  unfold loopBody
  split
  · rfl
  · rfl
  · unfold awaitTurn
    split <;> cases counted <;> rfl

private theorem releaseBody_timeout (p : SyncPool) (c : Addr) (broken : Bool) :
    (p.releaseBody c broken).timeout = p.timeout := by
  unfold releaseBody
  split
  · rfl
  · unfold notify
    split <;> rfl

/-- Nobody changes the timeout. -/
theorem run_timeout {p p' : SyncPool} {t : Nat} {ch : Choice} {pc pc' : PC}
    (h : p.run t ch pc = some (p', pc')) : p'.timeout = p.timeout := by
  cases runs_of_run h with
  | look => exact loopBody_timeout p t _ false ch
  | woken => exact loopBody_timeout (p.wake t) t _ true ch
  | stray | release => exact releaseBody_timeout p _ _
  | _ => rfl

end SyncPool

/-- The phase of a thread. -/
theorem phase_of_thread {s : State} {t : Nat} {pc : PC} (ht : s.threads[t]? = some pc) :
    s.phase t = pc.phase := by
  rw [State.phase, ht]
  rfl

/-- Threads that do not exist have not started. -/
theorem phase_of_length_le {s : State} {t : Nat} (ht : s.threads.length ≤ t) :
    s.phase t = .unstarted := by
  rw [State.phase, List.getElem?_eq_none ht]
  rfl

/-- An action changes the phase of the thread that runs only. -/
theorem phase_of_step {s s' : State} {a : Act} (h : step s a = some s') {u : Nat}
    (hu : ∀ t ch, a = .run t ch → t ≠ u) : s'.phase u = s.phase u := by
  cases a with
  | call job =>
    obtain ⟨-, rfl⟩ := step_call h
    rcases lt_trichotomy u s.threads.length with hlt | rfl | hlt
    · rw [State.phase, State.phase, List.getElem?_append_left hlt]
    · rw [phase_of_length_le (Nat.le_refl _), State.phase, List.getElem?_concat_length]
      rfl
    · rw [phase_of_length_le hlt.le, phase_of_length_le]
      rw [List.length_append]
      exact hlt
  | run t ch =>
    obtain ⟨pc, p', pc', -, -, -, rfl⟩ := step_run h
    rw [State.phase, State.phase, List.getElem?_set_ne (hu t ch rfl)]
  | metrics =>
    obtain rfl : { s with pool := s.pool.metrics } = s' := Option.some.inj h
    rfl

/-- The timeout of the pool is the one it was made with. -/
theorem timeout_of_reach {minConn maxConn : Nat} {clock : Time}
    {ok : Timed State → Event Act → Prop} {s : Timed State}
    (hr : ((acquires timeout).timed (system minConn maxConn timeout).init clock).Reach ok s) :
    s.state.pool.timeout = timeout := by
  refine hr.invariant (P := fun s ↦ s.state.pool.timeout = timeout) rfl ?_
  intro s e s' h _ hs
  cases e with
  | pass now =>
    obtain ⟨-, -, rfl⟩ := Acquires.timedStep_pass hs
    exact h
  | act a =>
    obtain ⟨-, state, hstep, rfl⟩ := Acquires.timedStep_act hs
    rw [((acquires timeout).record_frame s a state).1]
    replace hstep : step s.state a = some state := hstep
    cases a with
    | call job =>
      obtain ⟨-, rfl⟩ := step_call hstep
      exact h
    | run t ch =>
      obtain ⟨pc, p', pc', -, -, hrun, rfl⟩ := step_run hstep
      exact (SyncPool.run_timeout hrun).trans h
    | metrics =>
      obtain rfl : { s.state with pool := s.state.pool.metrics } = state := Option.some.inj hstep
      exact h

/-- The thread pool honours the timeout in every run. -/
theorem honours_of_reach {minConn maxConn : Nat} {clock : Time}
    {ok : Timed State → Event Act → Prop} {s : Timed State} (ht : 0 ≤ timeout)
    (hr : ((acquires timeout).timed (system minConn maxConn timeout).init clock).Reach ok s) :
    (acquires timeout).Honours timeout s := by
  refine (acquires timeout).honours_of_fair ht (fun t ↦ rfl) (fun s t ↦ phase_of_length_le)
    ?_ ?_ hr
  · intro s a s' hs u hturn
    refine phase_of_step hs fun t ch ha htu ↦ ?_
    subst ha htu
    exact hturn ch.now rfl
  · intro s a s' t now hr _ hs hturn hnow
    cases a with
    | run u ch =>
      obtain ⟨rfl, rfl⟩ := Prod.mk.inj (Option.some.inj hturn)
      obtain ⟨pc, p', pc', hpc, -, hrun, rfl⟩ := step_run hs
      have hafter : State.phase ⟨p', s.state.threads.set u pc'⟩ u = pc'.phase := by
        apply phase_of_thread
        rw [List.getElem?_set_self (List.getElem?_eq_some_iff.mp hpc).1]
      have hfair := SyncPool.run_fair (timeout_of_reach hr) hrun
      rw [← phase_of_thread hpc, ← hafter, hnow] at hfair
      exact hfair
    | _ => cases hturn

end Sync

/-- Both pools honour every acquire timeout: the asynchronous one in every run in which no acquire
waits again after time has passed or gives up beside a free slot, the thread pool in every run. -/
theorem timeouts_honoured (minConn maxConn : Nat) (timeout : ℚ≥0) (clock : Time) :
    (∀ s, ((Async.acquires timeout).timed (Async.system minConn maxConn).init clock).Reach
      (Async.Punctual timeout) s → (Async.acquires timeout).Honours timeout s) ∧
    ∀ s, ((Sync.acquires timeout).timed
      (Sync.system minConn maxConn timeout).init clock).Reachable s →
      (Sync.acquires timeout).Honours timeout s :=
  ⟨fun _ hr ↦ Async.honours_of_punctual timeout.coe_nonneg hr,
    fun _ hr ↦ Sync.honours_of_reach timeout.coe_nonneg hr⟩

namespace Async

/-- A turn of task `t` at the time `now`. -/
def turn (now : Time) (t : Nat) (addr : Addr) : Event Act :=
  .act (.resume t { now := now, addr := addr })

/-- One acquire holds the only connection and the next one waits for it. -/
def oneWaits : List (Event Act) :=
  [.act (.call .acquire), .act (.call .acquire), turn 0 0 1, turn 0 0 2, turn 0 1 3]

/-- The connection is released twice, and a new acquire takes it before the waiting one. -/
def stolenWakeups : List (Event Act) :=
  oneWaits ++ [.pass 1, turn 1 0 3, .act (.call .acquire), turn 1 2 3, turn 1 1 3,
    .pass 2, turn 2 2 3, .act (.call .acquire), turn 2 3 3, turn 2 1 3, .pass 3]

/-- The connection is released at the very time at which the timer of the wait fires. -/
def lateRelease : List (Event Act) :=
  oneWaits ++ [.pass 2, .act (.timer 1), turn 2 0 3, turn 2 1 3]

/-- An acquire with a timeout of two waits again after two, is blocked for three, and is refused
beside an idle connection. -/
theorem not_honours_late :
    (∃ s, ((acquires 2).timed (system 1 1).init 0).Reachable s ∧
      s.state.phase 1 = .waiting 0 ∧ (s.audit 1).since = 2 ∧ (acquires 2).blocked s 1 = 3 ∧
      ¬ (acquires 2).Honours 2 s) ∧
    ∃ s, ((acquires 2).timed (system 1 1).init 0).Reachable s ∧
      (∃ store ∈ s.refusals, ¬ store.Full) ∧ ¬ (acquires 2).Honours 2 s := by
  constructor
  · obtain ⟨s, hreach, hs⟩ := System.exists_of_exec ((acquires 2).timed (system 1 1).init 0)
      (fun _ _ ↦ True) stolenWakeups
      (fun s ↦ decide (s.state.phase 1 = .waiting 0 ∧ (s.audit 1).since = 2 ∧
        (acquires 2).blocked s 1 = 3)) (by decide +kernel)
    obtain ⟨hphase, hsince, hblocked⟩ := of_decide_eq_true hs
    refine ⟨s, hreach, hphase, hsince, hblocked, fun h ↦ ?_⟩
    have hbounded := h.bounded 1
    rw [hblocked] at hbounded
    revert hbounded
    decide
  · obtain ⟨s, hreach, hs⟩ := System.exists_of_exec ((acquires 2).timed (system 1 1).init 0)
      (fun _ _ ↦ True) lateRelease
      (fun s ↦ decide (∃ store ∈ s.refusals, ¬ store.Full)) (by decide +kernel)
    obtain ⟨store, hmem, hfull⟩ := of_decide_eq_true hs
    exact ⟨s, hreach, ⟨store, hmem, hfull⟩, fun h ↦ hfull (h.full store hmem)⟩

/-- A punctual run in which the acquire that waits is refused after the whole timeout. -/
theorem timeouts_honoured_refused :
    ∃ s, ((acquires 2).timed (system 1 1).init 0).Reach (Punctual 2) s ∧
      s.state.phase 1 = .refused ∧ (acquires 2).blocked s 1 = 2 ∧ (acquires 2).Honours 2 s := by
  obtain ⟨s, hreach, hs⟩ := System.exists_of_exec ((acquires 2).timed (system 1 1).init 0)
    (Punctual 2) (oneWaits ++ [.pass 2, .act (.timer 1), turn 2 1 3])
    (fun s ↦ decide (s.state.phase 1 = .refused ∧ (acquires 2).blocked s 1 = 2))
    (by decide +kernel)
  obtain ⟨hphase, hblocked⟩ := of_decide_eq_true hs
  exact ⟨s, hreach, hphase, hblocked, (timeouts_honoured 1 1 2 0).1 s hreach⟩

end Async
end SalesData.Pool

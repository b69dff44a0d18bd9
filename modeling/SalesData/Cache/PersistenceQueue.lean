import Mathlib.Data.List.Basic
import SalesData.Base.System
import SalesData.Base.Tally

/-!
# The cache persistence queue

`CachePersistenceQueue` (`core/caching/persistence_queue.py:45–142`): a bounded
`asyncio.Queue` of jobs and the worker tasks that await them, for any interleaving at their
suspension points. A job is named by the number of `submit` calls before its own.
-/

namespace SalesData.Cache.PersistenceQueue

open Base

/-- How the await of a job's coroutine ends: `escapes` is a `BaseException` that is no
`Exception`, `CancelledError` in particular. -/
inductive Ending
  | returns | raises | escapes
  deriving DecidableEq, Repr

/-- Where a task is in `_worker_loop`. -/
inductive Phase
  | waiting
  | awaiting (job : Nat)
  | ended
  deriving DecidableEq, Repr

/-- A worker task; `cancelling` is a `cancel()` that it has not yet been resumed with. -/
structure Worker where
  phase : Phase
  cancelling : Bool
  deriving DecidableEq, Repr

/-- Where a call of `stop` is: in its `join`, in its `gather`, or over. -/
inductive Stopper
  | draining
  | gathering (tasks : List Nat)
  | over
  deriving DecidableEq, Repr

/-- The queue object. `workers` has every task it ever made, `worker_tasks` the indices of
those it refers to; `awaited` has the jobs in the order in which workers took them,
`discarded` the dropped ones, and `escaped` counts the awaits that ended so. -/
structure State where
  queue : List Nat
  accepting : Bool
  workers : List Worker
  workerTasks : List Nat
  stops : List Stopper
  enqueued : Nat
  completed : Nat
  failed : Nat
  dropped : Nat
  awaited : List Nat
  discarded : List Nat
  escaped : Nat
  deriving DecidableEq, Repr

/-- Calls on the queue, and steps of the workers and of the calls of `stop`. -/
inductive Act
  | submit
  | start
  | take (worker : Nat)
  | finish (worker : Nat) (ending : Ending)
  | leave (worker : Nat)
  | stop
  | cancelWorkers (call : Nat)
  | gathered (call : Nat)
  | abandon (call : Nat)
  deriving DecidableEq, Repr

/-- `asyncio.Queue.full()`: a `maxsize` of zero or less is no bound. -/
def full (maxsize : Int) (queue : List Nat) : Bool :=
  decide (0 < maxsize) && decide (maxsize ≤ (queue.length : Int))

/-- `Task.cancel()` on one task; it does nothing to a task that has ended. -/
def Worker.cancel (w : Worker) : Worker :=
  match w.phase with
  | .ended => w
  | _ => { w with cancelling := true }

/-- `task.cancel()` for each of some tasks. -/
def cancelAll (tasks : List Nat) (workers : List Worker) : List Worker :=
  workers.mapIdx fun i w ↦ if i ∈ tasks then w.cancel else w

namespace State

/-- `submit` (`persistence_queue.py:77–106`). -/
def submit (maxsize : Int) (s : State) : State :=
  let job := s.enqueued + s.dropped
  if !s.accepting then { s with dropped := s.dropped + 1, discarded := s.discarded ++ [job] }
  else if full maxsize s.queue then
    { s with dropped := s.dropped + 1, discarded := s.discarded ++ [job] }
  else { s with queue := s.queue ++ [job], enqueued := s.enqueued + 1 }

/-- `start` (`persistence_queue.py:67–75`). -/
def start (numWorkers : Nat) (s : State) : State :=
  if s.accepting then s
  else { s with
    accepting := true
    workers := s.workers ++ List.replicate numWorkers ⟨.waiting, false⟩
    workerTasks := (List.range numWorkers).map (s.workers.length + ·) }

/-- What follows the await of a job (`persistence_queue.py:110–121`). -/
def finish (worker : Nat) (s : State) : Ending → State
  | .returns => { s with
      completed := s.completed + 1
      workers := s.workers.set worker ⟨.waiting, false⟩ }
  | .raises => { s with
      failed := s.failed + 1
      workers := s.workers.set worker ⟨.waiting, false⟩ }
  | .escapes => { s with
      escaped := s.escaped + 1
      workers := s.workers.set worker ⟨.ended, false⟩ }

/-- One step. A worker that was cancelled while it waited takes nothing more. The `join` of
`stop` may time out in any state; `abandon` is the cancellation of a call of `stop`, which its
`gather` hands on to the tasks. -/
def step (numWorkers : Nat) (maxsize : Int) (s : State) : Act → Option State
  | .submit => some (s.submit maxsize)
  | .start => some (s.start numWorkers)
  | .take worker =>
    match s.workers[worker]?, s.queue with
    | some ⟨.waiting, false⟩, job :: queue => some
        { s with
          queue
          workers := s.workers.set worker ⟨.awaiting job, false⟩
          awaited := s.awaited ++ [job] }
    | _, _ => none
  | .finish worker ending =>
    match s.workers[worker]? with
    | some ⟨.awaiting _, _⟩ => some (s.finish worker ending)
    | _ => none
  | .leave worker =>
    match s.workers[worker]? with
    | some ⟨.waiting, true⟩ => some
        { s with workers := s.workers.set worker ⟨.ended, false⟩ }
    | _ => none
  | .stop => some
      { s with
        accepting := false
        stops := s.stops ++ [if s.workerTasks = [] then .over else .draining] }
  | .cancelWorkers call =>
    match s.stops[call]? with
    | some .draining => some
        { s with
          workers := cancelAll s.workerTasks s.workers
          stops := s.stops.set call (.gathering s.workerTasks) }
    | _ => none
  | .gathered call =>
    match s.stops[call]? with
    | some (.gathering tasks) =>
      if tasks.all fun i ↦ (s.workers[i]?).all (·.phase == .ended) then some
        { s with workerTasks := [], stops := s.stops.set call .over }
      else none
    | _ => none
  | .abandon call =>
    match s.stops[call]? with
    | some .draining => some { s with stops := s.stops.set call .over }
    | some (.gathering tasks) => some
        { s with
          workers := cancelAll tasks s.workers
          stops := s.stops.set call .over }
    | _ => none

/-- `metrics()["queue_depth"]`. -/
def queueDepth (s : State) : Nat := s.queue.length

end State

/-- A new queue (`persistence_queue.py:53–65`). -/
def persistenceQueue (numWorkers : Nat) (maxsize : Int) : System State Act where
  init := ⟨[], false, [], [], [], 0, 0, 0, 0, [], [], 0⟩
  step := State.step numWorkers maxsize

/-- One if the worker is awaiting a job. -/
def Worker.busy (w : Worker) : Nat :=
  match w.phase with
  | .awaiting _ => 1
  | _ => 0

/-- The jobs that live workers are awaiting. -/
def State.running (s : State) : Nat := tally Worker.busy s.workers

/-- What holds in every state. -/
structure Inv (maxsize : Int) (s : State) : Prop where
  ordered : (s.awaited ++ s.queue).Pairwise (· < ·)
  submitted : ∀ job ∈ s.awaited ++ s.queue, job < s.enqueued + s.dropped
  refused : ∀ job ∈ s.discarded, job < s.enqueued + s.dropped
  apart : ∀ job ∈ s.discarded, job ∉ s.awaited ++ s.queue
  capped : 0 < maxsize → (s.queue.length : Int) ≤ maxsize
  taken : s.enqueued = s.awaited.length + s.queue.length
  settled : s.awaited.length = s.completed + s.failed + s.escaped + s.running

/-- A worker is as busy as before when it is asked to end. -/
@[simp] theorem busy_cancel (w : Worker) : w.cancel.busy = w.busy := by
  cases w with
  | mk phase cancelling => cases phase <;> rfl

/-- A cancellation alone ends no await. -/
@[simp] theorem tally_cancelAll (tasks : List Nat) (workers : List Worker) :
    tally Worker.busy (cancelAll tasks workers) = tally Worker.busy workers := by
  unfold tally
  congr 1
  apply List.ext_getElem?
  intro i
  simp only [cancelAll, List.getElem?_map, List.getElem?_mapIdx, Option.map_map]
  congr 1
  ext w
  show (if i ∈ tasks then w.cancel else w).busy = w.busy
  split
  · exact busy_cancel w
  · rfl

private theorem tally_waiting (n : Nat) :
    tally Worker.busy (List.replicate n ⟨.waiting, false⟩) = 0 := by
  apply tally_eq_zero_iff.mpr
  intro w hw
  rw [List.eq_of_mem_replicate hw]
  rfl

/-- Only a bounded queue with too many jobs is full. -/
theorem not_full {maxsize : Int} {queue : List Nat} (h : full maxsize queue = false)
    (hmax : 0 < maxsize) : (queue.length : Int) < maxsize := by
  simpa [full, hmax] using h

variable {numWorkers : Nat} {maxsize : Int} {s s' : State}

private theorem inv_discard (h : Inv maxsize s) :
    Inv maxsize { s with
      dropped := s.dropped + 1
      discarded := s.discarded ++ [s.enqueued + s.dropped] } where
  ordered := h.ordered
  submitted job hjob := Nat.lt_succ_of_lt (h.submitted job hjob)
  refused job hjob := by
    show job < s.enqueued + (s.dropped + 1)
    rcases List.mem_append.mp hjob with hjob | hjob
    · have := h.refused job hjob
      omega
    · have := List.mem_singleton.mp hjob
      omega
  apart job hjob := by
    rcases List.mem_append.mp hjob with hjob | hjob
    · exact h.apart job hjob
    · intro hmem
      have hlt := h.submitted job hmem
      rw [List.mem_singleton.mp hjob] at hlt
      omega
  capped := h.capped
  taken := h.taken
  settled := h.settled

private theorem inv_enqueue (h : Inv maxsize s) (hfull : full maxsize s.queue = false) :
    Inv maxsize { s with
      queue := s.queue ++ [s.enqueued + s.dropped]
      enqueued := s.enqueued + 1 } where
  ordered := by
    show (s.awaited ++ (s.queue ++ [s.enqueued + s.dropped])).Pairwise (· < ·)
    rw [← List.append_assoc]
    apply List.pairwise_append.mpr
    refine ⟨h.ordered, List.pairwise_singleton _ _, ?_⟩
    intro job hjob last hlast
    rw [List.mem_singleton.mp hlast]
    exact h.submitted job hjob
  submitted job hjob := by
    show job < s.enqueued + 1 + s.dropped
    rw [← List.append_assoc] at hjob
    rcases List.mem_append.mp hjob with hjob | hjob
    · have := h.submitted job hjob
      omega
    · have := List.mem_singleton.mp hjob
      omega
  refused job hjob := by
    have := h.refused job hjob
    show job < s.enqueued + 1 + s.dropped
    omega
  apart job hjob hmem := by
    rw [← List.append_assoc] at hmem
    rcases List.mem_append.mp hmem with hmem | hmem
    · exact h.apart job hjob hmem
    · have hlt := h.refused job hjob
      rw [List.mem_singleton.mp hmem] at hlt
      omega
  capped hmax := by
    have := not_full hfull hmax
    show ((s.queue ++ [s.enqueued + s.dropped]).length : Int) ≤ maxsize
    rw [List.length_append, List.length_singleton]
    omega
  taken := by
    have := h.taken
    show s.enqueued + 1 = s.awaited.length + (s.queue ++ [s.enqueued + s.dropped]).length
    rw [List.length_append, List.length_singleton]
    omega
  settled := h.settled

private theorem inv_submit (h : Inv maxsize s) : Inv maxsize (s.submit maxsize) := by
  unfold State.submit
  split
  · exact inv_discard h
  · split
    · exact inv_discard h
    · next hfull => exact inv_enqueue h (by simpa using hfull)

private theorem inv_tasks (h : Inv maxsize s) {accepting : Bool} {workers : List Worker}
    {workerTasks : List Nat} {stops : List Stopper}
    (hbusy : tally Worker.busy workers = tally Worker.busy s.workers) :
    Inv maxsize { s with accepting, workers, workerTasks, stops } where
  ordered := h.ordered
  submitted := h.submitted
  refused := h.refused
  apart := h.apart
  capped := h.capped
  taken := h.taken
  settled := by
    show s.awaited.length = s.completed + s.failed + s.escaped + tally Worker.busy workers
    rw [hbusy]
    exact h.settled

private theorem inv_start (h : Inv maxsize s) : Inv maxsize (s.start numWorkers) := by
  unfold State.start
  split
  · exact h
  · apply inv_tasks h
    rw [tally_append, tally_waiting]
    rfl

private theorem inv_take (h : Inv maxsize s) {worker job : Nat} {queue : List Nat}
    (hworker : s.workers[worker]? = some ⟨.waiting, false⟩) (hqueue : s.queue = job :: queue) :
    Inv maxsize { s with
      queue
      workers := s.workers.set worker ⟨.awaiting job, false⟩
      awaited := s.awaited ++ [job] } := by
  have hsame : s.awaited ++ [job] ++ queue = s.awaited ++ s.queue := by
    rw [hqueue, List.append_assoc]
    rfl
  have hlength : s.queue.length = queue.length + 1 := by rw [hqueue, List.length_cons]
  refine ⟨?_, ?_, h.refused, ?_, ?_, ?_, ?_⟩
  · show (s.awaited ++ [job] ++ queue).Pairwise (· < ·)
    rw [hsame]
    exact h.ordered
  · show ∀ other ∈ s.awaited ++ [job] ++ queue, other < s.enqueued + s.dropped
    rw [hsame]
    exact h.submitted
  · show ∀ other ∈ s.discarded, other ∉ s.awaited ++ [job] ++ queue
    rw [hsame]
    exact h.apart
  · intro hmax
    have := h.capped hmax
    show (queue.length : Int) ≤ maxsize
    omega
  · have := h.taken
    show s.enqueued = (s.awaited ++ [job]).length + queue.length
    rw [List.length_append, List.length_singleton]
    omega
  · have hset := tally_set (w := Worker.busy) hworker ⟨.awaiting job, false⟩
    have := h.settled
    show (s.awaited ++ [job]).length = s.completed + s.failed + s.escaped +
      tally Worker.busy (s.workers.set worker ⟨.awaiting job, false⟩)
    simp only [State.running, Worker.busy, List.length_append, List.length_singleton] at *
    omega

private theorem inv_settled (h : Inv maxsize s) {worker job : Nat} {cancelling : Bool}
    (hworker : s.workers[worker]? = some ⟨.awaiting job, cancelling⟩) {w : Worker}
    (hidle : w.busy = 0) {completed failed escaped : Nat}
    (hcount : completed + failed + escaped = s.completed + s.failed + s.escaped + 1) :
    Inv maxsize { s with
      completed, failed, escaped
      workers := s.workers.set worker w } := by
  refine ⟨h.ordered, h.submitted, h.refused, h.apart, h.capped, h.taken, ?_⟩
  have hset := tally_set (w := Worker.busy) hworker w
  have hbusy : Worker.busy ⟨.awaiting job, cancelling⟩ = 1 := rfl
  have hsettled := h.settled
  show s.awaited.length =
    completed + failed + escaped + tally Worker.busy (s.workers.set worker w)
  unfold State.running at hsettled
  omega

private theorem inv_finish (h : Inv maxsize s) {worker job : Nat} {cancelling : Bool}
    (hworker : s.workers[worker]? = some ⟨.awaiting job, cancelling⟩) (ending : Ending) :
    Inv maxsize (s.finish worker ending) := by
  cases ending with
  | returns =>
    apply inv_settled h hworker rfl
    omega
  | raises =>
    apply inv_settled h hworker rfl
    omega
  | escapes =>
    apply inv_settled h hworker rfl
    omega

private theorem inv_step (h : Inv maxsize s) {act : Act}
    (hstep : s.step numWorkers maxsize act = some s') : Inv maxsize s' := by
  cases act with
  | submit =>
    cases hstep
    exact inv_submit h
  | start =>
    cases hstep
    exact inv_start h
  | take worker =>
    simp only [State.step] at hstep
    split at hstep
    · next job queue hworker hqueue =>
      cases hstep
      exact inv_take h hworker hqueue
    · cases hstep
  | finish worker ending =>
    simp only [State.step] at hstep
    split at hstep
    · next job cancelling hworker =>
      cases hstep
      exact inv_finish h hworker ending
    · cases hstep
  | leave worker =>
    simp only [State.step] at hstep
    split at hstep
    · next hworker =>
      cases hstep
      apply inv_tasks h
      have := tally_set (w := Worker.busy) hworker ⟨.ended, false⟩
      simp only [Worker.busy] at *
      omega
    · cases hstep
  | stop =>
    cases hstep
    exact inv_tasks h rfl
  | cancelWorkers call =>
    simp only [State.step] at hstep
    split at hstep
    · cases hstep
      exact inv_tasks h (tally_cancelAll s.workerTasks s.workers)
    · cases hstep
  | gathered call =>
    simp only [State.step] at hstep
    split at hstep
    · split at hstep
      · cases hstep
        exact inv_tasks h rfl
      · cases hstep
    · cases hstep
  | abandon call =>
    simp only [State.step] at hstep
    split at hstep
    · cases hstep
      exact inv_tasks h rfl
    · next tasks _ =>
      cases hstep
      exact inv_tasks h (tally_cancelAll tasks s.workers)
    · cases hstep

/-- The invariant holds in every state. -/
theorem inv_of_reachable (h : (persistenceQueue numWorkers maxsize).Reachable s) :
    Inv maxsize s := by
  refine h.invariant ?_ fun _ _ _ hinv _ hstep ↦ inv_step hinv hstep
  exact ⟨List.Pairwise.nil, fun _ hjob ↦ absurd hjob List.not_mem_nil,
    fun _ hjob ↦ absurd hjob List.not_mem_nil, fun _ hjob ↦ absurd hjob List.not_mem_nil,
    fun hmax ↦ Int.le_of_lt hmax, rfl, rfl⟩

/-- What the jobs of a queue come to, apart from its counters. -/
structure Orderly (s : State) : Prop where
  awaitedOnce : s.awaited.Nodup
  neverBoth : ∀ job ∈ s.discarded, job ∉ s.awaited
  inOrder : s.awaited.Pairwise (· < ·)
  ahead : ∀ job ∈ s.awaited, ∀ later ∈ s.queue, job < later

/-- No job is awaited twice, or both dropped and awaited; jobs are taken in the order of their
submission; a bounded queue keeps its bound; and a job that was enqueued is queued, being
awaited, or has left its await in one of three ways, of which the counters know two. -/
theorem jobs_accounted (numWorkers : Nat) (maxsize : Int) (s : State)
    (h : (persistenceQueue numWorkers maxsize).Reachable s) :
    Orderly s ∧ (1 ≤ maxsize → (s.queueDepth : Int) ≤ maxsize) ∧
      s.enqueued = s.completed + s.failed + s.queueDepth + s.running + s.escaped := by
  have hinv := inv_of_reachable h
  have hordered := List.pairwise_append.mp hinv.ordered
  refine ⟨⟨?_, ?_, hordered.1, hordered.2.2⟩, hinv.capped, ?_⟩
  · exact hordered.1.imp Nat.ne_of_lt
  · intro job hjob hmem
    exact hinv.apart job hjob (List.mem_append_left _ hmem)
  · have htaken := hinv.taken
    have hsettled := hinv.settled
    simp only [State.queueDepth]
    omega

/-- Two workers: one job returns, one raises, one is still being awaited and one is dropped. -/
theorem jobs_accounted_fourJobs :
    ∃ s, (persistenceQueue 2 1).Reachable s ∧ s.dropped = 1 ∧ s.running = 1 ∧ Orderly s ∧
      s.enqueued = s.completed + s.failed + s.queueDepth + s.running + s.escaped := by
  obtain ⟨s, hs, hend⟩ := System.exists_of_exec (persistenceQueue 2 1) (fun _ _ ↦ True)
    [.start, .submit, .submit, .take 1, .submit, .take 0, .finish 1 .returns, .submit, .take 1,
      .finish 0 .raises] (fun s ↦ s.dropped == 1 && s.running == 1) (by decide +kernel)
  simp only [Bool.and_eq_true, beq_iff_eq] at hend
  have haccounted := jobs_accounted 2 1 s hs
  exact ⟨s, hs, hend.1, hend.2, haccounted.1, haccounted.2.2⟩

/-- A `stop` that times out cancels a worker in mid-job, and no counter knows of that job; and
with no bound the queue holds more jobs than `maxsize`. -/
theorem cancelledJob_uncounted :
    (∃ s, (persistenceQueue 1 1).Reachable s ∧
      s.enqueued ≠ s.completed + s.failed + s.queueDepth + s.running) ∧
    ∃ s, (persistenceQueue 1 0).Reachable s ∧ ¬ (s.queueDepth : Int) ≤ 0 := by
  constructor
  · obtain ⟨s, hs, hend⟩ := System.exists_of_exec (persistenceQueue 1 1) (fun _ _ ↦ True)
      [.start, .submit, .take 0, .stop, .cancelWorkers 0, .finish 0 .escapes, .gathered 0]
      (fun s ↦ s.enqueued == 1 && s.completed + s.failed + s.queueDepth + s.running == 0)
      (by decide +kernel)
    simp only [Bool.and_eq_true, beq_iff_eq] at hend
    exact ⟨s, hs, by omega⟩
  · obtain ⟨s, hs, hend⟩ := System.exists_of_exec (persistenceQueue 1 0) (fun _ _ ↦ True)
      [.start, .submit] (fun s ↦ s.queueDepth == 1) (by decide +kernel)
    simp only [beq_iff_eq] at hend
    exact ⟨s, hs, by omega⟩

end SalesData.Cache.PersistenceQueue

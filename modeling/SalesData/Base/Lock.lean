import Mathlib.Data.List.Basic

/-!
# Fair cooperative lock

`asyncio.Lock`: waiters queue in arrival order, `release` wakes the oldest one, and a
caller takes a free lock without suspending unless somebody is queued. A waiter is known
by its task number and by the state of the future it awaits.
-/

namespace SalesData.Base

/-- State of the future that a queued task awaits. -/
inductive Turn where
  | pending
  | woken
  | cancelled
  deriving DecidableEq, Repr

/-- A fair lock with its queue of waiting tasks. -/
structure Lock where
  locked : Bool
  waiters : List (Nat × Turn)
  deriving DecidableEq, Repr

namespace Lock

/-- A fresh lock. -/
def new : Lock := ⟨false, []⟩

/-- A caller takes the lock at once: nobody holds it or is waiting for a turn. -/
def free (l : Lock) : Bool := !l.locked && l.waiters.all (·.2 == .cancelled)

/-- Join the end of the queue. -/
def enqueue (l : Lock) (t : Nat) : Lock := { l with waiters := l.waiters ++ [(t, .pending)] }

/-- Leave the queue. -/
def leave (l : Lock) (t : Nat) : Lock := { l with waiters := l.waiters.filter (·.1 != t) }

/-- Hold the lock. -/
def take (l : Lock) : Lock := { l with locked := true }

/-- Wake the first waiter unless its future is already done. -/
def wakeUpFirst (l : Lock) : Lock :=
  match l.waiters with
  | (t, .pending) :: rest => { l with waiters := (t, .woken) :: rest }
  | _ => l

/-- Give the lock back and wake the first waiter. -/
def release (l : Lock) : Lock := wakeUpFirst { l with locked := false }

/-- The task has been woken and takes the lock when it runs next. -/
def granted (l : Lock) (t : Nat) : Bool := l.waiters.contains (t, .woken)

/-- A cancellation request reaches the future that a queued task awaits. -/
def cancelTurn (l : Lock) (t : Nat) : Lock :=
  { l with waiters := l.waiters.map fun e ↦ if e = (t, .pending) then (t, .cancelled) else e }

/-- A queued task leaves with `CancelledError` and passes a free lock on. -/
def abandon (l : Lock) (t : Nat) : Lock :=
  if (l.leave t).locked then l.leave t else (l.leave t).wakeUpFirst

/-- The tasks in the queue. -/
def queue (l : Lock) : List Nat := l.waiters.map Prod.fst

/-- Somebody is about to take a lock that nobody holds: the first waiter's future is done. -/
def Awake (l : Lock) : Prop := l.locked = false → ∀ e ∈ l.waiters.head?, e.2 ≠ .pending

/-- A new lock has no queue. -/
@[simp] theorem queue_new : new.queue = [] := rfl

/-- Taking the lock leaves the queue. -/
@[simp] theorem queue_take (l : Lock) : l.take.queue = l.queue := rfl

/-- A waiter queues at the end. -/
@[simp] theorem queue_enqueue (l : Lock) (t : Nat) : (l.enqueue t).queue = l.queue ++ [t] := by
  simp [queue, enqueue]

/-- A waiter leaves the queue, the others keep their order. -/
@[simp] theorem queue_leave (l : Lock) (t : Nat) :
    (l.leave t).queue = l.queue.filter (· != t) := by
  simp [queue, leave, List.filter_map, Function.comp_def]

/-- A waiter that is woken up stays in the queue until its turn. -/
@[simp] theorem queue_wakeUpFirst (l : Lock) : l.wakeUpFirst.queue = l.queue := by
  unfold wakeUpFirst
  split
  · next t rest h => simp [queue, h]
  · rfl

/-- A release leaves the queue. -/
@[simp] theorem queue_release (l : Lock) : l.release.queue = l.queue :=
  queue_wakeUpFirst { l with locked := false }

/-- A cancelled waiter leaves the queue. -/
@[simp] theorem queue_abandon (l : Lock) (t : Nat) :
    (l.abandon t).queue = l.queue.filter (· != t) := by
  unfold abandon
  split
  · exact queue_leave l t
  · rw [queue_wakeUpFirst, queue_leave]

/-- A cancellation does not change the queue by itself. -/
@[simp] theorem queue_cancelTurn (l : Lock) (t : Nat) : (l.cancelTurn t).queue = l.queue := by
  rw [queue, queue, cancelTurn, List.map_map]
  apply List.map_congr_left
  intro e _
  dsimp only [Function.comp]
  split
  · next h => rw [h]
  · rfl

/-- Waking up a waiter does not take the lock. -/
@[simp] theorem locked_wakeUpFirst (l : Lock) : l.wakeUpFirst.locked = l.locked := by
  unfold wakeUpFirst
  split <;> rfl

/-- A release unlocks. -/
@[simp] theorem locked_release (l : Lock) : l.release.locked = false :=
  locked_wakeUpFirst { l with locked := false }

/-- A cancelled waiter neither takes the lock nor releases it. -/
@[simp] theorem locked_abandon (l : Lock) (t : Nat) : (l.abandon t).locked = l.locked := by
  unfold abandon
  split
  · rfl
  · rw [locked_wakeUpFirst]
    rfl

/-- Waking the first waiter leaves nobody asleep at the head. -/
theorem awake_wakeUpFirst (l : Lock) : l.wakeUpFirst.Awake := by
  intro _ e he
  unfold wakeUpFirst at he
  split at he
  · obtain rfl := Option.some.inj he
    exact Turn.noConfusion
  · next hne =>
    rintro hp
    cases hw : l.waiters with
    | nil => simp [hw] at he
    | cons first rest =>
      rw [hw] at he
      obtain rfl := Option.some.inj he
      exact hne first.1 rest (by rw [hw, ← hp])

/-- A released lock is awake. -/
theorem awake_release (l : Lock) : l.release.Awake := awake_wakeUpFirst _

/-- A held lock is awake. -/
theorem awake_take (l : Lock) : l.take.Awake := fun h ↦ absurd h (by simp [take])

/-- A task that leaves the queue passes a free lock on. -/
theorem awake_abandon (l : Lock) (t : Nat) : (l.abandon t).Awake := by
  unfold abandon
  split
  · next h => exact fun hl ↦ absurd h (by simp [hl])
  · exact awake_wakeUpFirst _

/-- Joining the queue of a lock that cannot be taken at once keeps it awake. -/
theorem Awake.enqueue {l : Lock} (h : l.Awake) (hfree : l.free = false) (t : Nat) :
    (l.enqueue t).Awake := by
  intro hl e he
  cases hw : l.waiters with
  | nil =>
    have hlocked : l.locked = false := hl
    simp [free, hlocked, hw] at hfree
  | cons first rest =>
    simp only [Lock.enqueue, hw, List.cons_append, List.head?_cons] at he
    exact h hl e (by rw [hw]; exact he)

/-- A cancellation request wakes the task that it reaches. -/
theorem Awake.cancelTurn {l : Lock} (h : l.Awake) (t : Nat) : (l.cancelTurn t).Awake := by
  intro hl e he
  rw [Lock.cancelTurn, List.head?_map, Option.mem_def, Option.map_eq_some_iff] at he
  obtain ⟨first, hfirst, rfl⟩ := he
  split
  · exact Turn.noConfusion
  · exact h hl first hfirst

/-- A cancelled turn was cancelled before somebody was woken. -/
theorem mem_wakeUpFirst {l : Lock} {u : Nat} (h : (u, .cancelled) ∈ l.wakeUpFirst.waiters) :
    (u, .cancelled) ∈ l.waiters := by
  unfold wakeUpFirst at h
  split at h
  · next t rest hw =>
    rw [hw]
    rcases List.mem_cons.mp h with h | h
    · cases h
    · exact List.mem_cons_of_mem _ h
  · exact h

/-- A cancelled turn was cancelled before the lock was released. -/
theorem mem_release {l : Lock} {u : Nat} (h : (u, .cancelled) ∈ l.release.waiters) :
    (u, .cancelled) ∈ l.waiters :=
  mem_wakeUpFirst (l := { l with locked := false }) h

/-- A task that has left has no turn. -/
theorem mem_leave {l : Lock} {t u : Nat} {turn : Turn} (h : (u, turn) ∈ (l.leave t).waiters) :
    u ≠ t ∧ (u, turn) ∈ l.waiters := by
  obtain ⟨hmem, hne⟩ := List.mem_filter.mp h
  exact ⟨by simpa using hne, hmem⟩

/-- A task that has given up has no turn. -/
theorem mem_abandon {l : Lock} {t u : Nat} (h : (u, .cancelled) ∈ (l.abandon t).waiters) :
    u ≠ t ∧ (u, .cancelled) ∈ l.waiters := by
  unfold abandon at h
  split at h
  · exact mem_leave h
  · exact mem_leave (mem_wakeUpFirst h)

end Lock
end SalesData.Base

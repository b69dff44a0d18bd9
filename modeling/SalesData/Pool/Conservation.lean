import SalesData.Pool.Guarantees

/-!
# Slots of the asynchronous pool under cancellation

`acquire` and `release` queue for the pool lock while they answer for a slot of `_in_use`. As
long as no cancellation strikes there, `_in_use` has exactly one entry for each connection in
a task's hand and for each acquire between reserving and publishing.
-/

namespace SalesData.Pool.Async

open Base

/-- The task is queued for the lock, to publish a connection, to give a reserved slot back, or
to release a connection. -/
def PC.bookkeeping : PC → Bool
  | lockPublish _ _ _ _ | lockUndo _ _ | lockRelease _ _ _ => true
  | _ => false

/-- Calls are acquires, and releases by the task that acquired. -/
def AcquireRelease (_ : State) : Act → Prop
  | .call job => job = .acquire
  | _ => True

instance (s : State) (a : Act) : Decidable (AcquireRelease s a) :=
  match a with
  | .call _ => inferInstanceAs (Decidable (_ = _))
  | .resume _ _ | .cancel _ | .timer _ | .metrics => isTrue trivial

/-- No cancellation takes effect in a task that is queued for the lock with a slot to answer
for. -/
def SparesBookkeeping (s : State) : Act → Prop
  | .resume t _ => ∀ task ∈ s.tasks[t]?, task.cancelled → task.pc.bookkeeping = false
  | _ => True

instance (s : State) (a : Act) : Decidable (SparesBookkeeping s a) :=
  match a with
  | .resume t _ => inferInstanceAs (Decidable (∀ task ∈ s.tasks[t]?, _))
  | .call _ | .cancel _ | .timer _ | .metrics => isTrue trivial

/-- Connections in the hands of tasks. -/
def State.heldCount (s : State) : Nat := s.tasks.countP fun task ↦ task.pc.inHand.isSome

/-- Acquires between reserving and publishing. -/
def State.reservedCount (s : State) : Nat := s.tasks.countP fun task ↦ task.pc.placeholders ≠ []

private theorem length_slots (pc : PC) :
    pc.role.slots.length =
      (if pc.inHand.isSome then 1 else 0) + if pc.placeholders ≠ [] then 1 else 0 := by
  cases pc with
  | called job => cases job <;> rfl
  | lockRelease c broken stray => cases stray <;> rfl
  | _ => rfl

private theorem tally_slots (s : State) :
    tally (fun r ↦ r.slots.length) s.ledger.roles = s.heldCount + s.reservedCount := by
  simp only [State.ledger, State.heldCount, State.reservedCount, tally_map, length_slots]
  induction s.tasks with
  | nil => rfl
  | cons task tasks ih =>
    simp only [tally_cons, List.countP_cons, ih, decide_eq_true_eq]
    omega

private theorem conserving_of_mem_kinds {task : Task} (horigin : task.pc.origin ≠ .stray)
    (hshut : task.pc.origin ≠ .shutdown) (hsus : task.cancelled → task.pc.suspended)
    (hbook : task.cancelled → task.pc.bookkeeping = false) :
    ∀ κ ∈ task.kinds, Ledger.Conserving κ := by
  obtain ⟨pc, cancelled, timedOut⟩ := task
  cases pc with
  | called job =>
    cases job <;> cases cancelled <;>
      simp_all [PC.origin, Task.kinds, PC.kinds, PC.cancelKinds, Ledger.Conserving]
  | lockRelease c broken stray =>
    cases stray <;> cases cancelled <;>
      simp_all [PC.origin, Task.kinds, PC.kinds, PC.bookkeeping, Ledger.Conserving]
  | _ =>
    cases cancelled <;> simp_all [PC.origin, Task.kinds, PC.kinds, PC.cancelKinds,
      PC.bookkeeping, PC.suspended, Ledger.Conserving]

/-- A run that keeps its slots is a run of the ledger in which nothing is lost. -/
theorem ledger_conserving {minConn maxConn : Nat} {s : State}
    (h : (system minConn maxConn).Reach (fun s a ↦ AcquireRelease s a ∧ SparesBookkeeping s a) s) :
    Ledger.Reach Ledger.Conserving minConn maxConn s.ledger := by
  refine ledger_of_reach h fun s a hr hok κ hκ ↦ ?_
  cases a with
  | call job =>
    obtain rfl : job = .acquire := hok.1
    simp_all [State.kinds, Ledger.Conserving]
  | resume t ch =>
    cases ht : s.tasks[t]? with
    | none => simp [State.kinds, ht] at hκ
    | some task =>
      have hmem := List.mem_of_getElem? ht
      have horigin := origin_of_reach (fun o ↦ o ≠ .stray ∧ o ≠ .shutdown) hr (by decide)
        (fun _ job hj ↦ by
          obtain rfl : job = .acquire := hj.1
          decide) task hmem
      exact conserving_of_mem_kinds horigin.1 horigin.2 (suspended_of_cancelled hr task hmem)
        (hok.2 task ht) κ (by simpa [State.kinds, ht] using hκ)
  | _ => simp_all [State.kinds, Ledger.Conserving]

/-- `_in_use` has an entry for each connection in somebody's hand and for each acquire between
reserving and publishing. -/
def State.SlotsMatch (s : State) : Prop :=
  s.pool.store.inUse.len = s.heldCount + s.reservedCount

/-- Once no call is under way, `_in_use` records connections whose holders have not called
`release`, and nothing else. -/
def State.OnlyHolders (s : State) : Prop :=
  (∀ task ∈ s.tasks, task.pc.suspended = false) →
    ∀ k ∈ s.pool.store.inUse.keys, ∃ task ∈ s.tasks, task.pc = .holding k

private theorem holding_of_mem_slots {pc : PC} {k : Addr} (hsus : pc.suspended = false)
    (hk : 0 < pc.role.slots.count k) : pc = .holding k := by
  cases pc with
  | holding c =>
    have hmem : k ∈ [c] := List.count_pos_iff.mp hk
    rw [List.mem_singleton.mp hmem]
  | ended => exact absurd hk (by simp [PC.role, Role.slots])
  | _ => cases hsus

/-- Slots are conserved in every run in which no cancellation strikes a task that is queued for
the lock with a slot to answer for. -/
theorem slots_conserved {minConn maxConn : Nat} {s : State}
    (h : (system minConn maxConn).Reach (fun s a ↦ AcquireRelease s a ∧ SparesBookkeeping s a) s) :
    s.SlotsMatch ∧ s.OnlyHolders := by
  obtain ⟨-, hslot⟩ := Ledger.SlotInv.of_reach (ledger_conserving h)
  constructor
  · rw [State.SlotsMatch, ← tally_slots]
    exact hslot.len_inUse
  · intro hsus k hk
    have hcount : 0 < s.ledger.slotCount k := by
      rw [← hslot k]
      exact List.count_pos_iff.mpr hk
    rw [Ledger.slotCount, State.ledger, tally_map] at hcount
    obtain ⟨task, hmem, hpos⟩ := exists_of_tally_pos hcount
    exact ⟨task, hmem, holding_of_mem_slots (hsus task hmem) hpos⟩

/-- One task creates a connection while another one closes its broken connection under the
lock; a third party cancels the first one when it queues to publish. -/
def cancelledPublish : List Act :=
  [.call .acquire, .call .acquire, .resume 0 { addr := 1 }, .resume 0 { addr := 2 },
    .resume 1 { addr := 3 }, .resume 0 { addr := 4, broken := true, suspends := true },
    .resume 1 { addr := 5 }, .cancel 1, .resume 1 {}, .resume 0 {}]

/-- A cancelled acquire can leave its placeholder in `_in_use` for good. -/
theorem cancelledPublish_loses_slot :
    ¬ ∀ s, (system 2 2).Reach AcquireRelease s → s.SlotsMatch ∧ s.OnlyHolders := by
  intro h
  obtain ⟨s, hs, hend⟩ := System.exists_of_exec (system 2 2) AcquireRelease cancelledPublish
    (fun s ↦ s.tasks.all (fun task ↦ !task.pc.suspended) && s.pool.store.inUse.len == 1 &&
      s.heldCount == 0 && s.reservedCount == 0) (by decide +kernel)
  simp only [Bool.and_eq_true, beq_iff_eq] at hend
  have hmatch := (h s hs).1
  rw [State.SlotsMatch] at hmatch
  omega

/-- A run in which a creation is cancelled and its slot given back. -/
theorem slots_conserved_cancelledCreation :
    ∃ s, (system 2 2).Reach (fun s a ↦ AcquireRelease s a ∧ SparesBookkeeping s a) s ∧
      s.pool.store.inUse.len = 1 ∧ s.heldCount = 1 ∧ s.SlotsMatch ∧ s.OnlyHolders := by
  obtain ⟨s, hs, hend⟩ := System.exists_of_exec (system 2 2)
    (fun s a ↦ AcquireRelease s a ∧ SparesBookkeeping s a)
    (cancelledPublish.take 5 ++ [.cancel 1, .resume 1 {}])
    (fun s ↦ s.pool.store.inUse.len == 1 && s.heldCount == 1) (by decide +kernel)
  simp only [Bool.and_eq_true, beq_iff_eq] at hend
  exact ⟨s, hs, hend.1, hend.2, slots_conserved hs⟩

end SalesData.Pool.Async

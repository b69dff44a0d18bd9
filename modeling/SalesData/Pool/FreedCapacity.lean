import SalesData.Pool.SyncWakeups

/-!
# Capacity that is freed without a release

A failed creation gives its slot back and `metrics()` may raise the size; neither wakes a waiter.
In runs without timeouts and cancellations these are the only ways to strand one.
-/

namespace SalesData.Pool

open Base

/-- When every key of `_in_use` has a task that answers for it, no key is left over. -/
theorem Ledger.SlotInv.keys_live {l : Ledger} (h : l.SlotInv) {k : Addr}
    (hk : k ∈ l.store.inUse.keys) : k ∈ l.live := by
  have hcount : 0 < l.slotCount k := by
    rw [← h k]
    exact List.count_pos_iff.mpr hk
  obtain ⟨r, hr, hpos⟩ := exists_of_tally_pos hcount
  apply List.mem_append_left
  apply List.mem_append_left
  refine List.mem_flatMap.mpr ⟨r, hr, ?_⟩
  have hmem := List.count_pos_iff.mp hpos
  cases r with
  | reserving | holding => exact hmem
  | made k' c =>
    obtain rfl := List.mem_singleton.mp hmem
    exact List.mem_cons_self ..
  | _ => cases hmem

namespace Async

/-- Acquires and releases, without timeouts and cancellations. -/
def Patient (s : State) : Act → Prop
  | .cancel _ | .timer _ => False
  | a => AcquireRelease s a

instance (s : State) (a : Act) : Decidable (Patient s a) :=
  match a with
  | .cancel _ | .timer _ => isFalse id
  | .call job => inferInstanceAs (Decidable (AcquireRelease s (.call job)))
  | .resume _ _ | .metrics => isTrue trivial

private theorem acquireRelease_of_patient {s : State} {a : Act} (h : Patient s a) :
    AcquireRelease s a := by
  cases a with
  | cancel | timer => exact h.elim
  | _ => exact h

/-- Nobody is cancelled in a run without cancellations. -/
theorem not_cancelled_of_patient {minConn maxConn : Nat} {s : State}
    (h : (system minConn maxConn).Reach (fun s a ↦ Patient s a ∧ Wasteless s a) s) :
    ∀ task ∈ s.tasks, task.cancelled = false := by
  refine h.invariant (P := fun s ↦ ∀ task ∈ s.tasks, task.cancelled = false)
    (by simp [system]) ?_
  intro s a s' ih hok hs
  cases a with
  | call job =>
    obtain ⟨-, rfl⟩ := step_call hs
    intro task hmem
    rcases List.mem_append.mp hmem with hmem | hmem
    · exact ih task hmem
    · rw [List.mem_singleton.mp hmem]
  | resume t ch =>
    obtain ⟨task, p', pc', ht, -, hrun, rfl⟩ := step_resume hs
    exact forall_mem_set ih rfl
  | cancel | timer => exact hok.1.elim
  | metrics =>
    obtain rfl : { s with pool := s.pool.metrics } = s' := Option.some.inj hs
    exact ih

private theorem conserving_of_patient {minConn maxConn : Nat} {s : State}
    (h : (system minConn maxConn).Reach (fun s a ↦ Patient s a ∧ Wasteless s a) s) :
    (system minConn maxConn).Reach (fun s a ↦ AcquireRelease s a ∧ SparesBookkeeping s a) s := by
  induction h with
  | init => exact .init
  | @step s s' a hr hok hs ih =>
    refine ih.step ⟨acquireRelease_of_patient hok.1, ?_⟩ hs
    cases a with
    | resume t ch =>
      intro task ht hc
      rw [not_cancelled_of_patient hr task (List.mem_of_getElem? ht)] at hc
      cases hc
    | _ => trivial

/-- A run without timeouts and cancellations keeps its wakeups, unless capacity is freed
without one. -/
theorem keepsWakeups_of_patient {minConn maxConn : Nat} {s : State}
    (h : (system minConn maxConn).Reach (fun s a ↦ Patient s a ∧ Wasteless s a) s) :
    (system minConn maxConn).Reach KeepsWakeups s := by
  induction h with
  | init => exact .init
  | @step s s' a hr hok hs ih =>
    refine ih.step ⟨acquireRelease_of_patient hok.1, hok.2, ?_⟩ hs
    cases a with
    | resume t ch =>
      obtain ⟨task, p', pc', ht, hch, -, -⟩ := step_resume hs
      obtain ⟨-, hslot⟩ := Ledger.SlotInv.of_reach (ledger_conserving (conserving_of_patient hr))
      intro hk
      exact hch (live_ledger s ▸ hslot.keys_live hk)
    | _ => trivial

/-- One acquire creates a connection and another one waits; the creation fails. -/
def failedCreation : List Act :=
  [.call .acquire, .call .acquire, .resume 0 { addr := 1 }, .resume 1 { addr := 2 },
    .resume 0 { addr := 2, ok := false }]

end Async

namespace Sync

/-- Acquires and releases, without timeouts. -/
def Patient (s : State) : Act → Prop
  | .run _ ch => ch.expired = false
  | a => AcquireRelease s a

instance (s : State) (a : Act) : Decidable (Patient s a) :=
  match a with
  | .run _ _ => inferInstanceAs (Decidable (_ = _))
  | .call job => inferInstanceAs (Decidable (AcquireRelease s (.call job)))
  | .metrics => isTrue trivial

/-- One acquire creates a connection and another one waits; the creation fails. -/
def failedCreation : List Act :=
  [.call .acquire, .call .acquire, .run 0 {}, .run 0 { addr := 1 }, .run 1 {},
    .run 1 { addr := 2 }, .run 0 { addr := 2, creation := .failed }, .run 0 { addr := 2 }]

/-- A thread that is over, that waits for something outside the pool, or that is not notified. -/
def SyncPool.idles (p : SyncPool) (t : Nat) : PC → Bool
  | .holding _ | .creating _ _ _ _ | .ended _ => true
  | .waiting _ => !p.notified.contains t
  | _ => false

/-- A state is settled when every thread idles. -/
theorem settled_of_idles {s : State}
    (h : ∀ (t : Nat) (pc : PC), s.threads[t]? = some pc → s.pool.idles t pc) : s.Settled := by
  intro t pc ht
  have hidle := h t pc ht
  cases pc with
  | holding | creating => exact .inl rfl
  | ended => exact .inr fun _ _ ↦ rfl
  | waiting start =>
    refine .inr fun ch hch ↦ ?_
    simp only [SyncPool.idles, Bool.not_eq_true', List.contains_eq_mem,
      decide_eq_false_iff_not] at hidle
    simp [SyncPool.run, hidle, hch]
  | _ => cases hidle

end Sync

/-- Without timeouts and cancellations no caller is stranded in either pool, as long as no failed
creation gives its slot back and `metrics()` does not raise the size while somebody waits. -/
theorem freedCapacity_arrives (minConn maxConn : Nat) (timeout : Time) :
    (∀ s, (Async.system minConn maxConn).Reach
        (fun s a ↦ Async.Patient s a ∧ Async.Wasteless s a) s → s.NobodyStranded) ∧
    ∀ s, (Sync.system minConn maxConn timeout).Reach
        (fun s a ↦ Sync.Patient s a ∧ Sync.Wasteless s a ∧ Sync.AvoidsLeftovers s a) s →
      s.NobodyStranded := by
  refine ⟨fun s hs ↦ Async.nobodyStranded_of_reach (Async.keepsWakeups_of_patient hs),
    fun s hs ↦ Sync.nobodyStranded_of_reach (hs.mono fun s a hok ↦ ⟨?_, hok.2⟩)⟩
  cases a with
  | call job => exact hok.1
  | _ => trivial

/-- In both pools a failed creation strands a caller that waits for its slot. -/
theorem failedCreation_strands :
    (¬ ∀ s, (Async.system 1 1).Reach Async.Patient s → s.NobodyStranded) ∧
      ¬ ∀ s, (Sync.system 1 1 5).Reach Sync.Patient s → s.NobodyStranded := by
  constructor
  · intro h
    obtain ⟨s, hs, hend⟩ := System.exists_of_exec (Async.system 1 1) Async.Patient
      Async.failedCreation (fun s ↦ s.tasks.all s.pool.idles &&
        (s.tasks[1]?.map (·.pc)) == some (.waiting 0 0) && s.pool.store.sizer.current == 1 &&
        s.pool.store.inUse.len == 0) (by decide +kernel)
    simp only [Bool.and_eq_true, beq_iff_eq] at hend
    obtain ⟨⟨⟨hidle, hblocked⟩, hcurrent⟩, hlen⟩ := hend
    obtain ⟨task, ht, hpc⟩ := Option.map_eq_some_iff.mp hblocked
    have hle := (h s hs (Async.settled_of_idles hidle) ⟨1, task, ht, 0, 0, hpc⟩).2
    omega
  · intro h
    obtain ⟨s, hs, hend⟩ := System.exists_of_exec (Sync.system 1 1 5) Sync.Patient
      Sync.failedCreation (fun s ↦ s.threads ==
          [.ended (some .creationFailed), .waiting 0] && s.pool.notified == [] &&
        s.pool.store.sizer.current == 1 && s.pool.store.inUse.len == 0) (by decide +kernel)
    simp only [Bool.and_eq_true, beq_iff_eq] at hend
    obtain ⟨⟨⟨hthreads, hnotified⟩, hcurrent⟩, hlen⟩ := hend
    have hsettled : s.Settled := by
      apply Sync.settled_of_idles
      intro t pc ht
      rw [hthreads] at ht
      have hmem := List.mem_of_getElem? ht
      simp only [List.mem_cons, List.not_mem_nil, or_false] at hmem
      rcases hmem with rfl | rfl
      · rfl
      · simp [Sync.SyncPool.idles, hnotified]
    have hle := (h s hs hsettled ⟨1, 0, by rw [hthreads]; rfl⟩).2
    omega

/-- Runs in which one caller waits for the connection that another one holds. -/
theorem freedCapacity_arrives_waiting :
    (∃ s, (Async.system 1 1).Reach (fun s a ↦ Async.Patient s a ∧ Async.Wasteless s a) s ∧
      s.Blocked ∧ s.NobodyStranded) ∧
    ∃ s, (Sync.system 1 1 5).Reach
        (fun s a ↦ Sync.Patient s a ∧ Sync.Wasteless s a ∧ Sync.AvoidsLeftovers s a) s ∧
      s.Blocked ∧ s.NobodyStranded := by
  obtain ⟨s, hs, hend⟩ := System.exists_of_exec (Async.system 1 1)
    (fun s a ↦ Async.Patient s a ∧ Async.Wasteless s a) Async.twoAcquires
    (fun s ↦ (s.tasks[1]?.map (·.pc)) == some (.waiting 0 0)) (by decide +kernel)
  obtain ⟨u, hu, hend'⟩ := System.exists_of_exec (Sync.system 1 1 5)
    (fun s a ↦ Sync.Patient s a ∧ Sync.Wasteless s a ∧ Sync.AvoidsLeftovers s a)
    Sync.twoAcquires (fun s ↦ s.threads[1]? == some (.waiting 0)) (by decide +kernel)
  obtain ⟨task, ht, hpc⟩ := Option.map_eq_some_iff.mp (beq_iff_eq.mp hend)
  exact ⟨⟨s, hs, ⟨1, task, ht, 0, 0, hpc⟩, (freedCapacity_arrives 1 1 5).1 s hs⟩,
    ⟨u, hu, ⟨1, 0, beq_iff_eq.mp hend'⟩, (freedCapacity_arrives 1 1 5).2 u hu⟩⟩

end SalesData.Pool

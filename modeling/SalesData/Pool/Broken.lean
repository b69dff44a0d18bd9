import SalesData.Pool.Guarantees

/-!
# Broken connections

A connection that its holder gives back as a broken one is closed and not offered again
(`core/db/pool/async_pool.py:191–211`, `core/db/pool/sync_pool.py:150–174`): until the pool's
lock is free its holder keeps it, and from then on it is nobody's, as long as no new object lives
at its address.
-/

namespace SalesData.Pool.Async

open Base

namespace AsyncPool

private theorem releaseBody_broken {p p' : AsyncPool} {c : Addr} {ch : Choice} {pc' : PC}
    (h : p.releaseBody c true ch = (p', pc')) :
    pc'.role = .idle ∧ p'.store.idle = p.store.idle := by
  obtain ⟨hstore, hrole⟩ := p.releaseBody_store c true ch
  rw [h] at hstore hrole
  refine ⟨hrole, ?_⟩
  rw [hstore]
  exact Store.idle_release_broken _ c

private theorem run_broken {p p' : AsyncPool} {t : Nat} {ch : Choice} {task : Task} {pc' : PC}
    {c : Addr} (h : p.run t ch task = some (p', pc'))
    (hpc : task.pc = .holding c ∧ ch.broken = true ∨ task.pc = .lockRelease c true false) :
    pc' = .lockRelease c true false ∨ pc'.role = .idle ∧ p'.store.idle = p.store.idle := by
  unfold run at h
  split at h
  · right
    obtain ⟨rfl, rfl⟩ := Prod.mk.inj (Option.some.inj h)
    rcases hpc with ⟨hpc, -⟩ | hpc
    · rw [hpc]
      exact ⟨rfl, rfl⟩
    · rw [hpc]
      exact ⟨rfl, rfl⟩
  · rcases hpc with ⟨hpc, hbroken⟩ | hpc
    · rw [hpc] at h
      simp only [resume, arrive, hbroken, Option.some.injEq] at h
      split at h
      · have hlet := releaseBody_broken (p := { p with lock := p.lock.take }) h
        exact .inr hlet
      · exact .inl (Prod.mk.inj h).2.symm
    · rw [hpc] at h
      simp only [resume] at h
      split at h
      · have hlet := releaseBody_broken (p := { p with lock := (p.lock.leave t).take })
          (Option.some.inj h)
        exact .inr hlet
      · cases h

end AsyncPool

/-- A connection that is given back as a broken one is still on its way, or nobody's. -/
theorem unowned_of_broken {minConn maxConn : Nat} {s s' : State} {t : Nat} {ch : Choice}
    {task : Task} {c : Addr} (hr : (system minConn maxConn).Reach OwnReleases s)
    (h : step s (.resume t ch) = some s') (ht : s.tasks[t]? = some task)
    (hpc : task.pc = .holding c ∧ ch.broken = true ∨ task.pc = .lockRelease c true false) :
    (∃ task', s'.tasks[t]? = some task' ∧ task'.pc = .lockRelease c true false) ∨
      s'.ledger.ownerCount c = 0 := by
  obtain ⟨before, p', pc', hbefore, -, hrun, rfl⟩ := step_resume h
  obtain rfl := Option.some.inj (ht.symm.trans hbefore)
  rcases AsyncPool.run_broken hrun hpc with rfl | ⟨hrole, hidle⟩
  · exact .inl ⟨_, getElem?_set_of_some ht _, rfl⟩
  · right
    have hhold : s.ledger.roles[t]? = some (.holding c) := by
      apply State.inHand_iff.mp
      refine ⟨task, ht, ?_⟩
      rcases hpc with ⟨hpc, -⟩ | hpc
      · rw [hpc]
        rfl
      · rw [hpc]
        rfl
    have hledger : State.ledger ⟨p', s.tasks.set t ⟨pc', false, false⟩⟩ =
        ⟨p'.store, s.ledger.roles.set t .idle⟩ := by
      simp [State.ledger, List.map_set, hrole]
    rw [hledger]
    exact (Ledger.OwnershipInv.of_reach (ledger_ownReleases hr)).unowned_of_drop hhold hidle

/-- The connection is nobody's, or its holder is about to let go of it for good. -/
def State.LetGo (s : State) (c : Addr) : Prop :=
  (∃ (t : Nat) (task : Task), s.tasks[t]? = some task ∧ task.pc = .lockRelease c true false) ∨
    s.ledger.ownerCount c = 0

namespace State.LetGo

variable {minConn maxConn : Nat} {s s' : State} {c : Addr}

/-- A connection that was let go of is not offered. -/
theorem not_idle (h : s.LetGo c) (hr : (system minConn maxConn).Reach OwnReleases s) :
    c ∉ s.pool.store.idle := by
  rcases h with ⟨t, task, ht, hpc⟩ | hz
  · have hown := Ledger.OwnershipInv.of_reach (ledger_ownReleases hr)
    refine hown.not_idle_of_holding (t := t) (State.inHand_iff.mp ⟨task, ht, ?_⟩)
    rw [hpc]
    rfl
  · intro hi
    have hpos : 0 < s.ledger.store.idle.count c := List.count_pos_iff.mpr hi
    rw [Ledger.ownerCount] at hz
    omega

/-- A connection that was let go of is in nobody else's hand. -/
theorem not_holding (h : s.LetGo c) (hr : (system minConn maxConn).Reach OwnReleases s) {t : Nat}
    {task : Task} (ht : s.tasks[t]? = some task) : task.pc ≠ .holding c := by
  intro hpc
  have hin : s.InHand t c := ⟨task, ht, by rw [hpc]; rfl⟩
  rcases h with ⟨v, other, hv, hother⟩ | hz
  · have hown := Ledger.OwnershipInv.of_reach (ledger_ownReleases hr)
    have hin' : s.InHand v c := ⟨other, hv, by rw [hother]; rfl⟩
    obtain rfl := hown.holder_unique (State.inHand_iff.mp hin) (State.inHand_iff.mp hin')
    obtain rfl := Option.some.inj (ht.symm.trans hv)
    rw [hpc] at hother
    cases hother
  · exact Ledger.not_holding hz t (State.inHand_iff.mp hin)

/-- Tasks only note something, or are added without anything in hand. -/
theorem of_tasks (h : s.LetGo c)
    (htasks : ∀ (t : Nat) (task : Task), s.tasks[t]? = some task →
      ∃ task', s'.tasks[t]? = some task' ∧ task'.pc = task.pc)
    (howner : s'.ledger.ownerCount c = s.ledger.ownerCount c) : s'.LetGo c := by
  rcases h with ⟨t, task, ht, hpc⟩ | hz
  · obtain ⟨task', ht', hpc'⟩ := htasks t task ht
    exact .inl ⟨t, task', ht', hpc'.trans hpc⟩
  · exact .inr (howner.trans hz)

/-- A new call has nothing in hand that the pool knows of. -/
theorem call {job : Job} (h : s.LetGo c) (hs : step s (.call job) = some s') : s'.LetGo c := by
  obtain ⟨-, rfl⟩ := step_call hs
  refine h.of_tasks (fun t task ht ↦ ⟨task, ?_, rfl⟩) ?_
  · exact (List.getElem?_append_left (List.getElem?_eq_some_iff.mp ht).1).trans ht
  · cases job <;> simp [Ledger.ownerCount, State.ledger, PC.role, Role.owns]

/-- Nothing changes when one task only notes something. -/
theorem note (h : s.LetGo c) {t : Nat} {task task' : Task} (ht : s.tasks[t]? = some task)
    (hpc : task'.pc = task.pc) : State.LetGo { s with tasks := s.tasks.set t task' } c := by
  apply h.of_tasks
  · intro v other hv
    by_cases hvt : t = v
    · subst hvt
      obtain rfl := Option.some.inj (hv.symm.trans ht)
      exact ⟨_, getElem?_set_of_some ht _, hpc⟩
    · exact ⟨other, (List.getElem?_set_ne hvt).trans hv, rfl⟩
  · simp only [Ledger.ownerCount, State.ledger]
    rw [map_role_set ht hpc]

/-- A cancellation is only noted. -/
theorem cancel (h : s.LetGo c) {t : Nat} (hs : step s (.cancel t) = some s') : s'.LetGo c := by
  obtain ⟨task, ht, -, rfl⟩ := step_cancel hs
  exact h.note ht rfl

/-- A timer only sets its task's flag. -/
theorem timer (h : s.LetGo c) {t : Nat} (hs : step s (.timer t) = some s') : s'.LetGo c := by
  obtain ⟨start, w, cancelled, timedOut, ht, rfl⟩ := step_timer hs
  exact h.note ht rfl

/-- A turn of any task leaves it so, unless an object is created at the address. -/
theorem resume (h : s.LetGo c) (hr : (system minConn maxConn).Reach OwnReleases s) {t : Nat}
    {ch : Choice} (hs : step s (.resume t ch) = some s') (hne : c ≠ ch.addr) : s'.LetGo c := by
  rcases h with ⟨v, task, hv, hpc⟩ | hz
  · by_cases hvt : t = v
    · subst hvt
      rcases unowned_of_broken hr hs hv (.inr hpc) with ⟨task', ht', hpc'⟩ | hz
      · exact .inl ⟨t, task', ht', hpc'⟩
      · exact .inr hz
    · obtain ⟨before, p', pc', -, -, -, rfl⟩ := step_resume hs
      exact .inl ⟨v, task, (List.getElem?_set_ne hvt).trans hv, hpc⟩
  · exact .inr (unowned_of_resume hr hs hne hz)

/-- Whoever gives the connection back as a broken one lets go of it. -/
theorem of_broken (hr : (system minConn maxConn).Reach OwnReleases s) {t : Nat} {ch : Choice}
    (hs : step s (.resume t ch) = some s') {task : Task} (ht : s.tasks[t]? = some task)
    (hpc : task.pc = .holding c) (hbroken : ch.broken = true) : s'.LetGo c := by
  rcases unowned_of_broken hr hs ht (.inl ⟨hpc, hbroken⟩) with ⟨task', ht', hpc'⟩ | hz
  · exact .inl ⟨t, task', ht', hpc'⟩
  · exact .inr hz

end State.LetGo

/-- No object is created at the address `c`. -/
def Act.Avoids (c : Addr) : Act → Prop
  | .resume _ ch => c ≠ ch.addr
  | _ => True

/-- From here on `c` is neither idle nor handed out, whatever happens to the pool, as long as its
callers release their own connections and no new object lives at the address `c`. -/
def State.Retired (minConn maxConn : Nat) (s : State) (c : Addr) : Prop :=
  ∀ s', ((system minConn maxConn).startAt s).Reach (fun s a ↦ OwnReleases s a ∧ a.Avoids c) s' →
    c ∉ s'.pool.store.idle ∧ ∀ task ∈ s'.tasks, task.pc ≠ .holding c

/-- No step takes back a connection that was let go of. -/
theorem State.LetGo.step {minConn maxConn : Nat} {s s' : State} {c : Addr} {a : Act}
    (h : s.LetGo c) (hr : (system minConn maxConn).Reach OwnReleases s) (havoids : a.Avoids c)
    (hs : Async.step s a = some s') : s'.LetGo c := by
  cases a with
  | call job => exact h.call hs
  | resume t ch => exact h.resume hr hs havoids
  | cancel t => exact h.cancel hs
  | timer t => exact h.timer hs
  | metrics =>
    obtain rfl : { s with pool := s.pool.metrics } = s' := Option.some.inj hs
    exact h.of_tasks (fun t task ht ↦ ⟨task, ht, rfl⟩) rfl

/-- A connection that its holder gives back as a broken one is never handed out again. -/
theorem retired_of_broken {minConn maxConn : Nat} {s s' : State} {t : Nat} {ch : Choice}
    {task : Task} {c : Addr} (hr : (system minConn maxConn).Reach OwnReleases s)
    (ht : s.tasks[t]? = some task) (hpc : task.pc = .holding c) (hbroken : ch.broken = true)
    (hs : step s (.resume t ch) = some s') : s'.Retired minConn maxConn c := by
  intro s₂ hrun
  have hkept : (system minConn maxConn).Reach OwnReleases s₂ ∧ s₂.LetGo c := by
    refine hrun.invariant
      (P := fun s ↦ (system minConn maxConn).Reach OwnReleases s ∧ s.LetGo c)
      ⟨hr.step (a := .resume t ch) trivial hs, State.LetGo.of_broken hr hs ht hpc hbroken⟩ ?_
    rintro s₁ a s₁' ⟨hr₁, hgone⟩ ⟨hown, havoids⟩ hs₁
    exact ⟨hr₁.step hown hs₁, hgone.step hr₁ havoids hs₁⟩
  obtain ⟨hr₂, hgone⟩ := hkept
  refine ⟨hgone.not_idle hr₂, fun other hmem ↦ ?_⟩
  obtain ⟨v, hv⟩ := List.getElem?_of_mem hmem
  exact hgone.not_holding hr₂ hv

end SalesData.Pool.Async

namespace SalesData.Pool.Sync

open Base

/-- No object is created at the address `c`. -/
def Act.Avoids (c : Addr) : Act → Prop
  | .run _ ch => c ≠ ch.addr
  | _ => True

/-- From here on `c` is neither idle nor handed out, whatever happens to the pool, as long as its
callers release their own connections and no new object lives at the address `c`. -/
def State.Retired (minConn maxConn : Nat) (timeout : Time) (s : State) (c : Addr) : Prop :=
  ∀ s', ((system minConn maxConn timeout).startAt s).Reach
      (fun s a ↦ OwnReleases s a ∧ a.Avoids c) s' →
    c ∉ s'.pool.store.idle ∧ ∀ pc ∈ s'.threads, pc ≠ .holding c

/-- An address that nobody owns stays unowned, unless an object is created there. -/
theorem unowned_of_step {minConn maxConn : Nat} {timeout : Time} {s s' : State} {a : Act}
    {c : Addr} (hr : (system minConn maxConn timeout).Reach OwnReleases s) (hown : OwnReleases s a)
    (havoids : a.Avoids c) (hs : step s a = some s') (hz : s.ledger.ownerCount c = 0) :
    s'.ledger.ownerCount c = 0 := by
  cases a with
  | call job =>
    obtain ⟨-, rfl⟩ := step_call hs
    cases job <;> simpa [Ledger.ownerCount, State.ledger, PC.role, Role.owns] using hz
  | run t ch =>
    obtain ⟨pc, p', pc', ht, hch, hrun, rfl⟩ := step_run hs
    have hrole : s.ledger.roles[t]? = some pc.role := by simp [State.ledger, ht]
    have hstray := origin_of_reach (· ≠ .stray) hr (by decide)
      (fun _ job hj ↦ by cases job <;> simp_all [PC.origin, OwnReleases])
      pc (List.mem_of_getElem? ht)
    have hfresh : ch.addr ∉ c :: s.ledger.live := by
      rw [live_ledger, List.mem_cons, not_or]
      exact ⟨Ne.symm havoids, hch⟩
    have he : Ledger.Effect (· ∈ pc.kinds) _ _ _ _ _ :=
      SyncPool.run_effect hrun hfresh fun _ hκ ↦ hκ
    have hset := he.unowned (ownReleases_of_mem_kinds hstray) hrole (List.mem_cons_self ..) hz
    simpa [State.ledger, List.map_set] using hset
  | metrics =>
    obtain rfl : { s with pool := s.pool.metrics } = s' := Option.some.inj hs
    exact hz

/-- A connection that its holder gives back as a broken one is nobody's. -/
theorem unowned_of_broken {minConn maxConn : Nat} {timeout : Time} {s s' : State} {t : Nat}
    {ch : Choice} {c : Addr} (hr : (system minConn maxConn timeout).Reach OwnReleases s)
    (ht : s.threads[t]? = some (.holding c)) (hbroken : ch.broken = true)
    (hs : step s (.run t ch) = some s') : s'.ledger.ownerCount c = 0 := by
  obtain ⟨pc, p', pc', hpc, -, hrun, rfl⟩ := step_run hs
  obtain rfl := Option.some.inj (hpc.symm.trans ht)
  obtain ⟨rfl, rfl⟩ := Prod.mk.inj (Option.some.inj hrun)
  have hrole : s.ledger.roles[t]? = some (.holding c) := by
    simp [State.ledger, ht, PC.role]
  have hidle : (s.pool.releaseBody c ch.broken).store.idle = s.ledger.store.idle := by
    rw [SyncPool.store_releaseBody, hbroken]
    exact Store.idle_release_broken _ c
  have hdrop := (Ledger.OwnershipInv.of_reach (ledger_ownReleases hr)).unowned_of_drop hrole hidle
  simpa [State.ledger, List.map_set, PC.role] using hdrop

/-- A connection that its holder gives back as a broken one is never handed out again. -/
theorem retired_of_broken {minConn maxConn : Nat} {timeout : Time} {s s' : State} {t : Nat}
    {ch : Choice} {c : Addr} (hr : (system minConn maxConn timeout).Reach OwnReleases s)
    (ht : s.threads[t]? = some (.holding c)) (hbroken : ch.broken = true)
    (hs : step s (.run t ch) = some s') : s'.Retired minConn maxConn timeout c := by
  intro s₂ hrun
  have hkept : (system minConn maxConn timeout).Reach OwnReleases s₂ ∧
      s₂.ledger.ownerCount c = 0 := by
    refine hrun.invariant
      (P := fun s ↦ (system minConn maxConn timeout).Reach OwnReleases s ∧
        s.ledger.ownerCount c = 0)
      ⟨hr.step (a := .run t ch) trivial hs, unowned_of_broken hr ht hbroken hs⟩ ?_
    rintro s₁ a s₁' ⟨hr₁, hz⟩ ⟨hown, havoids⟩ hs₁
    exact ⟨hr₁.step hown hs₁, unowned_of_step hr₁ hown havoids hs₁ hz⟩
  obtain ⟨-, hz⟩ := hkept
  constructor
  · intro hi
    have hpos : 0 < s₂.ledger.store.idle.count c := List.count_pos_iff.mpr hi
    rw [Ledger.ownerCount] at hz
    omega
  · rintro pc hmem rfl
    obtain ⟨v, hv⟩ := List.getElem?_of_mem hmem
    refine Ledger.not_holding hz v ?_
    simp [State.ledger, hv, PC.role]

end SalesData.Pool.Sync

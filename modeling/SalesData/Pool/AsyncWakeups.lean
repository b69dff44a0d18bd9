import SalesData.Pool.AsyncLock
import SalesData.Pool.Conservation
import SalesData.Pool.Records

/-!
# Wakeups of the asynchronous pool

`release` sets the event of the oldest waiter, and that waiter takes the connection only when it
runs next. Between the two the wakeup is under way: in an event that is set, in a task that was
woken and queues for the lock, or in a release that still closes its connection. The invariant
says that, while somebody waits, enough wakeups are under way for everything the pool could
spare; a step keeps it unless it drops a wakeup or frees capacity without one.
-/

namespace SalesData.Pool.Async

open Base

namespace PC

/-- The event that a task awaits, or still has to withdraw. -/
def events : PC → List Nat
  | waiting _ w | lockTimeout _ w | lockCancel w => [w]
  | _ => []

/-- Wakeups that a task has in hand: it was woken and is going to look, or it is going to wake
somebody. -/
def wakeups : PC → Nat
  | loop _ true | closing _ => 1
  | _ => 0

end PC

/-- How often an event is set or waited for. -/
def AsyncPool.eventCount (p : AsyncPool) (w : Nat) : Nat :=
  p.waiters.count w + p.signalled.count w

/-- Every event belongs to one task, and while events are waited for, enough wakeups are under
way. -/
structure WakeInv (s : State) : Prop where
  covered : s.pool.waiters = [] ∨
    s.pool.store.spare ≤ s.pool.signalled.length + tally (fun task ↦ task.pc.wakeups) s.tasks
  events : ∀ w, s.pool.eventCount w = tally (fun task ↦ task.pc.events.count w) s.tasks
  once : ∀ w, s.pool.eventCount w ≤ 1
  fresh : ∀ w, s.pool.stats.totalWaitersEver ≤ w → s.pool.eventCount w = 0

/-- A stretch that leaves no wakeup undelivered. -/
structure WakeStep (p : AsyncPool) (pc : PC) (p' : AsyncPool) (pc' : PC) : Prop where
  covered : p'.waiters = [] ∨ p'.store.spare = 0 ∨ p.waiters ≠ [] ∧
    p'.store.spare + p.signalled.length + pc.wakeups ≤
      p.store.spare + p'.signalled.length + pc'.wakeups
  events : ∀ w, p'.eventCount w + pc.events.count w = p.eventCount w + pc'.events.count w
  total : p.stats.totalWaitersEver ≤ p'.stats.totalWaitersEver
  once : ∀ w, p'.eventCount w ≤ p.eventCount w ∨
    p.stats.totalWaitersEver ≤ w ∧ w < p'.stats.totalWaitersEver ∧ p'.eventCount w ≤ 1

/-- A stretch after which all wakeups are where they were, or one step further. -/
structure WakeSame (p : AsyncPool) (pc : PC) (p' : AsyncPool) (pc' : PC) : Prop where
  waiters : p'.waiters = p.waiters
  spare : p'.store.spare = p.store.spare
  carried : p'.signalled.length + pc'.wakeups = p.signalled.length + pc.wakeups
  events : ∀ w, p'.eventCount w + pc.events.count w = p.eventCount w + pc'.events.count w
  total : p'.stats.totalWaitersEver = p.stats.totalWaitersEver
  once : ∀ w, p'.eventCount w ≤ p.eventCount w

namespace WakeSame

variable {p p₁ p' : AsyncPool} {pc q pc' : PC}

/-- A stretch of a task that has no part in waking. -/
theorem of_idle (hw : p'.waiters = p.waiters) (hsig : p'.signalled = p.signalled)
    (hspare : p'.store.spare = p.store.spare)
    (htotal : p'.stats.totalWaitersEver = p.stats.totalWaitersEver)
    (hwake : pc'.wakeups = pc.wakeups) (hev : pc'.events = pc.events) : WakeSame p pc p' pc' where
  waiters := hw
  spare := hspare
  carried := by rw [hsig, hwake]
  events := fun w ↦ by rw [AsyncPool.eventCount, AsyncPool.eventCount, hw, hsig, hev]
  total := htotal
  once := fun w ↦ by rw [AsyncPool.eventCount, AsyncPool.eventCount, hw, hsig]

/-- The lock has no part in waking. -/
theorem of_lock (h : WakeSame p pc p' pc') (lock : Lock) :
    WakeSame p pc { p' with lock := lock } pc' :=
  ⟨h.waiters, h.spare, h.carried, h.events, h.total, h.once⟩

/-- A stretch that only moves wakeups leaves none undelivered. -/
theorem step (h : WakeSame p pc p' pc') : WakeStep p pc p' pc' where
  covered := by
    by_cases hw : p.waiters = []
    · exact .inl (h.waiters.trans hw)
    · have := h.carried
      have := h.spare
      exact .inr (.inr ⟨hw, by omega⟩)
  events := h.events
  total := h.total.ge
  once := fun w ↦ .inl (h.once w)

/-- Moving wakeups first changes nothing about the stretch that follows. -/
theorem trans (h : WakeSame p pc p₁ q) (h' : WakeStep p₁ q p' pc') : WakeStep p pc p' pc' where
  covered := by
    rcases h'.covered with hw | hz | ⟨hw, hle⟩
    · exact .inl hw
    · exact .inr (.inl hz)
    · have := h.carried
      have := h.spare
      exact .inr (.inr ⟨h.waiters ▸ hw, by omega⟩)
  events := fun w ↦ by
    have := h.events w
    have := h'.events w
    omega
  total := h.total ▸ h'.total
  once := fun w ↦ by
    have := h.once w
    rw [← h.total]
    rcases h'.once w with hle | hnew
    · exact .inl (by omega)
    · exact .inr hnew

end WakeSame

/-- The stretch of `task` drops a wakeup, or frees capacity without a wakeup. -/
def AsyncPool.wasteful (p : AsyncPool) (t : Nat) (ch : Choice) (task : Task) : Bool :=
  match task.pc with
  | .waiting _ w => (task.cancelled || task.timedOut) && p.lock.free && p.signalled.contains w
  | .lockTimeout _ w =>
    (!task.cancelled || (p.lock.abandon t).free) && p.signalled.contains w
  | .lockCancel w => p.signalled.contains w
  | .loop _ again => task.cancelled && again
  | .closing _ => task.cancelled
  | .creating _ _ _ => (task.cancelled || !ch.ok) && p.lock.free
  | .lockUndo _ _ => !task.cancelled
  | _ => false

/-- The stretch of `task` ends the task and leaves its event in the queue. -/
def AsyncPool.strands (p : AsyncPool) (task : Task) : Bool :=
  match task.pc with
  | .lockCancel w => task.cancelled && p.waiters.contains w
  | _ => false

namespace AsyncPool

/-- What the body under the lock may waste. -/
def wastefulBody (p : AsyncPool) : PC → Bool
  | .lockTimeout _ w | .lockCancel w => p.signalled.contains w
  | .lockUndo _ _ => true
  | _ => false

@[simp] private theorem waiters_unlock (p : AsyncPool) : p.unlock.waiters = p.waiters := rfl

@[simp] private theorem signalled_unlock (p : AsyncPool) : p.unlock.signalled = p.signalled := rfl

/-- Waking the oldest waiter puts a wakeup under way, or there is nobody to wake. -/
theorem wakeOldest_wake {p p₀ : AsyncPool} {pc : PC} (hw : p.waiters = p₀.waiters)
    (hsig : p.signalled = p₀.signalled) (hstats : p.stats.totalWaitersEver =
      p₀.stats.totalWaitersEver) (hev : pc.events = [])
    (hspare : p.store.spare + pc.wakeups ≤ p₀.store.spare + 1) :
    WakeStep p₀ pc p.wakeOldest.unlock (.ended none) := by
  have hcount (w : Nat) : p.wakeOldest.eventCount w = p₀.eventCount w := by
    rw [eventCount, eventCount, wakeOldest]
    split
    · rw [hw, hsig]
    · next v vs hv =>
      show vs.count w + (v :: p.signalled).count w = _
      rw [← hw, ← hsig, hv, List.count_cons, List.count_cons]
      omega
  have htotal : p.wakeOldest.stats = p.stats := by
    rw [wakeOldest]
    split <;> rfl
  have hstore : p.wakeOldest.store = p.store := by
    rw [wakeOldest]
    split <;> rfl
  refine ⟨?_, fun w ↦ ?_, ?_, fun w ↦ .inl ?_⟩
  · by_cases hv : p.waiters = []
    · left
      rw [waiters_unlock, wakeOldest, hv]
      exact hv
    · right
      right
      refine ⟨hw ▸ hv, ?_⟩
      have hlen : p.wakeOldest.signalled.length = p₀.signalled.length + 1 := by
        rw [wakeOldest, ← hsig]
        split
        · next hnil => exact absurd hnil hv
        · rfl
      have hs : p.wakeOldest.unlock.store.spare = p.store.spare := by
        rw [unlock]
        dsimp only
        rw [hstore]
      have hz : (PC.ended none).wakeups = 0 := rfl
      rw [signalled_unlock, hlen, hs, hz]
      omega
  · have := hcount w
    rw [hev]
    exact congrArg (· + 0) this
  · show p₀.stats.totalWaitersEver ≤ p.wakeOldest.stats.totalWaitersEver
    rw [htotal, hstats]
  · exact (hcount w).le

/-- Withdrawing an event that is not set wastes nothing. -/
theorem withdraw_wake {p p' : AsyncPool} {pc pc' : PC} {w : Nat} (hpc : pc.events = [w])
    (hwake : pc.wakeups = 0) (hpc' : pc'.events = []) (hwake' : pc'.wakeups = 0)
    (hw' : p'.waiters = p.waiters.erase w) (hsig' : p'.signalled = p.signalled.erase w)
    (hstore : p'.store = p.store)
    (htotal : p'.stats.totalWaitersEver = p.stats.totalWaitersEver)
    (hone : p.eventCount w = 1) (hkeep : p.waiters = [] ∨ w ∉ p.signalled) :
    WakeStep p pc p' pc' := by
  have hcount (v : Nat) : p'.eventCount v + [w].count v = p.eventCount v := by
    rw [eventCount, eventCount, hw', hsig', List.count_erase, List.count_erase, List.count_cons,
      List.count_nil]
    rw [eventCount] at hone
    by_cases hv : w = v
    · subst hv
      simp only [beq_self_eq_true, if_true]
      omega
    · simp [hv]
  refine ⟨?_, fun v ↦ ?_, htotal.ge, fun v ↦ .inl ?_⟩
  · rcases hkeep with hnil | hns
    · left
      rw [hw', hnil]
      rfl
    · by_cases hnil : p.waiters = []
      · left
        rw [hw', hnil]
        rfl
      · right
        right
        refine ⟨hnil, ?_⟩
        rw [hstore, hsig', List.erase_of_not_mem hns]
        omega
  · rw [hpc, hpc', List.count_nil]
    have := hcount v
    omega
  · have := hcount v
    omega

variable {l : Ledger} {t : Nat}

/-- One pass of the loop uses up what it was woken for, or finds nothing to spare. -/
theorem loopBody_wake (p : AsyncPool) (start : Time) (again : Bool) (ch : Choice)
    (htidy : l.TidyInv) (hs : p.store = l.store) (hkey : ch.addr ∉ p.store.inUse.keys)
    (hfresh : ∀ w, p.stats.totalWaitersEver ≤ w → p.eventCount w = 0) :
    WakeStep p (.loop start again) (p.loopBody start ch).1 (p.loopBody start ch).2 := by
  have hle : (PC.loop start again).wakeups ≤ 1 := by cases again <;> simp [PC.wakeups]
  have huse {s : Store} (h : s.spare + 1 = p.store.spare) (stats : Stats) (pc' : PC)
      (hstats : stats.totalWaitersEver = p.stats.totalWaitersEver) (hev : pc'.events = [])
      (hwake : pc'.wakeups = 0) : WakeStep p (.loop start again)
        { p with store := s, stats := stats }.unlock pc' := by
    refine ⟨?_, fun w ↦ by rw [hev]; rfl, hstats.ge, fun w ↦ .inl (Nat.le_refl _)⟩
    by_cases hw : p.waiters = []
    · exact .inl hw
    · refine .inr (.inr ⟨hw, ?_⟩)
      show s.spare + p.signalled.length + _ ≤ p.store.spare + p.signalled.length + _
      omega
  unfold loopBody
  split
  · next s c h =>
    rw [hs] at h
    exact huse (hs ▸ htidy.spare_hit h) _ _ rfl rfl rfl
  · next s h => exact huse (Store.spare_reserved h hkey) _ _ rfl rfl rfl
  · next s h =>
    have hnew := hfresh p.stats.totalWaitersEver (Nat.le_refl _)
    have hcount (w : Nat) : (p.waiters ++ [p.stats.totalWaitersEver]).count w +
        p.signalled.count w = p.eventCount w + [p.stats.totalWaitersEver].count w := by
      rw [List.count_append, eventCount]
      omega
    refine ⟨.inr (.inl (Store.spare_full h)), fun w ↦ ?_, Nat.le_succ _, fun w ↦ ?_⟩
    · exact (Nat.add_zero _).trans (hcount w)
    · by_cases hw : w = p.stats.totalWaitersEver
      · right
        rw [hw]
        refine ⟨Nat.le_refl _, Nat.lt_succ_self _, ?_⟩
        have := hcount p.stats.totalWaitersEver
        rw [List.count_singleton_self, hnew] at this
        exact this.le
      · left
        have := hcount w
        rw [List.count_singleton, if_neg (by simpa using Ne.symm hw)] at this
        exact this.le

/-- A release of a held connection wakes a waiter, now or after closing the connection. -/
theorem releaseBody_wake (p : AsyncPool) (c : Addr) (broken : Bool) (ch : Choice)
    (htidy : l.TidyInv) (hs : p.store = l.store) (ht : l.roles[t]? = some (.holding c)) :
    WakeStep p (.lockRelease c broken false) (p.releaseBody c broken ch).1
      (p.releaseBody c broken ch).2 := by
  have hspare := htidy.spare_release broken ht
  have hfound := (htidy.len_release broken ht).1
  rw [← hs] at hspare hfound
  unfold releaseBody
  split
  · next s h =>
    rw [h] at hfound
    cases hfound
  · next s h =>
    rw [h] at hspare
    have htotal : (if broken then p.stats.recordBroken else p.stats).totalWaitersEver =
        p.stats.totalWaitersEver := by
      split <;> rfl
    dsimp only
    split
    · refine ⟨?_, fun w ↦ rfl, htotal.ge, fun w ↦ .inl (Nat.le_refl _)⟩
      by_cases hw : p.waiters = []
      · exact .inl hw
      · refine .inr (.inr ⟨hw, ?_⟩)
        show s.spare + p.signalled.length + 0 ≤ p.store.spare + p.signalled.length + 1
        dsimp only at hspare
        omega
    · exact wakeOldest_wake rfl rfl htotal rfl hspare

/-- The body of `async with self._lock` leaves no wakeup undelivered, unless it withdraws an
event that is set or gives a reserved slot back. -/
theorem underLock_wake (p : AsyncPool) (ch : Choice) {q : PC} (htidy : l.TidyInv)
    (hs : p.store = l.store) (hrole : l.roles[t]? = some q.role)
    (hkey : ch.addr ∉ p.store.inUse.keys)
    (hfresh : ∀ w, p.stats.totalWaitersEver ≤ w → p.eventCount w = 0)
    (hone : ∀ w ∈ q.events, p.eventCount w = 1) (horigin : q.origin = .acquire)
    (hkeep : p.waiters = [] ∨ p.wastefulBody q = false) :
    WakeStep p q (p.underLock ch q).1 (p.underLock ch q).2 := by
  cases q with
  | loop start again => exact p.loopBody_wake start again ch htidy hs hkey hfresh
  | lockTimeout start w | lockCancel w =>
    refine withdraw_wake (w := w) rfl rfl rfl rfl rfl rfl rfl rfl
      (hone w (List.mem_singleton.mpr rfl)) (hkeep.imp_right fun hns ↦ ?_)
    simpa [wastefulBody] using hns
  | lockUndo k err =>
    refine ⟨.inl (hkeep.resolve_right ?_), fun w ↦ rfl, Nat.le_refl _, fun w ↦
      .inl (Nat.le_refl _)⟩
    exact Bool.noConfusion
  | lockPublish start elapsed k c =>
    refine WakeSame.step (.of_idle rfl rfl ?_ rfl rfl rfl)
    show (p.store.publish ch.now k c).spare = p.store.spare
    rw [hs]
    exact htidy.spare_publish hrole
  | lockRelease c broken stray =>
    cases stray with
    | false => exact p.releaseBody_wake c broken ch htidy hs hrole
    | true => cases horigin
  | lockCloseAll | lockWarmup => cases horigin
  | _ => exact WakeSame.step (.of_idle rfl rfl rfl rfl rfl rfl)

/-- `async with self._lock`, after a stretch that only moved wakeups. -/
theorem arrive_wake {p₀ : AsyncPool} {pc : PC} (p : AsyncPool) (ch : Choice) {q : PC}
    (hsame : WakeSame p₀ pc p q) (htidy : l.TidyInv)
    (hs : p.store = l.store) (hrole : l.roles[t]? = some q.role)
    (hkey : ch.addr ∉ p.store.inUse.keys)
    (hfresh : ∀ w, p.stats.totalWaitersEver ≤ w → p.eventCount w = 0)
    (hone : ∀ w ∈ q.events, p.eventCount w = 1) (horigin : q.origin = .acquire)
    (hkeep : p.waiters = [] ∨ (p.lock.free && p.wastefulBody q) = false) :
    WakeStep p₀ pc (p.arrive t ch q).1 (p.arrive t ch q).2 := by
  unfold arrive
  split
  · next hfree =>
    have hbody := underLock_wake { p with lock := p.lock.take } ch htidy hs hrole hkey hfresh
      hone horigin (hkeep.imp_right fun hns ↦ by simpa [hfree, wastefulBody] using hns)
    exact (hsame.of_lock _).trans hbody
  · exact (hsame.of_lock _).step

/-- What is known of a task before it runs: it is in an acquire, or its call is nearly over, and
what it has in hand is accounted for. -/
structure WakePre (l : Ledger) (p : AsyncPool) (t : Nat) (ch : Choice) (pc : PC) : Prop where
  owner : l.OwnershipInv
  tidy : l.TidyInv
  store : p.store = l.store
  role : l.roles[t]? = some pc.role
  addr : ch.addr ∉ l.occupied
  fresh : ∀ w, p.stats.totalWaitersEver ≤ w → p.eventCount w = 0
  once : ∀ w ∈ pc.events, p.eventCount w = 1
  origin : pc.origin = .acquire ∨ pc.origin = .over

namespace WakePre

variable {p : AsyncPool} {ch : Choice} {pc : PC}

/-- A new object avoids the keys of `_in_use`. -/
theorem key (h : WakePre l p t ch pc) : ch.addr ∉ p.store.inUse.keys := by
  rw [h.store]
  exact fun hk ↦ h.addr (List.mem_append_right _ hk)

/-- Entering or queueing with the same role, and with the same events or none. -/
theorem arrive (h : WakePre l p t ch pc) {p₁ : AsyncPool} {q : PC} (hsame : WakeSame p pc p₁ q)
    (hs : p₁.store = p.store) (hrole : q.role = pc.role)
    (hev : q.events = pc.events ∨ q.events = []) (horigin : q.origin = .acquire)
    (hkeep : p.waiters = [] ∨ (p₁.lock.free && p₁.wastefulBody q) = false) :
    WakeStep p pc (p₁.arrive t ch q).1 (p₁.arrive t ch q).2 := by
  refine arrive_wake p₁ ch hsame h.tidy (hs.trans h.store) (hrole ▸ h.role)
    (hs ▸ h.key) (fun w hw ↦ ?_) (fun w hw ↦ ?_) horigin ?_
  · have hz := h.fresh w (hsame.total ▸ hw)
    have := hsame.once w
    omega
  · rcases hev with hev | hev
    · have hone := h.once w (hev ▸ hw)
      have hevents := hsame.events w
      rw [hev] at hevents
      omega
    · rw [hev] at hw
      cases hw
  · rw [hsame.waiters]
    exact hkeep

/-- Entering or queueing without any change. -/
theorem arrive_idle (h : WakePre l p t ch pc) (p₁ : AsyncPool) {q : PC}
    (hw : p₁.waiters = p.waiters) (hsig : p₁.signalled = p.signalled) (hs : p₁.store = p.store)
    (htotal : p₁.stats.totalWaitersEver = p.stats.totalWaitersEver)
    (hwake : q.wakeups = pc.wakeups) (hev : q.events = pc.events) (hrole : q.role = pc.role)
    (horigin : q.origin = .acquire)
    (hkeep : p.waiters = [] ∨ (p₁.lock.free && p₁.wastefulBody q) = false) :
    WakeStep p pc (p₁.arrive t ch q).1 (p₁.arrive t ch q).2 :=
  h.arrive (.of_idle hw hsig (congrArg Store.spare hs) htotal hwake hev) hs hrole (.inl hev)
    horigin hkeep

/-- Taking the lock when it is the task's turn. -/
theorem enter (h : WakePre l p t ch pc) {lock : Lock} (horigin : pc.origin = .acquire)
    (hkeep : p.waiters = [] ∨ p.wastefulBody pc = false) :
    WakeStep p pc ({ p with lock := lock }.underLock ch pc).1
      ({ p with lock := lock }.underLock ch pc).2 := by
  have hsame : WakeSame p pc { p with lock := lock } pc := .of_idle rfl rfl rfl rfl rfl rfl
  exact hsame.trans (underLock_wake { p with lock := lock } ch h.tidy h.store h.role
    h.key h.fresh h.once horigin hkeep)

end WakePre

/-- A woken waiter carries the wakeup on. -/
theorem dropEvent_wake {p : AsyncPool} {start : Time} {w : Nat} (hw : w ∈ p.signalled) :
    WakeSame p (.waiting start w) (p.dropEvent w) (.loop start true) := by
  have hlen := List.length_erase_of_mem hw
  have hpos := List.length_pos_of_mem hw
  have hcount (v : Nat) : (p.dropEvent w).eventCount v + [w].count v = p.eventCount v := by
    have hin := List.count_pos_iff.mpr hw
    rw [eventCount, eventCount, dropEvent, List.count_erase, List.count_cons, List.count_nil]
    by_cases hv : w = v
    · subst hv
      simp only [beq_self_eq_true, if_true]
      omega
    · simp [hv]
  refine ⟨rfl, rfl, ?_, fun v ↦ ?_, rfl, fun v ↦ ?_⟩
  · show (p.signalled.erase w).length + 1 = p.signalled.length + 0
    omega
  · exact (hcount v).trans (Nat.add_zero _).symm
  · have := hcount v
    omega

/-- A created connection is published at once or waits for the lock. -/
theorem WakePre.create {p : AsyncPool} {ch : Choice} {start createStart elapsed : Time} {k : Addr}
    (h : WakePre l p t ch (.creating start createStart k)) :
    WakeStep p (.creating start createStart k)
      ({ p with store := p.store.allocate ch.addr }.arrive t ch
        (.lockPublish start elapsed k ch.addr)).1
      ({ p with store := p.store.allocate ch.addr }.arrive t ch
        (.lockPublish start elapsed k ch.addr)).2 := by
  have hm : Move l.occupied l.store (.reserving k) .create (l.store.allocate ch.addr)
      (.made k ch.addr) := .create h.addr
  exact arrive_wake (l := ⟨l.store.allocate ch.addr, l.roles.set t (.made k ch.addr)⟩)
    { p with store := p.store.allocate ch.addr } ch (.of_idle rfl rfl rfl rfl rfl rfl)
    (h.tidy.move h.owner h.role (by decide) hm)
    (congrArg (Store.allocate · ch.addr) h.store) (getElem?_set_of_some h.role _) h.key h.fresh
    (by simp [PC.events]) rfl (.inr (Bool.and_false _))

/-- A cancellation that takes effect leaves no wakeup undelivered, unless the task has one. -/
theorem throwCancelled_wake {p : AsyncPool} {ch : Choice} {task : Task}
    (h : WakePre l p t ch task.pc) (hc : task.cancelled)
    (hkeep : p.waiters = [] ∨ p.wasteful t ch task = false) (hstay : p.strands task = false) :
    WakeStep p task.pc (p.throwCancelled t ch task.pc).1 (p.throwCancelled t ch task.pc).2 := by
  obtain ⟨pc, cancelled, timedOut⟩ := task
  obtain rfl : cancelled = true := hc
  cases pc with
  | waiting start w =>
    exact h.arrive_idle p rfl rfl rfl rfl rfl rfl rfl rfl (hkeep.imp_right id)
  | lockTimeout start w =>
    exact h.arrive_idle { p with lock := p.lock.abandon t } rfl rfl rfl rfl rfl rfl rfl rfl
      (hkeep.imp_right id)
  | lockCancel w =>
    have hnw : w ∉ p.waiters := by simpa [strands] using hstay
    refine withdraw_wake (w := w) rfl rfl rfl rfl (List.erase_of_not_mem hnw).symm rfl rfl rfl
      (h.once w (List.mem_singleton.mpr rfl)) (hkeep.imp_right fun hns ↦ ?_)
    simpa [wasteful] using hns
  | loop start again =>
    cases again with
    | false => exact WakeSame.step (.of_idle rfl rfl rfl rfl rfl rfl)
    | true =>
      refine ⟨.inl (hkeep.resolve_right Bool.noConfusion), fun w ↦ rfl, Nat.le_refl _,
        fun w ↦ .inl (Nat.le_refl _)⟩
  | closing c =>
    exact ⟨.inl (hkeep.resolve_right Bool.noConfusion), fun w ↦ rfl, Nat.le_refl _,
      fun w ↦ .inl (Nat.le_refl _)⟩
  | creating start createStart k =>
    exact h.arrive_idle p rfl rfl rfl rfl rfl rfl rfl rfl (hkeep.imp_right fun hns ↦ by
      simpa [wasteful, wastefulBody] using hns)
  | _ => exact WakeSame.step (.of_idle rfl rfl rfl rfl rfl rfl)

/-- Going on leaves no wakeup undelivered, unless it withdraws an event that is set or gives a
reserved slot back. -/
theorem resume_wake {p p' : AsyncPool} {ch : Choice} {pc pc' : PC}
    (hr : p.Resumes t ch pc p' pc') (h : WakePre l p t ch pc)
    (hkeep : p.waiters = [] ∨ p.wasteful t ch ⟨pc, false, false⟩ = false) :
    WakeStep p pc p' pc' := by
  cases hr with
  | arrives harrives =>
    cases harrives with
    | acquire =>
      exact h.arrive_idle { p with stats := p.stats.recordRequest } rfl rfl rfl rfl rfl
        rfl rfl rfl (.inr (Bool.and_false _))
    | woken hw =>
      exact h.arrive (dropEvent_wake hw) rfl rfl (.inr rfl) rfl (.inr (Bool.and_false _))
    | created => exact h.create
    | failed hfail =>
      refine h.arrive_idle p rfl rfl rfl rfl rfl rfl rfl rfl (hkeep.imp_right fun hns ↦ ?_)
      simpa [wasteful, wastefulBody, hfail] using hns
    | release => exact h.arrive_idle p rfl rfl rfl rfl rfl rfl rfl rfl (.inr (Bool.and_false _))
    | stray | closeAll | warmup => exact absurd h.origin (by simp [PC.origin])
  | granted hq =>
    cases pc with
    | loop | lockTimeout | lockCancel | lockUndo | lockPublish =>
      exact h.enter rfl (hkeep.imp_right id)
    | lockRelease c broken stray =>
      cases stray with
      | true => exact absurd h.origin (by simp [PC.origin])
      | false => exact h.enter rfl (.inr rfl)
    | lockCloseAll | lockWarmup => exact absurd h.origin (by simp [PC.origin])
    | _ => cases hq
  | closed => exact wakeOldest_wake rfl rfl rfl rfl (Nat.le_refl _)
  | closes => exact absurd h.origin (by simp [PC.origin])

/-- An uninterrupted stretch leaves no wakeup undelivered, unless it drops one, frees capacity
without one, or leaves a dead event in the queue. -/
theorem run_wake {p p' : AsyncPool} {ch : Choice} {task : Task} {pc' : PC}
    (hr : p.run t ch task = some (p', pc')) (h : WakePre l p t ch task.pc)
    (hkeep : p.waiters = [] ∨ p.wasteful t ch task = false) (hstay : p.strands task = false) :
    WakeStep p task.pc p' pc' := by
  cases runs_of_run hr with
  | cancelled => exact throwCancelled_wake h rfl hkeep hstay
  | timedOut => exact h.arrive_idle p rfl rfl rfl rfl rfl rfl rfl rfl (hkeep.imp_right id)
  | @resumes pc pc' timedOut p' hresumes htimer =>
    refine resume_wake hresumes h (hkeep.imp_right fun hns ↦ ?_)
    cases pc with
    | waiting start w =>
      obtain rfl : timedOut = false := htimer start w rfl
      exact hns
    | _ => exact hns

end AsyncPool

/-- A step of a task keeps the invariant. -/
theorem WakeInv.resume {s : State} {t : Nat} {task : Task} {p' : AsyncPool} {pc' : PC}
    (h : WakeInv s) (ht : s.tasks[t]? = some task)
    (hstep : WakeStep s.pool task.pc p' pc') :
    WakeInv ⟨p', s.tasks.set t ⟨pc', false, false⟩⟩ := by
  have hwake := tally_set (w := fun task ↦ task.pc.wakeups) ht ⟨pc', false, false⟩
  refine ⟨?_, fun w ↦ ?_, fun w ↦ ?_, fun w hw ↦ ?_⟩
  · rcases hstep.covered with hw | hz | ⟨hw, hle⟩
    · exact .inl hw
    · right
      dsimp only
      omega
    · right
      have hcov := h.covered.resolve_left hw
      dsimp only at hwake ⊢
      omega
  · have hev := tally_set (w := fun task ↦ task.pc.events.count w) ht ⟨pc', false, false⟩
    have := hstep.events w
    have := h.events w
    dsimp only at hev ⊢
    omega
  · rcases hstep.once w with hle | ⟨-, -, hle⟩
    · exact hle.trans (h.once w)
    · exact hle
  · have htotal := hstep.total
    rcases hstep.once w with hle | ⟨-, hlt, -⟩
    · have := h.fresh w (htotal.trans hw)
      dsimp only
      omega
    · dsimp only at hw
      omega

/-- No task drops a wakeup or frees capacity without one while another task waits, none leaves
its event behind, and `metrics()` does not raise the size while a task waits. -/
def Wasteless (s : State) : Act → Prop
  | .resume t ch => ∀ task ∈ s.tasks[t]?,
      (s.pool.waiters = [] ∨ s.pool.wasteful t ch task = false) ∧ s.pool.strands task = false
  | .metrics => s.pool.waiters = [] ∨ s.pool.store.sizer.max ≤ s.pool.store.sizer.current
  | _ => True

instance (s : State) (a : Act) : Decidable (Wasteless s a) :=
  match a with
  | .resume t _ => inferInstanceAs (Decidable (∀ task ∈ s.tasks[t]?, _ ∧ _))
  | .metrics => inferInstanceAs (Decidable (_ ∨ _))
  | .call _ | .cancel _ | .timer _ => isTrue trivial

/-- No object is created at a key of `_in_use`, such as a lost placeholder leaves behind. -/
def AvoidsLeftovers (s : State) : Act → Prop
  | .resume _ ch => ch.addr ∉ s.pool.store.inUse.keys
  | _ => True

instance (s : State) (a : Act) : Decidable (AvoidsLeftovers s a) :=
  match a with
  | .resume _ _ => inferInstanceAs (Decidable (_ ∉ _))
  | .call _ | .cancel _ | .timer _ | .metrics => isTrue trivial

/-- The steps under which no wakeup gets lost. -/
def KeepsWakeups (s : State) (a : Act) : Prop :=
  AcquireRelease s a ∧ Wasteless s a ∧ AvoidsLeftovers s a

private theorem ownReleases_of_keepsWakeups {s : State} {a : Act} (h : KeepsWakeups s a) :
    OwnReleases s a := by
  cases a with
  | call job =>
    obtain rfl : job = .acquire := h.1
    trivial
  | _ => trivial

private theorem origin_of_keepsWakeups {minConn maxConn : Nat} {s : State}
    (h : (system minConn maxConn).Reach KeepsWakeups s) :
    ∀ task ∈ s.tasks, task.pc.origin = .acquire ∨ task.pc.origin = .over :=
  origin_of_reach (fun o ↦ o = .acquire ∨ o = .over) h (.inr rfl) fun _ job hj ↦ by
    obtain rfl : job = .acquire := hj.1
    exact .inl rfl

private theorem tally_called (w : Task → Nat) (tasks : List Task)
    (hw : w ⟨.called .acquire, false, false⟩ = 0) :
    tally w (tasks ++ [⟨.called .acquire, false, false⟩]) = tally w tasks := by
  simp [hw]

private theorem tally_flags {w : PC → Nat} {tasks : List Task} {t : Nat} {task task' : Task}
    (ht : tasks[t]? = some task) (hpc : task'.pc = task.pc) :
    tally (fun task ↦ w task.pc) (tasks.set t task') = tally (fun task ↦ w task.pc) tasks := by
  have := tally_set (w := fun task : Task ↦ w task.pc) ht task'
  rw [hpc] at this
  omega

private theorem ledger_call (s : State) :
    State.ledger { s with tasks := s.tasks ++ [⟨.called .acquire, false, false⟩] } =
      ⟨s.ledger.store, s.ledger.roles ++ [.idle]⟩ := by
  simp [State.ledger, PC.role]

private theorem owner_of_keepsWakeups {minConn maxConn : Nat} {s : State}
    (h : (system minConn maxConn).Reach KeepsWakeups s) : s.ledger.OwnershipInv :=
  Ledger.OwnershipInv.of_reach (ledger_ownReleases
    (h.mono fun _ _ ↦ ownReleases_of_keepsWakeups))

/-- The facts about a state that one step needs. -/
structure Kept (s : State) : Prop where
  owner : s.ledger.OwnershipInv
  tidy : s.ledger.TidyInv
  wake : WakeInv s
  origin : ∀ task ∈ s.tasks, task.pc.origin = .acquire ∨ task.pc.origin = .over

/-- Before each turn of a task, what it has in hand is accounted for. -/
theorem Kept.pre {s : State} (h : Kept s) {t : Nat} {ch : Choice} {task : Task}
    (ht : s.tasks[t]? = some task) (hch : ch.addr ∉ s.live)
    (hkey : ch.addr ∉ s.pool.store.inUse.keys) :
    AsyncPool.WakePre s.ledger s.pool t ch task.pc where
  owner := h.owner
  tidy := h.tidy
  store := rfl
  role := by simp [State.ledger, ht]
  addr := by
    rw [Ledger.occupied, live_ledger, List.mem_append]
    exact not_or.mpr ⟨hch, hkey⟩
  fresh := h.wake.fresh
  once := by
    intro w hw
    have hle := le_tally_of_getElem? (w := fun task ↦ task.pc.events.count w) ht
    have hpos := List.count_pos_iff.mpr hw
    have hev := h.wake.events w
    have hone := h.wake.once w
    omega
  origin := h.origin task (List.mem_of_getElem? ht)

/-- A step that keeps the wakeups keeps the ledger tidy. -/
theorem Kept.tidy_step {s s' : State} {a : Act} (h : Kept s) (hok : KeepsWakeups s a)
    (hs : step s a = some s') : s'.ledger.TidyInv := by
  cases a with
  | call job =>
    obtain rfl : job = .acquire := hok.1
    obtain ⟨-, rfl⟩ := step_call hs
    rw [ledger_call]
    exact h.tidy.join
  | resume t ch =>
    obtain ⟨task, p', pc', ht, hch, hrun, rfl⟩ := step_resume hs
    have hpre := h.pre ht hch hok.2.2
    have heff : Ledger.Effect (· ∈ task.kinds) s.ledger.occupied s.ledger.store task.pc.role
        p'.store pc'.role := AsyncPool.run_effect hrun hpre.addr fun _ hκ ↦ hκ
    have hkinds : ∀ κ ∈ task.kinds, Ledger.OwnReleases κ ∧ κ ≠ .drain := by
      intro κ hκ
      have hstray : task.pc.origin ≠ .stray := by
        rcases hpre.origin with ho | ho <;> simp [ho]
      have hshut : task.pc.origin ≠ .shutdown := by
        rcases hpre.origin with ho | ho <;> simp [ho]
      exact ⟨ownReleases_of_mem_kinds hstray κ hκ, (noShutdown_of_mem_kinds hshut κ hκ).1⟩
    have htidy := h.tidy.effect h.owner hpre.role hkinds heff
    simp only [State.ledger, List.map_set] at htidy ⊢
    exact htidy
  | cancel t =>
    obtain ⟨task, ht, -, rfl⟩ := step_cancel hs
    have htidy := h.tidy
    simp only [State.ledger] at htidy ⊢
    rw [map_role_set ht (by rfl)]
    exact htidy
  | timer t =>
    obtain ⟨start, w, cancelled, timedOut, ht, rfl⟩ := step_timer hs
    have htidy := h.tidy
    simp only [State.ledger] at htidy ⊢
    rw [map_role_set ht (by rfl)]
    exact htidy
  | metrics =>
    obtain rfl : { s with pool := s.pool.metrics } = s' := Option.some.inj hs
    exact ⟨h.tidy.offered, h.tidy.held, h.tidy.reserved⟩

/-- A step that keeps the wakeups keeps the invariant on wakeups. -/
theorem Kept.wake_step {s s' : State} {a : Act} (h : Kept s) (hok : KeepsWakeups s a)
    (hs : step s a = some s') : WakeInv s' := by
  cases a with
  | call job =>
    obtain rfl : job = .acquire := hok.1
    obtain ⟨-, rfl⟩ := step_call hs
    refine ⟨?_, fun w ↦ ?_, h.wake.once, h.wake.fresh⟩
    · rw [tally_called _ _ rfl]
      exact h.wake.covered
    · rw [tally_called _ _ rfl]
      exact h.wake.events w
  | resume t ch =>
    obtain ⟨task, p', pc', ht, hch, hrun, rfl⟩ := step_resume hs
    obtain ⟨hkeep, hstay⟩ := hok.2.1 task ht
    exact h.wake.resume ht (AsyncPool.run_wake hrun (h.pre ht hch hok.2.2) hkeep hstay)
  | cancel t =>
    obtain ⟨task, ht, -, rfl⟩ := step_cancel hs
    refine ⟨?_, fun w ↦ ?_, h.wake.once, h.wake.fresh⟩
    · rw [tally_flags (w := PC.wakeups) ht (by rfl)]
      exact h.wake.covered
    · rw [tally_flags (w := fun pc ↦ pc.events.count w) ht (by rfl)]
      exact h.wake.events w
  | timer t =>
    obtain ⟨start, w, cancelled, timedOut, ht, rfl⟩ := step_timer hs
    refine ⟨?_, fun v ↦ ?_, h.wake.once, h.wake.fresh⟩
    · rw [tally_flags (w := PC.wakeups) ht (by rfl)]
      exact h.wake.covered
    · rw [tally_flags (w := fun pc ↦ pc.events.count v) ht (by rfl)]
      exact h.wake.events v
  | metrics =>
    obtain rfl : { s with pool := s.pool.metrics } = s' := Option.some.inj hs
    refine ⟨?_, h.wake.events, h.wake.once, h.wake.fresh⟩
    rcases hok.2.1 with hw | hmax
    · exact .inl hw
    · refine h.wake.covered.imp_right fun hcov ↦ ?_
      have hle := s.pool.store.sizer.adjust_le_of_max_le s.pool.waiters.length
        s.pool.stats.recentAvgMs hmax
      refine Nat.le_trans ?_ hcov
      show max s.pool.store.available.length
          ((s.pool.store.sizer.adjust _ _).current - s.pool.store.inUse.len) ≤ _
      rw [Store.spare]
      omega

/-- Everything is kept along a run that keeps its wakeups. -/
theorem Kept.of_reach {minConn maxConn : Nat} {s : State}
    (h : (system minConn maxConn).Reach KeepsWakeups s) : Kept s := by
  induction h with
  | init =>
    refine ⟨Ledger.ownershipInv_new minConn maxConn, Ledger.tidyInv_new minConn maxConn,
      ⟨.inl rfl, fun _ ↦ rfl, fun _ ↦ Nat.zero_le _, fun _ _ ↦ rfl⟩, by simp [system]⟩
  | step hr hok hs ih =>
    exact ⟨owner_of_keepsWakeups (hr.step hok hs), ih.tidy_step hok hs, ih.wake_step hok hs,
      origin_of_keepsWakeups (hr.step hok hs)⟩

/-- The task waits for its caller or for the creation of a connection. -/
def PC.external : PC → Bool
  | holding _ | creating _ _ _ => true
  | _ => false

/-- Nothing happens any more until a caller releases its connection or a creation ends. -/
def State.Settled (s : State) : Prop :=
  ∀ (t : Nat) (task : Task), s.tasks[t]? = some task →
    (task.pc.external ∧ task.cancelled = false) ∨ ∀ ch, s.pool.run t ch task = none

/-- Some acquire is blocked on its event. -/
def State.Blocked (s : State) : Prop :=
  ∃ (t : Nat) (task : Task), s.tasks[t]? = some task ∧ ∃ start w, task.pc = .waiting start w

/-- In a settled state an acquire is blocked only if nothing is idle and no slot is left. -/
def State.NobodyStranded (s : State) : Prop :=
  s.Settled → s.Blocked →
    s.pool.store.available = [] ∧ s.pool.store.sizer.current ≤ s.pool.store.inUse.len

/-- A task that is over, that waits for something outside the pool, or whose event is not set. -/
def AsyncPool.idles (p : AsyncPool) (task : Task) : Bool :=
  !task.cancelled && match task.pc with
    | .holding _ | .creating _ _ _ | .ended _ => true
    | .waiting _ w => !task.timedOut && !p.signalled.contains w
    | _ => false

/-- A state is settled when every task idles. -/
theorem settled_of_idles {s : State} (h : s.tasks.all s.pool.idles) : s.Settled := by
  intro t task ht
  have hidle := List.all_eq_true.mp h task (List.mem_of_getElem? ht)
  obtain ⟨pc, cancelled, timedOut⟩ := task
  rw [AsyncPool.idles, Bool.and_eq_true, Bool.not_eq_true'] at hidle
  obtain ⟨rfl, hidle⟩ := hidle
  cases pc with
  | holding | creating => exact .inl ⟨rfl, rfl⟩
  | ended => exact .inr fun _ ↦ rfl
  | waiting start w =>
    simp only [Bool.and_eq_true, Bool.not_eq_true', List.contains_eq_mem,
      decide_eq_false_iff_not] at hidle
    obtain ⟨rfl, hw⟩ := hidle
    exact .inr fun ch ↦ by simp [AsyncPool.run, AsyncPool.resume, hw]
  | _ => cases hidle

/-- In a settled state no task is queued for the lock or holds it. -/
theorem State.Settled.quiet {s : State} (h : s.Settled) (hlock : LockInv s) {t : Nat} {task : Task}
    (ht : s.tasks[t]? = some task) : task.pc.queued = false ∧ task.pc.locking = false := by
  have hstuck {u : Nat} {other : Task} (hu : s.tasks[u]? = some other)
      (hpc : other.pc.queued ∨ other.pc.locking)
      (hrun : ∀ ch, (s.pool.run u ch other).isSome) : False := by
    rcases h u other hu with ⟨hext, -⟩ | hnone
    · obtain ⟨pc, cancelled, timedOut⟩ := other
      cases pc <;> simp_all [PC.external, PC.queued, PC.locking]
    · have := hrun {}
      rw [hnone] at this
      cases this
  constructor
  · by_contra hq
    obtain ⟨u, other, hu, hpc, hrun⟩ := hlock.progress ht (by simpa using hq)
    exact hstuck hu hpc hrun
  · by_contra hl
    have hlocking : task.pc.locking := by simpa using hl
    exact hstuck ht (.inr hlocking) fun ch ↦ run_of_locking s.pool t ch hlocking

/-- In a settled state no event is set. -/
theorem State.Settled.unsignalled {s : State} (h : s.Settled) (hlock : LockInv s)
    (hwake : WakeInv s) : s.pool.signalled = [] := by
  by_contra hne
  obtain ⟨w, hw⟩ := List.exists_mem_of_ne_nil _ hne
  have hcount := hwake.events w
  have hpos := List.count_pos_iff.mpr hw
  rw [AsyncPool.eventCount] at hcount
  have hpositive : 0 < tally (fun task ↦ task.pc.events.count w) s.tasks := by omega
  obtain ⟨task, hmem, hin⟩ := exists_of_tally_pos hpositive
  obtain ⟨t, ht⟩ := List.getElem?_of_mem hmem
  have hquiet := (h.quiet hlock ht).1
  obtain ⟨pc, cancelled, timedOut⟩ := task
  cases pc with
  | waiting start v =>
    obtain rfl : w = v := List.mem_singleton.mp (List.count_pos_iff.mp hin)
    rcases h t _ ht with ⟨hext, -⟩ | hnone
    · cases hext
    · have := hnone {}
      cases cancelled <;> cases timedOut <;>
        simp [AsyncPool.run, AsyncPool.resume, hw] at this
  | lockTimeout | lockCancel => cases hquiet
  | _ => cases hin

/-- No acquire is stranded in a run that keeps its wakeups. -/
theorem nobodyStranded_of_reach {minConn maxConn : Nat} {s : State}
    (h : (system minConn maxConn).Reach KeepsWakeups s) : s.NobodyStranded := by
  rintro hsettled ⟨t, task, ht, start, w, hpc⟩
  have hlock := LockInv.of_reach h
  have hwake := (Kept.of_reach h).wake
  have hsig := hsettled.unsignalled hlock hwake
  have hnone : tally (fun task ↦ task.pc.wakeups) s.tasks = 0 := by
    apply tally_eq_zero_iff.mpr
    intro other hmem
    obtain ⟨u, hu⟩ := List.getElem?_of_mem hmem
    obtain ⟨hq, hl⟩ := hsettled.quiet hlock hu
    obtain ⟨pc, cancelled, timedOut⟩ := other
    cases pc with
    | loop => cases hq
    | closing => cases hl
    | _ => rfl
  have hwaits : s.pool.waiters ≠ [] := by
    have hle := le_tally_of_getElem? (w := fun task : Task ↦ task.pc.events.count w) ht
    have hself : task.pc.events.count w = 1 := by
      rw [hpc]
      exact List.count_singleton_self
    have hev := hwake.events w
    rw [AsyncPool.eventCount, hsig, List.count_nil] at hev
    intro hnil
    rw [hnil, List.count_nil] at hev
    omega
  have hcov := hwake.covered.resolve_left hwaits
  rw [hsig, hnone] at hcov
  exact Store.spare_eq_zero.mp (Nat.le_zero.mp hcov)

/-- Acquires and releases on a pool of fixed size whose creations never fail. -/
def FixedPool (s : State) : Act → Prop
  | .resume _ ch => ch.ok
  | .metrics => False
  | a => AcquireRelease s a

instance (s : State) (a : Act) : Decidable (FixedPool s a) :=
  match a with
  | .resume _ _ => inferInstanceAs (Decidable (_ = _))
  | .metrics => isFalse id
  | .call job => inferInstanceAs (Decidable (AcquireRelease s (.call job)))
  | .cancel _ | .timer _ => isTrue trivial

/-- A wakeup of a release reaches somebody, as long as no task that has it in hand gives up. -/
theorem wakeups_arrive {minConn maxConn : Nat} {s : State}
    (h : (system minConn maxConn).Reach
      (fun s a ↦ FixedPool s a ∧ Wasteless s a ∧ AvoidsLeftovers s a) s) :
    s.NobodyStranded := by
  refine nobodyStranded_of_reach (h.mono fun s a hok ↦ ⟨?_, hok.2⟩)
  cases a with
  | call job => exact hok.1
  | _ => trivial

/-- One acquire creates a connection and two more wait for it. -/
def threeAcquires : List Act :=
  [.call .acquire, .call .acquire, .call .acquire, .resume 0 { addr := 1 },
    .resume 0 { addr := 2 }, .resume 1 { addr := 3 }, .resume 2 { addr := 3 }]

/-- The release wakes the first waiter, whose timer expires before it runs. -/
def lateTimer : List Act :=
  threeAcquires ++ [.resume 0 { addr := 3 }, .timer 1, .resume 1 { addr := 3 }]

/-- An acquire that times out after it was woken strands the next one beside an idle
connection. -/
theorem lateTimer_strands :
    ¬ ∀ s, (system 1 1).Reach FixedPool s → s.NobodyStranded := by
  intro h
  obtain ⟨s, hs, hend⟩ := System.exists_of_exec (system 1 1) FixedPool lateTimer
    (fun s ↦ s.tasks.all s.pool.idles && (s.tasks[2]?.map (·.pc)) == some (.waiting 0 1) &&
      s.pool.store.available.length == 1) (by decide +kernel)
  simp only [Bool.and_eq_true, beq_iff_eq] at hend
  obtain ⟨⟨hidle, hblocked⟩, havailable⟩ := hend
  obtain ⟨task, ht, hpc⟩ := Option.map_eq_some_iff.mp hblocked
  have hnil := (h s hs (settled_of_idles hidle) ⟨2, task, ht, 0, 1, hpc⟩).1
  rw [hnil] at havailable
  cases havailable

/-- A run in which the first waiter is served and the other one waits for its release. -/
theorem wakeups_arrive_threeAcquires :
    ∃ s, (system 1 1).Reach (fun s a ↦ FixedPool s a ∧ Wasteless s a ∧ AvoidsLeftovers s a) s ∧
      s.Blocked ∧ s.NobodyStranded := by
  obtain ⟨s, hs, hend⟩ := System.exists_of_exec (system 1 1)
    (fun s a ↦ FixedPool s a ∧ Wasteless s a ∧ AvoidsLeftovers s a)
    (threeAcquires ++ [.resume 0 { addr := 3 }, .resume 1 { addr := 3 }])
    (fun s ↦ (s.tasks[2]?.map (·.pc)) == some (.waiting 0 1)) (by decide +kernel)
  obtain ⟨task, ht, hpc⟩ := Option.map_eq_some_iff.mp (beq_iff_eq.mp hend)
  exact ⟨s, hs, ⟨2, task, ht, 0, 1, hpc⟩, wakeups_arrive hs⟩

end SalesData.Pool.Async

import SalesData.Pool.AsyncWakeups

/-!
# Wakeups of the thread pool

A `notify` takes a thread out of the condition's queue, and the thread looks for a connection
once it has the lock again; a thread whose wait is over because of its timeout looks, too. While
threads wait, as many of them are notified as the pool could serve, unless a failed creation gives
its slot back or `metrics()` raises the size without a `notify`.
-/

namespace SalesData.Pool.Sync

open Base

/-- The thread waits in the condition's queue or was taken out of it. -/
def PC.awaits : PC → Nat
  | waiting _ => 1
  | _ => 0

/-- How often a thread is in the condition's queue or notified. -/
def SyncPool.turns (p : SyncPool) (t : Nat) : Nat := p.waiting.count t + p.notified.count t

/-- Every waiting thread is in the queue or notified, and while the queue is not empty, enough
threads are notified. -/
structure WakeInv (s : State) : Prop where
  covered : s.pool.waiting = [] ∨ s.pool.store.spare ≤ s.pool.notified.length
  turns : ∀ t, s.pool.turns t = ((s.threads[t]?).map PC.awaits).getD 0

/-- A turn of thread `t` that leaves no `notify` undelivered. -/
structure WakeStep (p : SyncPool) (t : Nat) (p' : SyncPool) (pc' : PC) : Prop where
  covered : p'.waiting = [] ∨ p'.store.spare = 0 ∨ p.waiting ≠ [] ∧
    p'.store.spare + p.notified.length ≤ p.store.spare + p'.notified.length
  turns : p'.turns t = pc'.awaits
  others : ∀ u ≠ t, p'.turns u = p.turns u

/-- A turn that has no part in waking. -/
theorem WakeStep.of_idle {p p' : SyncPool} {t : Nat} {pc' : PC} (hw : p'.waiting = p.waiting)
    (hn : p'.notified = p.notified) (hspare : p'.store.spare ≤ p.store.spare)
    (hturn : p.turns t = pc'.awaits) : WakeStep p t p' pc' := by
  refine ⟨?_, ?_, fun u _ ↦ ?_⟩
  · by_cases hnil : p.waiting = []
    · exact .inl (hw.trans hnil)
    · exact .inr (.inr ⟨hnil, by rw [hn]; omega⟩)
  · rw [← hturn, SyncPool.turns, SyncPool.turns, hw, hn]
  · rw [SyncPool.turns, SyncPool.turns, hw, hn]

namespace SyncPool

variable {l : Ledger} {t : Nat}

/-- Notifying puts one thread on its way, or there is none to notify. -/
theorem notify_wake {p p₀ : SyncPool} {pc' : PC} (hw : p.waiting = p₀.waiting)
    (hn : p.notified = p₀.notified) (hspare : p.store.spare ≤ p₀.store.spare + 1)
    (hturn : p₀.turns t = pc'.awaits) : WakeStep p₀ t p.notify pc' := by
  have hcount (u : Nat) : p.notify.turns u = p₀.turns u := by
    rw [turns, turns, notify]
    split
    · rw [hw, hn]
    · next v vs hv =>
      show vs.count u + (v :: p.notified).count u = _
      rw [← hw, ← hn, hv, List.count_cons, List.count_cons]
      omega
  have hstore : p.notify.store = p.store := by
    rw [notify]
    split <;> rfl
  refine ⟨?_, (hcount t).trans hturn, fun u _ ↦ hcount u⟩
  by_cases hv : p.waiting = []
  · left
    rw [notify, hv]
    exact hv
  · right
    right
    have hlen : p.notify.notified.length = p₀.notified.length + 1 := by
      rw [notify, ← hn]
      split
      · next hnil => exact absurd hnil hv
      · rfl
    refine ⟨hw ▸ hv, ?_⟩
    rw [hlen, hstore]
    omega

/-- A thread that is back from `wait` is no longer in the queue or notified. -/
theorem turns_wake (p : SyncPool) (hone : p.turns t ≤ 1) :
    (p.wake t).turns t = 0 ∧ ∀ u ≠ t, (p.wake t).turns u = p.turns u := by
  rw [turns] at hone
  constructor
  · rw [turns, wake, List.count_erase_self, List.count_erase_self]
    omega
  · intro u hne
    rw [turns, turns, wake, List.count_erase_of_ne hne, List.count_erase_of_ne hne]

/-- One pass of the loop uses up one spare connection or slot, or finds nothing to spare. -/
theorem loopBody_wake (p : SyncPool) (start : Time) (counted : Bool) (ch : Choice)
    (htidy : l.TidyInv) (hs : p.store = l.store) (hkey : ch.addr ∉ p.store.inUse.keys)
    (hturn : p.turns t = 0) :
    (p.loopBody t start counted ch).1.turns t = (p.loopBody t start counted ch).2.awaits ∧
      (∀ u ≠ t, (p.loopBody t start counted ch).1.turns u = p.turns u) ∧
      ((p.loopBody t start counted ch).1.store.spare = 0 ∨
        (p.loopBody t start counted ch).1.store.spare + 1 = p.store.spare ∧
          (p.loopBody t start counted ch).1.waiting = p.waiting ∧
          (p.loopBody t start counted ch).1.notified = p.notified) := by
  unfold loopBody
  split
  · next s c h =>
    rw [hs] at h
    refine ⟨?_, fun _ _ ↦ rfl, .inr ⟨hs ▸ htidy.spare_hit h, rfl, rfl⟩⟩
    cases counted <;> exact hturn
  · next s h => exact ⟨hturn, fun _ _ ↦ rfl, .inr ⟨Store.spare_reserved h hkey, rfl, rfl⟩⟩
  · next s h =>
    have hspare := Store.spare_full h
    have hcount (u : Nat) : (count { p with store := s } counted).turns u = p.turns u := by
      cases counted <;> rfl
    have hstore : (count { p with store := s } counted).store = s := by
      cases counted <;> rfl
    unfold awaitTurn
    split
    · refine ⟨(hcount t).trans hturn, fun u _ ↦ hcount u, .inl ?_⟩
      dsimp only
      rw [hstore]
      exact hspare
    · have happend (u : Nat) :
          turns { count { p with store := s } counted with
            waiting := (count { p with store := s } counted).waiting ++ [t] } u =
            p.turns u + [t].count u := by
        rw [← hcount u, turns, turns, List.count_append]
        dsimp only
        omega
      refine ⟨?_, fun u hne ↦ ?_, .inl ?_⟩
      · exact (happend t).trans (by rw [hturn, List.count_singleton_self]; rfl)
      · refine (happend u).trans ?_
        rw [List.count_singleton, if_neg (by simpa using Ne.symm hne), Nat.add_zero]
      · dsimp only
        rw [hstore]
        exact hspare

/-- What is known of a thread before its turn. -/
structure WakePre (l : Ledger) (p : SyncPool) (t : Nat) (ch : Choice) (pc : PC) : Prop where
  tidy : l.TidyInv
  store : p.store = l.store
  role : l.roles[t]? = some pc.role
  key : ch.addr ∉ p.store.inUse.keys
  turns : p.turns t = pc.awaits
  origin : pc.origin = .acquire ∨ pc.origin = .over

/-- The release of a held connection notifies. -/
theorem releaseBody_wake {p : SyncPool} {ch : Choice} {c : Addr}
    (h : WakePre l p t ch (.holding c)) (broken : Bool) :
    WakeStep p t (p.releaseBody c broken) (.ended none) := by
  have hspare := h.tidy.spare_release broken h.role
  have hfound := (h.tidy.len_release broken h.role).1
  rw [← h.store] at hspare hfound
  unfold releaseBody
  split
  · next s heq =>
    rw [heq] at hfound
    cases hfound
  · next s heq =>
    rw [heq] at hspare
    exact notify_wake rfl rfl hspare h.turns

/-- A thread that looks for a connection, after a wait or for the first time. -/
theorem look_wake {p p₁ : SyncPool} {ch : Choice} {start : Time} {counted : Bool}
    (htidy : l.TidyInv) (hs : p.store = l.store) (hkey : ch.addr ∉ p.store.inUse.keys)
    (hstore : p₁.store = p.store) (hturn : p₁.turns t = 0)
    (hothers : ∀ u ≠ t, p₁.turns u = p.turns u) (hw : p₁.waiting ≠ [] → p.waiting ≠ [])
    (hn : p.notified.length ≤ p₁.notified.length + 1) :
    WakeStep p t (p₁.loopBody t start counted ch).1 (p₁.loopBody t start counted ch).2 := by
  obtain ⟨hself, hrest, hspare⟩ := loopBody_wake p₁ start counted ch htidy (hstore.trans hs)
    (hstore ▸ hkey) hturn
  refine ⟨?_, hself, fun u hu ↦ (hrest u hu).trans (hothers u hu)⟩
  rcases hspare with hz | ⟨hlt, hwait, hnot⟩
  · exact .inr (.inl hz)
  · by_cases hnil : p₁.waiting = []
    · exact .inl (hwait.trans hnil)
    · refine .inr (.inr ⟨hw hnil, ?_⟩)
      rw [hstore] at hlt
      rw [hnot]
      omega

/-- A thread's turn leaves no `notify` undelivered, unless it gives a slot back. -/
theorem run_wake {p p' : SyncPool} {ch : Choice} {pc pc' : PC}
    (hr : p.run t ch pc = some (p', pc')) (h : WakePre l p t ch pc)
    (hkeep : p.waiting = [] ∨ ∀ k counted, pc ≠ .undo k counted) : WakeStep p t p' pc' := by
  cases runs_of_run hr with
  | acquire | created | failed | left | raises => exact .of_idle rfl rfl (Nat.le_refl _) h.turns
  | look => exact look_wake h.tidy h.store h.key rfl h.turns (fun _ _ ↦ rfl) id (Nat.le_succ _)
  | woken =>
    obtain ⟨hself, hothers⟩ := p.turns_wake (t := t) h.turns.le
    refine look_wake h.tidy h.store h.key rfl hself hothers (fun hne hnil ↦ hne ?_) ?_
    · rw [wake, hnil]
      rfl
    · rw [wake, List.length_erase]
      split <;> omega
  | @interrupted start createStart k counted =>
    refine .of_idle rfl rfl (Nat.le_refl _) ?_
    cases counted <;> exact h.turns
  | @undone k counted =>
    refine ⟨.inl (hkeep.resolve_right fun hne ↦ hne k counted rfl), ?_, fun _ _ ↦ rfl⟩
    cases counted <;> exact h.turns
  | @published start elapsed k c counted =>
    refine .of_idle rfl rfl ?_ ?_
    · show (p.store.publish ch.now k c).spare ≤ p.store.spare
      rw [h.store]
      exact (h.tidy.spare_publish h.role).le
    · cases counted <;> exact h.turns
  | release => exact releaseBody_wake h ch.broken
  | stray | closeAll | warmup | closedAll | closes => exact absurd h.origin (by simp [PC.origin])

end SyncPool

/-- A turn of a thread keeps the invariant. -/
theorem WakeInv.run {s : State} {t : Nat} {pc pc' : PC} {p' : SyncPool} (h : WakeInv s)
    (ht : s.threads[t]? = some pc) (hstep : WakeStep s.pool t p' pc') :
    WakeInv ⟨p', s.threads.set t pc'⟩ := by
  refine ⟨?_, fun u ↦ ?_⟩
  · rcases hstep.covered with hw | hz | ⟨hw, hle⟩
    · exact .inl hw
    · right
      dsimp only
      omega
    · right
      have hcov := h.covered.resolve_left hw
      dsimp only
      omega
  · dsimp only
    by_cases hut : u = t
    · rw [hut, getElem?_set_of_some ht]
      exact hstep.turns
    · rw [List.getElem?_set_ne (Ne.symm hut), hstep.others u hut]
      exact h.turns u

/-- Calls are acquires, and releases by the thread that acquired. -/
def AcquireRelease (_ : State) : Act → Prop
  | .call job => job = .acquire
  | _ => True

instance (s : State) (a : Act) : Decidable (AcquireRelease s a) :=
  match a with
  | .call _ => inferInstanceAs (Decidable (_ = _))
  | .run _ _ | .metrics => isTrue trivial

/-- The thread is about to give its reserved slot back. -/
def PC.undoing : PC → Bool
  | undo _ _ => true
  | _ => false

/-- While threads are queued, no failed creation gives its slot back, and `metrics()` does not
raise the size. -/
def Wasteless (s : State) : Act → Prop
  | .run t _ => ∀ pc ∈ s.threads[t]?, s.pool.waiting = [] ∨ pc.undoing = false
  | .metrics => s.pool.waiting = [] ∨ s.pool.store.sizer.max ≤ s.pool.store.sizer.current
  | .call _ => True

instance (s : State) (a : Act) : Decidable (Wasteless s a) :=
  match a with
  | .run t _ => inferInstanceAs (Decidable (∀ pc ∈ s.threads[t]?, _ ∨ _))
  | .metrics => inferInstanceAs (Decidable (_ ∨ _))
  | .call _ => isTrue trivial

/-- No object is created at a key of `_in_use`, such as an interrupted creation leaves behind. -/
def AvoidsLeftovers (s : State) : Act → Prop
  | .run _ ch => ch.addr ∉ s.pool.store.inUse.keys
  | _ => True

instance (s : State) (a : Act) : Decidable (AvoidsLeftovers s a) :=
  match a with
  | .run _ _ => inferInstanceAs (Decidable (_ ∉ _))
  | .call _ | .metrics => isTrue trivial

/-- The steps under which no `notify` is missing. -/
def KeepsWakeups (s : State) (a : Act) : Prop :=
  AcquireRelease s a ∧ Wasteless s a ∧ AvoidsLeftovers s a

private theorem ownReleases_of_keepsWakeups {s : State} {a : Act} (h : KeepsWakeups s a) :
    OwnReleases s a := by
  cases a with
  | call job =>
    obtain rfl : job = .acquire := h.1
    trivial
  | _ => trivial

private theorem owner_of_keepsWakeups {minConn maxConn : Nat} {timeout : Time} {s : State}
    (h : (system minConn maxConn timeout).Reach KeepsWakeups s) : s.ledger.OwnershipInv :=
  Ledger.OwnershipInv.of_reach (ledger_ownReleases
    (h.mono fun _ _ ↦ ownReleases_of_keepsWakeups))

private theorem origin_of_keepsWakeups {minConn maxConn : Nat} {timeout : Time} {s : State}
    (h : (system minConn maxConn timeout).Reach KeepsWakeups s) :
    ∀ pc ∈ s.threads, pc.origin = .acquire ∨ pc.origin = .over :=
  origin_of_reach (fun o ↦ o = .acquire ∨ o = .over) h (.inr rfl) fun _ job hj ↦ by
    obtain rfl : job = .acquire := hj.1
    exact .inl rfl

/-- The facts about a state that one step needs. -/
structure Kept (s : State) : Prop where
  owner : s.ledger.OwnershipInv
  tidy : s.ledger.TidyInv
  wake : WakeInv s
  origin : ∀ pc ∈ s.threads, pc.origin = .acquire ∨ pc.origin = .over

/-- A step that keeps the wakeups keeps the ledger tidy. -/
theorem Kept.tidy_step {s s' : State} {a : Act} (h : Kept s) (hok : KeepsWakeups s a)
    (hs : step s a = some s') : s'.ledger.TidyInv := by
  cases a with
  | call job =>
    obtain rfl : job = .acquire := hok.1
    obtain ⟨-, rfl⟩ := step_call hs
    have hledger : State.ledger { s with threads := s.threads ++ [.called .acquire] } =
        ⟨s.ledger.store, s.ledger.roles ++ [.idle]⟩ := by
      simp [State.ledger, PC.role]
    rw [hledger]
    exact h.tidy.join
  | run t ch =>
    obtain ⟨pc, p', pc', ht, hch, hrun, rfl⟩ := step_run hs
    have hrole : s.ledger.roles[t]? = some pc.role := by simp [State.ledger, ht]
    have haddr : ch.addr ∉ s.ledger.occupied := by
      rw [Ledger.occupied, live_ledger, List.mem_append]
      exact not_or.mpr ⟨hch, hok.2.2⟩
    have heff : Ledger.Effect (· ∈ pc.kinds) s.ledger.occupied s.ledger.store pc.role
        p'.store pc'.role := SyncPool.run_effect hrun haddr fun _ hκ ↦ hκ
    have horigin := h.origin pc (List.mem_of_getElem? ht)
    have hkinds : ∀ κ ∈ pc.kinds, Ledger.OwnReleases κ ∧ κ ≠ .drain := by
      intro κ hκ
      have hstray : pc.origin ≠ .stray := by
        rcases horigin with ho | ho <;> simp [ho]
      have hshut : pc.origin ≠ .shutdown := by
        rcases horigin with ho | ho <;> simp [ho]
      exact ⟨ownReleases_of_mem_kinds hstray κ hκ, (noShutdown_of_mem_kinds hshut κ hκ).1⟩
    have htidy := h.tidy.effect h.owner hrole hkinds heff
    simp only [State.ledger, List.map_set] at htidy ⊢
    exact htidy
  | metrics =>
    obtain rfl : { s with pool := s.pool.metrics } = s' := Option.some.inj hs
    exact ⟨h.tidy.offered, h.tidy.held, h.tidy.reserved⟩

/-- A step that keeps the wakeups keeps the invariant on wakeups. -/
theorem Kept.wake_step {s s' : State} {a : Act} (h : Kept s) (hok : KeepsWakeups s a)
    (hs : step s a = some s') : WakeInv s' := by
  cases a with
  | call job =>
    obtain rfl : job = .acquire := hok.1
    obtain ⟨-, rfl⟩ := step_call hs
    refine ⟨h.wake.covered, fun u ↦ (h.wake.turns u).trans ?_⟩
    by_cases hlt : u < s.threads.length
    · rw [List.getElem?_append_left hlt]
    · rw [List.getElem?_append_right (by omega), List.getElem?_eq_none (by omega)]
      cases hu : [PC.called .acquire][u - s.threads.length]? with
      | none => rfl
      | some pc => rw [List.mem_singleton.mp (List.mem_of_getElem? hu)]; rfl
  | run t ch =>
    obtain ⟨pc, p', pc', ht, hch, hrun, rfl⟩ := step_run hs
    have hturns := h.wake.turns t
    rw [ht] at hturns
    refine h.wake.run ht (SyncPool.run_wake hrun ⟨h.tidy, rfl, by simp [State.ledger, ht],
      hok.2.2, hturns, h.origin pc (List.mem_of_getElem? ht)⟩ ?_)
    refine (hok.2.1 pc ht).imp_right fun hundo k counted heq ↦ ?_
    rw [heq] at hundo
    cases hundo
  | metrics =>
    obtain rfl : { s with pool := s.pool.metrics } = s' := Option.some.inj hs
    refine ⟨?_, h.wake.turns⟩
    rcases hok.2.1 with hw | hmax
    · exact .inl hw
    · refine h.wake.covered.imp_right fun hcov ↦ ?_
      have hle := s.pool.store.sizer.adjust_le_of_max_le s.pool.currentWaiters
        s.pool.stats.recentAvgMs hmax
      refine Nat.le_trans ?_ hcov
      show max s.pool.store.available.length
          ((s.pool.store.sizer.adjust _ _).current - s.pool.store.inUse.len) ≤ _
      rw [Store.spare]
      omega

/-- Everything is kept along a run that keeps its wakeups. -/
theorem Kept.of_reach {minConn maxConn : Nat} {timeout : Time} {s : State}
    (h : (system minConn maxConn timeout).Reach KeepsWakeups s) : Kept s := by
  induction h with
  | init =>
    exact ⟨Ledger.ownershipInv_new minConn maxConn, Ledger.tidyInv_new minConn maxConn,
      ⟨.inl rfl, fun _ ↦ rfl⟩, by simp [system]⟩
  | step hr hok hs ih =>
    exact ⟨owner_of_keepsWakeups (hr.step hok hs), ih.tidy_step hok hs, ih.wake_step hok hs,
      origin_of_keepsWakeups (hr.step hok hs)⟩

/-- The thread waits for its caller or for the creation of a connection. -/
def PC.external : PC → Bool
  | holding _ | creating _ _ _ _ => true
  | _ => false

/-- Without a timeout, nothing happens any more until a caller releases its connection or a
creation ends. -/
def State.Settled (s : State) : Prop :=
  ∀ (t : Nat) (pc : PC), s.threads[t]? = some pc →
    pc.external ∨ ∀ ch, ch.expired = false → s.pool.run t ch pc = none

/-- Some thread is blocked in `wait`. -/
def State.Blocked (s : State) : Prop :=
  ∃ (t : Nat) (start : Time), s.threads[t]? = some (.waiting start)

/-- In a settled state a thread is blocked only if nothing is idle and no slot is left. -/
def State.NobodyStranded (s : State) : Prop :=
  s.Settled → s.Blocked →
    s.pool.store.available = [] ∧ s.pool.store.sizer.current ≤ s.pool.store.inUse.len

/-- No thread is stranded in a run that keeps its wakeups. -/
theorem nobodyStranded_of_reach {minConn maxConn : Nat} {timeout : Time} {s : State}
    (h : (system minConn maxConn timeout).Reach KeepsWakeups s) : s.NobodyStranded := by
  rintro hsettled ⟨t, start, ht⟩
  have hwake := (Kept.of_reach h).wake
  have hnone : s.pool.notified = [] := by
    by_contra hne
    obtain ⟨u, hu⟩ := List.exists_mem_of_ne_nil _ hne
    have hturn := hwake.turns u
    have hpos := List.count_pos_iff.mpr hu
    rw [SyncPool.turns] at hturn
    cases hpc : s.threads[u]? with
    | none =>
      rw [hpc] at hturn
      simp only [Option.map_none, Option.getD_none] at hturn
      omega
    | some pc =>
      rw [hpc] at hturn
      simp only [Option.map_some, Option.getD_some] at hturn
      cases pc with
      | waiting start =>
        rcases hsettled u _ hpc with hext | hblocked
        · cases hext
        · have := hblocked {} rfl
          simp [SyncPool.run, hu] at this
      | _ =>
        simp only [PC.awaits] at hturn
        omega
  have hwaits : s.pool.waiting ≠ [] := by
    intro hnil
    have hturn := hwake.turns t
    rw [ht, SyncPool.turns, hnone, hnil] at hturn
    simp [PC.awaits] at hturn
  have hcov := hwake.covered.resolve_left hwaits
  rw [hnone] at hcov
  exact Store.spare_eq_zero.mp (Nat.le_zero.mp hcov)

end SalesData.Pool.Sync

import SalesData.Pool.AsyncLedger
import SalesData.Pool.Capacity
import SalesData.Pool.Slots
import SalesData.Pool.SyncLedger

/-!
# What both pools guarantee

The invariants of the ledger, read off in the states of the two pools: the bound on the
number of connections, and exclusive ownership of connections.
-/

namespace SalesData.Pool

open Base

/-- Sizes within the configured bounds, reservations included. -/
def Store.Within (s : Store) (minConn maxConn : Nat) : Prop :=
  minConn ≤ s.sizer.current ∧ s.sizer.current ≤ maxConn ∧
    s.available.length + s.inUse.len ≤ maxConn

/-- The capacity invariant, in terms of the configured bounds. -/
theorem Ledger.within_of_reach {l : Ledger} {minConn maxConn : Nat} (hle : minConn ≤ maxConn)
    (h : Reach NoShutdown minConn maxConn l) : l.store.Within minConn maxConn := by
  have hinv := CapacityInv.of_reach hle h
  obtain ⟨hmin, hmax⟩ := bounds_of_reach h
  refine ⟨?_, ?_, ?_⟩
  · rw [← hmin]
    exact hinv.bounded.1
  · rw [← hmax]
    exact hinv.bounded.2
  · rw [← hmax]
    exact hinv.total

/-- No connection is idle twice, or idle and in use at once. -/
def Store.Exclusive (s : Store) : Prop := s.idle.Nodup ∧ ∀ c ∈ s.idle, c ∉ s.used

/-- The ownership invariant, in terms of the two collections of connections. -/
theorem Ledger.OwnershipInv.exclusive {l : Ledger} (h : OwnershipInv l) : l.store.Exclusive :=
  ⟨h.idle_nodup, fun _ hc ↦ h.idle_disjoint hc⟩

namespace Async

/-- No `close_all` is called. -/
def NoCloseAll (_ : State) (a : Act) : Prop := a ≠ .call .closeAll

instance (s : State) (a : Act) : Decidable (NoCloseAll s a) := by
  unfold NoCloseAll; infer_instance

/-- Every release is by the task that acquired the connection. -/
def OwnReleases (_ : State) : Act → Prop
  | .call (.release _ _) => False
  | _ => True

instance (s : State) (a : Act) : Decidable (OwnReleases s a) :=
  match a with
  | .call (.release _ _) => isFalse id
  | .call .acquire | .call .closeAll | .call (.warmup _) | .resume _ _ | .cancel _ | .timer _
  | .metrics => isTrue trivial

/-- Only `close_all` announces a step of a shutdown. -/
theorem noShutdown_of_mem_kinds {task : Task} (h : task.pc.origin ≠ .shutdown) :
    ∀ κ ∈ task.kinds, Ledger.NoShutdown κ := by
  obtain ⟨pc, cancelled, timedOut⟩ := task
  cases pc with
  | called job =>
    cases job <;> cases cancelled <;>
      simp_all [PC.origin, Task.kinds, PC.kinds, PC.cancelKinds, Ledger.NoShutdown]
  | lockRelease c broken stray =>
    cases stray <;> cases cancelled <;>
      simp [Task.kinds, PC.kinds, PC.cancelKinds, Ledger.NoShutdown]
  | _ =>
    cases cancelled <;>
      simp_all [PC.origin, Task.kinds, PC.kinds, PC.cancelKinds, Ledger.NoShutdown]

/-- Only a release by a stranger announces a stray step. -/
theorem ownReleases_of_mem_kinds {task : Task} (h : task.pc.origin ≠ .stray) :
    ∀ κ ∈ task.kinds, Ledger.OwnReleases κ := by
  obtain ⟨pc, cancelled, timedOut⟩ := task
  cases pc with
  | called job =>
    cases job <;> cases cancelled <;>
      simp_all [PC.origin, Task.kinds, PC.kinds, PC.cancelKinds, Ledger.OwnReleases]
  | lockRelease c broken stray =>
    cases stray <;> cases cancelled <;>
      simp_all [PC.origin, Task.kinds, PC.kinds, PC.cancelKinds, Ledger.OwnReleases]
  | _ =>
    cases cancelled <;> simp [Task.kinds, PC.kinds, PC.cancelKinds, Ledger.OwnReleases]

/-- Without `close_all` the pool follows a ledger that is never shut down. -/
theorem ledger_noShutdown {minConn maxConn : Nat} {s : State}
    (h : (system minConn maxConn).Reach NoCloseAll s) :
    Ledger.Reach Ledger.NoShutdown minConn maxConn s.ledger := by
  refine ledger_of_reach h fun s a hr hok κ hκ ↦ ?_
  cases a with
  | call job =>
    cases job with
    | closeAll => exact absurd rfl hok
    | _ => simp_all [State.kinds, Ledger.NoShutdown]
  | resume t ch =>
    cases ht : s.tasks[t]? with
    | none => simp [State.kinds, ht] at hκ
    | some task =>
      have horigin := origin_of_reach (· ≠ .shutdown) hr (by decide)
        (fun _ job hj ↦ by cases job <;> simp_all [PC.origin, NoCloseAll])
        task (List.mem_of_getElem? ht)
      exact noShutdown_of_mem_kinds horigin κ (by simpa [State.kinds, ht] using hκ)
  | _ => simp_all [State.kinds, Ledger.NoShutdown]

/-- When callers release their own connections only, so do the tasks of the ledger. -/
theorem ledger_ownReleases {minConn maxConn : Nat} {s : State}
    (h : (system minConn maxConn).Reach OwnReleases s) :
    Ledger.Reach Ledger.OwnReleases minConn maxConn s.ledger := by
  refine ledger_of_reach h fun s a hr hok κ hκ ↦ ?_
  cases a with
  | call job =>
    cases job with
    | release => exact hok.elim
    | _ => simp_all [State.kinds, Ledger.OwnReleases]
  | resume t ch =>
    cases ht : s.tasks[t]? with
    | none => simp [State.kinds, ht] at hκ
    | some task =>
      have horigin := origin_of_reach (· ≠ .stray) hr (by decide)
        (fun _ job hj ↦ by cases job <;> simp_all [PC.origin, OwnReleases])
        task (List.mem_of_getElem? ht)
      exact ownReleases_of_mem_kinds horigin κ (by simpa [State.kinds, ht] using hκ)
  | _ => simp_all [State.kinds, Ledger.OwnReleases]

/-- The connection that a task has got from `acquire` and that is not taken back yet. -/
def PC.inHand : PC → Option Addr
  | holding c | lockRelease c _ false => some c
  | _ => none

/-- Task `t` has the connection `c` in hand. -/
def State.InHand (s : State) (t : Nat) (c : Addr) : Prop :=
  ∃ task, s.tasks[t]? = some task ∧ task.pc.inHand = some c

private theorem inHand_iff_role (pc : PC) (c : Addr) :
    pc.inHand = some c ↔ pc.role = .holding c := by
  cases pc with
  | called job => cases job <;> simp [PC.inHand, PC.role]
  | lockRelease d broken stray => cases stray <;> simp [PC.inHand, PC.role]
  | _ => simp [PC.inHand, PC.role]

/-- A connection in a task's hand is one in the hand of the ledger's task. -/
theorem State.inHand_iff {s : State} {t : Nat} {c : Addr} :
    s.InHand t c ↔ s.ledger.roles[t]? = some (.holding c) := by
  simp [State.InHand, State.ledger, List.getElem?_map, Option.map_eq_some_iff, inHand_iff_role]

/-- A turn is an effect on the ledger, of kinds that the task announces. -/
theorem effect_of_resume {s s' : State} {t : Nat} {ch : Choice}
    (h : step s (.resume t ch) = some s') :
    ∃ (task : Task) (pc' : PC), s.tasks[t]? = some task ∧
      s'.ledger = ⟨s'.pool.store, s.ledger.roles.set t pc'.role⟩ ∧
      Ledger.Effect (· ∈ task.kinds) s.ledger.live s.ledger.store task.pc.role
        s'.pool.store pc'.role := by
  obtain ⟨task, p', pc', ht, hch, hrun, rfl⟩ := step_resume h
  rw [← live_ledger] at hch
  refine ⟨task, pc', ht, ?_, AsyncPool.run_effect hrun hch fun _ hκ ↦ hκ⟩
  simp [State.ledger, List.map_set]

/-- Whenever a connection comes into a task's hand, the pool has not closed it. -/
def State.HandsOutOpen (s : State) : Prop :=
  ∀ t ch s' c, step s (.resume t ch) = some s' → ¬ s.InHand t c → s'.InHand t c →
    c ∉ s'.pool.store.closed

/-- Only `close_all` closes a connection that is in a task's hand. -/
def State.SparesHeld (s : State) : Prop :=
  ∀ t ch s' u c, step s (.resume t ch) = some s' → s'.InHand u c → c ∉ s.pool.store.closed →
    c ∈ s'.pool.store.closed → ∃ task, s.tasks[t]? = some task ∧ task.pc.origin = .shutdown

private theorem not_stray_of_reach {minConn maxConn : Nat} {s : State}
    (h : (system minConn maxConn).Reach OwnReleases s) :
    ∀ task ∈ s.tasks, task.pc.origin ≠ .stray :=
  origin_of_reach (· ≠ .stray) h (by decide) fun _ job hj ↦ by
    cases job <;> simp_all [PC.origin, OwnReleases]

/-- A connection comes into a task's hand open. -/
theorem handsOutOpen_of_reach {minConn maxConn : Nat} {s : State}
    (h : (system minConn maxConn).Reach OwnReleases s) : s.HandsOutOpen := by
  intro t ch s' c hs hbefore hafter
  obtain ⟨task, pc', ht, hl, heff⟩ := effect_of_resume hs
  have hrole : s.ledger.roles[t]? = some task.pc.role := by simp [State.ledger, ht]
  rw [State.inHand_iff, hl, getElem?_set_of_some hrole] at hafter
  rw [Option.some.inj hafter] at heff
  rw [State.inHand_iff, hrole] at hbefore
  have hstray := not_stray_of_reach h task (List.mem_of_getElem? ht)
  exact heff.open_of_handOut (Ledger.OwnershipInv.of_reach (ledger_ownReleases h))
    (ownReleases_of_mem_kinds hstray) hrole (by simpa using hbefore)

/-- A connection in a task's hand is closed by nobody but `close_all`. -/
theorem sparesHeld_of_reach {minConn maxConn : Nat} {s : State}
    (h : (system minConn maxConn).Reach OwnReleases s) : s.SparesHeld := by
  intro t ch s' u c hs hu hopen hclosed
  obtain ⟨task, pc', ht, hl, heff⟩ := effect_of_resume hs
  have hrole : s.ledger.roles[t]? = some task.pc.role := by simp [State.ledger, ht]
  have hstray := not_stray_of_reach h task (List.mem_of_getElem? ht)
  refine ⟨task, ht, ?_⟩
  by_contra horigin
  rw [State.inHand_iff, hl] at hu
  refine hopen (heff.closed_of_inHand (Ledger.OwnershipInv.of_reach (ledger_ownReleases h))
    (fun κ hκ ↦ ⟨ownReleases_of_mem_kinds hstray κ hκ, ?_⟩) hrole hclosed hu)
  rintro rfl
  exact (noShutdown_of_mem_kinds horigin _ hκ).2.1 rfl

/-- An address that nobody owns stays unowned, unless an object is created there. -/
theorem unowned_of_resume {minConn maxConn : Nat} {s s' : State} {t : Nat} {ch : Choice} {a : Addr}
    (hr : (system minConn maxConn).Reach OwnReleases s) (h : step s (.resume t ch) = some s')
    (ha : a ≠ ch.addr) (hz : s.ledger.ownerCount a = 0) : s'.ledger.ownerCount a = 0 := by
  obtain ⟨task, p', pc', ht, hch, hrun, rfl⟩ := step_resume h
  have hrole : s.ledger.roles[t]? = some task.pc.role := by simp [State.ledger, ht]
  have hstray := not_stray_of_reach hr task (List.mem_of_getElem? ht)
  have hfresh : ch.addr ∉ a :: s.ledger.live := by
    rw [live_ledger, List.mem_cons, not_or]
    exact ⟨Ne.symm ha, hch⟩
  have he : Ledger.Effect (· ∈ task.kinds) _ _ _ _ _ :=
    AsyncPool.run_effect hrun hfresh fun _ hκ ↦ hκ
  have hset := he.unowned (ownReleases_of_mem_kinds hstray) hrole (List.mem_cons_self ..) hz
  simpa [State.ledger, List.map_set] using hset

namespace AsyncPool

private theorem releaseBody_closing {p : AsyncPool} {c d : Addr} {broken : Bool} {ch : Choice}
    (h : (p.releaseBody c broken ch).2 = .closing d) : c = d ∧ broken = true := by
  unfold releaseBody at h
  split at h
  · cases h
  · dsimp only at h
    split at h
    · next hb => exact ⟨PC.closing.inj h, (Bool.and_eq_true_iff.mp hb).1⟩
    · cases h

private theorem underLock_closing {p : AsyncPool} {ch : Choice} {q : PC} {d : Addr}
    (h : (p.underLock ch q).2 = .closing d) (hq : ∀ c, q ≠ .closing c) :
    ∃ stray, q = .lockRelease d true stray ∧
      (p.underLock ch q).1.store = (p.store.release d true).1 := by
  cases q with
  | loop start again =>
    simp only [underLock, loopBody] at h
    split at h <;> cases h
  | lockRelease c broken stray =>
    obtain ⟨rfl, rfl⟩ := releaseBody_closing h
    exact ⟨stray, rfl, (p.releaseBody_store c true ch).1⟩
  | lockCloseAll =>
    simp only [underLock] at h
    cases hd : p.store.drain.2 <;> simp [hd, nextClose] at h
  | closing c => exact absurd rfl (hq c)
  | _ => simp [underLock] at h

private theorem arrive_closing {p : AsyncPool} {t : Nat} {ch : Choice} {q : PC} {d : Addr}
    (h : (p.arrive t ch q).2 = .closing d) (hq : ∀ c, q ≠ .closing c) :
    ∃ stray, q = .lockRelease d true stray ∧
      (p.arrive t ch q).1.store = (p.store.release d true).1 := by
  unfold arrive at h ⊢
  split at h
  · next hfree =>
    rw [if_pos hfree]
    exact underLock_closing h hq
  · exact absurd h (hq d)

private theorem throwCancelled_closing {p : AsyncPool} {t : Nat} {ch : Choice} {pc : PC}
    {d : Addr} (h : (p.throwCancelled t ch pc).2 = .closing d) : False := by
  cases pc with
  | waiting | lockTimeout | creating =>
    obtain ⟨stray, hq, -⟩ := arrive_closing h (by simp)
    cases hq
  | _ => cases h

private theorem resume_closing {p p' : AsyncPool} {t : Nat} {ch : Choice} {pc pc' : PC} {d : Addr}
    (h : p.Resumes t ch pc p' pc') (hd : pc' = .closing d) :
    (pc.role = .holding d ∨ pc.role = .straying d) ∧ p'.store = (p.store.release d true).1 := by
  cases h with
  | arrives harrives =>
    cases harrives with
    | stray =>
      obtain ⟨stray, hq, hs⟩ := arrive_closing hd (by simp)
      obtain rfl := (PC.lockRelease.inj hq).1
      exact ⟨.inr rfl, hs⟩
    | release =>
      obtain ⟨stray, hq, hs⟩ := arrive_closing hd (by simp)
      obtain rfl := (PC.lockRelease.inj hq).1
      exact ⟨.inl rfl, hs⟩
    | acquire | closeAll | warmup | woken | created | failed =>
      obtain ⟨stray, hq, -⟩ := arrive_closing hd (by simp)
      cases hq
  | granted hq =>
    have hnot : ∀ c, pc ≠ .closing c := by
      rintro c rfl
      cases hq
    obtain ⟨stray, rfl, hs⟩ := underLock_closing hd hnot
    refine ⟨?_, hs⟩
    cases stray with
    | false => exact .inl rfl
    | true => exact .inr rfl
  | closed => cases hd
  | @closes rest => cases rest <;> cases hd

private theorem run_closing {p p' : AsyncPool} {t : Nat} {ch : Choice} {task : Task} {pc' : PC}
    {d : Addr} (h : p.run t ch task = some (p', pc')) (hd : pc' = .closing d) :
    (task.pc.role = .holding d ∨ task.pc.role = .straying d) ∧
      p'.store = (p.store.release d true).1 := by
  cases runs_of_run h with
  | cancelled => exact (throwCancelled_closing hd).elim
  | timedOut =>
    obtain ⟨stray, hq, -⟩ := arrive_closing hd (by simp)
    cases hq
  | resumes hresumes => exact resume_closing hresumes hd

end AsyncPool

/-- From the hand-out of a connection to the end of its own release. -/
def PC.returning : PC → Bool
  | holding _ | lockRelease _ _ false | closing _ => true
  | _ => false

namespace AsyncPool

private theorem releaseBody_returning (p : AsyncPool) (c : Addr) (broken : Bool) (ch : Choice) :
    (p.releaseBody c broken ch).2.returning = true ∨
      (p.releaseBody c broken ch).2 = .ended none := by
  unfold releaseBody
  split
  · exact .inr rfl
  · dsimp only
    split
    · exact .inl rfl
    · exact .inr rfl

private theorem arrive_returning (p : AsyncPool) (t : Nat) (c : Addr) (broken : Bool)
    (ch : Choice) : (p.arrive t ch (.lockRelease c broken false)).2.returning = true ∨
      (p.arrive t ch (.lockRelease c broken false)).2 = .ended none := by
  unfold arrive
  split
  · exact releaseBody_returning _ c broken ch
  · exact .inl rfl

private theorem resume_returning {p p' : AsyncPool} {t : Nat} {ch : Choice} {pc pc' : PC}
    (h : p.Resumes t ch pc p' pc') (hpc : pc.returning = true) :
    pc'.returning = true ∨ pc' = .ended none := by
  cases h with
  | arrives harrives =>
    cases harrives with
    | release => exact p.arrive_returning t _ ch.broken ch
    | _ => cases hpc
  | granted hq =>
    cases pc with
    | lockRelease c broken stray =>
      cases stray with
      | true => cases hpc
      | false => exact releaseBody_returning _ c broken ch
    | holding | closing => cases hq
    | _ => cases hpc
  | closed => exact .inr rfl
  | closes => cases hpc

/-- A release goes on, or ends; it fails only when it is cancelled. -/
theorem run_returning {p p' : AsyncPool} {t : Nat} {ch : Choice} {task : Task} {pc' : PC}
    (h : p.run t ch task = some (p', pc')) (hpc : task.pc.returning = true) :
    pc'.returning = true ∨
      ∃ o, pc' = .ended o ∧ (task.cancelled = false → o = none) := by
  cases runs_of_run h with
  | @cancelled pc =>
    refine .inr ⟨some .cancelledError, ?_, fun hn ↦ by cases hn⟩
    cases pc with
    | holding | lockRelease | closing => rfl
    | _ => cases hpc
  | timedOut => cases hpc
  | resumes hresumes =>
    rcases resume_returning hresumes hpc with hr | hr
    · exact .inl hr
    · exact .inr ⟨none, hr, fun _ ↦ rfl⟩

end AsyncPool

/-- A connection that is being closed inside `release` is nobody's any more. -/
theorem unowned_of_closing {minConn maxConn : Nat} {s s' : State} {t : Nat} {ch : Choice}
    {task : Task} {d : Addr} (hr : (system minConn maxConn).Reach OwnReleases s)
    (h : step s (.resume t ch) = some s') (ht : s'.tasks[t]? = some task)
    (hd : task.pc = .closing d) :
    s.InHand t d ∧ s'.ledger.ownerCount d = 0 := by
  obtain ⟨before, p', pc', hbefore, -, hrun, rfl⟩ := step_resume h
  obtain rfl := Option.some.inj ((getElem?_set_of_some hbefore _).symm.trans ht)
  dsimp only at hd
  subst hd
  obtain ⟨hrole, hstore⟩ := AsyncPool.run_closing hrun rfl
  have hroles : s.ledger.roles[t]? = some before.pc.role := by simp [State.ledger, hbefore]
  have hhold : before.pc.role = .holding d := by
    rcases hrole with hrole | hrole
    · exact hrole
    · have horigin := not_stray_of_reach hr before (List.mem_of_getElem? hbefore)
      revert hrole horigin
      cases before.pc with
      | called job => cases job <;> simp [PC.role, PC.origin]
      | lockRelease c broken stray => cases stray <;> simp [PC.role, PC.origin]
      | _ => simp [PC.role]
  rw [hhold] at hroles
  refine ⟨State.inHand_iff.mpr hroles, ?_⟩
  have hidle : p'.store.idle = s.ledger.store.idle := by
    rw [hstore]
    exact Store.idle_release_broken _ d
  have hledger : State.ledger ⟨p', s.tasks.set t ⟨.closing d, false, false⟩⟩ =
      ⟨p'.store, s.ledger.roles.set t .idle⟩ := by
    simp [State.ledger, List.map_set, PC.role]
  rw [hledger]
  exact (Ledger.OwnershipInv.of_reach (ledger_ownReleases hr)).unowned_of_drop hroles hidle

end Async

namespace Sync

/-- No `close_all` is called. -/
def NoCloseAll (_ : State) (a : Act) : Prop := a ≠ .call .closeAll

instance (s : State) (a : Act) : Decidable (NoCloseAll s a) := by
  unfold NoCloseAll; infer_instance

/-- Every release is by the thread that acquired the connection. -/
def OwnReleases (_ : State) : Act → Prop
  | .call (.release _ _) => False
  | _ => True

instance (s : State) (a : Act) : Decidable (OwnReleases s a) :=
  match a with
  | .call (.release _ _) => isFalse id
  | .call .acquire | .call .closeAll | .call (.warmup _) | .run _ _ | .metrics => isTrue trivial

/-- Only `close_all` announces a step of a shutdown. -/
theorem noShutdown_of_mem_kinds {pc : PC} (h : pc.origin ≠ .shutdown) :
    ∀ κ ∈ pc.kinds, Ledger.NoShutdown κ := by
  cases pc with
  | called job => cases job <;> simp_all [PC.origin, PC.kinds, Ledger.NoShutdown]
  | _ => simp_all [PC.origin, PC.kinds, Ledger.NoShutdown]

/-- Only a release by a stranger announces a stray step. -/
theorem ownReleases_of_mem_kinds {pc : PC} (h : pc.origin ≠ .stray) :
    ∀ κ ∈ pc.kinds, Ledger.OwnReleases κ := by
  cases pc with
  | called job => cases job <;> simp_all [PC.origin, PC.kinds, Ledger.OwnReleases]
  | _ => simp [PC.kinds, Ledger.OwnReleases]

/-- Without `close_all` the pool follows a ledger that is never shut down. -/
theorem ledger_noShutdown {minConn maxConn : Nat} {timeout : Time} {s : State}
    (h : (system minConn maxConn timeout).Reach NoCloseAll s) :
    Ledger.Reach Ledger.NoShutdown minConn maxConn s.ledger := by
  refine ledger_of_reach h fun s a hr hok κ hκ ↦ ?_
  cases a with
  | call job =>
    cases job with
    | closeAll => exact absurd rfl hok
    | _ => simp_all [State.kinds, Ledger.NoShutdown]
  | run t ch =>
    cases ht : s.threads[t]? with
    | none => simp [State.kinds, ht] at hκ
    | some pc =>
      have horigin := origin_of_reach (· ≠ .shutdown) hr (by decide)
        (fun _ job hj ↦ by cases job <;> simp_all [PC.origin, NoCloseAll])
        pc (List.mem_of_getElem? ht)
      exact noShutdown_of_mem_kinds horigin κ (by simpa [State.kinds, ht] using hκ)
  | metrics => simp_all [State.kinds, Ledger.NoShutdown]

/-- When callers release their own connections only, so do the threads of the ledger. -/
theorem ledger_ownReleases {minConn maxConn : Nat} {timeout : Time} {s : State}
    (h : (system minConn maxConn timeout).Reach OwnReleases s) :
    Ledger.Reach Ledger.OwnReleases minConn maxConn s.ledger := by
  refine ledger_of_reach h fun s a hr hok κ hκ ↦ ?_
  cases a with
  | call job =>
    cases job with
    | release => exact hok.elim
    | _ => simp_all [State.kinds, Ledger.OwnReleases]
  | run t ch =>
    cases ht : s.threads[t]? with
    | none => simp [State.kinds, ht] at hκ
    | some pc =>
      have horigin := origin_of_reach (· ≠ .stray) hr (by decide)
        (fun _ job hj ↦ by cases job <;> simp_all [PC.origin, OwnReleases])
        pc (List.mem_of_getElem? ht)
      exact ownReleases_of_mem_kinds horigin κ (by simpa [State.kinds, ht] using hκ)
  | metrics => simp_all [State.kinds, Ledger.OwnReleases]

/-- The connection that a thread has been given inside `acquire` or has got from it, and that
is not taken back yet. -/
def PC.inHand : PC → Option Addr
  | leaving c | holding c => some c
  | _ => none

/-- Thread `t` has the connection `c` in hand. -/
def State.InHand (s : State) (t : Nat) (c : Addr) : Prop :=
  ∃ pc, s.threads[t]? = some pc ∧ pc.inHand = some c

private theorem inHand_iff_role (pc : PC) (c : Addr) :
    pc.inHand = some c ↔ pc.role = .holding c := by
  cases pc with
  | called job => cases job <;> simp [PC.inHand, PC.role]
  | _ => simp [PC.inHand, PC.role]

/-- A connection in a thread's hand is one in the hand of the ledger's task. -/
theorem State.inHand_iff {s : State} {t : Nat} {c : Addr} :
    s.InHand t c ↔ s.ledger.roles[t]? = some (.holding c) := by
  simp [State.InHand, State.ledger, List.getElem?_map, Option.map_eq_some_iff, inHand_iff_role]

/-- A turn is an effect on the ledger, of kinds that the thread announces. -/
theorem effect_of_run {s s' : State} {t : Nat} {ch : Choice} (h : step s (.run t ch) = some s') :
    ∃ pc pc' : PC, s.threads[t]? = some pc ∧
      s'.ledger = ⟨s'.pool.store, s.ledger.roles.set t pc'.role⟩ ∧
      Ledger.Effect (· ∈ pc.kinds) s.ledger.live s.ledger.store pc.role s'.pool.store
        pc'.role := by
  obtain ⟨pc, p', pc', ht, hch, hrun, rfl⟩ := step_run h
  rw [← live_ledger] at hch
  refine ⟨pc, pc', ht, ?_, SyncPool.run_effect hrun hch fun _ hκ ↦ hκ⟩
  simp [State.ledger, List.map_set]

/-- Whenever a connection comes into a thread's hand, the pool has not closed it. -/
def State.HandsOutOpen (s : State) : Prop :=
  ∀ t ch s' c, step s (.run t ch) = some s' → ¬ s.InHand t c → s'.InHand t c →
    c ∉ s'.pool.store.closed

/-- Only `close_all` closes a connection that is in a thread's hand. -/
def State.SparesHeld (s : State) : Prop :=
  ∀ t ch s' u c, step s (.run t ch) = some s' → s'.InHand u c → c ∉ s.pool.store.closed →
    c ∈ s'.pool.store.closed → ∃ pc, s.threads[t]? = some pc ∧ pc.origin = .shutdown

/-- Whenever `acquire` returns a connection, the pool has not closed it. -/
def State.ReturnsOpen (s : State) : Prop :=
  ∀ t ch s' c, step s (.run t ch) = some s' → s.threads[t]? ≠ some (.holding c) →
    s'.threads[t]? = some (.holding c) → c ∉ s.pool.store.closed

private theorem not_stray_of_reach {minConn maxConn : Nat} {timeout : Time} {s : State}
    (h : (system minConn maxConn timeout).Reach OwnReleases s) :
    ∀ pc ∈ s.threads, pc.origin ≠ .stray :=
  origin_of_reach (· ≠ .stray) h (by decide) fun _ job hj ↦ by
    cases job <;> simp_all [PC.origin, OwnReleases]

/-- A connection comes into a thread's hand open. -/
theorem handsOutOpen_of_reach {minConn maxConn : Nat} {timeout : Time} {s : State}
    (h : (system minConn maxConn timeout).Reach OwnReleases s) : s.HandsOutOpen := by
  intro t ch s' c hs hbefore hafter
  obtain ⟨pc, pc', ht, hl, heff⟩ := effect_of_run hs
  have hrole : s.ledger.roles[t]? = some pc.role := by simp [State.ledger, ht]
  rw [State.inHand_iff, hl, getElem?_set_of_some hrole] at hafter
  rw [Option.some.inj hafter] at heff
  rw [State.inHand_iff, hrole] at hbefore
  have hstray := not_stray_of_reach h pc (List.mem_of_getElem? ht)
  exact heff.open_of_handOut (Ledger.OwnershipInv.of_reach (ledger_ownReleases h))
    (ownReleases_of_mem_kinds hstray) hrole (by simpa using hbefore)

/-- A connection in a thread's hand is closed by nobody but `close_all`. -/
theorem sparesHeld_of_reach {minConn maxConn : Nat} {timeout : Time} {s : State}
    (h : (system minConn maxConn timeout).Reach OwnReleases s) : s.SparesHeld := by
  intro t ch s' u c hs hu hopen hclosed
  obtain ⟨pc, pc', ht, hl, heff⟩ := effect_of_run hs
  have hrole : s.ledger.roles[t]? = some pc.role := by simp [State.ledger, ht]
  have hstray := not_stray_of_reach h pc (List.mem_of_getElem? ht)
  refine ⟨pc, ht, ?_⟩
  by_contra horigin
  rw [State.inHand_iff, hl] at hu
  refine hopen (heff.closed_of_inHand (Ledger.OwnershipInv.of_reach (ledger_ownReleases h))
    (fun κ hκ ↦ ⟨ownReleases_of_mem_kinds hstray κ hκ, ?_⟩) hrole hclosed hu)
  rintro rfl
  exact (noShutdown_of_mem_kinds horigin _ hκ).2.1 rfl

end Sync

/-- Without `close_all` neither pool ever exceeds its maximal size, and the current size stays
within the configured bounds. -/
theorem pools_within {minConn maxConn : Nat} (h : minConn ≤ maxConn) :
    (∀ s, (Async.system minConn maxConn).Reach Async.NoCloseAll s →
      s.pool.store.Within minConn maxConn) ∧
    ∀ timeout s, (Sync.system minConn maxConn timeout).Reach Sync.NoCloseAll s →
      s.pool.store.Within minConn maxConn :=
  ⟨fun _ hs ↦ Ledger.within_of_reach h (Async.ledger_noShutdown hs),
    fun _ _ hs ↦ Ledger.within_of_reach h (Sync.ledger_noShutdown hs)⟩

/-- Two acquires of an asynchronous pool: one creates a connection, the other one queues. -/
def Async.twoAcquires : List Async.Act :=
  [.call .acquire, .call .acquire, .resume 0 { addr := 1 }, .resume 1 { addr := 2 },
    .resume 0 { addr := 3 }]

/-- Two acquires of a thread pool: one creates a connection, the other one waits. -/
def Sync.twoAcquires : List Sync.Act :=
  [.call .acquire, .call .acquire, .run 0 {}, .run 1 {}, .run 0 { addr := 1 },
    .run 1 { addr := 2 }, .run 0 { addr := 3 }, .run 0 { addr := 4 }]

/-- Runs in which the bound is reached. -/
theorem pools_within_twoAcquires :
    (∃ s, (Async.system 1 1).Reach Async.NoCloseAll s ∧ s.pool.store.inUse.len = 1 ∧
      s.pool.store.Within 1 1) ∧
    ∃ s, (Sync.system 1 1 5).Reach Sync.NoCloseAll s ∧ s.pool.store.inUse.len = 1 ∧
      s.pool.store.Within 1 1 := by
  obtain ⟨s, hs, hlen⟩ := System.exists_of_exec (Async.system 1 1) Async.NoCloseAll
    Async.twoAcquires (fun s ↦ s.pool.store.inUse.len == 1) (by decide +kernel)
  obtain ⟨u, hu, hlen'⟩ := System.exists_of_exec (Sync.system 1 1 5) Sync.NoCloseAll
    Sync.twoAcquires (fun s ↦ s.pool.store.inUse.len == 1) (by decide +kernel)
  exact ⟨⟨s, hs, by simpa using hlen, (pools_within (by decide)).1 s hs⟩,
    ⟨u, hu, by simpa using hlen', (pools_within (by decide)).2 5 u hu⟩⟩

/-- In both pools nobody shares a connection, and no connection is idle twice or idle and in
use; a connection is open when it comes into its holder's hand, and afterwards only `close_all`
closes it there. -/
theorem handOut_safe (minConn maxConn : Nat) (timeout : Time) :
    (∀ s, (Async.system minConn maxConn).Reach Async.OwnReleases s →
      s.pool.store.Exclusive ∧ (∀ t u c, s.InHand t c → s.InHand u c → t = u) ∧
        s.HandsOutOpen ∧ s.SparesHeld) ∧
    ∀ s, (Sync.system minConn maxConn timeout).Reach Sync.OwnReleases s →
      s.pool.store.Exclusive ∧ (∀ t u c, s.InHand t c → s.InHand u c → t = u) ∧
        s.HandsOutOpen ∧ s.SparesHeld := by
  constructor
  · intro s hs
    have hinv := Ledger.OwnershipInv.of_reach (Async.ledger_ownReleases hs)
    refine ⟨hinv.exclusive, fun t u c ht hu ↦ ?_, Async.handsOutOpen_of_reach hs,
      Async.sparesHeld_of_reach hs⟩
    exact hinv.holder_unique (Async.State.inHand_iff.mp ht) (Async.State.inHand_iff.mp hu)
  · intro s hs
    have hinv := Ledger.OwnershipInv.of_reach (Sync.ledger_ownReleases hs)
    refine ⟨hinv.exclusive, fun t u c ht hu ↦ ?_, Sync.handsOutOpen_of_reach hs,
      Sync.sparesHeld_of_reach hs⟩
    exact hinv.holder_unique (Sync.State.inHand_iff.mp ht) (Sync.State.inHand_iff.mp hu)

/-- A connection goes from one holder to a waiter; `close_all` closes it before the waiter has
returned from `acquire`. -/
def Sync.overtaken : List Sync.Act :=
  Sync.twoAcquires ++ [.run 0 {}, .run 1 {}, .call .closeAll, .run 2 {}, .run 2 {}]

/-- In the thread pool `acquire` can return a connection that `close_all` has closed. -/
theorem closeAll_overtakes_return :
    ¬ ∀ s, (Sync.system 1 1 5).Reach Sync.OwnReleases s → s.ReturnsOpen := by
  intro h
  obtain ⟨s, hs, hend⟩ := System.exists_of_exec (Sync.system 1 1 5) Sync.OwnReleases
    Sync.overtaken (fun s ↦ s.threads[1]? == some (.leaving 3) && s.pool.store.closed.contains 3 &&
      ((Sync.step s (.run 1 {})).map fun s' ↦ s'.threads[1]?) == some (some (.holding 3)))
    (by decide +kernel)
  simp only [Bool.and_eq_true, beq_iff_eq, List.contains_iff_mem] at hend
  obtain ⟨⟨hleaving, hclosed⟩, hreturn⟩ := hend
  obtain ⟨s', hs', hholding⟩ := Option.map_eq_some_iff.mp hreturn
  exact h s hs 1 {} s' 3 hs' (by simp [hleaving]) hholding hclosed

/-- Runs in which the connection that the first caller gives back goes to the second one. -/
theorem handOut_safe_overtaken :
    (∃ s, (Async.system 1 1).Reach Async.OwnReleases s ∧ s.InHand 0 3 ∧ s.HandsOutOpen) ∧
    ∃ s, (Sync.system 1 1 5).Reach Sync.OwnReleases s ∧ s.InHand 1 3 ∧ 3 ∈ s.pool.store.closed ∧
      s.pool.store.Exclusive := by
  obtain ⟨s, hs, hend⟩ := System.exists_of_exec (Async.system 1 1) Async.OwnReleases
    Async.twoAcquires (fun s ↦ (s.tasks[0]?.map (·.pc)) == some (.holding 3)) (by decide +kernel)
  obtain ⟨u, hu, hend'⟩ := System.exists_of_exec (Sync.system 1 1 5) Sync.OwnReleases
    Sync.overtaken (fun s ↦ s.threads[1]? == some (.leaving 3) && s.pool.store.closed.contains 3)
    (by decide +kernel)
  simp only [Bool.and_eq_true, beq_iff_eq, List.contains_iff_mem] at hend hend'
  obtain ⟨task, ht, hpc⟩ := Option.map_eq_some_iff.mp hend
  exact ⟨⟨s, hs, ⟨task, ht, by rw [hpc]; rfl⟩, ((handOut_safe 1 1 5).1 s hs).2.2.1⟩,
    ⟨u, hu, ⟨_, hend'.1, rfl⟩, hend'.2, ((handOut_safe 1 1 5).2 u hu).1⟩⟩

end SalesData.Pool

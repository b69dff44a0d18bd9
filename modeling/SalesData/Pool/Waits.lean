import Mathlib.Tactic.Linarith
import SalesData.Base.System
import SalesData.Pool.Store

/-!
# Waiting under a timeout

Any pool on a clock, seen from its acquires. Time passes only while no acquire could go on, and
never past the moment at which a wait's timer is due; everything else happens at once. An audit
records when each task began to wait and how long it has been blocked, and what the pool looked
like whenever an acquire was refused.
-/

namespace SalesData.Pool

open Base

/-- Nothing is available and every slot is taken. -/
def Store.Full (s : Store) : Prop := s.available = [] ∧ s.sizer.current ≤ s.inUse.len

instance (s : Store) : Decidable s.Full := by unfold Store.Full; infer_instance

/-- Where a task is with its acquire; `start` is the clock at the beginning of the call. -/
inductive Phase where
  | unstarted
  | acquiring (start : Time)
  | waiting (start : Time)
  /-- `MaxConnectionsExceeded` is raised. -/
  | refused
  | finished
  deriving DecidableEq, Repr

/-- What a timed run has to know of a pool and its tasks. -/
structure Acquires (σ α : Type) where
  step : σ → α → Option σ
  store : σ → Store
  size : σ → Nat
  phase : σ → Nat → Phase
  /-- The task's acquire can go on, or queues for the lock. -/
  pending : σ → Nat → Bool
  /-- The task that runs, with its reading of the clock. -/
  turn : α → Option (Nat × Time)
  /-- The task whose timer fires. -/
  expiry : α → Option Nat
  /-- When the timer of a wait that began at `since` fires. -/
  due : (since start : Time) → Time

/-- When a task began to wait, and how long it was blocked before. -/
structure WaitAudit where
  since : Time
  blocked : Time
  deriving DecidableEq, Repr

/-- A pool on a clock. -/
structure Timed (σ : Type) where
  state : σ
  clock : Time
  audit : Nat → WaitAudit
  refusals : List Store

/-- Time passes, or something happens. -/
inductive Event (α : Type) where
  | pass (now : Time)
  | act (a : α)

/-- The audit of a task that goes from one phase to another. -/
def WaitAudit.next (audit : WaitAudit) (clock : Time) (before after : Phase) : WaitAudit where
  since := match after with
    | .waiting _ => clock
    | _ => audit.since
  blocked := match before with
    | .waiting _ => audit.blocked + (clock - audit.since)
    | _ => audit.blocked

namespace Acquires

variable {σ α : Type} (pool : Acquires σ α)

/-- Task `t` lets the time pass up to `now`. -/
def letsPass (s : Timed σ) (now : Time) (t : Nat) : Bool :=
  !pool.pending s.state t &&
    match pool.phase s.state t with
    | .waiting start => decide (now ≤ pool.due (s.audit t).since start)
    | _ => true

/-- A turn reads the clock, and a timer fires when it is due. -/
def onTime (s : Timed σ) (a : α) : Bool :=
  (pool.turn a).all (fun turn ↦ decide (turn.2 = s.clock)) &&
    (pool.expiry a).all fun t ↦
      match pool.phase s.state t with
      | .waiting start => decide (s.clock = pool.due (s.audit t).since start)
      | _ => true

/-- Write down what a step to `state` means for the task that ran. -/
def record (s : Timed σ) (a : α) (state : σ) : Timed σ :=
  match pool.turn a with
  | none => { s with state := state }
  | some (t, _) =>
    let before := pool.phase s.state t
    let after := pool.phase state t
    { s with
      state := state
      audit := Function.update s.audit t ((s.audit t).next s.clock before after)
      refusals := if after = .refused ∧ before ≠ .refused then pool.store state :: s.refusals
        else s.refusals }

/-- One event. -/
def timedStep (s : Timed σ) : Event α → Option (Timed σ)
  | .pass now =>
    if s.clock ≤ now ∧ ∀ t < pool.size s.state, pool.letsPass s now t = true then
      some { s with clock := now }
    else none
  | .act a =>
    if pool.onTime s a then (pool.step s.state a).map (pool.record s a) else none

/-- The pool on a clock. -/
def timed (init : σ) (clock : Time) : System (Timed σ) (Event α) :=
  ⟨⟨init, clock, fun _ ↦ ⟨0, 0⟩, []⟩, pool.timedStep⟩

/-- A record keeps the new state and the clock. -/
theorem record_frame (s : Timed σ) (a : α) (state : σ) :
    (pool.record s a state).state = state ∧ (pool.record s a state).clock = s.clock := by
  unfold record
  split <;> exact ⟨rfl, rfl⟩

/-- Time passes for everybody at once. -/
theorem timedStep_pass {pool : Acquires σ α} {s s' : Timed σ} {now : Time}
    (h : pool.timedStep s (.pass now) = some s') :
    s.clock ≤ now ∧ (∀ t < pool.size s.state, pool.letsPass s now t = true) ∧
      s' = { s with clock := now } := by
  unfold timedStep at h
  dsimp only at h
  split at h
  · next hpass => exact ⟨hpass.1, hpass.2, (Option.some.inj h).symm⟩
  · cases h

/-- An action happens on time, and is recorded. -/
theorem timedStep_act {pool : Acquires σ α} {s s' : Timed σ} {a : α}
    (h : pool.timedStep s (.act a) = some s') :
    pool.onTime s a = true ∧ ∃ state, pool.step s.state a = some state ∧
      s' = pool.record s a state := by
  unfold timedStep at h
  dsimp only at h
  split at h
  · next htime =>
    obtain ⟨state, hstep, rfl⟩ := Option.map_eq_some_iff.mp h
    exact ⟨htime, state, hstep, rfl⟩
  · cases h

/-- The turn of a task reads the clock. -/
theorem clock_of_onTime {pool : Acquires σ α} {s : Timed σ} {a : α} {t : Nat} {now : Time}
    (h : pool.onTime s a = true) (hturn : pool.turn a = some (t, now)) : now = s.clock := by
  unfold onTime at h
  rw [hturn] at h
  simp only [Option.all_some, Bool.and_eq_true, decide_eq_true_eq] at h
  exact h.1

/-- How long task `t` has been blocked in all. -/
def blocked (s : Timed σ) (t : Nat) : Time :=
  match pool.phase s.state t with
  | .waiting _ => (s.audit t).blocked + (s.clock - (s.audit t).since)
  | _ => (s.audit t).blocked

/-- The timeout is honoured: no wait began when the time of its acquire was over, nobody was
blocked for longer, and whoever was refused found the pool full. -/
structure Honours (timeout : Time) (s : Timed σ) : Prop where
  inTime : ∀ t start, pool.phase s.state t = .waiting start → (s.audit t).since < start + timeout
  bounded : ∀ t, pool.blocked s t ≤ timeout
  full : ∀ store ∈ s.refusals, store.Full

/-- What a turn may do to a task's acquire when the timeout is to be honoured. -/
inductive Fair (timeout clock : Time) (full : Prop) : Phase → Phase → Prop
  | unstarted : Fair timeout clock full .unstarted .unstarted
  | start : Fair timeout clock full .unstarted (.acquiring clock)
  | look {start : Time} : Fair timeout clock full (.waiting start) (.acquiring start)
  | acquiring {start : Time} : Fair timeout clock full (.acquiring start) (.acquiring start)
  | wait {before : Phase} {start : Time} :
      before = .unstarted ∧ start = clock ∨ before = .acquiring start ∨ before = .waiting start →
      clock < start + timeout → pool.due clock start ≤ start + timeout →
      Fair timeout clock full before (.waiting start)
  | refuse {before : Phase} : full → Fair timeout clock full before .refused
  | refused : Fair timeout clock full .refused .refused
  | finished {before : Phase} : Fair timeout clock full before .finished

/-- What a task's audit says in each phase. -/
def Sound (timeout clock : Time) (audit : WaitAudit) : Phase → Prop
  | .unstarted => audit.blocked = 0
  | .acquiring start => audit.blocked ≤ clock - start ∧ audit.blocked ≤ timeout
  | .waiting start =>
    audit.blocked ≤ audit.since - start ∧ audit.since < start + timeout ∧
      clock ≤ start + timeout ∧ pool.due audit.since start ≤ start + timeout
  | .refused | .finished => audit.blocked ≤ timeout

/-- Every audit is sound, and whoever was refused found the pool full. -/
structure WaitInv (timeout : Time) (s : Timed σ) : Prop where
  sound : ∀ t, pool.Sound timeout s.clock (s.audit t) (pool.phase s.state t)
  full : ∀ store ∈ s.refusals, store.Full

/-- Sound audits bound what has to be bounded. -/
theorem WaitInv.honours {pool : Acquires σ α} {timeout : Time} {s : Timed σ} (ht : 0 ≤ timeout)
    (h : pool.WaitInv timeout s) : pool.Honours timeout s where
  inTime := by
    intro t start hp
    have hsound := h.sound t
    rw [hp] at hsound
    exact hsound.2.1
  bounded := by
    intro t
    have hsound := h.sound t
    unfold blocked
    cases hp : pool.phase s.state t with
    | unstarted =>
      rw [hp] at hsound
      exact hsound.trans_le ht
    | acquiring start =>
      rw [hp] at hsound
      exact hsound.2
    | waiting start =>
      rw [hp] at hsound
      obtain ⟨hblocked, -, hclock, -⟩ := hsound
      dsimp only
      linarith
    | refused =>
      rw [hp] at hsound
      exact hsound
    | finished =>
      rw [hp] at hsound
      exact hsound
  full := h.full

/-- A fair turn keeps its task's audit sound. -/
theorem Sound.next {pool : Acquires σ α} {timeout clock : Time} {full : Prop} {audit : WaitAudit}
    {before after : Phase} (h : pool.Sound timeout clock audit before) (ht : 0 ≤ timeout)
    (hfair : pool.Fair timeout clock full before after) :
    pool.Sound timeout clock (audit.next clock before after) after := by
  have hblocked : (audit.next clock before after).blocked ≤ timeout := by
    cases before with
    | unstarted => exact h.trans_le ht
    | acquiring start => exact h.2
    | waiting start =>
      obtain ⟨hblocked, -, hclock, -⟩ := h
      simp only [WaitAudit.next]
      linarith
    | refused => exact h
    | finished => exact h
  cases hfair with
  | unstarted => exact h
  | start =>
    refine ⟨?_, hblocked⟩
    rw [sub_self]
    exact h.le
  | look =>
    refine ⟨?_, hblocked⟩
    obtain ⟨hbefore, -⟩ := h
    simp only [WaitAudit.next]
    linarith
  | acquiring => exact h
  | @wait _ start hbefore hclock hdue =>
    refine ⟨?_, hclock, hclock.le, hdue⟩
    rcases hbefore with ⟨rfl, rfl⟩ | rfl | rfl
    · simp only [WaitAudit.next, sub_self]
      exact h.le
    · exact h.1
    · obtain ⟨hbefore, -⟩ := h
      simp only [WaitAudit.next]
      linarith
  | refuse => exact hblocked
  | refused => exact hblocked
  | finished => exact hblocked

/-- A sound audit stays sound while time passes that its task lets pass. -/
theorem Sound.pass {pool : Acquires σ α} {timeout clock now : Time} {audit : WaitAudit}
    {phase : Phase} (h : pool.Sound timeout clock audit phase) (hle : clock ≤ now)
    (hdue : ∀ start, phase = .waiting start → now ≤ pool.due audit.since start) :
    pool.Sound timeout now audit phase := by
  cases phase with
  | unstarted => exact h
  | acquiring start => exact ⟨h.1.trans (sub_le_sub_right hle start), h.2⟩
  | waiting start =>
    obtain ⟨hblocked, hstart, -, hend⟩ := h
    exact ⟨hblocked, hstart, (hdue start rfl).trans hend, hend⟩
  | refused => exact h
  | finished => exact h

/-- Time passes up to the next timer at the latest. -/
theorem WaitInv.pass {pool : Acquires σ α} {timeout now : Time} {s s' : Timed σ}
    (h : pool.WaitInv timeout s)
    (hsize : ∀ t, pool.size s.state ≤ t → pool.phase s.state t = .unstarted)
    (hs : pool.timedStep s (.pass now) = some s') : pool.WaitInv timeout s' := by
  obtain ⟨hle, hall, rfl⟩ := timedStep_pass hs
  refine ⟨fun t ↦ (h.sound t).pass hle fun start hp ↦ ?_, h.full⟩
  have hlt : t < pool.size s.state := by
    by_contra hge
    rw [hsize t (Nat.not_lt.mp hge)] at hp
    cases hp
  have hlets := hall t hlt
  unfold letsPass at hlets
  rw [hp] at hlets
  simp only [Bool.and_eq_true, decide_eq_true_eq] at hlets
  exact hlets.2

/-- A step whose turn is fair keeps every audit sound. -/
theorem WaitInv.record {pool : Acquires σ α} {timeout : Time} {s : Timed σ} {a : α} {state : σ}
    (h : pool.WaitInv timeout s) (ht : 0 ≤ timeout)
    (hothers : ∀ t, (∀ now, pool.turn a ≠ some (t, now)) →
      pool.phase state t = pool.phase s.state t)
    (hfair : ∀ t now, pool.turn a = some (t, now) → pool.Fair timeout s.clock
      (pool.store state).Full (pool.phase s.state t) (pool.phase state t)) :
    pool.WaitInv timeout (pool.record s a state) := by
  unfold Acquires.record
  cases hturn : pool.turn a with
  | none =>
    refine ⟨fun t ↦ ?_, h.full⟩
    dsimp only
    rw [hothers t (by simp [hturn])]
    exact h.sound t
  | some turn =>
    obtain ⟨t, now⟩ := turn
    have hmine := hfair t now hturn
    constructor
    · intro u
      dsimp only
      by_cases hut : u = t
      · subst hut
        rw [Function.update_self]
        exact (h.sound u).next ht hmine
      · rw [Function.update_of_ne hut, hothers u]
        · exact h.sound u
        · intro now' hu
          rw [hturn] at hu
          exact hut (Prod.mk.inj (Option.some.inj hu)).1.symm
    · dsimp only
      split
      · next hrefused =>
        obtain ⟨hafter, hbefore⟩ := hrefused
        rw [hafter] at hmine
        generalize pool.phase s.state t = before at hmine hbefore
        intro store hmem
        rcases List.mem_cons.mp hmem with rfl | hmem
        · cases hmine with
          | refuse hfull => exact hfull
          | refused => exact absurd rfl hbefore
        · exact h.full store hmem
      · exact h.full

/-- When every turn is fair, the timeout is honoured. -/
theorem honours_of_fair {init : σ} {clock timeout : Time}
    {ok : Timed σ → Event α → Prop} (ht : 0 ≤ timeout)
    (hinit : ∀ t, pool.phase init t = .unstarted)
    (hsize : ∀ s t, pool.size s ≤ t → pool.phase s t = .unstarted)
    (hothers : ∀ s a s', pool.step s a = some s' → ∀ t, (∀ now, pool.turn a ≠ some (t, now)) →
      pool.phase s' t = pool.phase s t)
    (hfair : ∀ s a s' t now, (pool.timed init clock).Reach ok s → ok s (.act a) →
      pool.step s.state a = some s' → pool.turn a = some (t, now) → now = s.clock →
      pool.Fair timeout s.clock (pool.store s').Full (pool.phase s.state t) (pool.phase s' t))
    {s : Timed σ} (hr : (pool.timed init clock).Reach ok s) : pool.Honours timeout s := by
  refine WaitInv.honours ht (hr.invariant_of (P := pool.WaitInv timeout)
    (Q := (pool.timed init clock).Reach ok) (fun _ h ↦ h) ⟨fun t ↦ ?_, by simp [timed]⟩ ?_)
  · rw [show pool.phase (pool.timed init clock).init.state t = .unstarted from hinit t]
    rfl
  · intro s e s' h hreach _ hok hs
    cases e with
    | pass now => exact h.pass (hsize s.state) hs
    | act a =>
      obtain ⟨htime, state, hstep, rfl⟩ := timedStep_act hs
      refine h.record ht (hothers s.state a state hstep) fun t now hturn ↦ ?_
      exact hfair s a state t now hreach hok hstep hturn (clock_of_onTime htime hturn)

end Acquires
end SalesData.Pool

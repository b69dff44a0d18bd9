import Mathlib.Data.List.Basic

/-!
# Guarded transition systems

A model is an executable step function `step s a : Option σ`; `none` means that the
action `a` is not enabled in `s`. `Reach ok` is reachability along steps that all meet
the condition `ok`, so one model serves for every schedule and for restricted ones.
-/

namespace SalesData.Base

/-- A transition system with one initial state and a guarded step function. -/
structure System (σ α : Type) where
  init : σ
  step : σ → α → Option σ

namespace System

variable {σ α : Type} (sys : System σ α)

/-- States reached from the initial one by steps that all meet `ok`. -/
inductive Reach (ok : σ → α → Prop) : σ → Prop
  | init : Reach ok sys.init
  | step {s s' : σ} {a : α} :
      Reach ok s → ok s a → sys.step s a = some s' → Reach ok s'

/-- States reached by any steps. -/
def Reachable (s : σ) : Prop := sys.Reach (fun _ _ ↦ True) s

/-- The system from another state on. -/
def startAt (s : σ) : System σ α := { sys with init := s }

/-- The system with a clock beside it: whatever a step reads off the clock is no earlier than
the readings before it, and a step that reads nothing leaves the clock alone. -/
def clocked {T : Type} [LE T] [DecidableLE T] (reading : α → Option T) (start : T) :
    System (σ × T) α where
  init := (sys.init, start)
  step s a :=
    let now := (reading a).getD s.2
    if s.2 ≤ now then (sys.step s.1 a).map (·, now) else none

/-- Replay a trace from `s`, stopping at a step that is disabled or does not meet `ok`. -/
def exec (ok : σ → α → Prop) [∀ s a, Decidable (ok s a)] : σ → List α → Option σ
  | s, [] => some s
  | s, a :: as => if ok s a then (sys.step s a).bind (exec ok · as) else none

/-- Replay a trace from the initial state. -/
def run (as : List α) : Option σ := sys.exec (fun _ _ ↦ True) sys.init as

variable {sys} {ok ok' : σ → α → Prop}

/-- A property that holds initially and is kept by every admitted step always holds. -/
theorem Reach.invariant {P : σ → Prop} {s : σ} (h : sys.Reach ok s) (hinit : P sys.init)
    (hstep : ∀ s a s', P s → ok s a → sys.step s a = some s' → P s') : P s := by
  induction h with
  | init => exact hinit
  | step _ hok hs ih => exact hstep _ _ _ ih hok hs

/-- The invariant rule with an invariant `Q` that is already known to hold. -/
theorem Reach.invariant_of {P Q : σ → Prop} {s : σ} (h : sys.Reach ok s)
    (hQ : ∀ s, sys.Reach ok s → Q s) (hinit : P sys.init)
    (hstep : ∀ s a s', P s → Q s → Q s' → ok s a → sys.step s a = some s' → P s') : P s := by
  induction h with
  | init => exact hinit
  | step hr hok hs ih => exact hstep _ _ _ ih (hQ _ hr) (hQ _ (hr.step hok hs)) hok hs

/-- A weaker condition admits every state. -/
theorem Reach.mono {s : σ} (h : sys.Reach ok s) (himp : ∀ s a, ok s a → ok' s a) :
    sys.Reach ok' s := by
  induction h with
  | init => exact .init
  | step _ hok hs ih => exact .step ih (himp _ _ hok) hs

/-- Restricted schedules are schedules. -/
theorem Reach.reachable {s : σ} (h : sys.Reach ok s) : sys.Reachable s :=
  h.mono fun _ _ _ ↦ trivial

/-- A step beside a clock is a step of the system, and the clock does not go back. -/
theorem clocked_step {T : Type} [LE T] [DecidableLE T] {reading : α → Option T} {start : T}
    {s s' : σ × T} {a : α} (h : (sys.clocked reading start).step s a = some s') :
    sys.step s.1 a = some s'.1 ∧ s'.2 = (reading a).getD s.2 ∧ s.2 ≤ s'.2 := by
  unfold clocked at h
  dsimp only at h
  split at h
  · next hle =>
    obtain ⟨m, hm, rfl⟩ := Option.map_eq_some_iff.mp h
    exact ⟨hm, rfl, hle⟩
  · cases h

/-- A replayed trace stays inside the reachable states. -/
theorem exec_reach [∀ s a, Decidable (ok s a)] {s s' : σ} {as : List α} (h : sys.Reach ok s)
    (he : sys.exec ok s as = some s') : sys.Reach ok s' := by
  induction as generalizing s with
  | nil =>
    obtain rfl : s = s' := by simpa [exec] using he
    exact h
  | cons a as ih =>
    rw [exec] at he
    split at he
    · next hok =>
      obtain ⟨m, hm, hrest⟩ := Option.bind_eq_some_iff.mp he
      exact ih (h.step hok hm) hrest
    · simp at he

/-- The end of a replayed trace is a state that meets the condition checked there. -/
theorem exists_of_exec (sys : System σ α) (ok : σ → α → Prop) [∀ s a, Decidable (ok s a)]
    (as : List α) (P : σ → Bool) (h : (sys.exec ok sys.init as).any P = true) :
    ∃ s, sys.Reach ok s ∧ P s = true := by
  cases he : sys.exec ok sys.init as with
  | none =>
    rw [he] at h
    simp at h
  | some s =>
    rw [he] at h
    exact ⟨s, exec_reach .init he, h⟩

end System
end SalesData.Base

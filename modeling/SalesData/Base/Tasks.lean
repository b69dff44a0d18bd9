import Mathlib.Data.List.Basic
import SalesData.Base.Future

/-!
# Tasks that loop

`asyncio.Task` around a coroutine that loops for ever and handles no exception: it ends when a turn
of the loop raises, or by a cancellation. A request to cancel reaches it where it awaits, before
its first turn too; from the request on it has no further turn.
-/

namespace SalesData.Base

/-- The task of a loop, whether it was asked to end, and how it did. -/
structure Loop (E : Type) where
  cancelling : Bool
  ended : Option (Raised E)
  deriving DecidableEq, Repr

namespace Loop

variable {E : Type} {t t' : Loop E} {raises : Option E}

/-- `asyncio.ensure_future`. -/
def new : Loop E := ⟨false, none⟩

/-- `task.cancel()`. -/
def cancel (t : Loop E) : Loop E :=
  match t.ended with
  | none => { t with cancelling := true }
  | some _ => t

/-- A turn of the loop, with what it raises. -/
def turn (t : Loop E) (raises : Option E) : Option (Loop E) :=
  match t.ended, t.cancelling with
  | none, false => some { t with ended := raises.map .error }
  | _, _ => none

/-- `CancelledError` is thrown into the task. -/
def unwind (t : Loop E) : Option (Loop E) :=
  match t.ended, t.cancelling with
  | none, true => some { t with ended := some .cancelledError }
  | _, _ => none

/-- A turn is one of a task that nobody has asked to end. -/
theorem of_turn (h : t.turn raises = some t') :
    t.ended = none ∧ t.cancelling = false ∧ t' = ⟨false, raises.map .error⟩ := by
  unfold turn at h
  split at h
  · next hended hcancelling =>
    cases h
    exact ⟨hended, hcancelling, by rw [hcancelling]⟩
  · cases h

/-- A task unwinds once, when it is asked to. -/
theorem of_unwind (h : t.unwind = some t') :
    t.ended = none ∧ t.cancelling = true ∧ t' = ⟨true, some .cancelledError⟩ := by
  unfold unwind at h
  split at h
  · next hended hcancelling =>
    cases h
    exact ⟨hended, hcancelling, by rw [hcancelling]⟩
  · cases h

/-- A request ends nothing at once. -/
@[simp] theorem ended_cancel (t : Loop E) : t.cancel.ended = t.ended := by
  unfold cancel
  split <;> rfl

/-- A task that is not over is asked. -/
theorem cancelling_cancel (h : t.ended = none) : t.cancel.cancelling = true := by
  rw [cancel, h]

/-- A request is not taken back. -/
theorem cancelling_cancel_of (h : t.cancelling = true) : t.cancel.cancelling = true := by
  unfold cancel
  split
  · rfl
  · exact h

/-- A task that is over is left alone. -/
theorem cancel_of_ended {how : Raised E} (h : t.ended = some how) : t.cancel = t := by
  rw [cancel, h]

/-- A task that an exception ended was not asked to end. -/
def Sound (t : Loop E) : Prop := ∀ e, t.ended = some (.error e) → t.cancelling = false

/-- A new task. -/
theorem sound_new : (new : Loop E).Sound := fun _ h ↦ nomatch h

/-- A request reaches a task before its end or not at all. -/
theorem Sound.cancel (h : t.Sound) : t.cancel.Sound := by
  intro e he
  rw [ended_cancel] at he
  rw [cancel_of_ended he]
  exact h e he

/-- A turn may raise. -/
theorem sound_of_turn (h : t.turn raises = some t') : t'.Sound := by
  obtain ⟨-, -, rfl⟩ := of_turn h
  exact fun _ _ ↦ rfl

/-- An unwound task was cancelled. -/
theorem sound_of_unwind (h : t.unwind = some t') : t'.Sound := by
  obtain ⟨-, -, rfl⟩ := of_unwind h
  exact fun _ he ↦ nomatch he

/-- Task `k` is not over. -/
def Live (ts : List (Loop E)) (k : Nat) : Prop := ∃ t, ts[k]? = some t ∧ t.ended = none

variable {ts : List (Loop E)} {j k : Nat}

/-- A new task is live, and the ones before it are what they were. -/
theorem live_concat_new : Live (ts ++ [new]) j ↔ Live ts j ∨ j = ts.length := by
  unfold Live
  rcases Nat.lt_trichotomy j ts.length with h | rfl | h
  · simp [List.getElem?_append_left h, Nat.ne_of_lt h]
  · simp [new]
  · have hlong : (ts ++ [new]).length ≤ j := by
      rw [List.length_append]
      exact h
    simp [List.getElem?_eq_none hlong, List.getElem?_eq_none (Nat.le_of_lt h), Nat.ne_of_gt h]

/-- A step of a task keeps the others and revives nobody. -/
theorem Live.of_set (h : Live (ts.set k t') j) (hk : ts[k]? = some t)
    (hended : t'.ended = none → t.ended = none) : Live ts j := by
  obtain ⟨u, hu, hlive⟩ := h
  by_cases hjk : k = j
  · subst hjk
    obtain ⟨hlt, -⟩ := List.getElem?_eq_some_iff.mp hk
    obtain rfl : t' = u := by simpa [List.getElem?_set, hlt] using hu
    exact ⟨t, hk, hended hlive⟩
  · exact ⟨u, by simpa [List.getElem?_set, hjk] using hu, hlive⟩

end Loop

/-- Where `task.cancel()` and then `await task`, with `CancelledError` suppressed, has got to. -/
inductive Stopping (E : Type) where
  | waiting (task : Nat)
  | returned
  | raised (e : E)
  deriving DecidableEq, Repr

namespace Stopping

variable {E : Type}

/-- The task a caller still waits for. -/
def awaits : Stopping E → Option Nat
  | waiting k => some k
  | returned | raised _ => none

/-- How the wait for a task that is over ends. -/
def awaited : Raised E → Stopping E
  | .cancelledError => returned
  | .error e => raised e

/-- The wait for task `k`, which may go on. -/
def await (k : Nat) (t : Loop E) : Stopping E :=
  match t.ended with
  | none => waiting k
  | some how => awaited how

/-- The wait of a task that is not over. -/
theorem await_of_live {k : Nat} {t : Loop E} (h : t.ended = none) : await k t = waiting k := by
  rw [await, h]

/-- The wait of a task that is over. -/
theorem await_of_ended {k : Nat} {t : Loop E} {how : Raised E} (h : t.ended = some how) :
    await k t = awaited how := by
  rw [await, h]

/-- Who still waits, waits for a task that is not over. -/
theorem of_await_waiting {j k : Nat} {t : Loop E} (h : await k t = waiting j) :
    j = k ∧ t.ended = none := by
  cases hended : t.ended with
  | none =>
    rw [await_of_live hended] at h
    cases h
    exact ⟨rfl, rfl⟩
  | some how =>
    rw [await_of_ended hended] at h
    cases how <;> cases h

end Stopping
end SalesData.Base

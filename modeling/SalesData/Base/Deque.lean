import Mathlib.Data.List.DropRight

/-!
# Bounded deques

Python's `collections.deque(maxlen=…)`: appending to a full one drops its oldest item. The
bound is part of the type.
-/

namespace SalesData.Base

/-- A queue of at most `maxlen` items, oldest first. -/
structure Deque (α : Type) (maxlen : Option Nat) where
  items : List α
  bound : ∀ m, maxlen = some m → items.length ≤ m

namespace Deque

variable {α : Type} {maxlen : Option Nat}

/-- The deque without items. -/
def empty : Deque α maxlen := ⟨[], fun _ _ ↦ Nat.zero_le _⟩

/-- The items that a bound leaves of a list: its last ones. -/
def trim (maxlen : Option Nat) (xs : List α) : List α :=
  match maxlen with
  | none => xs
  | some m => xs.rtake m

/-- A trimmed list is within its bound. -/
theorem length_trim_le {m : Nat} (h : maxlen = some m) (xs : List α) :
    (trim maxlen xs).length ≤ m := by
  subst h
  rw [trim, List.rtake, List.length_drop]
  omega

/-- `deque.append`. -/
def append (d : Deque α maxlen) (x : α) : Deque α maxlen :=
  ⟨trim maxlen (d.items ++ [x]), fun _ h ↦ length_trim_le h _⟩

/-- The oldest item goes when the deque is full. -/
theorem trim_of_full {m : Nat} (h : maxlen = some m) {x : α} {xs : List α}
    (hfull : m ≤ (x :: xs).length) (hbound : (x :: xs).length ≤ m) (y : α) :
    trim maxlen (x :: xs ++ [y]) = xs ++ [y] := by
  subst h
  have hlen : (x :: xs ++ [y]).length - m = 1 := by
    rw [List.length_append, List.length_singleton]
    omega
  rw [trim, List.rtake, hlen]
  rfl

/-- Nothing goes when it is not full. -/
theorem trim_of_room {xs : List α} (h : ∀ m, maxlen = some m → xs.length ≤ m) :
    trim maxlen xs = xs := by
  cases hm : maxlen with
  | none => rfl
  | some m => rw [trim, List.rtake, Nat.sub_eq_zero_of_le (h m hm), List.drop_zero]

private theorem rtake_append_of_le {m : Nat} {ys : List α} (h : m ≤ ys.length) (xs : List α) :
    (xs ++ ys).rtake m = ys.rtake m := by
  have hdrop : (xs ++ ys).length - m = xs.length + (ys.length - m) := by
    rw [List.length_append]
    omega
  rw [List.rtake, hdrop, List.drop_append, List.rtake]
  simp

/-- Trimming before an append changes nothing after it. -/
theorem trim_trim_append (xs ys : List α) :
    trim maxlen (trim maxlen xs ++ ys) = trim maxlen (xs ++ ys) := by
  cases maxlen with
  | none => rfl
  | some m =>
    by_cases h : xs.length ≤ m
    · have hroom : trim (some m) xs = xs := trim_of_room (by simpa using h)
      rw [hroom]
    · have hsplit : xs.take (xs.length - m) ++ xs.rtake m = xs := List.take_append_drop _ _
      have hlen : m ≤ (xs.rtake m ++ ys).length := by
        rw [List.length_append, List.rtake, List.length_drop]
        omega
      show (xs.rtake m ++ ys).rtake m = (xs ++ ys).rtake m
      conv_rhs => rw [← hsplit, List.append_assoc]
      exact (rtake_append_of_le hlen _).symm

/-- A deque that holds the last of the items appended so far does so after one more. -/
theorem items_append {d : Deque α maxlen} {xs : List α} (h : d.items = trim maxlen xs) (x : α) :
    (d.append x).items = trim maxlen (xs ++ [x]) := by
  show trim maxlen (d.items ++ [x]) = _
  rw [h, trim_trim_append]

end Deque
end SalesData.Base

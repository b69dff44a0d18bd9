import Mathlib.Algebra.GroupWithZero.Nat
import Mathlib.Data.List.Basic

/-!
# Counting observations in buckets

Every observation has a place among finitely many; the counts of the places and their running
sums. A running sum counts the observations whose place is not beyond it.
-/

namespace SalesData.Base

/-- Each entry with everything before it, on top of a starting value. -/
def runningSums (running : Nat) : List Nat → List Nat
  | [] => []
  | n :: counts => (running + n) :: runningSums (running + n) counts

variable {α : Type} {place : α → Nat} {xs : List α} {counts : List Nat} {n : Nat}

/-- The counts of the first `n` places after some observations. -/
def Counted (place : α → Nat) (n : Nat) (xs : List α) (counts : List Nat) : Prop :=
  counts.length = n ∧ ∀ i, i < n → counts[i]? = some (xs.countP (place · == i))

/-- Nothing is counted at first. -/
theorem counted_nil (place : α → Nat) (n : Nat) : Counted place n [] (List.replicate n 0) := by
  refine ⟨List.length_replicate, ?_⟩
  intro i hi
  rw [List.getElem?_replicate, if_pos hi, List.countP_nil]

/-- An observation counts at its place. -/
theorem Counted.observe (h : Counted place n xs counts) (x : α) :
    Counted place n (xs ++ [x]) (counts.modify (place x) (· + 1)) := by
  refine ⟨by rw [List.length_modify]; exact h.1, ?_⟩
  intro i hi
  rw [List.getElem?_modify, h.2 i hi, List.countP_append, List.countP_singleton]
  by_cases hplace : place x = i
  · simp [hplace]
  · simp [hplace]

private theorem countP_le_succ (place : α → Nat) (xs : List α) (j : Nat) :
    xs.countP (place · ≤ j + 1) = xs.countP (place · ≤ j) + xs.countP (place · == j + 1) := by
  induction xs with
  | nil => rfl
  | cons x xs ih =>
    simp only [List.countP_cons, ih, decide_eq_true_eq, beq_iff_eq]
    by_cases hle : place x ≤ j
    · rw [if_pos hle, if_pos (Nat.le_succ_of_le hle), if_neg (by omega)]
      omega
    · by_cases heq : place x = j + 1
      · rw [if_neg hle, if_pos (Nat.le_of_eq heq), if_pos heq]
        omega
      · rw [if_neg hle, if_neg (by omega), if_neg heq]
        omega

private theorem getElem?_runningSums_aux (counts : List Nat) (running j : Nat) :
    (runningSums running counts)[j]? =
      if j < counts.length then some (running + (counts.take (j + 1)).sum) else none := by
  induction counts generalizing running j with
  | nil => simp [runningSums]
  | cons n counts ih =>
    cases j with
    | zero => simp [runningSums]
    | succ j =>
      rw [runningSums, List.getElem?_cons_succ, ih, List.take_succ_cons, List.sum_cons,
        List.length_cons]
      by_cases h : j < counts.length
      · rw [if_pos h, if_pos (by omega), Nat.add_assoc]
      · rw [if_neg h, if_neg (by omega)]

/-- One running sum for each count. -/
theorem length_runningSums (running : Nat) (counts : List Nat) :
    (runningSums running counts).length = counts.length := by
  induction counts generalizing running with
  | nil => rfl
  | cons n counts ih => rw [runningSums, List.length_cons, ih, List.length_cons]

/-- A running sum is the number of observations at its place or before. -/
theorem Counted.getElem?_runningSums (h : Counted place n xs counts) {j : Nat} (hj : j < n) :
    (runningSums 0 counts)[j]? = some (xs.countP (place · ≤ j)) := by
  rw [getElem?_runningSums_aux, h.1, if_pos hj, Nat.zero_add]
  congr 1
  induction j with
  | zero =>
    have hfirst := h.2 0 hj
    cases counts with
    | nil => cases hfirst
    | cons m counts =>
      rw [List.getElem?_cons_zero, Option.some.injEq] at hfirst
      simp [hfirst, beq_eq_decide]
  | succ j ih =>
    rw [List.take_add_one, h.2 (j + 1) hj, List.sum_append, ih (by omega), countP_le_succ]
    simp

/-- The counts are those of all observations that have one of the places. -/
theorem Counted.sum_eq (h : Counted place n xs counts) (hplace : ∀ x ∈ xs, place x < n) :
    counts.sum = xs.length := by
  cases n with
  | zero =>
    obtain rfl := List.eq_nil_of_length_eq_zero h.1
    cases xs with
    | nil => rfl
    | cons x xs => exact absurd (hplace x List.mem_cons_self) (Nat.not_lt_zero _)
  | succ j =>
    have hsum := h.getElem?_runningSums (Nat.lt_succ_self j)
    rw [getElem?_runningSums_aux, h.1, if_pos (Nat.lt_succ_self j), Nat.zero_add,
      List.take_of_length_le (Nat.le_of_eq h.1), Option.some.injEq] at hsum
    rw [hsum, List.countP_eq_length]
    intro x hx
    exact decide_eq_true (Nat.le_of_lt_succ (hplace x hx))

/-- Where a monotone test first fails: at `j` or before exactly when it fails at `j`. -/
theorem length_takeWhile_le_iff {β : Type} {p : β → Bool} {bounds : List β} {j : Nat} {b : β}
    (hb : bounds[j]? = some b)
    (hmono : ∀ i c, i < j → bounds[i]? = some c → p b = true → p c = true) :
    (bounds.takeWhile p).length ≤ j ↔ p b = false := by
  induction bounds generalizing j with
  | nil => simp at hb
  | cons c bounds ih =>
    cases j with
    | zero =>
      obtain rfl : c = b := by simpa using hb
      cases h : p c <;> simp [h]
    | succ j =>
      rw [List.getElem?_cons_succ] at hb
      have hrest := ih hb fun i d hi hd ↦ hmono (i + 1) d (by omega) (by simpa using hd)
      cases hc : p c with
      | true => simpa [List.takeWhile_cons, hc] using hrest
      | false =>
        have hpb : p b = false := by
          by_contra hne
          rw [hmono 0 c (by omega) rfl (by simpa using hne)] at hc
          cases hc
        simp [hc, hpb]

/-- Tests that agree on the bounds place alike. -/
theorem takeWhile_congr {β : Type} {p q : β → Bool} {bounds : List β}
    (h : ∀ b ∈ bounds, p b = q b) : bounds.takeWhile p = bounds.takeWhile q := by
  induction bounds with
  | nil => rfl
  | cons b bounds ih =>
    rw [List.takeWhile_cons, List.takeWhile_cons, h b (List.mem_cons_self ..),
      ih fun c hc ↦ h c (List.mem_cons_of_mem _ hc)]

/-- A weaker test counts the same exactly when it accepts no more. -/
theorem countP_eq_countP_iff {p q : α → Bool} (himp : ∀ x, p x = true → q x = true)
    (xs : List α) : xs.countP p = xs.countP q ↔ ∀ x ∈ xs, q x = true → p x = true := by
  induction xs with
  | nil => simp
  | cons x xs ih =>
    have hle : xs.countP p ≤ xs.countP q := List.countP_mono_left fun x _ ↦ himp x
    rw [List.countP_cons, List.countP_cons, List.forall_mem_cons, ← ih]
    cases hp : p x with
    | true => simp [himp x hp]
    | false =>
      cases hq : q x with
      | true =>
        simp only [Bool.false_eq_true, if_false, if_true, forall_const, false_and, iff_false]
        omega
      | false => simp

end SalesData.Base

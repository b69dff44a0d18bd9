import Mathlib.Order.Lattice
import SalesData.Base.Buckets

/-!
# Binary search

Where an ascending list stops being below something. Its elements are compared as numbers are that
may be no number at all: `none` is neither below nor above anything.
-/

namespace SalesData.Base.Bisect

section Comparisons

variable {α : Type} [LinearOrder α] {a b c : Option α}

/-- `a < b`. -/
def less (a b : Option α) : Bool :=
  match a, b with
  | some x, some y => decide (x < y)
  | _, _ => false

/-- `a <= b`. -/
def atMost (a b : Option α) : Bool :=
  match a, b with
  | some x, some y => decide (x ≤ y)
  | _, _ => false

/-- Only numbers are below each other. -/
theorem less_iff : less a b = true ↔ ∃ x y, a = some x ∧ b = some y ∧ x < y := by
  cases a <;> cases b <;> simp [less]

/-- Only numbers are at most each other. -/
theorem atMost_iff : atMost a b = true ↔ ∃ x y, a = some x ∧ b = some y ∧ x ≤ y := by
  cases a <;> cases b <;> simp [atMost]

/-- What is at most something below a third is below the third. -/
theorem less_of_atMost (h : atMost a b = true) (hb : less b c = true) : less a c = true := by
  obtain ⟨x, y, rfl, rfl, hxy⟩ := atMost_iff.mp h
  obtain ⟨y', z, hy, rfl, hyz⟩ := less_iff.mp hb
  cases hy
  exact less_iff.mpr ⟨x, z, rfl, rfl, lt_of_le_of_lt hxy hyz⟩

/-- What is at most something is not above it. -/
theorem not_less_of_atMost (h : atMost a b = true) : less b a = false := by
  obtain ⟨x, y, rfl, rfl, hxy⟩ := atMost_iff.mp h
  simpa [less] using hxy

/-- What is not above a number is at most it, or no number. -/
theorem not_less_iff {x : α} : less (some x) a = false ↔ atMost a (some x) = true ∨ a = none := by
  cases a <;> simp [less, atMost]

end Comparisons

variable {α : Type} {below : α → Bool} {xs : List α}

/-- The loop of `bisect_left`; each round narrows `lo` and `hi`. -/
def loop (below : α → Bool) (xs : List α) : Nat → Nat → Nat → Nat
  | 0, lo, _ => lo
  | rounds + 1, lo, hi =>
    if lo < hi then
      let mid := (lo + hi) / 2
      if xs[mid]?.any below then loop below xs rounds (mid + 1) hi
      else loop below xs rounds lo mid
    else lo

/-- `bisect_left(xs, x)`, where `below` is `· < x`. -/
def bisectLeft (below : α → Bool) (xs : List α) : Nat := loop below xs xs.length 0 xs.length

/-- What lies before `lo` is below, and nothing from `hi` on. -/
structure Splits (below : α → Bool) (xs : List α) (lo hi : Nat) : Prop where
  le : lo ≤ hi
  le_length : hi ≤ xs.length
  before : ∀ i a, i < lo → xs[i]? = some a → below a = true
  behind : ∀ i a, hi ≤ i → xs[i]? = some a → below a = false

/-- In an ascending list what is below has only such elements before it. -/
def Ascending (below : α → Bool) (xs : List α) : Prop :=
  xs.Pairwise fun a b ↦ below b = true → below a = true

/-- What stands before an element below the mark is below it. -/
theorem Ascending.of_lt (h : Ascending below xs) {i j : Nat} {a b : α} (hij : i < j)
    (hi : xs[i]? = some a) (hj : xs[j]? = some b) (hb : below b = true) : below a = true := by
  obtain ⟨hilt, rfl⟩ := List.getElem?_eq_some_iff.mp hi
  obtain ⟨hjlt, rfl⟩ := List.getElem?_eq_some_iff.mp hj
  exact List.pairwise_iff_getElem.mp h i j hilt hjlt hij hb

section Narrowing

variable {lo hi mid : Nat} {m : α} (h : Ascending below xs) (hsplits : Splits below xs lo hi)
  (hm : xs[mid]? = some m)
include h hsplits hm

/-- Nothing up to an element that is below is sought. -/
theorem Splits.raise_lo (hmid : mid < hi) (hbelow : below m = true) :
    Splits below xs (mid + 1) hi where
  le := hmid
  le_length := hsplits.le_length
  before i a hi ha := by
    rcases Nat.lt_or_eq_of_le (Nat.le_of_lt_succ hi) with hlt | rfl
    · exact h.of_lt hlt ha hm hbelow
    · rw [hm] at ha
      cases ha
      exact hbelow
  behind := hsplits.behind

/-- Nothing from an element that is not below is sought. -/
theorem Splits.lower_hi (hmid : lo ≤ mid) (hbelow : below m = false) : Splits below xs lo mid where
  le := hmid
  le_length := Nat.le_of_lt (List.getElem?_eq_some_iff.mp hm).1
  before := hsplits.before
  behind i a hi ha := by
    rcases Nat.lt_or_eq_of_le hi with hlt | rfl
    · rw [Bool.eq_false_iff] at hbelow ⊢
      exact fun habove ↦ hbelow (h.of_lt hlt hm ha habove)
    · rw [hm] at ha
      cases ha
      exact hbelow

end Narrowing

/-- The search ends where the list splits. -/
theorem splits_loop (h : Ascending below xs) {rounds lo hi : Nat} (hsplits : Splits below xs lo hi)
    (hrounds : hi - lo ≤ rounds) :
    Splits below xs (loop below xs rounds lo hi) (loop below xs rounds lo hi) := by
  have hle := hsplits.le
  have hlength := hsplits.le_length
  induction rounds generalizing lo hi with
  | zero =>
    obtain rfl : lo = hi := by omega
    exact hsplits
  | succ rounds ih =>
    rw [loop]
    split
    · next hlt =>
      have hmid : (lo + hi) / 2 < xs.length := by omega
      have hget := List.getElem?_eq_getElem hmid
      dsimp only
      rw [hget, Option.any_some]
      split
      · next hbelow =>
        have hnext := hsplits.raise_lo h hget (by omega) hbelow
        exact ih hnext (by omega) hnext.le hnext.le_length
      · next hbelow =>
        have hnext := hsplits.lower_hi h hget (by omega) (Bool.eq_false_iff.mpr hbelow)
        exact ih hnext (by omega) hnext.le hnext.le_length
    · next hlt =>
      obtain rfl : lo = hi := by omega
      exact hsplits

/-- The place where an ascending list splits. -/
theorem splits_bisectLeft (h : Ascending below xs) :
    Splits below xs (bisectLeft below xs) (bisectLeft below xs) := by
  refine splits_loop h ⟨Nat.zero_le _, Nat.le_refl _, ?_, ?_⟩ (Nat.le_refl _)
  · intro i a hi
    exact absurd hi (Nat.not_lt_zero i)
  · intro i a hi ha
    rw [List.getElem?_eq_none hi] at ha
    cases ha

/-- An element is not below exactly from the found place on. -/
theorem bisectLeft_le_iff (h : Ascending below xs) {j : Nat} {b : α} (hj : xs[j]? = some b) :
    bisectLeft below xs ≤ j ↔ below b = false := by
  have hsplits := splits_bisectLeft h
  constructor
  · exact fun hle ↦ hsplits.behind j b hle hj
  · intro hb
    by_contra hlt
    rw [hsplits.before j b (Nat.not_le.mp hlt) hj] at hb
    cases hb

/-- The found place is the number of elements below. -/
theorem bisectLeft_eq_length_takeWhile (h : Ascending below xs) :
    bisectLeft below xs = (xs.takeWhile below).length := by
  have hle := (splits_bisectLeft h).le_length
  have hle' : (xs.takeWhile below).length ≤ xs.length := (List.takeWhile_sublist _).length_le
  have hiff (j : Nat) (hj : j < xs.length) :
      bisectLeft below xs ≤ j ↔ (xs.takeWhile below).length ≤ j := by
    have hget := List.getElem?_eq_getElem hj
    rw [bisectLeft_le_iff h hget, length_takeWhile_le_iff hget]
    exact fun i c hi hc ↦ h.of_lt hi hc hget
  apply Nat.le_antisymm
  · rcases Nat.lt_or_eq_of_le hle' with hlt | heq
    · exact (hiff _ hlt).mpr (Nat.le_refl _)
    · rw [heq]
      exact hle
  · rcases Nat.lt_or_eq_of_le hle with hlt | heq
    · exact (hiff _ hlt).mp (Nat.le_refl _)
    · rw [heq]
      exact hle'

end SalesData.Base.Bisect

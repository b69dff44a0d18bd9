import Mathlib.Order.Lattice
import Mathlib.Order.Monotone.Basic

/-!
# One value of an ordered family

A family of values in order stays so when one of them is exchanged for a value between those
before it and those behind it.
-/

namespace SalesData.Base

variable {ι α : Type} [LinearOrder ι] [Preorder α] {f : ι → α} {i : ι} {x : α}

/-- A strictly increasing family with another value. -/
theorem strictMono_update (hf : StrictMono f) (hbefore : ∀ j, j < i → f j < x)
    (hbehind : ∀ j, i < j → x < f j) : StrictMono (Function.update f i x) := by
  intro a b hab
  by_cases ha : a = i
  · subst ha
    rw [Function.update_self, Function.update_of_ne (ne_of_gt hab)]
    exact hbehind b hab
  · rw [Function.update_of_ne ha]
    by_cases hb : b = i
    · subst hb
      rw [Function.update_self]
      exact hbefore a hab
    · rw [Function.update_of_ne hb]
      exact hf hab

/-- A nondecreasing family with another value. -/
theorem monotone_update (hf : Monotone f) (hbefore : ∀ j, j < i → f j ≤ x)
    (hbehind : ∀ j, i < j → x ≤ f j) : Monotone (Function.update f i x) := by
  intro a b hab
  rcases eq_or_lt_of_le hab with rfl | hlt
  · exact le_refl _
  · by_cases ha : a = i
    · subst ha
      rw [Function.update_self, Function.update_of_ne (ne_of_gt hlt)]
      exact hbehind b hlt
    · rw [Function.update_of_ne ha]
      by_cases hb : b = i
      · subst hb
        rw [Function.update_self]
        exact hbefore a hlt
      · rw [Function.update_of_ne hb]
        exact hf hab

end SalesData.Base

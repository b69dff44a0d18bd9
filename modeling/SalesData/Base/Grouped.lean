import SalesData.Base.Dict

/-!
# Grouping into a dictionary

A dictionary that holds, for each key, what the items of the key make in their order. How the items
of different keys are interleaved does not matter to it.
-/

namespace SalesData.Base

variable {A K V : Type} [DecidableEq K]

/-- `d` holds what the items of each key make. -/
def Grouped (key : A → K) (make : List A → Option V) (items : List A) (d : Dict K V) : Prop :=
  ∀ k, d.get? k = make (items.filter fun a ↦ key a = k)

namespace Grouped

variable {key : A → K} {make : List A → Option V} {items items' : List A} {d d' : Dict K V}

/-- Nothing is made of no items. -/
theorem nil (h : make [] = none) : Grouped key make [] .empty := by
  intro k
  rw [Dict.get?_empty, List.filter_nil, h]

/-- An item changes what its own key holds. -/
theorem snoc (h : Grouped key make items d) {a : A} {v : V}
    (hd : ∀ k, d'.get? k = if k = key a then some v else d.get? k)
    (hv : make ((items.filter fun b ↦ key b = key a) ++ [a]) = some v) :
    Grouped key make (items ++ [a]) d' := by
  intro k
  rw [hd k, List.filter_append]
  by_cases hk : k = key a
  · rw [if_pos hk, hk, ← hv]
    simp
  · have hnone : [a].filter (fun b ↦ key b = k) = [] := by simp [Ne.symm hk]
    rw [if_neg hk, h k, hnone, List.append_nil]

/-- An item whose key is stored anew behind a change that leaves the other keys alone. -/
theorem store (h : Grouped key make items d) {a : A} {v : V} {d₁ : Dict K V}
    (hothers : ∀ k, k ≠ key a → d₁.get? k = d.get? k)
    (hv : make ((items.filter fun b ↦ key b = key a) ++ [a]) = some v) :
    Grouped key make (items ++ [a]) (d₁.set (key a) v) := by
  refine h.snoc (fun k ↦ ?_) hv
  rw [Dict.get?_set]
  split
  · rfl
  · next hk => exact hothers k hk

/-- Items that agree key by key make the same. -/
theorem get?_eq (h : Grouped key make items d) (h' : Grouped key make items' d')
    (hagree : ∀ k, (items'.filter fun a ↦ key a = k) = items.filter fun a ↦ key a = k) (k : K) :
    d'.get? k = d.get? k := by
  rw [h' k, h k, hagree k]

end Grouped
end SalesData.Base

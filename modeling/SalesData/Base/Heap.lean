import Mathlib.Data.List.MinMax

/-!
# Priority queues

`heapq` on a list whose elements have pairwise different keys: what `heappop` returns does
not depend on the layout of the heap, so the heap is kept as a plain list and popping
removes an element with the least key.
-/

namespace SalesData.Base

variable {α β : Type} [DecidableEq α] [LinearOrder β]

/-- Add an element, `heapq.heappush`. -/
def heappush (l : List α) (a : α) : List α := l ++ [a]

/-- Remove an element with the least key, `heapq.heappop`; `none` on an empty heap. -/
def heappop (key : α → β) (l : List α) : Option (α × List α) :=
  (l.argmin key).map fun a ↦ (a, l.erase a)

/-- Only the empty heap has nothing to pop. -/
theorem heappop_eq_none {key : α → β} {l : List α} : heappop key l = none ↔ l = [] := by
  simp [heappop]

/-- Popping takes one element out of the heap. -/
theorem heappop_perm {key : α → β} {l rest : List α} {a : α}
    (h : heappop key l = some (a, rest)) : l.Perm (a :: rest) := by
  obtain ⟨b, hb, he⟩ := Option.map_eq_some_iff.mp h
  obtain ⟨rfl, rfl⟩ := Prod.mk.injEq .. ▸ he
  exact List.perm_cons_erase (List.argmin_mem hb)

/-- Nothing in the heap has a smaller key than what is popped. -/
theorem heappop_le {key : α → β} {l rest : List α} {a b : α}
    (h : heappop key l = some (a, rest)) (hb : b ∈ l) : key a ≤ key b := by
  obtain ⟨m, hm, he⟩ := Option.map_eq_some_iff.mp h
  obtain ⟨rfl, -⟩ := Prod.mk.injEq .. ▸ he
  exact List.le_of_mem_argmin hb hm

end SalesData.Base

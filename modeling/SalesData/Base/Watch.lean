import Mathlib.Algebra.Order.Group.Defs
import Mathlib.Algebra.Order.Group.Int
import Mathlib.Data.List.Nodup

/-!
# Watching conditions and counters

What an observer makes of a system that it looks at now and then: of the set of conditions that
hold, the edges at which one begins or ends to hold; of a counter, by how much it has risen since
the look before, also when it may have begun again in between.
-/

namespace SalesData.Base

section Edges

variable {κ : Type} [DecidableEq κ] {old new : List κ} {k : κ}

/-- The edges between two sets of conditions: those that begin to hold, then those that end to. -/
def edges (old new : List κ) : List (κ × Bool) :=
  (new.filter (· ∉ old)).map (·, true) ++ (old.filter (· ∉ new)).map (·, false)

/-- The edges of a condition. -/
def edgesOf (k : κ) (es : List (κ × Bool)) : List Bool :=
  (es.filter fun e ↦ e.1 = k).map Prod.snd

/-- The edges between the sets of a history, beginning with `old`. -/
def edgesAlong (old : List κ) : List (List κ) → List (κ × Bool)
  | [] => []
  | new :: history => edges old new ++ edgesAlong new history

/-- Edges in turn, of a condition that holds first if `on`. -/
def Toggles : Bool → List Bool → Prop
  | _, [] => True
  | on, b :: bs => b = !on ∧ Toggles b bs

/-- Edges of two stretches. -/
theorem edgesOf_append (k : κ) (es es' : List (κ × Bool)) :
    edgesOf k (es ++ es') = edgesOf k es ++ edgesOf k es' := by
  rw [edgesOf, List.filter_append, List.map_append]
  rfl

private theorem edgesOf_map {ks : List κ} (hks : ks.Nodup) (k : κ) (b : Bool) :
    edgesOf k (ks.map (·, b)) = if k ∈ ks then [b] else [] := by
  induction ks with
  | nil => rfl
  | cons a ks ih =>
    obtain ⟨ha, hks⟩ := List.nodup_cons.mp hks
    have ih := ih hks
    rw [edgesOf] at ih ⊢
    rw [List.map_cons, List.filter_cons]
    by_cases hk : a = k
    · subst hk
      rw [if_neg ha] at ih
      simp [ih]
    · have hmem : (k ∈ a :: ks) = (k ∈ ks) := by simp [Ne.symm hk]
      simp only [hk, decide_false, Bool.false_eq_true, if_false, hmem]
      exact ih

/-- A condition has an edge exactly if it holds in one of the two sets only. -/
theorem edgesOf_edges (hold : old.Nodup) (hnew : new.Nodup) (k : κ) :
    edgesOf k (edges old new) =
      if decide (k ∈ new) = decide (k ∈ old) then [] else [decide (k ∈ new)] := by
  rw [edges, edgesOf_append, edgesOf_map (hnew.filter _), edgesOf_map (hold.filter _)]
  by_cases hknew : k ∈ new
  · by_cases hkold : k ∈ old
    · simp [hknew, hkold]
    · simp [hknew, hkold]
  · by_cases hkold : k ∈ old
    · simp [hknew, hkold]
    · simp [hknew, hkold]

/-- The edges of a condition come in turn, and the last one tells whether it holds. -/
theorem toggles_edgesAlong {history : List (List κ)} (hold : old.Nodup)
    (hhistory : ∀ new ∈ history, new.Nodup) (k : κ) :
    Toggles (decide (k ∈ old)) (edgesOf k (edgesAlong old history)) ∧
      (edgesOf k (edgesAlong old history)).getLastD (decide (k ∈ old)) =
        decide (k ∈ history.getLastD old) := by
  induction history generalizing old with
  | nil => exact ⟨trivial, rfl⟩
  | cons new history ih =>
    obtain ⟨htoggles, hlast⟩ := ih (hhistory new List.mem_cons_self)
      fun s hs ↦ hhistory s (List.mem_cons_of_mem _ hs)
    rw [edgesAlong, edgesOf_append, edgesOf_edges hold (hhistory new List.mem_cons_self),
      List.getLastD_cons]
    split
    · next hsame =>
      rw [← hsame]
      exact ⟨htoggles, hlast⟩
    · next hdiff =>
      refine ⟨⟨Bool.eq_not.mpr hdiff, htoggles⟩, ?_⟩
      rw [List.singleton_append, List.getLastD_cons]
      exact hlast

end Edges

section Increases

/-- By how much a counter is above an earlier reading; a counter without one is its own. -/
def increase (previous : Option Int) (current : Int) : Int :=
  max 0 (current - previous.getD current)

/-- The sum of what each reading is above the one before. -/
def risen (previous : Option Int) : List Int → Int
  | [] => 0
  | current :: readings => increase previous current + risen (some current) readings

/-- A counter that never falls has risen by what its last reading is above its first. -/
theorem risen_of_pairwise {first : Int} {readings : List Int}
    (h : (first :: readings).Pairwise (· ≤ ·)) :
    risen (some first) readings = readings.getLastD first - first := by
  induction readings generalizing first with
  | nil => simp [risen]
  | cons current readings ih =>
    obtain ⟨hfirst, hrest⟩ := List.pairwise_cons.mp h
    have hle := hfirst current List.mem_cons_self
    rw [risen, ih hrest, increase, Option.getD_some, List.getLastD_cons]
    omega

end Increases

section Restarts

variable {α : Type} [AddCommGroup α] [LinearOrder α] {previous total x : α}

/-- What a total is above an earlier reading; one that is below it has begun again. -/
def unseen (previous total : α) : α := if previous ≤ total then total - previous else total

/-- A total that is read has nothing unseen. -/
@[simp] theorem unseen_self (total : α) : unseen total total = 0 := by
  rw [unseen, if_pos le_rfl, sub_self]

/-- A total that begins again has nothing unseen. -/
theorem unseen_zero (h : 0 ≤ previous) : unseen previous 0 = 0 := by
  unfold unseen
  split
  · next hle => rw [le_antisymm hle h, sub_self]
  · rfl

variable [IsOrderedAddMonoid α]

/-- Nothing unseen is negative. -/
theorem unseen_nonneg (h : 0 ≤ total) : 0 ≤ unseen previous total := by
  unfold unseen
  split
  · next hle => exact sub_nonneg.mpr hle
  · exact h

/-- A total that grows has no more unseen than before and what it grows by. -/
theorem unseen_add_le (hprevious : 0 ≤ previous) (hx : 0 ≤ x) :
    unseen previous (total + x) ≤ unseen previous total + x := by
  unfold unseen
  by_cases h : previous ≤ total
  · have h' : previous ≤ total + x := h.trans (le_add_of_nonneg_right hx)
    rw [if_pos h, if_pos h', add_sub_right_comm]
  · rw [if_neg h]
    split
    · exact sub_le_self _ hprevious
    · exact le_rfl

end Restarts
end SalesData.Base

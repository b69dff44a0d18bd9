import Mathlib.Algebra.Order.Group.Basic
import Mathlib.Data.List.TakeWhile

/-!
# Sliding windows

A bucket of instants that admits at most `m` attempts in the last `w` time units. Attempts come in
the order of a clock; clearing the bucket forgets them.
-/

namespace SalesData.Base.SlidingWindow

variable {T : Type} [AddCommGroup T] [LinearOrder T]

/-- The bucket without the attempts before the window that ends now. -/
def evict (w now : T) (bucket : List T) : List T := bucket.dropWhile (· < now - w)

/-- One attempt: whether it is admitted, and the bucket behind it. -/
def attempt (m : ℕ) (w now : T) (bucket : List T) : Bool × List T :=
  let bucket := evict w now bucket
  if m ≤ bucket.length then (false, bucket) else (true, bucket ++ [now])

/-- A bucket stands for the attempts admitted since it was last cleared: those that it has dropped
are out of every window that ends now or later. -/
structure Stands (m : ℕ) (w now : T) (admitted bucket : List T) : Prop where
  kept : ∃ gone, admitted = gone ++ bucket ∧ ∀ t ∈ gone, t + w < now
  le : bucket.length ≤ m

namespace Stands

variable {m : ℕ} {w now now' : T} {admitted bucket : List T}

/-- A cleared bucket. -/
theorem nil (m : ℕ) (w now : T) : Stands m w now [] [] :=
  ⟨⟨[], rfl, fun _ h ↦ by cases h⟩, Nat.zero_le m⟩

/-- Time passes. -/
theorem later (h : Stands m w now admitted bucket) (hle : now ≤ now') :
    Stands m w now' admitted bucket := by
  obtain ⟨gone, hadmitted, hgone⟩ := h.kept
  exact ⟨⟨gone, hadmitted, fun t ht ↦ (hgone t ht).trans_le hle⟩, h.le⟩

variable [IsOrderedAddMonoid T]

/-- Old attempts are dropped. -/
theorem evict (h : Stands m w now admitted bucket) :
    Stands m w now admitted (SlidingWindow.evict w now bucket) := by
  obtain ⟨gone, hadmitted, hgone⟩ := h.kept
  have hsplit := List.takeWhile_append_dropWhile (p := (· < now - w)) (l := bucket)
  refine ⟨⟨gone ++ bucket.takeWhile (· < now - w), ?_, fun t ht ↦ ?_⟩, ?_⟩
  · rw [hadmitted, List.append_assoc, SlidingWindow.evict, hsplit]
  · rcases List.mem_append.mp ht with ht | ht
    · exact hgone t ht
    · exact lt_sub_iff_add_lt.mp (by simpa using List.mem_takeWhile_imp ht)
  · apply le_trans _ h.le
    exact (List.dropWhile_sublist _).length_le

/-- A window that ends now meets no more attempts than the bucket has. -/
theorem countP_le (h : Stands m w now admitted bucket) {t : T} (ht : now ≤ t + w) :
    admitted.countP (t ≤ ·) ≤ bucket.length := by
  obtain ⟨gone, rfl, hgone⟩ := h.kept
  have hnone : gone.countP (t ≤ ·) = 0 := by
    apply List.countP_eq_zero.mpr
    intro x hx hle
    have hlt : t + w < t + w := by
      calc t + w ≤ x + w := by simpa using hle
        _ < now := hgone x hx
        _ ≤ t + w := ht
    exact lt_irrefl _ hlt
  rw [List.countP_append, hnone, Nat.zero_add]
  exact List.countP_le_length

/-- An attempt, admitted or not, leaves a bucket that stands for what was admitted; it is admitted
only if every window that ends with it has met fewer than `m` attempts. -/
theorem attempt (h : Stands m w now admitted bucket) (hle : now ≤ now') :
    match SlidingWindow.attempt m w now' bucket with
    | (false, bucket') => Stands m w now' admitted bucket'
    | (true, bucket') => Stands m w now' (admitted ++ [now']) bucket' ∧
        ∀ t, now' ≤ t + w → admitted.countP (t ≤ ·) < m := by
  have hevict := (h.later hle).evict
  unfold SlidingWindow.attempt
  dsimp only
  split
  · next heq =>
    split at heq
    · obtain rfl := congrArg Prod.snd heq
      exact hevict
    · cases heq
  · next heq =>
    split at heq
    · cases heq
    · next hlt =>
      obtain rfl := congrArg Prod.snd heq
      obtain ⟨gone, hadmitted, hgone⟩ := hevict.kept
      refine ⟨⟨⟨gone, ?_, hgone⟩, ?_⟩, fun t ht ↦ ?_⟩
      · rw [hadmitted, List.append_assoc]
      · rw [List.length_append, List.length_singleton]
        omega
      · have hcount := hevict.countP_le ht
        omega

/-- Dropping the old ones from the front of a sorted bucket drops all old ones. -/
theorem countP_evict {bucket : List T} (hsorted : bucket.Pairwise (· ≤ ·)) :
    bucket.countP (now - w ≤ ·) = (SlidingWindow.evict w now bucket).length := by
  induction bucket with
  | nil => rfl
  | cons t bucket ih =>
    obtain ⟨hfirst, hrest⟩ := List.pairwise_cons.mp hsorted
    unfold SlidingWindow.evict at ih ⊢
    by_cases ht : t < now - w
    · rw [List.dropWhile_cons_of_pos (by simpa using ht), ← ih hrest]
      exact List.countP_cons_of_neg (by simpa using lt_sub_iff_add_lt.mp ht)
    · rw [List.dropWhile_cons_of_neg (by simpa using ht)]
      apply List.countP_eq_length.mpr
      intro x hx
      have hle := not_lt.mp ht
      rcases List.mem_cons.mp hx with rfl | hx
      · simpa using hle
      · simpa using hle.trans (hfirst x hx)

/-- With the attempts in order, one is admitted exactly when the window that ends with it has met
fewer than `m`. -/
theorem attempt_iff (h : Stands m w now admitted bucket) (hle : now ≤ now')
    (hsorted : admitted.Pairwise (· ≤ ·)) :
    (SlidingWindow.attempt m w now' bucket).1 = true ↔ admitted.countP (now' - w ≤ ·) < m := by
  obtain ⟨gone, rfl, hgone⟩ := (h.later hle).kept
  have hnone : gone.countP (now' - w ≤ ·) = 0 := by
    apply List.countP_eq_zero.mpr
    intro x hx
    simpa using hgone x hx
  rw [List.countP_append, hnone, Nat.zero_add,
    countP_evict (List.pairwise_append.mp hsorted).2.1]
  unfold SlidingWindow.attempt
  dsimp only
  split
  · next hm => simpa using hm
  · next hm => simpa using hm

end Stands
end SalesData.Base.SlidingWindow

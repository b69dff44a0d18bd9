import Mathlib.Algebra.GroupWithZero.Nat
import Mathlib.Data.List.Basic

/-!
# Tallies over a list of threads

A concurrent state keeps its threads in a list; one step replaces one entry, or adds one
at the end. `tally w ts` adds up a weight over the threads; its step equations are
additive, so that conservation laws close by linear arithmetic.
-/

namespace SalesData.Base

variable {α : Type} {w : α → Nat} {ts : List α}

/-- Total weight of a list of threads. -/
def tally (w : α → Nat) (ts : List α) : Nat := (ts.map w).sum

/-- No threads weigh nothing. -/
@[simp] theorem tally_nil : tally w [] = 0 := rfl

/-- The first thread's weight is added. -/
@[simp] theorem tally_cons (p : α) : tally w (p :: ts) = w p + tally w ts := by
  simp [tally]

/-- A new thread adds its own weight. -/
@[simp] theorem tally_append (us : List α) : tally w (ts ++ us) = tally w ts + tally w us := by
  simp [tally]

/-- Replacing one thread exchanges its weight. -/
theorem tally_set {t : Nat} {p : α} (h : ts[t]? = some p) (q : α) :
    tally w (ts.set t q) + w p = tally w ts + w q := by
  induction ts generalizing t with
  | nil => simp at h
  | cons a ts ih =>
    cases t with
    | zero =>
      obtain rfl : a = p := by simpa using h
      simp only [List.set_cons_zero, tally_cons]
      omega
    | succ t =>
      have := ih (by simpa using h)
      simp only [List.set_cons_succ, tally_cons]
      omega

/-- A pointwise larger weight has a larger tally. -/
theorem tally_le_tally {v : α → Nat} (h : ∀ p, w p ≤ v p) : tally w ts ≤ tally v ts := by
  induction ts with
  | nil => exact Nat.le_refl _
  | cons a ts ih =>
    have := h a
    simp only [tally_cons]
    omega

/-- A thread weighs at most as much as all of them. -/
theorem le_tally_of_mem {p : α} (h : p ∈ ts) : w p ≤ tally w ts := by
  induction ts with
  | nil => simp at h
  | cons a ts ih =>
    rw [tally_cons]
    rcases List.mem_cons.mp h with rfl | h
    · omega
    · have := ih h
      omega

/-- A thread found by its index weighs at most as much as all of them. -/
theorem le_tally_of_getElem? {t : Nat} {p : α} (h : ts[t]? = some p) : w p ≤ tally w ts :=
  le_tally_of_mem (List.mem_of_getElem? h)

/-- Two different threads weigh at most as much as all of them. -/
theorem add_le_tally {t u : Nat} {p q : α} (hp : ts[t]? = some p) (hq : ts[u]? = some q)
    (hne : t ≠ u) : w p + w q ≤ tally w ts := by
  induction ts generalizing t u with
  | nil => simp at hp
  | cons a ts ih =>
    rw [tally_cons]
    cases t with
    | zero =>
      cases u with
      | zero => exact absurd rfl hne
      | succ u =>
        have hle : w q ≤ tally w ts := le_tally_of_getElem? (t := u) (by simpa using hq)
        obtain rfl : a = p := by simpa using hp
        omega
    | succ t =>
      cases u with
      | zero =>
        have hle : w p ≤ tally w ts := le_tally_of_getElem? (t := t) (by simpa using hp)
        obtain rfl : a = q := by simpa using hq
        omega
      | succ u =>
        have hle := ih (t := t) (u := u) (by simpa using hp) (by simpa using hq) (by omega)
        omega

/-- A tally vanishes exactly when every thread's weight does. -/
theorem tally_eq_zero_iff : tally w ts = 0 ↔ ∀ p ∈ ts, w p = 0 := by
  induction ts with
  | nil => simp
  | cons a ts ih => simp [ih]

/-- Some thread carries the weight of a positive tally. -/
theorem exists_of_tally_pos (h : 0 < tally w ts) : ∃ p ∈ ts, 0 < w p := by
  by_contra hn
  have hz : tally w ts = 0 := tally_eq_zero_iff.mpr fun p hp ↦ by
    by_contra hw
    exact hn ⟨p, hp, Nat.pos_of_ne_zero hw⟩
  omega

/-- Counting is a tally. -/
theorem countP_eq_tally (q : α → Bool) : ts.countP q = tally (fun p ↦ if q p then 1 else 0) ts := by
  induction ts with
  | nil => rfl
  | cons a ts ih =>
    rw [List.countP_cons, tally_cons, ih]
    omega

/-- Weights that have a place each among others, where they are no larger, add up to no more. -/
theorem sum_le_sum_of_injective {xs ys : List Nat} (f : Nat → Nat)
    (hle : ∀ t x, xs[t]? = some x → 0 < x → ∃ y, ys[f t]? = some y ∧ x ≤ y)
    (hinj : ∀ t u x y, xs[t]? = some x → xs[u]? = some y → 0 < x → 0 < y → f t = f u → t = u) :
    xs.sum ≤ ys.sum := by
  induction xs generalizing f ys with
  | nil => exact Nat.zero_le _
  | cons x xs ih =>
    have hinj' (t u a b : Nat) (ht : xs[t]? = some a) (hu : xs[u]? = some b) (ha : 0 < a)
        (hb : 0 < b) (hf : f (t + 1) = f (u + 1)) : t = u := by
      have hsame := hinj (t + 1) (u + 1) a b ht hu ha hb hf
      omega
    by_cases hx : 0 < x
    · obtain ⟨y, hy, hxy⟩ := hle 0 x rfl hx
      have hset : (ys.set (f 0) 0).sum + y = ys.sum := by
        have hexchange := tally_set (w := id) hy 0
        simpa [tally] using hexchange
      -- The place of the first weight is taken out, and the others keep theirs.
      have hrest : xs.sum ≤ (ys.set (f 0) 0).sum := by
        apply ih (fun t ↦ f (t + 1))
        · intro t a ht ha
          obtain ⟨b, hb, hab⟩ := hle (t + 1) a ht ha
          refine ⟨b, ?_, hab⟩
          rw [List.getElem?_set_ne, hb]
          intro hf
          have hzero := hinj 0 (t + 1) x a rfl ht hx ha hf
          omega
        · exact hinj'
      rw [List.sum_cons]
      omega
    · have hrest : xs.sum ≤ ys.sum := ih (fun t ↦ f (t + 1)) (fun t a ↦ hle (t + 1) a) hinj'
      rw [List.sum_cons]
      omega

/-- A tally is no more than another whose threads take over its own, each at most once. -/
theorem tally_le_of_injective {β : Type} {v : β → Nat} {us : List β} (f : Nat → Nat)
    (hle : ∀ t p, ts[t]? = some p → 0 < w p → ∃ q, us[f t]? = some q ∧ w p ≤ v q)
    (hinj : ∀ t u p q, ts[t]? = some p → ts[u]? = some q → 0 < w p → 0 < w q → f t = f u → t = u) :
    tally w ts ≤ tally v us := by
  apply sum_le_sum_of_injective f
  · intro t x hx hpos
    rw [List.getElem?_map] at hx ⊢
    obtain ⟨p, hp, rfl⟩ := Option.map_eq_some_iff.mp hx
    obtain ⟨q, hq, hpq⟩ := hle t p hp hpos
    exact ⟨v q, by rw [hq]; rfl, hpq⟩
  · intro t u x y hx hy hxpos hypos hf
    rw [List.getElem?_map] at hx hy
    obtain ⟨p, hp, rfl⟩ := Option.map_eq_some_iff.mp hx
    obtain ⟨q, hq, rfl⟩ := Option.map_eq_some_iff.mp hy
    exact hinj t u p q hp hq hxpos hypos hf

/-- Counting in the concatenated lists of all threads. -/
theorem count_flatMap {β : Type} [DecidableEq β] (f : α → List β) (b : β) :
    (ts.flatMap f).count b = tally (fun p ↦ (f p).count b) ts := by
  induction ts with
  | nil => rfl
  | cons a ts ih => simp [List.count_append, ih]

/-- Total length of the concatenated lists of all threads. -/
theorem length_flatMap {β : Type} (f : α → List β) :
    (ts.flatMap f).length = tally (fun p ↦ (f p).length) ts := by
  induction ts with
  | nil => rfl
  | cons a ts ih => simp [ih]

/-- A tally over mapped threads. -/
theorem tally_map {β : Type} (g : β → α) (us : List β) :
    tally w (us.map g) = tally (fun u ↦ w (g u)) us := by
  simp [tally, Function.comp_def]

/-- The replaced thread is the new one. -/
theorem getElem?_set_of_some {t : Nat} {p : α} (h : ts[t]? = some p) (q : α) :
    (ts.set t q)[t]? = some q := by
  obtain ⟨hlt, -⟩ := List.getElem?_eq_some_iff.mp h
  rw [List.getElem?_set_self hlt]

/-- A thread after a replacement is the new one or was there before. -/
theorem forall_mem_set {P : α → Prop} {t : Nat} {q : α} (h : ∀ p ∈ ts, P p) (hq : P q) :
    ∀ p ∈ ts.set t q, P p := by
  intro p hp
  rcases List.mem_or_eq_of_mem_set hp with hp | rfl
  · exact h p hp
  · exact hq

/-- What holds of every thread after a replacement, and of the replaced one, held of all. -/
theorem forall_mem_of_set {P : α → Prop} {t : Nat} {p q : α} (ht : ts[t]? = some p) (hp : P p)
    (h : ∀ r ∈ ts.set t q, P r) : ∀ r ∈ ts, P r := by
  intro r hr
  obtain ⟨i, hi⟩ := List.getElem?_of_mem hr
  by_cases hit : t = i
  · subst hit
    rw [Option.some.inj (hi.symm.trans ht)]
    exact hp
  · exact h r (List.mem_of_getElem? ((List.getElem?_set_ne hit).trans hi))

/-- A thread with a property that the replacement keeps is still there. -/
theorem exists_mem_set {P : α → Prop} {t : Nat} {p q : α} (ht : ts[t]? = some p)
    (h : ∃ r ∈ ts, P r) (hq : P p → P q) : ∃ r ∈ ts.set t q, P r := by
  obtain ⟨r, hr, hP⟩ := h
  obtain ⟨i, hi⟩ := List.getElem?_of_mem hr
  by_cases hit : t = i
  · subst hit
    obtain rfl := Option.some.inj (ht.symm.trans hi)
    exact ⟨q, List.mem_of_getElem? (getElem?_set_of_some ht q), hq hP⟩
  · exact ⟨r, List.mem_of_getElem? ((List.getElem?_set_ne hit).trans hi), hP⟩

/-- A thread after an arrival was there before or has just arrived. -/
theorem getElem?_append_singleton {t : Nat} {p q : α} (h : (ts ++ [q])[t]? = some p) :
    ts[t]? = some p ∨ t = ts.length ∧ p = q := by
  rcases Nat.lt_or_ge t ts.length with hlt | hge
  · exact .inl ((List.getElem?_append_left hlt).symm.trans h)
  · rw [List.getElem?_append_right hge] at h
    obtain ⟨hlt, hq⟩ := List.getElem?_eq_some_iff.mp h
    rw [List.length_singleton] at hlt
    exact .inr ⟨by omega, hq.symm.trans (List.getElem_singleton hlt)⟩

/-- A thread after a replacement is the new one, or is at another place and was there before. -/
theorem getElem?_set_cases {t i : Nat} {p q : α} (h : (ts.set t q)[i]? = some p) :
    i = t ∧ p = q ∨ i ≠ t ∧ ts[i]? = some p := by
  by_cases hit : i = t
  · subst hit
    obtain ⟨hlt, hget⟩ := List.getElem?_eq_some_iff.mp h
    exact .inl ⟨rfl, by simpa using hget.symm⟩
  · rw [List.getElem?_set_ne (Ne.symm hit)] at h
    exact .inr ⟨hit, h⟩

/-- What the threads report, when one of them is replaced. -/
theorem filterMap_set {β : Type} {f : α → Option β} {t : Nat} {p : α} (h : ts[t]? = some p)
    (q : α) : ((ts.set t q).filterMap f ++ (f p).toList).Perm
      (ts.filterMap f ++ (f q).toList) := by
  rw [List.filterMap_eq_flatMap_toList, List.filterMap_eq_flatMap_toList]
  induction ts generalizing t with
  | nil => simp at h
  | cons a ts ih =>
    cases t with
    | zero =>
      obtain rfl : a = p := by simpa using h
      rw [List.set_cons_zero, List.flatMap_cons, List.flatMap_cons, List.append_assoc,
        List.append_assoc]
      exact (List.perm_append_comm_assoc ..).trans
        ((List.perm_append_comm.append_left _).trans (List.perm_append_comm_assoc ..))
    | succ t =>
      have := ih (by simpa using h)
      rw [List.set_cons_succ, List.flatMap_cons, List.flatMap_cons, List.append_assoc,
        List.append_assoc]
      exact this.append_left _

end SalesData.Base

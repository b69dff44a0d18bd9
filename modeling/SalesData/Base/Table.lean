import Mathlib.Data.List.Nodup

/-!
# Tables

A table of an SQL database: rows in insertion order, with columns on which no two rows agree. A
statement is a condition on rows together with what it does to the rows that meet it.
-/

namespace SalesData.Base

/-- Rows that differ in each of the `unique` columns. -/
structure Table (R C : Type) (unique : List (R → C)) where
  rows : List R
  nodup : ∀ k ∈ unique, (rows.map k).Nodup

namespace Table

variable {R C : Type} {unique : List (R → C)}

/-- The table without rows. -/
def empty : Table R C unique := ⟨[], fun _ _ ↦ List.nodup_nil⟩

/-- `SELECT … WHERE`, all rows. -/
def select (t : Table R C unique) (p : R → Bool) : List R := t.rows.filter p

/-- `SELECT … WHERE`, the first row. -/
def find? (t : Table R C unique) (p : R → Bool) : Option R := t.rows.find? p

/-- `INSERT`; it fails when another row has the value of a unique column. -/
def insert [DecidableEq C] (t : Table R C unique) (r : R) : Option (Table R C unique) :=
  if h : ∀ k ∈ unique, k r ∉ t.rows.map k then
    some ⟨t.rows ++ [r], fun k hk ↦ by
      rw [List.map_append, List.map_singleton]
      exact (t.nodup k hk).append (List.nodup_singleton _)
        (List.disjoint_singleton.mpr (h k hk))⟩
  else none

/-- `UPDATE … WHERE` that keeps the unique columns. -/
def update (t : Table R C unique) (p : R → Bool) (f : R → R)
    (hf : ∀ k ∈ unique, ∀ r, k (f r) = k r) : Table R C unique :=
  ⟨t.rows.map fun r ↦ if p r then f r else r, fun k hk ↦ by
    have hsame : k ∘ (fun r ↦ if p r then f r else r) = k := by
      funext r
      simp only [Function.comp]
      split
      · exact hf k hk r
      · rfl
    rw [List.map_map, hsame]
    exact t.nodup k hk⟩

/-- `DELETE … WHERE`. -/
def delete (t : Table R C unique) (p : R → Bool) : Table R C unique :=
  ⟨t.rows.filter fun r ↦ !p r, fun k hk ↦ (List.filter_sublist.map k).nodup (t.nodup k hk)⟩

variable {t t' : Table R C unique} {p q : R → Bool} {f : R → R}
  {hf : ∀ k ∈ unique, ∀ r, k (f r) = k r}

/-- An insertion adds its row behind the others. -/
theorem rows_insert [DecidableEq C] {r : R} (h : t.insert r = some t') :
    t'.rows = t.rows ++ [r] := by
  unfold insert at h
  split at h
  · rw [← Option.some.inj h]
  · cases h

/-- Two rows that agree in a unique column are one. -/
theorem eq_of_unique {k : R → C} (hk : k ∈ unique) {r s : R} (hr : r ∈ t.rows) (hs : s ∈ t.rows)
    (h : k r = k s) : r = s :=
  List.inj_on_of_nodup_map (t.nodup k hk) hr hs h

/-- A found row is one of the rows that are looked for. -/
theorem of_find? {r : R} (h : t.find? p = some r) : r ∈ t.rows ∧ p r = true :=
  ⟨List.mem_of_find?_eq_some h, List.find?_some h⟩

/-- The row that an update makes of a row. -/
theorem mem_update {r : R} :
    r ∈ (t.update p f hf).rows ↔ ∃ s ∈ t.rows, (if p s then f s else s) = r :=
  List.mem_map

/-- An update does not change what a condition finds that it neither meets nor changes. -/
theorem find?_update_of_disjoint (hq : ∀ r, q (f r) = q r) (hpq : ∀ r, p r = true → q r = false) :
    (t.update p f hf).find? q = t.find? q := by
  simp only [find?, update]
  induction t.rows with
  | nil => rfl
  | cons r rows ih =>
    rw [List.map_cons, List.find?_cons, List.find?_cons, ih]
    cases hp : p r with
    | false => simp
    | true => simp [hq, hpq r hp]

/-- An update changes the row that its own condition finds. -/
theorem find?_update_self (hp : ∀ r, p (f r) = p r) :
    (t.update p f hf).find? p = (t.find? p).map f := by
  simp only [find?, update]
  induction t.rows with
  | nil => rfl
  | cons r rows ih =>
    rw [List.map_cons, List.find?_cons, List.find?_cons, ih]
    cases h : p r with
    | false => simp [h]
    | true => simp [hp, h]

/-- Rows that no change of an update concerns stay. -/
theorem select_update_of_disjoint (hq : ∀ r, p r = true → q r = false ∧ q (f r) = false) :
    (t.update p f hf).select q = t.select q := by
  simp only [select, update]
  induction t.rows with
  | nil => rfl
  | cons r rows ih =>
    rw [List.map_cons, List.filter_cons, List.filter_cons, ih]
    cases hp : p r with
    | false => simp
    | true => simp [hq r hp]

/-- Rows that a deletion does not concern stay. -/
theorem select_delete_of_disjoint (hpq : ∀ r, p r = true → q r = false) :
    (t.delete p).select q = t.select q := by
  simp only [select, delete, List.filter_filter]
  refine List.filter_congr fun r _ ↦ ?_
  cases hp : p r with
  | false => simp
  | true => simp [hpq r hp]

/-- An insertion adds to the rows of a condition that its row meets only. -/
theorem select_insert_of_not [DecidableEq C] {r : R} (h : t.insert r = some t') (hq : q r = false) :
    t'.select q = t.select q := by
  simp [select, rows_insert h, hq]

end Table
end SalesData.Base

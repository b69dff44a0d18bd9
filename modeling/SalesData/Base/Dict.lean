import Mathlib.Data.List.Nodup

/-!
# Insertion-ordered dictionaries

Python's `dict`: one value per key, enumerated in order of first insertion. Assigning to
a present key keeps its position; the structure carries the uniqueness of its keys.
-/

namespace SalesData.Base

/-- A finite map with distinct keys in insertion order. -/
structure Dict (K V : Type) where
  entries : List (K × V)
  nodup : (entries.map Prod.fst).Nodup

namespace Dict

variable {K V : Type}

/-- The dictionary without entries. -/
def empty : Dict K V := ⟨[], by simp⟩

/-- Keys in insertion order. -/
def keys (d : Dict K V) : List K := d.entries.map Prod.fst

/-- Values in insertion order. -/
def values (d : Dict K V) : List V := d.entries.map Prod.snd

/-- Number of entries, Python's `len(d)`. -/
def len (d : Dict K V) : Nat := d.entries.length

/-- An empty dictionary has no keys. -/
@[simp] theorem keys_empty : (empty : Dict K V).keys = [] := rfl

/-- The keys are distinct. -/
theorem keys_nodup (d : Dict K V) : d.keys.Nodup := d.nodup

/-- One key per entry. -/
theorem length_keys (d : Dict K V) : d.keys.length = d.len := List.length_map _

private theorem nodup_append_new (k : K) (v : V) (es : List (K × V))
    (hn : (es.map Prod.fst).Nodup) (h : k ∉ es.map Prod.fst) :
    ((es ++ [(k, v)]).map Prod.fst).Nodup := by
  rw [List.map_append]
  refine List.nodup_append.mpr ⟨hn, by simp, ?_⟩
  intro a ha b hb he
  obtain rfl : b = k := by simpa using hb
  exact h (he ▸ ha)

variable [DecidableEq K]

/-- The value of a key, Python's `d.get(k)`. -/
def get? (d : Dict K V) (k : K) : Option V := d.entries.lookup k

private def assign (k : K) (v : V) (e : K × V) : K × V := if e.1 = k then (k, v) else e

private theorem fst_assign (k : K) (v : V) (e : K × V) : (assign k v e).1 = e.1 := by
  unfold assign
  split
  · next h => exact h.symm
  · rfl

private theorem map_fst_assign (k : K) (v : V) (es : List (K × V)) :
    (es.map (assign k v)).map Prod.fst = es.map Prod.fst := by
  rw [List.map_map]
  exact List.map_congr_left fun e _ ↦ fst_assign k v e

/-- Python's `d[k] = v`. -/
def set (d : Dict K V) (k : K) (v : V) : Dict K V :=
  if h : k ∈ d.entries.map Prod.fst then
    ⟨d.entries.map (assign k v), by rw [map_fst_assign]; exact d.nodup⟩
  else
    ⟨d.entries ++ [(k, v)], nodup_append_new k v d.entries d.nodup h⟩

/-- Python's `d.pop(k, None)`, without its result. -/
def pop (d : Dict K V) (k : K) : Dict K V :=
  ⟨d.entries.filter (·.1 != k), (List.filter_sublist.map Prod.fst).nodup d.nodup⟩

/-- `OrderedDict.move_to_end(k)`. -/
def moveToEnd (d : Dict K V) (k : K) : Dict K V :=
  match d.get? k with
  | none => d
  | some v => (d.pop k).set k v

/-- An empty dictionary binds nothing. -/
@[simp] theorem get?_empty (k : K) : (empty : Dict K V).get? k = none := rfl

/-- Assigning appends a new key and keeps the place of a present one. -/
theorem keys_set (d : Dict K V) (k : K) (v : V) :
    (d.set k v).keys = if k ∈ d.keys then d.keys else d.keys ++ [k] := by
  unfold set keys
  split
  · exact map_fst_assign k v d.entries
  · simp

/-- Popping removes exactly the key. -/
theorem keys_pop (d : Dict K V) (k : K) : (d.pop k).keys = d.keys.filter (· != k) := by
  rw [keys, pop, keys, List.filter_map]
  rfl

/-- Membership after an assignment. -/
@[simp] theorem mem_keys_set {d : Dict K V} {k a : K} {v : V} :
    a ∈ (d.set k v).keys ↔ a = k ∨ a ∈ d.keys := by
  rw [keys_set]
  split
  · next h =>
    constructor
    · exact Or.inr
    · rintro (rfl | ha)
      · exact h
      · exact ha
  · simp [or_comm]

/-- Membership after a removal. -/
@[simp] theorem mem_keys_pop {d : Dict K V} {k a : K} :
    a ∈ (d.pop k).keys ↔ a ∈ d.keys ∧ a ≠ k := by
  simp [keys_pop]

/-- Length after an assignment. -/
theorem len_set (d : Dict K V) (k : K) (v : V) :
    (d.set k v).len = if k ∈ d.keys then d.len else d.len + 1 := by
  rw [← length_keys, keys_set]
  split <;> simp [length_keys]

/-- Length after a removal. -/
theorem len_pop (d : Dict K V) (k : K) :
    (d.pop k).len = if k ∈ d.keys then d.len - 1 else d.len := by
  rw [← length_keys, ← length_keys, keys_pop]
  split
  · next h =>
    have he := List.length_erase_of_mem h
    rwa [d.keys_nodup.erase_eq_filter] at he
  · next h =>
    rw [List.filter_eq_self.mpr]
    intro a ha
    simpa using fun he : a = k ↦ h (he ▸ ha)

private theorem lookup_map_assign (k a : K) (v : V) (es : List (K × V)) :
    (es.map (assign k v)).lookup a =
      if a = k ∧ k ∈ es.map Prod.fst then some v else es.lookup a := by
  induction es with
  | nil => simp
  | cons e es ih =>
    rcases e with ⟨b, u⟩
    by_cases hb : b = k
    · subst hb
      by_cases ha : a = b
      · simp [assign, ha]
      · have hne : (a == b) = false := by simpa using ha
        simp [assign, List.lookup_cons, hne, ih, ha]
    · by_cases ha : a = b
      · subst ha
        simp [assign, hb]
      · have hne : (a == b) = false := by simpa using ha
        by_cases hm : k ∈ es.map Prod.fst
        · simp only [List.map_cons, assign, if_neg hb, List.lookup_cons, hne, ih]
          simp [hm]
        · simp only [List.map_cons, assign, if_neg hb, List.lookup_cons, hne, ih]
          simp [hm, Ne.symm hb]

private theorem lookup_append_new (k a : K) (v : V) (es : List (K × V))
    (h : k ∉ es.map Prod.fst) :
    (es ++ [(k, v)]).lookup a = if a = k then some v else es.lookup a := by
  induction es with
  | nil =>
    by_cases ha : a = k
    · simp [ha]
    · have hne : (a == k) = false := by simpa using ha
      simp [List.lookup_cons, hne, ha]
  | cons e es ih =>
    rcases e with ⟨b, u⟩
    simp only [List.map_cons, List.mem_cons, not_or] at h
    have := ih h.2
    by_cases ha : a = b
    · subst ha
      simp [Ne.symm h.1]
    · have hne : (a == b) = false := by simpa using ha
      simp [List.lookup_cons, hne, this]

/-- Lookup after an assignment. -/
theorem get?_set (d : Dict K V) (k a : K) (v : V) :
    (d.set k v).get? a = if a = k then some v else d.get? a := by
  unfold set get?
  split
  · next h => simp [lookup_map_assign, h]
  · next h => exact lookup_append_new k a v d.entries h

/-- Lookup after a removal. -/
theorem get?_pop (d : Dict K V) (k a : K) :
    (d.pop k).get? a = if a = k then none else d.get? a := by
  unfold pop get?
  dsimp only
  generalize d.entries = es
  induction es with
  | nil => simp
  | cons e es ih =>
    rcases e with ⟨b, u⟩
    by_cases hb : b = k
    · subst hb
      by_cases ha : a = b
      · subst ha
        simpa using ih
      · have hne : (a == b) = false := by simpa using ha
        simpa [List.lookup_cons, hne, ha] using ih
    · by_cases ha : a = b
      · subst ha
        simp [hb]
      · have hne : (a == b) = false := by simpa using ha
        simpa [hb, List.lookup_cons, hne] using ih

/-- What is still bound after a removal was bound before, at another key. -/
theorem get?_of_pop {d : Dict K V} {k a : K} {v : V} (h : (d.pop k).get? a = some v) :
    a ≠ k ∧ d.get? a = some v := by
  rw [get?_pop] at h
  split at h
  · cases h
  · next hne => exact ⟨hne, h⟩

/-- Moving an entry changes no binding. -/
@[simp] theorem get?_moveToEnd (d : Dict K V) (k a : K) : (d.moveToEnd k).get? a = d.get? a := by
  unfold moveToEnd
  split
  · rfl
  · next v hv =>
    rw [get?_set, get?_pop]
    split
    · next h => rw [h, hv]
    · rfl

/-- A present key that is moved to the end comes behind the others. -/
theorem keys_moveToEnd {d : Dict K V} {k : K} {v : V} (h : d.get? k = some v) :
    (d.moveToEnd k).keys = d.keys.filter (· != k) ++ [k] := by
  rw [moveToEnd, h]
  dsimp only
  rw [keys_set, if_neg (by simp [keys_pop]), keys_pop]

/-- A key is present exactly when it is bound. -/
theorem mem_keys_iff {d : Dict K V} {k : K} : k ∈ d.keys ↔ ∃ v, d.get? k = some v := by
  unfold keys get?
  generalize d.entries = es
  induction es with
  | nil => simp
  | cons e es ih =>
    rcases e with ⟨b, u⟩
    by_cases hk : k = b
    · simp [hk]
    · have hne : (k == b) = false := by simpa using hk
      simp [List.lookup_cons, hne, hk, ← ih]

/-- Moving a key adds and drops none. -/
theorem len_moveToEnd (d : Dict K V) (k : K) : (d.moveToEnd k).len = d.len := by
  unfold moveToEnd
  split
  · rfl
  · next v hv =>
    have hk : k ∈ d.keys := mem_keys_iff.mpr ⟨v, hv⟩
    have hpos : 0 < d.len := by
      rw [← length_keys]
      exact List.length_pos_of_mem hk
    rw [len_set, if_neg (by simp), len_pop, if_pos hk]
    omega

/-- An unbound key is not present. -/
theorem get?_eq_none_iff {d : Dict K V} {k : K} : d.get? k = none ↔ k ∉ d.keys := by
  rw [mem_keys_iff]
  cases d.get? k <;> simp

/-- The entries are exactly the bindings. -/
theorem mem_entries_iff {d : Dict K V} {k : K} {v : V} :
    (k, v) ∈ d.entries ↔ d.get? k = some v := by
  have hn := d.nodup
  unfold get?
  revert hn
  generalize d.entries = es
  intro hn
  induction es with
  | nil => simp
  | cons e es ih =>
    rcases e with ⟨b, u⟩
    rw [List.map_cons, List.nodup_cons] at hn
    by_cases hk : k = b
    · subst hk
      have hv : (k, v) ∉ es := fun hm ↦ hn.1 (List.mem_map.mpr ⟨(k, v), hm, rfl⟩)
      simp [hv, eq_comm]
    · have hne : (k == b) = false := by simpa using hk
      simp [List.lookup_cons, hne, hk, ih hn.2]

/-- Values are those of the bindings. -/
theorem mem_values_iff {d : Dict K V} {v : V} : v ∈ d.values ↔ ∃ k, d.get? k = some v := by
  simp [values, ← mem_entries_iff]

/-- The bindings whose value meets `p`. -/
def filter (d : Dict K V) (p : V → Bool) : Dict K V :=
  ⟨d.entries.filter fun e ↦ p e.2, (List.filter_sublist.map Prod.fst).nodup d.nodup⟩

/-- The bindings that a filter keeps. -/
theorem get?_filter {d : Dict K V} {p : V → Bool} {k : K} {v : V} :
    (d.filter p).get? k = some v ↔ d.get? k = some v ∧ p v = true := by
  rw [← mem_entries_iff, ← mem_entries_iff, filter, List.mem_filter]

/-- `d` with its values changed by `f`. -/
def mapValues {W : Type} (d : Dict K V) (f : V → W) : Dict K W :=
  ⟨d.entries.map fun e ↦ (e.1, f e.2), by simpa [List.map_map, Function.comp_def] using d.nodup⟩

/-- A key that had a value has the changed one. -/
theorem get?_mapValues {W : Type} {d : Dict K V} {f : V → W} {k : K} {v : V}
    (h : d.get? k = some v) : (d.mapValues f).get? k = some (f v) :=
  mem_entries_iff.mp (List.mem_map.mpr ⟨(k, v), mem_entries_iff.mpr h, rfl⟩)

/-- `dict(items)`: a key keeps its first place and its last value. -/
def ofEntries (items : List (K × V)) : Dict K V := items.foldl (fun d e ↦ d.set e.1 e.2) empty

private theorem entries_foldl_set (items : List (K × V)) (d : Dict K V)
    (h : (d.keys ++ items.map Prod.fst).Nodup) :
    (items.foldl (fun d e ↦ d.set e.1 e.2) d).entries = d.entries ++ items := by
  induction items generalizing d with
  | nil => rw [List.foldl_nil, List.append_nil]
  | cons e items ih =>
    have hnew : e.1 ∉ d.entries.map Prod.fst := by
      intro hmem
      exact (List.nodup_append.mp h).2.2 e.1 hmem e.1 (List.mem_cons_self ..) rfl
    have hset : (d.set e.1 e.2).entries = d.entries ++ [e] := by
      rw [set, dif_neg hnew]
    rw [List.foldl_cons, ih, hset, List.append_assoc]
    · rfl
    · rw [keys, hset, List.map_append, List.append_assoc]
      exact h

/-- Items with distinct keys are the entries of their dictionary. -/
theorem entries_ofEntries {items : List (K × V)} (h : (items.map Prod.fst).Nodup) :
    (ofEntries items).entries = items := entries_foldl_set items empty h

private theorem get?_foldl_set {items : List (K × V)} {d : Dict K V} {k : K} {v : V}
    (h : (items.foldl (fun d e ↦ d.set e.1 e.2) d).get? k = some v) :
    (k, v) ∈ items ∨ d.get? k = some v := by
  induction items generalizing d with
  | nil => exact .inr h
  | cons e items ih =>
    rcases ih h with h | h
    · exact .inl (List.mem_cons_of_mem _ h)
    · rw [get?_set] at h
      split at h
      · next hk =>
        cases h
        exact .inl (List.mem_cons.mpr (.inl (Prod.ext hk rfl)))
      · exact .inr h

/-- The value of a key is that of an item. -/
theorem mem_of_get?_ofEntries {items : List (K × V)} {k : K} {v : V}
    (h : (ofEntries items).get? k = some v) : (k, v) ∈ items := by
  rcases get?_foldl_set h with h | h
  · exact h
  · cases h

private theorem isSome_foldl_set {items : List (K × V)} {d : Dict K V} {k : K}
    (h : (d.get? k).isSome = true ∨ k ∈ items.map Prod.fst) :
    ((items.foldl (fun d e ↦ d.set e.1 e.2) d).get? k).isSome = true := by
  induction items generalizing d with
  | nil => exact h.resolve_right List.not_mem_nil
  | cons e items ih =>
    apply ih
    rw [get?_set]
    by_cases hk : k = e.1
    · exact .inl (by rw [if_pos hk]; rfl)
    · rw [if_neg hk]
      rcases h with h | h
      · exact .inl h
      · exact .inr ((List.mem_cons.mp h).resolve_left hk)

/-- Items of a key that all have one value give it this value. -/
theorem get?_ofEntries_of_forall {items : List (K × V)} {k : K} {v : V} (h : (k, v) ∈ items)
    (hall : ∀ v', (k, v') ∈ items → v' = v) : (ofEntries items).get? k = some v := by
  have hkey : k ∈ items.map Prod.fst := List.mem_map_of_mem h
  obtain ⟨v', hv'⟩ := Option.isSome_iff_exists.mp (isSome_foldl_set (.inr hkey))
  rw [ofEntries, hv', hall v' (mem_of_get?_ofEntries hv')]

omit [DecidableEq K] in
/-- A dictionary is its entries. -/
theorem ext_entries {d d' : Dict K V} (h : d.entries = d'.entries) : d = d' := by
  cases d
  cases d'
  cases h
  rfl

/-- A new key's value comes last. -/
theorem values_set_new {d : Dict K V} {k : K} (h : k ∉ d.keys) (v : V) :
    (d.set k v).values = d.values ++ [v] := by
  have hset : (d.set k v).entries = d.entries ++ [(k, v)] := by
    rw [set, dif_neg (show k ∉ d.entries.map Prod.fst from h)]
  rw [values, hset, List.map_append]
  rfl

/-- An assignment that keeps what is looked at in a value keeps it in all of them. -/
theorem map_values_set {W : Type} {d : Dict K V} {k : K} {v v' : V} {f : V → W}
    (h : d.get? k = some v) (hf : f v' = f v) :
    (d.set k v').values.map f = d.values.map f := by
  have hmem : k ∈ d.entries.map Prod.fst := mem_keys_iff.mpr ⟨v, h⟩
  have hset : (d.set k v').entries = d.entries.map fun e ↦ if e.1 = k then (k, v') else e := by
    rw [set, dif_pos hmem]
    rfl
  rw [values, values, hset, List.map_map, List.map_map, List.map_map]
  apply List.map_congr_left
  intro e he
  show f (if e.1 = k then (k, v') else e).2 = f e.2
  split
  · next hk =>
    have hget : d.get? k = some e.2 := by
      apply mem_entries_iff.mp
      rw [← hk]
      exact he
    rw [h] at hget
    rw [hf, Option.some.inj hget]
  · rfl

/-- Removing an absent key changes nothing. -/
theorem len_pop_le (d : Dict K V) (k : K) : (d.pop k).len ≤ d.len := by
  rw [len_pop]
  split <;> omega

/-- Counting a key after an assignment. -/
theorem count_keys_set (d : Dict K V) (k a : K) (v : V) :
    (d.set k v).keys.count a = if a = k then 1 else d.keys.count a := by
  by_cases ha : a = k
  · rw [if_pos ha]
    exact List.count_eq_one_of_mem (d.set k v).keys_nodup (mem_keys_set.mpr (.inl ha))
  · rw [if_neg ha, keys_set]
    split
    · rfl
    · simp [Ne.symm ha]

/-- Counting a key after a removal. -/
theorem count_keys_pop (d : Dict K V) (k a : K) :
    (d.pop k).keys.count a = if a = k then 0 else d.keys.count a := by
  rw [keys_pop]
  by_cases ha : a = k
  · rw [if_pos ha, List.count_eq_zero]
    simp [ha]
  · rw [if_neg ha, List.count_filter (by simpa using ha)]

end Dict
end SalesData.Base

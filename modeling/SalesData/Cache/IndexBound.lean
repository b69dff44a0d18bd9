import SalesData.Cache.Calls

/-!
# The size of the invalidation index

The first level is "bounded so a long-running process with many distinct queries can't grow this
cache without limit" (`core/caching/query_cache_coordinator.py:48–53`). Its index is not kept in
step: an entry that is evicted, that expires or that `invalidate` drops stays listed, and
`invalidate_tables` takes the keys that it drops out of the lists of its own tables only.
-/

namespace SalesData.Cache

open Base Sql

section Entries

variable {K V : Type} [DecidableEq K]

namespace HybridQueryCache

/-- The keys after some have been invalidated. -/
theorem mem_keys_foldl_invalidate {keys : List K} {c : HybridQueryCache K V} {a : K} :
    a ∈ (keys.foldl invalidate c).lru.cache.keys ↔ a ∈ c.lru.cache.keys ∧ a ∉ keys := by
  induction keys generalizing c with
  | nil => simp
  | cons key keys ih =>
    rw [List.foldl_cons, ih]
    simp only [invalidate, LRUQueryCache.invalidate, Dict.mem_keys_pop, List.mem_cons]
    tauto

end HybridQueryCache

end Entries

section Index

variable {K T D E : Type}

namespace QueryCacheCoordinator

section Bounds

variable [DecidableEq K] [DecidableEq T]

/-- The keys listed under some table. -/
def listed (c : QueryCacheCoordinator K T D E) : List K := c.tableKeys.values.flatten

/-- The keys in one of the two indexes. -/
def indexed (c : QueryCacheCoordinator K T D E) : List K := c.keyTables.keys ++ c.listed

/-- The keys that the first level answers for. -/
def held (c : QueryCacheCoordinator K T D E) : List K := c.l1.lru.cache.keys

/-- The indexes have at most `m` keys each. -/
def IndexBounded (c : QueryCacheCoordinator K T D E) (m : Nat) : Prop :=
  c.keyTables.len ≤ m ∧ c.listed.dedup.length ≤ m

/-- The tables are all those under which their keys are listed. -/
def Scoped (c : QueryCacheCoordinator K T D E) (tables : List T) : Prop :=
  ∀ key ∈ tables.flatMap c.keysOf, ∀ entry ∈ c.tableKeys.entries, key ∈ entry.2 → entry.1 ∈ tables

instance (c : QueryCacheCoordinator K T D E) (tables : List T) : Decidable (c.Scoped tables) :=
  inferInstanceAs (Decidable (∀ key ∈ tables.flatMap c.keysOf, ∀ entry ∈ c.tableKeys.entries,
    key ∈ entry.2 → entry.1 ∈ tables))

/-- The first level has room for `m` keys and no more. -/
structure Sized (c : QueryCacheCoordinator K T D E) (m : Nat) : Prop where
  size : c.l1.lru.maxSize = m
  len : c.l1.lru.cache.len ≤ m

/-- The key that a lookup makes leave the first level without putting it back: its own, if it has
expired and there are no rows for it, or the least recently used one, if there are rows to store and
no room. -/
def leaving? (c : QueryCacheCoordinator K T D E) (now : Time) (key : K) (fetched : Bool) :
    Option K :=
  if key ∈ c.held then if c.l1.lru.expired now key && !fetched then some key else none
  else if fetched && decide (c.l1.lru.maxSize ≤ c.l1.lru.cache.len) then c.held.head? else none

end Bounds

variable {c c' : QueryCacheCoordinator K T D E} {now : Time} {key : K} {m : Nat}

/-- States with the same entries have the same index. -/
theorem SameEntries.indexed (h : c.SameEntries c') : c'.indexed = c.indexed := by
  rw [QueryCacheCoordinator.indexed, listed, h.keyTables, h.tableKeys]
  rfl

/-- States with the same entries hold the same keys. -/
theorem SameEntries.held (h : c.SameEntries c') : c'.held = c.held := by
  rw [QueryCacheCoordinator.held, h.l1]
  rfl

/-- States with the same entries have the same size. -/
theorem Sized.of_same (h : c.Sized m) (hsame : c.SameEntries c') : c'.Sized m := by
  constructor
  · rw [hsame.l1]
    exact h.size
  · rw [hsame.l1]
    exact h.len

section Tables

variable [DecidableEq T]

/-- A key is listed under a table. -/
theorem mem_listed {key : K} : key ∈ c.listed ↔ ∃ table, key ∈ c.keysOf table := by
  unfold listed keysOf
  rw [List.mem_flatten]
  constructor
  · rintro ⟨keys, hkeys, hmem⟩
    obtain ⟨table, htable⟩ := Dict.mem_values_iff.mp hkeys
    exact ⟨table, by rwa [htable]⟩
  · rintro ⟨table, hmem⟩
    cases htable : c.tableKeys.get? table with
    | none =>
      rw [htable] at hmem
      cases hmem
    | some keys =>
      rw [htable] at hmem
      exact ⟨keys, Dict.mem_values_iff.mpr ⟨table, htable⟩, hmem⟩

/-- A key is indexed. -/
theorem mem_indexed {key : K} :
    key ∈ c.indexed ↔ key ∈ c.keyTables.keys ∨ ∃ table, key ∈ c.keysOf table := by
  rw [indexed, List.mem_append, mem_listed]

/-- The scope of an invalidation, table by table. -/
theorem scoped_iff {tables : List T} : c.Scoped tables ↔
    ∀ key, (∃ table ∈ tables, key ∈ c.keysOf table) →
      ∀ table, key ∈ c.keysOf table → table ∈ tables := by
  constructor
  · rintro h key ⟨table, ht, hk⟩ table' hk'
    unfold keysOf at hk'
    cases hget : c.tableKeys.get? table' with
    | none =>
      rw [hget] at hk'
      cases hk'
    | some keys =>
      rw [hget] at hk'
      exact h key (List.mem_flatMap.mpr ⟨table, ht, hk⟩) (table', keys)
        (Dict.mem_entries_iff.mpr hget) hk'
  · rintro h key hkey ⟨table, keys⟩ hentry hk
    apply h key (List.mem_flatMap.mp hkey) table
    rw [keysOf, Dict.mem_entries_iff.mp hentry]
    exact hk

end Tables

section Look

variable [DecidableEq K]

/-- An index of keys of the first level is bounded like it. -/
theorem Sized.indexBounded (h : c.Sized m) (hheld : c.indexed ⊆ c.held) : c.IndexBounded m := by
  have hbound (keys : List K) (hnodup : keys.Nodup) (hsub : keys ⊆ c.indexed) :
      keys.length ≤ m := by
    calc keys.length ≤ c.held.length :=
          (List.Nodup.subperm hnodup (List.Subset.trans hsub hheld)).length_le
      _ = c.l1.lru.cache.len := c.l1.lru.cache.length_keys
      _ ≤ m := h.len
  constructor
  · rw [← Dict.length_keys]
    exact hbound _ c.keyTables.keys_nodup (List.subset_append_left _ _)
  · apply hbound _ (List.nodup_dedup _)
    exact fun key hkey ↦ List.mem_append_right _ (List.mem_dedup.mp hkey)

/-- The keys of the first level after a look. -/
theorem mem_held_looked {now : Time} {key a : K} :
    a ∈ (c.looked now key).held ↔ a ∈ c.held ∧ (c.l1.lru.expired now key = true → a ≠ key) := by
  rw [held, looked, (HybridQueryCache.lru_get _ _ _).1, LRUQueryCache.mem_keys_get, held]

/-- A look finds an entry that has not expired, or finds none, or finds one that has expired and
drops it. -/
theorem look_cases (c : QueryCacheCoordinator K T D E) (now : Time) (key : K) :
    (c.l1.get now key).1 ≠ none ∧ key ∈ c.held ∧ c.l1.lru.expired now key = false ∨
      (c.l1.get now key).1 = none ∧ key ∉ c.held ∧ (c.looked now key).l1.lru = c.l1.lru ∨
      (c.l1.get now key).1 = none ∧ key ∈ c.held ∧ c.l1.lru.expired now key = true ∧
        (c.looked now key).l1.lru.cache.len < c.l1.lru.cache.len := by
  have hlru := HybridQueryCache.lru_get c.l1 now key
  unfold looked
  rw [hlru.1, hlru.2, held, LRUQueryCache.expired]
  unfold LRUQueryCache.get
  cases hget : c.l1.lru.cache.get? key with
  | none => exact .inr (.inl ⟨rfl, Dict.get?_eq_none_iff.mp hget, rfl⟩)
  | some entry =>
    have hmem : key ∈ c.l1.lru.cache.keys := Dict.mem_keys_iff.mpr ⟨entry, hget⟩
    cases hexpired : entry.isExpired now with
    | false =>
      left
      simp [hexpired, hmem]
    | true =>
      right; right
      have hlen := c.l1.lru.cache.len_pop key
      have hpos : 0 < c.l1.lru.cache.len := by
        rw [← Dict.length_keys]
        exact List.length_pos_of_mem hmem
      rw [if_pos hmem] at hlen
      simp only [hexpired, if_true, hmem, Option.any_some, true_and]
      omega

/-- A look leaves the index. -/
theorem indexed_looked (c : QueryCacheCoordinator K T D E) (now : Time) (key : K) :
    (c.looked now key).indexed = c.indexed := rfl

/-- A look keeps the size. -/
theorem Sized.looked (h : c.Sized m) (now : Time) (key : K) : (c.looked now key).Sized m := by
  have hlru := (HybridQueryCache.lru_get c.l1 now key).1
  constructor
  · rw [← h.size, QueryCacheCoordinator.looked, hlru]
    unfold LRUQueryCache.get
    split
    · rfl
    · split
      · rfl
      · rfl
  · rw [QueryCacheCoordinator.looked, hlru]
    exact (LRUQueryCache.len_get_le _ _ _).trans h.len

/-- After a miss there is nothing under the key. -/
theorem not_held_of_miss (hmiss : (c.l1.get now key).1 = none) : key ∉ (c.looked now key).held := by
  rw [QueryCacheCoordinator.held, looked, (HybridQueryCache.lru_get _ _ _).1]
  apply LRUQueryCache.not_mem_keys_get
  rwa [← (HybridQueryCache.lru_get _ _ _).2]

end Look

variable [DecidableEq K] [DecidableEq T]

/-- A fill indexes its key, unless the statement names no table. -/
theorem mem_indexed_fill {now : Time} {key a : K} {rows : Rows T D} :
    a ∈ (c.fill now key rows).indexed ↔ a ∈ c.indexed ∨ a = key ∧ rows.tables ≠ [] := by
  have hkeyTables : a ∈ (c.fill now key rows).keyTables.keys ↔
      a ∈ c.keyTables.keys ∨ a = key ∧ rows.tables ≠ [] := by
    unfold fill tagTables
    split
    · next hnone => simp [hnone]
    · next hsome => simp [hsome, or_comm]
  rw [mem_indexed, mem_indexed, hkeyTables]
  simp only [mem_keysOf_fill]
  constructor
  · rintro ((hk | hk) | ⟨table, hk | ⟨rfl, ht⟩⟩)
    · exact .inl (.inl hk)
    · exact .inr hk
    · exact .inl (.inr ⟨table, hk⟩)
    · exact .inr ⟨rfl, List.ne_nil_of_mem ht⟩
  · rintro ((hk | ⟨table, hk⟩) | hk)
    · exact .inl (.inl hk)
    · exact .inr ⟨table, .inl hk⟩
    · exact .inl (.inr hk)

private theorem mem_keys_foldl_pop {V : Type} {keys : List K} {d : Dict K V} {a : K} :
    a ∈ (keys.foldl Dict.pop d).keys ↔ a ∈ d.keys ∧ a ∉ keys := by
  induction keys generalizing d with
  | nil => simp
  | cons key keys ih =>
    rw [List.foldl_cons, ih]
    simp only [Dict.mem_keys_pop, List.mem_cons]
    tauto

/-- The keys of the first level after an invalidation by tables. -/
theorem mem_held_invalidateTables {tables : List T} {a : K} :
    a ∈ (c.invalidateTables tables).2.held ↔
      a ∈ c.held ∧ ∀ table ∈ tables, a ∉ c.keysOf table := by
  rw [invalidateTables_eq, held, HybridQueryCache.mem_keys_foldl_invalidate, List.mem_dedup,
    List.mem_flatMap, held]
  simp

/-- The index after an invalidation by tables: a key that it drops stays under its other tables. -/
theorem mem_indexed_invalidateTables {tables : List T} {a : K} :
    a ∈ (c.invalidateTables tables).2.indexed ↔
      (a ∈ c.keyTables.keys ∧ ∀ table ∈ tables, a ∉ c.keysOf table) ∨
        ∃ table, table ∉ tables ∧ a ∈ c.keysOf table := by
  have hnone {table : T} (ht : table ∈ tables) :
      (c.invalidateTables tables).2.keysOf table = [] := by
    have hgone : table ∉ (tables.foldl Dict.pop c.tableKeys).keys := by
      rw [mem_keys_foldl_pop]
      exact fun h ↦ h.2 ht
    rw [invalidateTables_eq, keysOf, Dict.get?_eq_none_iff.mpr hgone]
    rfl
  rw [mem_indexed]
  apply or_congr
  · rw [invalidateTables_eq, mem_keys_foldl_pop, List.mem_dedup, List.mem_flatMap]
    simp
  · constructor
    · rintro ⟨table, hk⟩
      by_cases ht : table ∈ tables
      · rw [hnone ht] at hk
        cases hk
      · rw [keysOf_invalidateTables c ht] at hk
        exact ⟨table, ht, hk⟩
    · rintro ⟨table, ht, hk⟩
      refine ⟨table, ?_⟩
      rwa [keysOf_invalidateTables c ht]

/-- An invalidation by tables leaves a key in the index that it drops exactly if the key is listed
under another table. -/
theorem held_invalidateTables_iff (h : c.indexed ⊆ c.held) (tables : List T) :
    (c.invalidateTables tables).2.indexed ⊆ (c.invalidateTables tables).2.held ↔
      c.Scoped tables := by
  rw [scoped_iff]
  constructor
  · intro hsub key ⟨table, ht, hk⟩ table' hk'
    by_contra hnot
    have hin := hsub (mem_indexed_invalidateTables.mpr (.inr ⟨table', hnot, hk'⟩))
    exact (mem_held_invalidateTables.mp hin).2 table ht hk
  · intro hscoped key hkey
    rw [mem_held_invalidateTables]
    rcases mem_indexed_invalidateTables.mp hkey with ⟨hk, hnone⟩ | ⟨table', hnot, hk'⟩
    · exact ⟨h (mem_indexed.mpr (.inl hk)), hnone⟩
    · refine ⟨h (mem_indexed.mpr (.inr ⟨table', hk'⟩)), fun table ht hk ↦ hnot ?_⟩
      exact hscoped key ⟨table, ht, hk⟩ table' hk'

/-- The keys of the first level after a fill under a key that has no entry. -/
theorem mem_held_fill {now : Time} {key a : K} {rows : Rows T D} (h : key ∉ c.held) :
    a ∈ (c.fill now key rows).held ↔
      a = key ∨ a ∈ c.held ∧
        (c.l1.lru.maxSize ≤ c.l1.lru.cache.len → c.held.head? ≠ some a) := by
  rw [held, l1_fill]
  exact LRUQueryCache.mem_keys_put h

variable {tables : List T} {fetched : Bool}

/-- A fill under a key that has no entry keeps the size. -/
theorem Sized.fill (h : c.Sized m) {now : Time} {key : K} (hkey : key ∉ c.held) (rows : Rows T D) :
    (c.fill now key rows).Sized m := by
  obtain ⟨rfl, hlen⟩ := h
  constructor
  · rw [l1_fill]
    show (c.l1.lru.put now key rows _).maxSize = _
    unfold LRUQueryCache.put
    split
    · rfl
    · rfl
  · rw [l1_fill]
    exact LRUQueryCache.len_put_le hkey hlen

/-- An invalidation by tables keeps the size. -/
theorem Sized.invalidateTables (h : c.Sized m) (tables : List T) :
    (c.invalidateTables tables).2.Sized m := by
  rw [invalidateTables_eq]
  have hfold (keys : List K) (l1 : HybridQueryCache K (Rows T D)) (hsize : l1.lru.maxSize = m)
      (hlen : l1.lru.cache.len ≤ m) :
      (keys.foldl HybridQueryCache.invalidate l1).lru.maxSize = m ∧
        (keys.foldl HybridQueryCache.invalidate l1).lru.cache.len ≤ m := by
    induction keys generalizing l1 with
    | nil => exact ⟨hsize, hlen⟩
    | cons key keys ih =>
      apply ih
      · exact hsize
      · exact (Dict.len_pop_le _ _).trans hlen
  obtain ⟨hsize, hlen⟩ := hfold _ c.l1 h.size h.len
  exact ⟨hsize, hlen⟩

/-- An invalidation that drops nothing is scoped. -/
theorem scoped_of_not_dropped {tables : List T} (h : (c.invalidateTables tables).1 = false) :
    c.Scoped tables := by
  intro key hkey
  unfold QueryCacheCoordinator.invalidateTables at h
  split at h
  · next htables =>
    rw [htables] at hkey
    cases hkey
  · dsimp only at h
    split at h
    · next hnone =>
      rw [← List.mem_dedup, hnone] at hkey
      cases hkey
    · cases h

end QueryCacheCoordinator

namespace Resolved

open QueryCacheCoordinator

variable [DecidableEq K] [DecidableEq T]
  {c c' : QueryCacheCoordinator K T D E} {now : Time} {key : K} {tables : List T} {fetched : Bool}
  {m : Nat}

/-- A whole lookup keeps the size. -/
theorem sized (h : Resolved c now key tables fetched c') (hsized : c.Sized m) : c'.Sized m := by
  have hlooked := hsized.looked now key
  cases h with
  | hit _ hsame => exact hlooked.of_same hsame
  | raised _ _ hsame => exact hlooked.of_same hsame
  | filled rows hmiss _ _ hsame => exact (hlooked.fill (not_held_of_miss hmiss) rows).of_same hsame

/-- A whole lookup takes the leaving key from the first level, and puts its own key into it and into
the index, or nothing into both. -/
theorem keys (h : Resolved c now key tables fetched c') (hsized : c.Sized m) :
    ∃ stored : Prop,
      (∀ a, a ∈ c'.held ↔ a ∈ c.held ∧ c.leaving? now key fetched ≠ some a ∨ stored ∧ a = key) ∧
      (∀ a ∈ c'.indexed, a ∈ c.indexed ∨ stored ∧ a = key) ∧ c.indexed ⊆ c'.indexed ∧
      ∀ a, c.leaving? now key fetched = some a → a ∈ c.held ∧ (stored → a ≠ key) := by
  have hlook := look_cases c now key
  unfold leaving?
  cases h with
  | hit hfound hsame =>
    obtain ⟨-, hmem, hlive⟩ := hlook.resolve_right fun h ↦ by
      rcases h with ⟨hmiss, -⟩ | ⟨hmiss, -⟩
      · exact hfound hmiss
      · exact hfound hmiss
    refine ⟨False, fun a ↦ ?_, fun a ha ↦ ?_, ?_, fun a ha ↦ ?_⟩
    · rw [hsame.held, mem_held_looked]
      simp [hmem, hlive]
    · rw [hsame.indexed] at ha
      exact .inl ha
    · rw [hsame.indexed]
      exact List.Subset.refl _
    · simp [hmem, hlive] at ha
  | raised hmiss hnot hsame =>
    refine ⟨False, fun a ↦ ?_, fun a ha ↦ ?_, ?_, fun a ha ↦ ?_⟩
    · rw [hsame.held, mem_held_looked]
      rcases hlook with ⟨hfound, -⟩ | ⟨-, habsent, -⟩ | ⟨-, hmem, hexpired, -⟩
      · exact absurd hmiss hfound
      · have hne : a ∈ c.held → a ≠ key := fun ha heq ↦ habsent (heq ▸ ha)
        simp only [habsent, hnot, if_false, Bool.false_and, Bool.false_eq_true, ne_eq,
          reduceCtorEq, not_false_eq_true, and_true, false_and, or_false]
        tauto
      · simp [hmem, hexpired, hnot, eq_comm]
    · rw [hsame.indexed] at ha
      exact .inl ha
    · rw [hsame.indexed]
      exact List.Subset.refl _
    · split at ha
      · next hmem =>
        split at ha
        · obtain rfl := Option.some.inj ha
          exact ⟨hmem, fun h ↦ h.elim⟩
        · cases ha
      · simp [hnot] at ha
  | filled rows hmiss hfetched htables hsame =>
    refine ⟨True, fun a ↦ ?_, fun a ha ↦ ?_, ?_, fun a ha ↦ ?_⟩
    · rw [hsame.held, mem_held_fill (not_held_of_miss hmiss), mem_held_looked]
      rcases hlook with ⟨hfound, -⟩ | ⟨-, habsent, hlru⟩ | ⟨-, hmem, hexpired, hlen⟩
      · exact absurd hmiss hfound
      · have hne : a ∈ c.held → a ≠ key := fun ha heq ↦ habsent (heq ▸ ha)
        have hheld : (c.looked now key).held = c.held := by
          rw [QueryCacheCoordinator.held, hlru]
          rfl
        rw [hlru, hheld, if_neg habsent, hfetched]
        by_cases hfull : c.l1.lru.maxSize ≤ c.l1.lru.cache.len
        · simp only [hfull, decide_true, Bool.and_self, if_true, forall_const]
          tauto
        · simp only [hfull, decide_false, Bool.and_false, Bool.false_eq_true, if_false]
          tauto
      · have hroom : ¬(c.looked now key).l1.lru.maxSize ≤ (c.looked now key).l1.lru.cache.len := by
          have hsize := (hsized.looked now key).size
          have hold := hsized.len
          omega
        simp only [hroom, hmem, hexpired, hfetched, if_true, Bool.not_true, Bool.and_false,
          Bool.false_eq_true, if_false]
        tauto
    · rw [hsame.indexed, mem_indexed_fill, indexed_looked] at ha
      rcases ha with hold | ⟨heq, -⟩
      · exact .inl hold
      · exact .inr ⟨trivial, heq⟩
    · intro a ha
      rw [hsame.indexed, mem_indexed_fill, indexed_looked]
      exact .inl ha
    · rw [hfetched] at ha
      split at ha
      · simp at ha
      · next habsent =>
        split at ha
        · have hmem := List.mem_of_head? ha
          exact ⟨hmem, fun _ heq ↦ habsent (heq ▸ hmem)⟩
        · cases ha

/-- A whole lookup leaves a key in the index that it makes leave the first level, exactly if that
key is indexed. -/
theorem held_iff (h : Resolved c now key tables fetched c') (hsized : c.Sized m)
    (hheld : c.indexed ⊆ c.held) :
    c'.indexed ⊆ c'.held ↔ ∀ removed ∈ c.leaving? now key fetched, removed ∉ c.indexed := by
  obtain ⟨stored, hkeys, hindexed, hsub, hleaving⟩ := h.keys hsized
  constructor
  · intro hin removed hremoved hmem
    obtain ⟨-, hne⟩ := hleaving removed hremoved
    rcases (hkeys removed).mp (hin (hsub hmem)) with ⟨-, hnot⟩ | ⟨hstored, heq⟩
    · exact hnot hremoved
    · exact hne hstored heq
  · intro hnone a ha
    rw [hkeys]
    rcases hindexed a ha with hold | hnew
    · exact .inl ⟨hheld hold, fun hleaves ↦ hnone a hleaves hold⟩
    · exact .inr hnew

end Resolved

end Index

namespace Caches

variable {K P D E : Type} [DecidableEq K]

/-- A key that the call makes leave the first level leaves the index as well: it is not in it, or
the call names all tables under which it is listed. -/
def KeepsIndex (u : Unicode) (cacheKey : Text → P → K) (s : Caches K D E) : Act K P D E → Prop
  | .getOrExecute sql params answer =>
    let key := cacheKey sql params
    ∀ removed ∈ s.coordinator.leaving? s.now key (s.fetches key answer),
      removed ∉ s.coordinator.indexed
  | .invalidate key => key ∈ s.coordinator.held → key ∉ s.coordinator.indexed
  | .invalidateTables tables => s.coordinator.Scoped tables
  | .invalidateAfterWrite write precise =>
    precise = true → s.coordinator.Scoped (extractTables u write)
  | _ => True

instance (u : Unicode) (cacheKey : Text → P → K) (s : Caches K D E) (a : Act K P D E) :
    Decidable (s.KeepsIndex u cacheKey a) :=
  match a with
  | .getOrExecute sql params answer => inferInstanceAs (Decidable
      (∀ removed ∈ s.coordinator.leaving? s.now (cacheKey sql params)
        (s.fetches (cacheKey sql params) answer), removed ∉ s.coordinator.indexed))
  | .invalidate key => inferInstanceAs (Decidable
      (key ∈ s.coordinator.held → key ∉ s.coordinator.indexed))
  | .invalidateTables tables => inferInstanceAs (Decidable (s.coordinator.Scoped tables))
  | .invalidateAfterWrite write precise => inferInstanceAs (Decidable
      (precise = true → s.coordinator.Scoped (extractTables u write)))
  | .persist .. | .clearAll | .tick _ => isTrue trivial

variable {u : Unicode} {cacheKey : Text → P → K} {reload : D → D} {s : Caches K D E}

/-- Every call keeps the size. -/
theorem sized_act {m : Nat} (h : s.coordinator.Sized m) (a : Act K P D E) :
    (s.act u cacheKey reload a).coordinator.Sized m := by
  have hclear (s : Caches K D E) (h : s.coordinator.Sized m) : s.clearAll.coordinator.Sized m :=
    ⟨h.size, Nat.zero_le m⟩
  cases a with
  | getOrExecute sql params answer =>
    exact (getOrExecute_spec u cacheKey reload s sql params answer).2.sized h
  | persist => exact h
  | invalidate key => exact ⟨h.size, (Dict.len_pop_le _ _).trans h.len⟩
  | invalidateTables tables => exact h.invalidateTables tables
  | clearAll => exact hclear s h
  | invalidateAfterWrite write precise =>
    show (s.invalidateAfterWrite u write precise).coordinator.Sized m
    rcases invalidateAfterWrite_cases u s write precise with ⟨-, heq⟩ | heq | heq
    · rw [heq]
      exact h.invalidateTables _
    · rw [heq]
      exact hclear s h
    · rw [heq]
      exact hclear _ (h.invalidateTables _)
  | tick => exact h

/-- When only keys of the first level are indexed, they still are after a call, exactly if the call
meets the condition. -/
theorem held_act_iff {m : Nat} (hsized : s.coordinator.Sized m)
    (hheld : s.coordinator.indexed ⊆ s.coordinator.held) (a : Act K P D E) :
    (s.act u cacheKey reload a).coordinator.indexed ⊆ (s.act u cacheKey reload a).coordinator.held ↔
      s.KeepsIndex u cacheKey a := by
  have hclear (s : Caches K D E) :
      s.clearAll.coordinator.indexed ⊆ s.clearAll.coordinator.held := by
    intro key hkey
    cases hkey
  cases a with
  | getOrExecute sql params answer =>
    exact (getOrExecute_spec u cacheKey reload s sql params answer).2.held_iff hsized hheld
  | persist => exact iff_of_true hheld trivial
  | invalidate key =>
    show s.coordinator.indexed ⊆ (s.coordinator.invalidate key).held ↔ _
    have hmem (a : K) :
        a ∈ (s.coordinator.invalidate key).held ↔ a ∈ s.coordinator.held ∧ a ≠ key :=
      Dict.mem_keys_pop
    constructor
    · intro hin _ hindexed
      exact ((hmem key).mp (hin hindexed)).2 rfl
    · intro hnot a ha
      refine (hmem a).mpr ⟨hheld ha, fun heq ↦ ?_⟩
      rw [heq] at ha
      exact hnot (hheld ha) ha
  | invalidateTables tables => exact QueryCacheCoordinator.held_invalidateTables_iff hheld tables
  | clearAll => exact iff_of_true (hclear s) trivial
  | invalidateAfterWrite write precise =>
    show (s.invalidateAfterWrite u write precise).coordinator.indexed ⊆
      (s.invalidateAfterWrite u write precise).coordinator.held ↔ _
    unfold KeepsIndex Caches.invalidateAfterWrite
    split
    · next hprecise =>
      split
      · next dropped heq =>
        obtain rfl : (s.invalidateTables (extractTables u write)).2 = dropped :=
          congrArg Prod.snd heq
        simp only [hprecise, forall_const]
        exact QueryCacheCoordinator.held_invalidateTables_iff hheld _
      · next kept heq =>
        refine iff_of_true (hclear kept) fun _ ↦ ?_
        exact QueryCacheCoordinator.scoped_of_not_dropped (congrArg Prod.fst heq)
    · next hnot => exact iff_of_true (hclear s) fun hprecise ↦ absurd hprecise hnot
  | tick => exact iff_of_true hheld trivial

/-- In every run of calls in which every key that leaves the first level leaves the index as well,
only keys of the first level are indexed, and both indexes have at most as many keys as it has
room for. From any such state, a call that does not meet the condition leaves a key in the index
that the first level does not have. -/
theorem index_bounded (u : Unicode) (cacheKey : Text → P → K) (reload : D → D) (l1MaxSize : Nat)
    (l1TtlSeconds : Int) (hpos : 0 < l1MaxSize) (now : Time) :
    (∀ s : Caches K D E, (system u cacheKey reload l1MaxSize l1TtlSeconds hpos now).Reach
        (KeepsIndex u cacheKey) s →
      s.coordinator.indexed ⊆ s.coordinator.held ∧ s.coordinator.IndexBounded l1MaxSize) ∧
    ∀ s : Caches K D E,
      (system u cacheKey reload l1MaxSize l1TtlSeconds hpos now).Reachable s →
      s.coordinator.indexed ⊆ s.coordinator.held → ∀ a : Act K P D E,
        ((s.act u cacheKey reload a).coordinator.indexed ⊆
          (s.act u cacheKey reload a).coordinator.held ↔ s.KeepsIndex u cacheKey a) := by
  have hsized {ok : Caches K D E → Act K P D E → Prop} (s : Caches K D E)
      (h : (system u cacheKey reload l1MaxSize l1TtlSeconds hpos now).Reach ok s) :
      s.coordinator.Sized l1MaxSize := by
    apply h.invariant (P := fun s ↦ s.coordinator.Sized l1MaxSize)
    · exact ⟨rfl, Nat.zero_le _⟩
    · intro s a s' hs _ hstep
      obtain rfl := Option.some.inj hstep
      exact sized_act hs a
  constructor
  · intro s h
    have hheld : s.coordinator.indexed ⊆ s.coordinator.held := by
      apply h.invariant_of (P := fun s ↦ s.coordinator.indexed ⊆ s.coordinator.held) hsized
      · intro key hkey
        cases hkey
      · intro s a s' hs hsz _ hok hstep
        obtain rfl := Option.some.inj hstep
        exact (held_act_iff hsz hs a).mpr hok
    exact ⟨hheld, (hsized s h).indexBounded hheld⟩
  · intro s h hheld a
    exact held_act_iff (hsized s h) hheld a

section Example

private def readOrder (n : Nat) : Text := "SELECT * FROM orders WHERE id = ".toList ++ n.repr.toList

private def crowded : System (Caches (Text × Unit) Nat Unit) (Act (Text × Unit) Unit Nat Unit) :=
  system .basic Prod.mk id 1 3600 (by decide) 0

/-- With room for one entry, three queries leave three keys in the index. -/
theorem index_grows : ∃ s, crowded.Reachable s ∧ s.coordinator.l1.lru.cache.len = 1 ∧
    ¬ s.coordinator.IndexBounded 1 := by
  obtain ⟨s, hs, hlens⟩ := System.exists_of_exec crowded (fun _ _ ↦ True)
    [.getOrExecute (readOrder 1) () (.ok 1), .getOrExecute (readOrder 2) () (.ok 2),
      .getOrExecute (readOrder 3) () (.ok 3)]
    (fun s ↦ s.coordinator.l1.lru.cache.len == 1 && s.coordinator.keyTables.len == 3)
    (by decide +kernel)
  simp only [Bool.and_eq_true, beq_iff_eq] at hlens
  refine ⟨s, hs, hlens.1, fun hbound ↦ ?_⟩
  have hlen := hbound.1
  omega

/-- A query, a write on its table and another query leave one key. -/
theorem index_bounded_write : ∃ s, crowded.Reach (KeepsIndex .basic Prod.mk) s ∧
    s.coordinator.keyTables.len = 1 ∧ s.coordinator.indexed ⊆ s.coordinator.held ∧
      s.coordinator.IndexBounded 1 := by
  obtain ⟨s, hs, hlen⟩ := System.exists_of_exec crowded (KeepsIndex .basic Prod.mk)
    [.getOrExecute (readOrder 1) () (.ok 1),
      .invalidateAfterWrite "DELETE FROM orders".toList true,
      .getOrExecute (readOrder 2) () (.ok 2)]
    (fun s ↦ s.coordinator.keyTables.len == 1) (by decide +kernel)
  refine ⟨s, hs, by simpa using hlen, ?_⟩
  exact (index_bounded .basic Prod.mk id 1 3600 (by decide) 0).1 s hs

end Example

end Caches
end SalesData.Cache

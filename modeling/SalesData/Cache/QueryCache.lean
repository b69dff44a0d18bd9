import Mathlib.Data.List.MinMax
import Mathlib.Data.List.Perm.Subperm
import Mathlib.Algebra.Order.Ring.Rat
import Mathlib.Tactic.Linarith
import SalesData.Base.Dict

/-!
# In-process query caches

`core/db/cache.py`: the LRU cache, the TTL cache and the hybrid of both that holds the
first level of the query cache. Hit counters and access records are left out, since
nothing but a report reads them. `now` is the reading of `time.time()`.
-/

namespace SalesData.Cache

open Base

/-- A reading of the clock in seconds. -/
abbrev Time := ℚ

/-- `CacheEntry` (`cache.py:13–43`). -/
structure CacheEntry (V : Type) where
  value : V
  ttl : Option Int
  createdAt : Time
  deriving DecidableEq, Repr

namespace CacheEntry

variable {V : Type}

/-- `CacheEntry.is_expired`. -/
def isExpired (e : CacheEntry V) (now : Time) : Bool :=
  match e.ttl with
  | none => false
  | some ttl => decide ((ttl : ℚ) < now - e.createdAt)

/-- An entry is live while its age does not exceed its ttl. -/
theorem live_iff {e : CacheEntry V} {now : Time} :
    e.isExpired now = false ↔ ∀ ttl : Int, e.ttl = some ttl → now - e.createdAt ≤ ttl := by
  unfold isExpired
  split
  · next hnone => simp [hnone]
  · next ttl httl => simp [httl]

/-- An entry that has expired stays expired. -/
theorem isExpired_mono {e : CacheEntry V} {now later : Time} (h : now ≤ later)
    (hexpired : e.isExpired now = true) : e.isExpired later = true := by
  by_contra hlive
  have hage := live_iff.mp (Bool.eq_false_iff.mpr hlive)
  have hstill : e.isExpired now = false := by
    apply live_iff.mpr
    intro ttl httl
    linarith only [h, hage ttl httl]
  rw [hstill] at hexpired
  cases hexpired

end CacheEntry

/-- `LRUQueryCache` (`cache.py:105–207`); the dictionary is in order of use. -/
structure LRUQueryCache (K V : Type) where
  maxSize : Nat
  cache : Dict K (CacheEntry V)
  maxSize_pos : 0 < maxSize

/-- `TTLQueryCache` (`cache.py:210–319`). -/
structure TTLQueryCache (K V : Type) where
  maxSize : Nat
  defaultTtl : Int
  cache : Dict K (CacheEntry V)
  maxSize_pos : 0 < maxSize

/-- `HybridQueryCache` (`cache.py:322–389`). -/
structure HybridQueryCache (K V : Type) where
  lru : LRUQueryCache K V
  ttl : TTLQueryCache K V

variable {K V : Type} [DecidableEq K]

namespace LRUQueryCache

/-- `LRUQueryCache.get`: the value and the cache afterwards. -/
def get (c : LRUQueryCache K V) (now : Time) (key : K) : Option V × LRUQueryCache K V :=
  match c.cache.get? key with
  | none => (none, c)
  | some entry =>
    if entry.isExpired now then (none, { c with cache := c.cache.pop key })
    else (some entry.value, { c with cache := c.cache.moveToEnd key })

/-- Room for one more key: the least recently used one is dropped. -/
def evict (c : LRUQueryCache K V) : Dict K (CacheEntry V) :=
  if c.maxSize ≤ c.cache.len then
    match c.cache.keys with
    | removed :: _ => c.cache.pop removed
    | [] => c.cache
  else c.cache

/-- `LRUQueryCache.put`. -/
def put (c : LRUQueryCache K V) (now : Time) (key : K) (value : V) (ttl : Option Int) :
    LRUQueryCache K V :=
  if key ∈ c.cache.keys then
    { c with cache := (c.cache.moveToEnd key).set key ⟨value, ttl, now⟩ }
  else { c with cache := c.evict.set key ⟨value, ttl, now⟩ }

/-- `LRUQueryCache.invalidate`. -/
def invalidate (c : LRUQueryCache K V) (key : K) : LRUQueryCache K V :=
  { c with cache := c.cache.pop key }

/-- `LRUQueryCache.clear`. -/
def clear (c : LRUQueryCache K V) : LRUQueryCache K V := { c with cache := .empty }

end LRUQueryCache

namespace TTLQueryCache

/-- Python's `ttl or default_ttl`. -/
def effective (c : TTLQueryCache K V) (ttl : Option Int) : Int :=
  match ttl with
  | none | some 0 => c.defaultTtl
  | some t => t

/-- `TTLQueryCache.get`: the value and the cache afterwards. -/
def get (c : TTLQueryCache K V) (now : Time) (key : K) : Option V × TTLQueryCache K V :=
  match c.cache.get? key with
  | none => (none, c)
  | some entry =>
    if entry.isExpired now then (none, { c with cache := c.cache.pop key })
    else (some entry.value, c)

/-- The entry that expires first. -/
def earliest (c : TTLQueryCache K V) : Option (K × CacheEntry V) :=
  c.cache.entries.argmin fun (_, e) ↦ e.createdAt + (c.effective e.ttl : ℚ)

/-- Room for one more key, also when the key is already there. -/
def evict (c : TTLQueryCache K V) : Dict K (CacheEntry V) :=
  if c.maxSize ≤ c.cache.len then
    match c.earliest with
    | some (removed, _) => c.cache.pop removed
    | none => c.cache
  else c.cache

/-- `TTLQueryCache.put`. -/
def put (c : TTLQueryCache K V) (now : Time) (key : K) (value : V) (ttl : Option Int) :
    TTLQueryCache K V :=
  { c with cache := c.evict.set key ⟨value, some (c.effective ttl), now⟩ }

/-- `TTLQueryCache.invalidate`. -/
def invalidate (c : TTLQueryCache K V) (key : K) : TTLQueryCache K V :=
  { c with cache := c.cache.pop key }

/-- `TTLQueryCache.clear`. -/
def clear (c : TTLQueryCache K V) : TTLQueryCache K V := { c with cache := .empty }

end TTLQueryCache

private theorem get?_of_get?_pop {d : Dict K V} {k a : K} {v : V} (h : (d.pop k).get? a = some v) :
    a ≠ k ∧ d.get? a = some v := by
  rw [Dict.get?_pop] at h
  split at h
  · cases h
  · next hne => exact ⟨hne, h⟩

namespace LRUQueryCache

private theorem get?_of_get {c : LRUQueryCache K V} {now : Time} {k a : K} {e : CacheEntry V}
    (h : (c.get now k).2.cache.get? a = some e) : c.cache.get? a = some e := by
  unfold get at h
  split at h
  · exact h
  · split at h
    · exact (get?_of_get?_pop h).2
    · rwa [Dict.get?_moveToEnd] at h

private theorem get?_of_get_fst {c : LRUQueryCache K V} {now : Time} {k : K} {v : V}
    (h : (c.get now k).1 = some v) :
    ∃ e, e.value = v ∧ c.cache.get? k = some e ∧ e.isExpired now = false := by
  unfold get at h
  split at h
  · cases h
  · next e he =>
    split at h
    · cases h
    · next hlive => exact ⟨e, Option.some.inj h, he, by simpa using hlive⟩

private theorem get?_of_evict {c : LRUQueryCache K V} {a : K} {e : CacheEntry V}
    (h : c.evict.get? a = some e) : c.cache.get? a = some e := by
  unfold evict at h
  split at h
  · split at h
    · exact (get?_of_get?_pop h).2
    · exact h
  · exact h

private theorem get?_of_put {c : LRUQueryCache K V} {now : Time} {k a : K} {v : V}
    {ttl : Option Int} {e : CacheEntry V} (h : (c.put now k v ttl).cache.get? a = some e) :
    a = k ∧ e = ⟨v, ttl, now⟩ ∨ a ≠ k ∧ c.cache.get? a = some e := by
  have hset {d : Dict K (CacheEntry V)} (hd : (d.set k ⟨v, ttl, now⟩).get? a = some e) :
      a = k ∧ e = ⟨v, ttl, now⟩ ∨ a ≠ k ∧ d.get? a = some e := by
    rw [Dict.get?_set] at hd
    split at hd
    · next hk => exact .inl ⟨hk, (Option.some.inj hd).symm⟩
    · next hk => exact .inr ⟨hk, hd⟩
  unfold put at h
  split at h
  · simpa using hset h
  · exact (hset h).imp id fun h ↦ ⟨h.1, get?_of_evict h.2⟩

/-- The key has an entry that has expired. -/
def expired (c : LRUQueryCache K V) (now : Time) (key : K) : Bool :=
  (c.cache.get? key).any (·.isExpired now)

/-- The keys after a look. -/
theorem mem_keys_get {c : LRUQueryCache K V} {now : Time} {key a : K} :
    a ∈ (c.get now key).2.cache.keys ↔
      a ∈ c.cache.keys ∧ (c.expired now key = true → a ≠ key) := by
  unfold get expired
  cases hget : c.cache.get? key with
  | none => simp
  | some entry =>
    cases hexpired : entry.isExpired now with
    | true => simp [hexpired]
    | false => simp [hexpired, Dict.mem_keys_iff]

/-- A look adds no entry. -/
theorem len_get_le (c : LRUQueryCache K V) (now : Time) (key : K) :
    (c.get now key).2.cache.len ≤ c.cache.len := by
  rw [← Dict.length_keys, ← Dict.length_keys]
  apply (List.Nodup.subperm (c.get now key).2.cache.keys_nodup ?_).length_le
  exact fun a ha ↦ (mem_keys_get.mp ha).1

/-- A look that finds nothing leaves nothing under its key. -/
theorem not_mem_keys_get {c : LRUQueryCache K V} {now : Time} {key : K}
    (h : (c.get now key).1 = none) : key ∉ (c.get now key).2.cache.keys := by
  rw [mem_keys_get]
  rintro ⟨hmem, hne⟩
  obtain ⟨entry, hentry⟩ := Dict.mem_keys_iff.mp hmem
  apply hne _ rfl
  unfold get at h
  rw [hentry] at h
  unfold expired
  rw [hentry]
  dsimp only at h
  split at h
  · next hexpired => exact hexpired
  · cases h

/-- The keys after a store under a key that has no entry: a full cache drops its first one. -/
theorem mem_keys_put {c : LRUQueryCache K V} {now : Time} {key a : K} {value : V}
    {ttl : Option Int} (h : key ∉ c.cache.keys) :
    a ∈ (c.put now key value ttl).cache.keys ↔
      a = key ∨ a ∈ c.cache.keys ∧ (c.maxSize ≤ c.cache.len → c.cache.keys.head? ≠ some a) := by
  unfold put evict
  rw [if_neg h]
  split
  · next hfull =>
    cases hkeys : c.cache.keys with
    | nil => simp [hkeys]
    | cons removed keys =>
      simp only [Dict.mem_keys_set, Dict.mem_keys_pop, hkeys, List.head?_cons, hfull,
        forall_const, ne_eq, Option.some.injEq, eq_comm]
  · next hroom => simp [hroom]

/-- A store keeps the bound. -/
theorem len_put_le {c : LRUQueryCache K V} {now : Time} {key : K} {value : V} {ttl : Option Int}
    (h : key ∉ c.cache.keys) (hlen : c.cache.len ≤ c.maxSize) :
    (c.put now key value ttl).cache.len ≤ c.maxSize := by
  have hpos := c.maxSize_pos
  unfold put evict
  rw [if_neg h]
  dsimp only
  rw [Dict.len_set]
  split
  · next hfull =>
    cases hkeys : c.cache.keys with
    | nil =>
      have hzero := c.cache.length_keys
      rw [hkeys] at hzero
      simp only [List.length_nil] at hzero
      omega
    | cons removed keys =>
      have hlen_pop := c.cache.len_pop removed
      rw [if_pos (by rw [hkeys]; exact List.mem_cons_self ..)] at hlen_pop
      dsimp only
      split
      · omega
      · omega
  · omega

end LRUQueryCache

namespace TTLQueryCache

private theorem get?_of_get {c : TTLQueryCache K V} {now : Time} {k a : K} {e : CacheEntry V}
    (h : (c.get now k).2.cache.get? a = some e) : c.cache.get? a = some e := by
  unfold get at h
  split at h
  · exact h
  · split at h
    · exact (get?_of_get?_pop h).2
    · exact h

private theorem get?_of_put {c : TTLQueryCache K V} {now : Time} {k a : K} {v : V}
    {ttl : Option Int} {e : CacheEntry V} (h : (c.put now k v ttl).cache.get? a = some e) :
    a = k ∧ e.value = v ∨ a ≠ k ∧ c.cache.get? a = some e := by
  simp only [put, Dict.get?_set] at h
  split at h
  · next hk => exact .inl ⟨hk, by rw [← Option.some.inj h]⟩
  · next hk =>
    refine .inr ⟨hk, ?_⟩
    unfold evict at h
    split at h
    · split at h
      · exact (get?_of_get?_pop h).2
      · exact h
    · exact h

end TTLQueryCache

namespace HybridQueryCache

/-- `HybridQueryCache(max_size, default_ttl)`. -/
def new (maxSize : Nat) (defaultTtl : Int) (h : 0 < maxSize) : HybridQueryCache K V :=
  ⟨⟨maxSize, .empty, h⟩, ⟨maxSize, defaultTtl, .empty, h⟩⟩

/-- `HybridQueryCache.get`: a hit in the LRU cache also visits the TTL cache. -/
def get (c : HybridQueryCache K V) (now : Time) (key : K) : Option V × HybridQueryCache K V :=
  match c.lru.get now key with
  | (some value, lru) => (some value, ⟨lru, (c.ttl.get now key).2⟩)
  | (none, lru) => (none, { c with lru := lru })

/-- `HybridQueryCache.put`. -/
def put (c : HybridQueryCache K V) (now : Time) (key : K) (value : V) (ttl : Option Int) :
    HybridQueryCache K V :=
  ⟨c.lru.put now key value ttl, c.ttl.put now key value ttl⟩

/-- `HybridQueryCache.invalidate`. -/
def invalidate (c : HybridQueryCache K V) (key : K) : HybridQueryCache K V :=
  ⟨c.lru.invalidate key, c.ttl.invalidate key⟩

/-- `HybridQueryCache.clear`. -/
def clear (c : HybridQueryCache K V) : HybridQueryCache K V := ⟨c.lru.clear, c.ttl.clear⟩

/-- A look goes to the LRU cache first. -/
theorem lru_get (c : HybridQueryCache K V) (now : Time) (key : K) :
    (c.get now key).2.lru = (c.lru.get now key).2 ∧ (c.get now key).1 = (c.lru.get now key).1 := by
  unfold get
  split
  · next hget => rw [hget]; exact ⟨rfl, rfl⟩
  · next hget => rw [hget]; exact ⟨rfl, rfl⟩

/-- One of the two caches has an entry with this value, expired or not. -/
def Holds (c : HybridQueryCache K V) (key : K) (value : V) : Prop :=
  ∃ e : CacheEntry V, e.value = value ∧
    (c.lru.cache.get? key = some e ∨ c.ttl.cache.get? key = some e)

/-- A lookup adds no entry. -/
theorem holds_of_get {c : HybridQueryCache K V} {now : Time} {k a : K} {v : V}
    (h : (c.get now k).2.Holds a v) : c.Holds a v := by
  obtain ⟨e, hv, he⟩ := h
  refine ⟨e, hv, ?_⟩
  rcases he with he | he
  · rw [(c.lru_get now k).1] at he
    exact .inl (LRUQueryCache.get?_of_get he)
  · right
    unfold get at he
    split at he
    · exact TTLQueryCache.get?_of_get he
    · exact he

/-- After a store the key has the new value only, and no other key has a new one. -/
theorem holds_of_put {c : HybridQueryCache K V} {now : Time} {k a : K} {v w : V}
    {ttl : Option Int} (h : (c.put now k v ttl).Holds a w) :
    a = k ∧ w = v ∨ a ≠ k ∧ c.Holds a w := by
  obtain ⟨e, hv, he⟩ := h
  rcases he with he | he
  · rcases LRUQueryCache.get?_of_put he with ⟨hk, hval⟩ | ⟨hk, hold⟩
    · exact .inl ⟨hk, by rw [← hv, hval]⟩
    · exact .inr ⟨hk, e, hv, .inl hold⟩
  · rcases TTLQueryCache.get?_of_put he with ⟨hk, hval⟩ | ⟨hk, hold⟩
    · exact .inl ⟨hk, hv.symm.trans hval⟩
    · exact .inr ⟨hk, e, hv, .inr hold⟩

/-- An invalidated key has no entry. -/
theorem holds_of_invalidate {c : HybridQueryCache K V} {k a : K} {v : V}
    (h : (c.invalidate k).Holds a v) : a ≠ k ∧ c.Holds a v := by
  obtain ⟨e, hv, he⟩ := h
  rcases he with he | he
  · obtain ⟨hk, hold⟩ := get?_of_get?_pop he
    exact ⟨hk, e, hv, .inl hold⟩
  · obtain ⟨hk, hold⟩ := get?_of_get?_pop he
    exact ⟨hk, e, hv, .inr hold⟩

/-- The entry that answers for a key, while it is not expired. -/
def entryFor (c : HybridQueryCache K V) (key : K) : Option (CacheEntry V) := c.lru.cache.get? key

/-- A hit returns the value of an entry that is not expired. -/
theorem entryFor_of_hit {c : HybridQueryCache K V} {now : Time} {k : K} {v : V}
    (h : (c.get now k).1 = some v) :
    ∃ e, e.value = v ∧ c.entryFor k = some e ∧ e.isExpired now = false := by
  apply LRUQueryCache.get?_of_get_fst
  rw [← (c.lru_get now k).2]
  exact h

/-- A lookup makes no entry. -/
theorem entryFor_of_get {c : HybridQueryCache K V} {now : Time} {k a : K} {e : CacheEntry V}
    (h : (c.get now k).2.entryFor a = some e) : c.entryFor a = some e := by
  rw [entryFor, (c.lru_get now k).1] at h
  exact LRUQueryCache.get?_of_get h

/-- A store makes the entry of its key, which begins its life now. -/
theorem entryFor_of_put {c : HybridQueryCache K V} {now : Time} {k a : K} {v : V}
    {ttl : Option Int} {e : CacheEntry V} (h : (c.put now k v ttl).entryFor a = some e) :
    a = k ∧ e = ⟨v, ttl, now⟩ ∨ a ≠ k ∧ c.entryFor a = some e :=
  LRUQueryCache.get?_of_put h

/-- An invalidation makes no entry. -/
theorem entryFor_of_invalidate {c : HybridQueryCache K V} {k a : K} {e : CacheEntry V}
    (h : (c.invalidate k).entryFor a = some e) : c.entryFor a = some e :=
  (get?_of_get?_pop h).2

/-- The entry that answers is one of the entries. -/
theorem holds_of_entryFor {c : HybridQueryCache K V} {k : K} {e : CacheEntry V}
    (h : c.entryFor k = some e) : c.Holds k e.value := ⟨e, rfl, .inl h⟩

/-- A cleared cache has no entries. -/
theorem not_holds_clear {c : HybridQueryCache K V} {k : K} {v : V} : ¬c.clear.Holds k v := by
  rintro ⟨e, -, he | he⟩ <;> cases he

/-- A new cache has no entries. -/
theorem not_holds_new {maxSize : Nat} {defaultTtl : Int} {h : 0 < maxSize} {k : K} {v : V} :
    ¬(new maxSize defaultTtl h : HybridQueryCache K V).Holds k v := by
  rintro ⟨e, -, he | he⟩ <;> cases he

end HybridQueryCache
end SalesData.Cache

import SalesData.Base.LruMap
import SalesData.Cache.QueryCache

/-!
# The first level as a reference LRU map

`LRUQueryCache` (`core/db/cache.py:105–181`) under any sequence of calls: an entry that has expired
keeps its place until a lookup finds it, and a lookup or a store makes its key the most recent one.
`HybridQueryCache` (lines 318–377) keeps a `TTLQueryCache` beside it, which reads the clock for
itself and evicts other keys; its answers are those of the LRU cache.
-/

namespace SalesData.Cache

open Base

/-- A call of a cache. -/
inductive Op (K V : Type) where
  | get (key : K)
  | put (key : K) (value : V) (ttl : Option Int)
  | invalidate (key : K)
  | clear
  deriving DecidableEq, Repr

/-- A call with the clock that it reads. A hybrid cache passes it on to two caches, of which the
second reads the clock `later`. -/
structure TimedOp (K V : Type) where
  now : Time
  later : Time
  op : Op K V
  deriving DecidableEq, Repr

variable {K V : Type} [DecidableEq K]

namespace Op

/-- The call stores under the key or drops what is stored there. -/
def resets (key : K) : Op K V → Bool
  | get _ => false
  | put k _ _ | invalidate k => k == key
  | clear => true

/-- The call stores under a key that the map does not have and that displaces `a`. -/
def Displaces (size : Nat) (m : LruMap K (CacheEntry V)) (a : K) : Op K V → Prop
  | put key _ _ => m.Displaces size key a
  | _ => False

/-- The reference map after the call. -/
noncomputable def refer (size : Nat) (now : Time) (m : LruMap K (CacheEntry V)) :
    Op K V → LruMap K (CacheEntry V)
  | get key => m.look key (·.isExpired now)
  | put key value ttl => m.put size key ⟨value, ttl, now⟩
  | invalidate key => m.remove key
  | clear => m.clear

end Op

namespace LRUQueryCache

/-- `LRUQueryCache(max_size)`. -/
def new (maxSize : Nat) (h : 0 < maxSize) : LRUQueryCache K V := ⟨maxSize, .empty, h⟩

/-- The cache after a call. -/
def apply (c : LRUQueryCache K V) (now : Time) : Op K V → LRUQueryCache K V
  | .get key => (c.get now key).2
  | .put key value ttl => c.put now key value ttl
  | .invalidate key => c.invalidate key
  | .clear => c.clear

/-- The cache after calls, of which the last comes first. -/
def after (maxSize : Nat) (h : 0 < maxSize) : List (TimedOp K V) → LRUQueryCache K V
  | [] => new maxSize h
  | call :: past => (after maxSize h past).apply call.now call.op

end LRUQueryCache

namespace HybridQueryCache

/-- `HybridQueryCache.get`, in which the two caches read the clock one after the other. -/
def getAt (c : HybridQueryCache K V) (now later : Time) (key : K) :
    Option V × HybridQueryCache K V :=
  match c.lru.get now key with
  | (some value, lru) => (some value, ⟨lru, (c.ttl.get later key).2⟩)
  | (none, lru) => (none, { c with lru := lru })

/-- The cache after a call. -/
def apply (c : HybridQueryCache K V) (now later : Time) : Op K V → HybridQueryCache K V
  | .get key => (c.getAt now later key).2
  | .put key value ttl => ⟨c.lru.put now key value ttl, c.ttl.put later key value ttl⟩
  | .invalidate key => c.invalidate key
  | .clear => c.clear

/-- The cache after calls, of which the last comes first. -/
def after (maxSize : Nat) (defaultTtl : Int) (h : 0 < maxSize) :
    List (TimedOp K V) → HybridQueryCache K V
  | [] => new maxSize defaultTtl h
  | call :: past => (after maxSize defaultTtl h past).apply call.now call.later call.op

/-- The LRU cache answers. -/
theorem getAt_lru (c : HybridQueryCache K V) (now later : Time) (key : K) :
    (c.getAt now later key).1 = (c.lru.get now key).1 ∧
      (c.getAt now later key).2.lru = (c.lru.get now key).2 := by
  unfold getAt
  split
  · next hget => rw [hget]; exact ⟨rfl, rfl⟩
  · next hget => rw [hget]; exact ⟨rfl, rfl⟩

/-- The LRU cache of a hybrid one is what it would be by itself. -/
theorem lru_after (maxSize : Nat) (defaultTtl : Int) (h : 0 < maxSize)
    (ops : List (TimedOp K V)) :
    (after maxSize defaultTtl h ops).lru = .after maxSize h ops := by
  induction ops with
  | nil => rfl
  | cons call past ih =>
    rw [after, LRUQueryCache.after, ← ih]
    cases call.op with
    | get key => exact (getAt_lru _ _ _ _).2
    | put | invalidate | clear => rfl

end HybridQueryCache

/-- The reference map after calls, of which the last comes first. -/
noncomputable def reference (maxSize : Nat) : List (TimedOp K V) → LruMap K (CacheEntry V)
  | [] => .empty
  | call :: past => call.op.refer maxSize call.now (reference maxSize past)

/-- The last call that stored under `key` since any that dropped it stored `e`, and no call has
displaced the key since. -/
inductive Kept (maxSize : Nat) : List (TimedOp K V) → K → CacheEntry V → Prop
  | put {now later : Time} {past : List (TimedOp K V)} (key : K) (value : V) (ttl : Option Int) :
      Kept maxSize (⟨now, later, .put key value ttl⟩ :: past) key ⟨value, ttl, now⟩
  | keep {call : TimedOp K V} {past : List (TimedOp K V)} {key : K} {e : CacheEntry V} :
      Kept maxSize past key e → call.op.resets key = false →
      ¬ call.op.Displaces maxSize (reference maxSize past) key → Kept maxSize (call :: past) key e

namespace LRUQueryCache

variable {maxSize : Nat} {h : 0 < maxSize}

/-- The size is never changed. -/
theorem maxSize_after (ops : List (TimedOp K V)) : (after maxSize h ops).maxSize = maxSize := by
  induction ops with
  | nil => rfl
  | cons call past ih =>
    rw [after]
    cases call.op with
    | get key =>
      rw [apply, get]
      split
      · exact ih
      · split <;> exact ih
    | put key value ttl =>
      rw [apply, put]
      split <;> exact ih
    | invalidate | clear => exact ih

private theorem represents_get {c : LRUQueryCache K V} {m : LruMap K (CacheEntry V)}
    (hc : m.Represents c.cache) (now : Time) (key : K) :
    (m.look key (·.isExpired now)).Represents (c.get now key).2.cache := by
  rw [get]
  split
  · next hget => exact hc.look_of_none hget _
  · next entry hget =>
    have hlook := hc.look_of_some hget (·.isExpired now)
    split
    · next hexpired =>
      rw [if_pos hexpired] at hlook
      exact hlook
    · next hlive =>
      rw [if_neg hlive] at hlook
      exact hlook

private theorem represents_put {c : LRUQueryCache K V} {m : LruMap K (CacheEntry V)}
    (hc : m.Represents c.cache) (now : Time) (key : K) (value : V) (ttl : Option Int) :
    (m.put c.maxSize key ⟨value, ttl, now⟩).Represents (c.put now key value ttl).cache := by
  rw [put]
  split
  · next hmem => exact hc.put_of_mem hmem c.maxSize _
  · next hnew =>
    dsimp only
    rw [evict]
    split
    · next hfull =>
      split
      · next first rest hkeys => exact hc.put_of_full hnew hfull hkeys _
      · next hkeys =>
        have hpos := c.maxSize_pos
        rw [← Dict.length_keys, hkeys, List.length_nil] at hfull
        omega
    · next hroom => exact hc.put_of_room hnew (Nat.not_le.mp hroom) _

/-- After any calls the cache represents the reference map. -/
theorem represents_after (ops : List (TimedOp K V)) :
    (reference maxSize ops).Represents (after maxSize h ops).cache := by
  induction ops with
  | nil => exact .empty
  | cons call past ih =>
    rw [after, reference]
    cases call.op with
    | get key => exact represents_get ih call.now key
    | put key value ttl =>
      have hput := represents_put ih call.now key value ttl
      rw [maxSize_after] at hput
      exact hput
    | invalidate key => exact ih.remove key
    | clear => exact .clear

/-- The bound. -/
theorem len_after_le (ops : List (TimedOp K V)) : (after maxSize h ops).cache.len ≤ maxSize := by
  induction ops with
  | nil => exact Nat.zero_le _
  | cons call past ih =>
    rw [after]
    cases call.op with
    | get key => exact (len_get_le _ _ _).trans ih
    | put key value ttl =>
      rw [apply]
      by_cases hmem : key ∈ (after maxSize h past).cache.keys
      · obtain ⟨e, he⟩ := Dict.mem_keys_iff.mp hmem
        have hmoved : key ∈ ((after maxSize h past).cache.moveToEnd key).keys :=
          Dict.mem_keys_iff.mpr ⟨e, by rwa [Dict.get?_moveToEnd]⟩
        rw [put, if_pos hmem]
        dsimp only
        rw [Dict.len_set, if_pos hmoved, Dict.len_moveToEnd]
        exact ih
      · have hsize : (after maxSize h past).maxSize = maxSize := maxSize_after past
        exact (len_put_le hmem (ih.trans_eq hsize.symm)).trans_eq hsize
    | invalidate key => exact (Dict.len_pop_le _ _).trans ih
    | clear => exact Nat.zero_le _

/-- A lookup finds what is stored and has not expired. -/
theorem get_eq_some_iff {c : LRUQueryCache K V} {now : Time} {key : K} {value : V} :
    (c.get now key).1 = some value ↔
      ∃ e, c.cache.get? key = some e ∧ e.value = value ∧ e.isExpired now = false := by
  rw [get]
  cases hget : c.cache.get? key with
  | none => simp
  | some entry => cases hlive : entry.isExpired now <;> simp [hlive]

end LRUQueryCache

/-- What the reference map holds is kept. -/
theorem kept_of_holds {maxSize : Nat} {ops : List (TimedOp K V)} {key : K} {e : CacheEntry V}
    (h : (reference maxSize ops).Holds key e) : Kept maxSize ops key e := by
  induction ops with
  | nil =>
    obtain ⟨n, hn⟩ := h
    cases hn
  | cons call past ih =>
    rcases call with ⟨now, later, op⟩
    rw [reference] at h
    cases op with
    | get k => exact .keep (ih (LruMap.holds_look.mp h).1) rfl id
    | put k value ttl =>
      have h := LruMap.holds_put.mp h
      split at h
      · next hk =>
        rw [h, hk]
        exact .put k value ttl
      · next hk =>
        refine .keep (ih h.1) ?_ h.2
        simpa [Op.resets] using Ne.symm hk
    | invalidate k =>
      have h := LruMap.holds_remove.mp h
      refine .keep (ih h.2) ?_ id
      simpa [Op.resets] using Ne.symm h.1
    | clear =>
      obtain ⟨n, hn⟩ := h
      cases hn

/-- What is kept is held, unless a lookup has found it expired. -/
theorem holds_of_kept {maxSize : Nat} {ops : List (TimedOp K V)} {key : K} {e : CacheEntry V}
    (h : Kept maxSize ops key e) :
    (reference maxSize ops).Holds key e ∨ ∃ call ∈ ops, e.isExpired call.now = true := by
  induction h with
  | put key value ttl =>
    left
    rw [reference]
    apply LruMap.holds_put.mpr
    rw [if_pos rfl]
  | @keep call past key e hkept hresets hstays ih =>
    rcases ih with hheld | ⟨call', hmem, hexpired⟩
    · rcases call with ⟨now, later, op⟩
      rw [reference]
      cases op with
      | get k =>
        cases hlive : e.isExpired now with
        | false => exact .inl (LruMap.holds_look.mpr ⟨hheld, fun _ ↦ hlive⟩)
        | true => exact .inr ⟨_, List.mem_cons_self .., hlive⟩
      | put k value ttl =>
        have hne : key ≠ k := Ne.symm (by simpa [Op.resets] using hresets)
        left
        apply LruMap.holds_put.mpr
        rw [if_neg hne]
        exact ⟨hheld, hstays⟩
      | invalidate k =>
        have hne : key ≠ k := Ne.symm (by simpa [Op.resets] using hresets)
        exact .inl (LruMap.holds_remove.mpr ⟨hne, hheld⟩)
      | clear => cases hresets
    · exact .inr ⟨call', List.mem_cons_of_mem _ hmem, hexpired⟩

/-- The LRU cache after any calls is the reference map: a lookup answers with what is kept while its
age does not exceed its ttl, the size is bounded, the keys are those of the map, a new key displaces
exactly one key of a full cache, and the hybrid cache answers in the same way. -/
theorem answers_with_kept (maxSize : Nat) (h : 0 < maxSize) (defaultTtl : Int)
    (ops : List (TimedOp K V)) :
    (∀ (now : Time) (key : K) (value : V), (∀ call ∈ ops, call.now ≤ now) →
      (((LRUQueryCache.after maxSize h ops).get now key).1 = some value ↔
        ∃ e, Kept maxSize ops key e ∧ e.value = value ∧
          ∀ ttl : Int, e.ttl = some ttl → now - e.createdAt ≤ ttl)) ∧
    (LRUQueryCache.after maxSize h ops).cache.len ≤ maxSize ∧
    (∀ key, key ∈ (LRUQueryCache.after maxSize h ops).cache.keys ↔
      key ∈ (reference maxSize ops).keys) ∧
    (∀ key, key ∉ (LRUQueryCache.after maxSize h ops).cache.keys →
      maxSize ≤ (LRUQueryCache.after maxSize h ops).cache.len →
        ∃! a, (reference maxSize ops).Displaces maxSize key a) ∧
    ∀ (now later : Time) (key : K),
      ((HybridQueryCache.after maxSize defaultTtl h ops).getAt now later key).1 =
        ((LRUQueryCache.after maxSize h ops).get now key).1 := by
  have hrep := LRUQueryCache.represents_after (h := h) ops
  refine ⟨fun now key value hnow ↦ ?_, LRUQueryCache.len_after_le ops, fun key ↦ hrep.mem_keys.symm,
    fun key hnew hfull ↦ ?_, fun now later key ↦ ?_⟩
  · rw [LRUQueryCache.get_eq_some_iff]
    constructor
    · rintro ⟨e, he, hvalue, hlive⟩
      exact ⟨e, kept_of_holds (hrep.holds_iff.mpr he), hvalue, CacheEntry.live_iff.mp hlive⟩
    · rintro ⟨e, hkept, hvalue, hage⟩
      have hlive := CacheEntry.live_iff.mpr hage
      refine ⟨e, ?_, hvalue, hlive⟩
      rcases holds_of_kept hkept with hheld | ⟨call, hmem, hexpired⟩
      · exact hrep.holds_iff.mp hheld
      · have hstill := CacheEntry.isExpired_mono (hnow call hmem) hexpired
        rw [hlive] at hstill
        cases hstill
  · rw [← hrep.ncard_keys] at hfull
    obtain ⟨a, ha, honly⟩ := hrep.existsUnique_oldest h hfull
    exact ⟨a, ⟨hrep.not_mem_keys.mpr hnew, hfull, ha⟩, fun b hb ↦ honly b hb.2.2⟩
  · rw [(HybridQueryCache.getAt_lru _ _ _ _).1, HybridQueryCache.lru_after]

section Example

private def touched : List (TimedOp Nat Nat) :=
  [⟨3, 3, .put 3 30 (some 60)⟩, ⟨2, 2, .get 1⟩, ⟨1, 1, .put 2 20 (some 60)⟩,
    ⟨0, 0, .put 1 10 (some 60)⟩]

/-- The key that was looked up is kept, the other one is displaced. -/
theorem answers_with_kept_touched :
    (∃ e, Kept 2 touched 1 e ∧ e.value = 10) ∧ ¬ ∃ e, Kept 2 touched 2 e ∧ e.value = 20 ∧
      ∀ ttl : Int, e.ttl = some ttl → 4 - e.createdAt ≤ ttl := by
  have hkept := answers_with_kept 2 (by decide) 3600 touched
  have hclock : ∀ call ∈ touched, call.now ≤ 4 := by decide +kernel
  constructor
  · obtain ⟨e, he, hvalue, -⟩ := (hkept.1 4 1 10 hclock).mp (by decide +kernel)
    exact ⟨e, he, hvalue⟩
  · intro hex
    have hget := (hkept.1 4 2 20 hclock).mpr hex
    revert hget
    decide +kernel

end Example

end SalesData.Cache

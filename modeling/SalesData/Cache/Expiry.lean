import SalesData.Cache.Recency

/-!
# Evictions of the TTL cache

`TTLQueryCache.put` (`core/db/cache.py:250–271`) makes room before it looks whether the key is
already there, which `LRUQueryCache.put` does first (line 144), and takes a ttl of 0 for none,
though it "uses default if None" (line 256).
-/

namespace SalesData.Cache

open Base

variable {K V : Type} [DecidableEq K]

/-- The clock does not go backwards; the last call comes first. -/
def Ordered (ops : List (TimedOp K V)) : Prop :=
  ops.Pairwise fun newer older ↦ older.now ≤ newer.now

/-- When an entry expires. -/
def CacheEntry.expiry (defaultTtl : Int) (e : CacheEntry V) : Time :=
  e.createdAt + (e.ttl.getD defaultTtl : ℚ)

namespace TTLQueryCache

/-- `TTLQueryCache(max_size, default_ttl)`. -/
def new (maxSize : Nat) (defaultTtl : Int) (h : 0 < maxSize) : TTLQueryCache K V :=
  ⟨maxSize, defaultTtl, .empty, h⟩

/-- The cache after a call. -/
def apply (c : TTLQueryCache K V) (now : Time) : Op K V → TTLQueryCache K V
  | .get key => (c.get now key).2
  | .put key value ttl => c.put now key value ttl
  | .invalidate key => c.invalidate key
  | .clear => c.clear

/-- The cache after calls, of which the last comes first. -/
def after (maxSize : Nat) (defaultTtl : Int) (h : 0 < maxSize) :
    List (TimedOp K V) → TTLQueryCache K V
  | [] => new maxSize defaultTtl h
  | call :: past => (after maxSize defaultTtl h past).apply call.now call.op

/-- The cache is full. -/
def Full (c : TTLQueryCache K V) : Prop := c.maxSize ≤ c.cache.len

/-- The key that makes room. -/
def victim (c : TTLQueryCache K V) : Option K := c.earliest.map Prod.fst

/-- The call stores under a new key in a full cache, and `a` is not there any longer. -/
def Evicts (c : TTLQueryCache K V) (a : K) (call : TimedOp K V) : Prop :=
  ∃ key value ttl, call.op = .put key value ttl ∧ key ∉ c.cache.keys ∧ c.Full ∧
    a ∈ c.cache.keys ∧ a ∉ (c.apply call.now call.op).cache.keys

/-- What makes a call do what the cache is for: a store does not ask for a ttl of 0, and one under
a stored key of a full cache finds that this key is the one that makes room. -/
def Spares (c : TTLQueryCache K V) : Op K V → Prop
  | .put key _ ttl => ttl ≠ some 0 ∧ (key ∈ c.cache.keys → c.Full → c.victim = some key)
  | _ => True

end TTLQueryCache

/-- The last call that stored under `key` since any that dropped it stored `e`, with the ttl that it
asked for, and no store of a new key has evicted the key since. -/
inductive Retained (maxSize : Nat) (defaultTtl : Int) (h : 0 < maxSize) :
    List (TimedOp K V) → K → CacheEntry V → Prop
  | put {now later : Time} {past : List (TimedOp K V)} (key : K) (value : V) (ttl : Option Int) :
      Retained maxSize defaultTtl h (⟨now, later, .put key value ttl⟩ :: past) key
        ⟨value, some (ttl.getD defaultTtl), now⟩
  | keep {call : TimedOp K V} {past : List (TimedOp K V)} {key : K} {e : CacheEntry V} :
      Retained maxSize defaultTtl h past key e → call.op.resets key = false →
      ¬ (TTLQueryCache.after maxSize defaultTtl h past).Evicts key call →
      Retained maxSize defaultTtl h (call :: past) key e

/-- What a store does to the other keys: none goes if its key was stored or there was room, and else
one goes, which expires first. -/
structure RoomMade (maxSize : Nat) (defaultTtl : Int) (h : 0 < maxSize) (past : List (TimedOp K V))
    (key : K) (c c' : TTLQueryCache K V) : Prop where
  none : key ∈ c.cache.keys ∨ ¬ c.Full → ∀ a ∈ c.cache.keys, a ∈ c'.cache.keys
  one : key ∉ c.cache.keys → c.Full → ∃ a e, a ∈ c.cache.keys ∧
    (∀ b ∈ c.cache.keys, b ∈ c'.cache.keys ↔ b ≠ a) ∧
    Retained maxSize defaultTtl h past a e ∧
    ∀ b ∈ c.cache.keys, ∀ e', Retained maxSize defaultTtl h past b e' →
      e.expiry defaultTtl ≤ e'.expiry defaultTtl

/-- The TTL cache evicts for room only, all through the calls. -/
structure EvictsForRoom (maxSize : Nat) (defaultTtl : Int) (h : 0 < maxSize)
    (ops : List (TimedOp K V)) : Prop where
  bound : ∀ past, past <:+ ops → (TTLQueryCache.after maxSize defaultTtl h past).cache.len ≤ maxSize
  room : ∀ call past key value ttl, call :: past <:+ ops → call.op = .put key value ttl →
    RoomMade maxSize defaultTtl h past key (.after maxSize defaultTtl h past)
      (.after maxSize defaultTtl h (call :: past))
  answers : ∀ past, past <:+ ops → ∀ (now : Time) (key : K) (value : V),
    (∀ call ∈ past, call.now ≤ now) →
      (((TTLQueryCache.after maxSize defaultTtl h past).get now key).1 = some value ↔
        ∃ e, Retained maxSize defaultTtl h past key e ∧ e.value = value ∧
          ∀ ttl : Int, e.ttl = some ttl → now - e.createdAt ≤ ttl)

namespace TTLQueryCache

/-- A full cache has a victim, which expires first. -/
theorem exists_victim {c : TTLQueryCache K V} (hfull : c.Full) :
    ∃ a e, c.victim = some a ∧ c.cache.get? a = some e ∧
      ∀ b e', c.cache.get? b = some e' →
        e.createdAt + (c.effective e.ttl : ℚ) ≤ e'.createdAt + (c.effective e'.ttl : ℚ) := by
  cases hearliest : c.earliest with
  | none =>
    have hpos := c.maxSize_pos
    have hlen : c.cache.len = 0 := List.length_eq_zero_iff.mpr (List.argmin_eq_none.mp hearliest)
    rw [Full, hlen] at hfull
    omega
  | some p =>
    rcases p with ⟨a, e⟩
    refine ⟨a, e, ?_, Dict.mem_entries_iff.mp (List.argmin_mem hearliest), fun b e' hb ↦ ?_⟩
    · rw [victim, hearliest]
      rfl
    · exact List.le_of_mem_argmin (Dict.mem_entries_iff.mpr hb) hearliest

/-- A full cache makes room by dropping its victim. -/
theorem evict_of_full {c : TTLQueryCache K V} {a : K} (hfull : c.Full) (ha : c.victim = some a) :
    c.evict = c.cache.pop a := by
  obtain ⟨p, hp, rfl⟩ := Option.map_eq_some_iff.mp ha
  rw [evict, if_pos (show c.maxSize ≤ c.cache.len from hfull), hp]

/-- Any other cache has room. -/
theorem evict_of_room {c : TTLQueryCache K V} (hroom : ¬ c.Full) : c.evict = c.cache := if_neg hroom

/-- The entry that a store makes. -/
theorem get?_put_self (c : TTLQueryCache K V) (now : Time) (key : K) (value : V)
    (ttl : Option Int) :
    (c.put now key value ttl).cache.get? key = some ⟨value, some (c.effective ttl), now⟩ := by
  rw [put, Dict.get?_set, if_pos rfl]

/-- A store leaves of the other entries what is left after room was made. -/
theorem get?_put_of_ne {c : TTLQueryCache K V} {now : Time} {key a : K} {value : V}
    {ttl : Option Int} (hne : a ≠ key) :
    (c.put now key value ttl).cache.get? a = c.evict.get? a := by
  rw [put, Dict.get?_set, if_neg hne]

/-- What is left after room was made was there. -/
theorem get?_of_evict {c : TTLQueryCache K V} {a : K} {e : CacheEntry V}
    (h : c.evict.get? a = some e) : c.cache.get? a = some e := by
  by_cases hfull : c.Full
  · obtain ⟨b, -, hb, -⟩ := exists_victim hfull
    rw [evict_of_full hfull hb] at h
    exact (Dict.get?_of_pop h).2
  · rwa [evict_of_room hfull] at h

/-- A store that spares the other entries keeps what it does not evict to make room. -/
theorem get?_put_of_spares {c : TTLQueryCache K V} {now later : Time} {key k : K} {value : V}
    {ttl : Option Int} {e : CacheEntry V} (hspares : c.Spares (.put k value ttl)) (hne : key ≠ k)
    (hget : c.cache.get? key = some e) (hstays : ¬ c.Evicts key ⟨now, later, .put k value ttl⟩) :
    (c.put now k value ttl).cache.get? key = some e := by
  rw [get?_put_of_ne hne]
  by_cases hfull : c.Full
  · obtain ⟨a, -, ha, -⟩ := exists_victim hfull
    have hother : key ≠ a := by
      rintro rfl
      by_cases hk : k ∈ c.cache.keys
      · rw [hspares.2 hk hfull] at ha
        exact hne (Option.some.inj ha).symm
      · refine hstays ⟨k, value, ttl, rfl, hk, hfull, Dict.mem_keys_iff.mpr ⟨e, hget⟩, ?_⟩
        rw [← Dict.get?_eq_none_iff, apply, get?_put_of_ne hne, evict_of_full hfull ha,
          Dict.get?_pop, if_pos rfl]
    rw [evict_of_full hfull ha, Dict.get?_pop, if_neg hother]
    exact hget
  · rw [evict_of_room hfull]
    exact hget

/-- What a lookup leaves. -/
theorem get?_get {c : TTLQueryCache K V} {now : Time} {key a : K} {e : CacheEntry V} :
    (c.get now key).2.cache.get? a = some e ↔
      c.cache.get? a = some e ∧ (a = key → e.isExpired now = false) := by
  rw [get]
  cases hget : c.cache.get? key with
  | none =>
    refine ⟨fun ha ↦ ⟨ha, ?_⟩, And.left⟩
    rintro rfl
    rw [hget] at ha
    cases ha
  | some entry =>
    cases hexpired : entry.isExpired now with
    | true =>
      dsimp only
      rw [if_pos hexpired, Dict.get?_pop]
      by_cases ha : a = key
      · rw [if_pos ha, ha, hget]
        constructor
        · intro h
          cases h
        · rintro ⟨h, hlive⟩
          rw [← Option.some.inj h, hexpired] at hlive
          cases hlive rfl
      · rw [if_neg ha]
        exact ⟨fun h ↦ ⟨h, fun heq ↦ absurd heq ha⟩, And.left⟩
    | false =>
      dsimp only
      rw [if_neg (Bool.eq_false_iff.mp hexpired)]
      refine ⟨fun ha ↦ ⟨ha, ?_⟩, And.left⟩
      rintro rfl
      have heq : entry = e := Option.some.inj (hget.symm.trans ha)
      rw [← heq]
      exact hexpired

/-- A lookup finds what is stored and has not expired. -/
theorem get_eq_some_iff {c : TTLQueryCache K V} {now : Time} {key : K} {value : V} :
    (c.get now key).1 = some value ↔
      ∃ e, c.cache.get? key = some e ∧ e.value = value ∧ e.isExpired now = false := by
  rw [get]
  cases hget : c.cache.get? key with
  | none => simp
  | some entry => cases hlive : entry.isExpired now <;> simp [hlive]

/-- A lookup adds no entry. -/
theorem len_get_le (c : TTLQueryCache K V) (now : Time) (key : K) :
    (c.get now key).2.cache.len ≤ c.cache.len := by
  rw [get]
  split
  · exact le_refl _
  · split
    · exact Dict.len_pop_le _ _
    · exact le_refl _

/-- A store keeps the bound. -/
theorem len_put_le {c : TTLQueryCache K V} (now : Time) (key : K) (value : V) (ttl : Option Int)
    (hlen : c.cache.len ≤ c.maxSize) : (c.put now key value ttl).cache.len ≤ c.maxSize := by
  have hpos := c.maxSize_pos
  have hevict : c.evict.len < c.maxSize := by
    by_cases hfull : c.Full
    · obtain ⟨a, e, hvictim, ha, -⟩ := exists_victim hfull
      rw [evict_of_full hfull hvictim, Dict.len_pop, if_pos (Dict.mem_keys_iff.mpr ⟨e, ha⟩)]
      omega
    · rw [evict_of_room hfull]
      exact Nat.not_le.mp hfull
  rw [put]
  dsimp only
  rw [Dict.len_set]
  split <;> omega

section After

variable {maxSize : Nat} {defaultTtl : Int} {h : 0 < maxSize} {past : List (TimedOp K V)}

/-- The size and the default are never changed. -/
theorem settings_after (ops : List (TimedOp K V)) :
    (after maxSize defaultTtl h ops).maxSize = maxSize ∧
      (after maxSize defaultTtl h ops).defaultTtl = defaultTtl := by
  induction ops with
  | nil => exact ⟨rfl, rfl⟩
  | cons call past ih =>
    rw [after]
    cases call.op with
    | get key =>
      rw [apply, get]
      split
      · exact ih
      · split <;> exact ih
    | put | invalidate | clear => exact ih

/-- The bound. -/
theorem len_after_le (ops : List (TimedOp K V)) :
    (after maxSize defaultTtl h ops).cache.len ≤ maxSize := by
  induction ops with
  | nil => exact Nat.zero_le _
  | cons call past ih =>
    have hsize : (after maxSize defaultTtl h past).maxSize = maxSize := (settings_after past).1
    rw [after]
    cases call.op with
    | get key => exact (len_get_le _ _ _).trans ih
    | put key value ttl => exact (len_put_le _ _ _ _ (ih.trans_eq hsize.symm)).trans_eq hsize
    | invalidate key => exact (Dict.len_pop_le _ _).trans ih
    | clear => exact Nat.zero_le _

/-- The ttl of a store under a default. -/
theorem effective_after (ttl : Option Int) (hzero : ttl ≠ some 0) :
    (after maxSize defaultTtl h past).effective ttl = ttl.getD defaultTtl := by
  unfold effective
  split
  · exact (settings_after past).2
  · exact absurd rfl hzero
  · rfl

/-- What is stored has a ttl other than 0. -/
theorem ttl_after (hdefault : 0 < defaultTtl) {key : K} {e : CacheEntry V}
    (hget : (after maxSize defaultTtl h past).cache.get? key = some e) :
    ∃ t, e.ttl = some t ∧ t ≠ 0 := by
  induction past generalizing key e with
  | nil => cases hget
  | cons call past ih =>
    rw [after] at hget
    cases hop : call.op with
    | get k =>
      rw [hop] at hget
      exact ih (get?_get.mp hget).1
    | put k value ttl =>
      rw [hop] at hget
      by_cases hk : key = k
      · rw [hk] at hget
        cases (get?_put_self ..).symm.trans hget
        refine ⟨_, rfl, ?_⟩
        have hsettings : (after maxSize defaultTtl h past).defaultTtl = defaultTtl :=
          (settings_after past).2
        unfold effective
        split
        · omega
        · omega
        · next t hzero => exact fun ht ↦ hzero (ht ▸ rfl)
      · exact ih (get?_of_evict ((get?_put_of_ne hk).symm.trans hget))
    | invalidate k =>
      rw [hop] at hget
      exact ih (Dict.get?_of_pop hget).2
    | clear =>
      rw [hop] at hget
      cases hget

end After

end TTLQueryCache

section Runs

variable {maxSize : Nat} {defaultTtl : Int} {h : 0 < maxSize} {past : List (TimedOp K V)}

/-- A key retains one entry. -/
theorem Retained.unique {key : K} {e e' : CacheEntry V}
    (hr : Retained maxSize defaultTtl h past key e)
    (hr' : Retained maxSize defaultTtl h past key e') : e = e' := by
  induction hr with
  | put key value ttl =>
    cases hr' with
    | put => rfl
    | keep _ hresets => simp [Op.resets] at hresets
  | keep _ hresets _ ih =>
    cases hr' with
    | put => simp [Op.resets] at hresets
    | keep hr' => exact ih hr'

/-- The entries are those that are retained, but for what a lookup has found expired. -/
structure Tracks (maxSize : Nat) (defaultTtl : Int) (h : 0 < maxSize)
    (past : List (TimedOp K V)) : Prop where
  retained : ∀ key e, (TTLQueryCache.after maxSize defaultTtl h past).cache.get? key = some e →
    Retained maxSize defaultTtl h past key e
  stored : ∀ key e, Retained maxSize defaultTtl h past key e →
    (TTLQueryCache.after maxSize defaultTtl h past).cache.get? key = some e ∨
      ∃ call ∈ past, e.isExpired call.now = true

private theorem retained_cons {call : TimedOp K V} {key : K} {e e' : CacheEntry V}
    (hr : Retained maxSize defaultTtl h past key e) (hresets : call.op.resets key = false)
    (hget : (TTLQueryCache.after maxSize defaultTtl h (call :: past)).cache.get? key = some e') :
    Retained maxSize defaultTtl h (call :: past) key e := by
  refine .keep hr hresets ?_
  rintro ⟨_, _, _, -, -, -, -, hgone⟩
  exact hgone (Dict.mem_keys_iff.mpr ⟨e', hget⟩)

/-- A call that spares what is stored keeps track. -/
theorem Tracks.cons {call : TimedOp K V} (ht : Tracks maxSize defaultTtl h past)
    (hspares : (TTLQueryCache.after maxSize defaultTtl h past).Spares call.op) :
    Tracks maxSize defaultTtl h (call :: past) := by
  rcases call with ⟨now, later, op⟩
  constructor
  · intro key e hget
    have hkeep (hr : Retained maxSize defaultTtl h past key e) (hresets : op.resets key = false) :
        Retained maxSize defaultTtl h (⟨now, later, op⟩ :: past) key e :=
      retained_cons hr hresets hget
    cases op with
    | get k => exact hkeep (ht.retained key e (TTLQueryCache.get?_get.mp hget).1) rfl
    | put k value ttl =>
      by_cases hk : key = k
      · subst hk
        have hself := TTLQueryCache.get?_put_self (TTLQueryCache.after maxSize defaultTtl h past)
          now key value ttl
        obtain rfl := Option.some.inj (hself.symm.trans hget)
        rw [TTLQueryCache.effective_after ttl hspares.1]
        exact .put key value ttl
      · have hold := (TTLQueryCache.get?_put_of_ne hk).symm.trans hget
        refine hkeep (ht.retained key e (TTLQueryCache.get?_of_evict hold)) ?_
        simpa [Op.resets] using Ne.symm hk
    | invalidate k =>
      obtain ⟨hk, hold⟩ := Dict.get?_of_pop hget
      refine hkeep (ht.retained key e hold) ?_
      simpa [Op.resets] using Ne.symm hk
    | clear => cases hget
  · intro key e hr
    cases hr with
    | put key value ttl =>
      have heffective : (TTLQueryCache.after maxSize defaultTtl h past).effective ttl =
          ttl.getD defaultTtl := TTLQueryCache.effective_after ttl hspares.1
      left
      rw [← heffective]
      exact TTLQueryCache.get?_put_self ..
    | keep hr hresets hstays =>
      rcases ht.stored key e hr with hget | ⟨call, hmem, hexpired⟩
      · cases op with
        | get k =>
          cases hlive : e.isExpired now with
          | false => exact .inl (TTLQueryCache.get?_get.mpr ⟨hget, fun _ ↦ hlive⟩)
          | true => exact .inr ⟨_, List.mem_cons_self .., hlive⟩
        | put k value ttl =>
          have hne : key ≠ k := Ne.symm (by simpa [Op.resets] using hresets)
          left
          exact TTLQueryCache.get?_put_of_spares hspares hne hget hstays
        | invalidate k =>
          have hne : key ≠ k := Ne.symm (by simpa [Op.resets] using hresets)
          left
          rw [TTLQueryCache.after, TTLQueryCache.apply, TTLQueryCache.invalidate]
          dsimp only
          rw [Dict.get?_pop, if_neg hne]
          exact hget
        | clear => cases hresets
      · exact .inr ⟨call, List.mem_cons_of_mem _ hmem, hexpired⟩

/-- Calls that all spare what is stored keep track. -/
theorem tracks_of_spares {ops : List (TimedOp K V)}
    (hspares : ∀ call past, call :: past <:+ ops →
      (TTLQueryCache.after maxSize defaultTtl h past).Spares call.op) :
    Tracks maxSize defaultTtl h ops := by
  induction ops with
  | nil =>
    constructor
    · intro key e hget
      cases hget
    · intro key e hr
      cases hr
  | cons call past ih =>
    refine Tracks.cons (ih fun call' past' hsuffix ↦ ?_) ?_
    · exact hspares call' past' (hsuffix.trans (List.suffix_cons call past))
    · exact hspares call past (List.suffix_refl _)

private theorem expiry_after (hdefault : 0 < defaultTtl) {key : K} {e : CacheEntry V}
    (hget : (TTLQueryCache.after maxSize defaultTtl h past).cache.get? key = some e) :
    e.createdAt + ((TTLQueryCache.after maxSize defaultTtl h past).effective e.ttl : ℚ) =
      e.expiry defaultTtl := by
  obtain ⟨t, ht, hzero⟩ := TTLQueryCache.ttl_after hdefault hget
  rw [CacheEntry.expiry, TTLQueryCache.effective_after]
  rw [ht]
  simpa using hzero

/-- A store that spares what is stored makes room as it should. -/
theorem Tracks.roomMade (ht : Tracks maxSize defaultTtl h past) (hdefault : 0 < defaultTtl)
    {now later : Time} {key : K} {value : V} {ttl : Option Int}
    (hspares : (TTLQueryCache.after maxSize defaultTtl h past).Spares (.put key value ttl)) :
    RoomMade maxSize defaultTtl h past key (.after maxSize defaultTtl h past)
      (.after maxSize defaultTtl h (⟨now, later, .put key value ttl⟩ :: past)) := by
  have hmem (a : K) : a ∈ (TTLQueryCache.after maxSize defaultTtl h
      (⟨now, later, .put key value ttl⟩ :: past)).cache.keys ↔
        a = key ∨ a ∈ (TTLQueryCache.after maxSize defaultTtl h past).evict.keys := by
    exact Dict.mem_keys_set
  constructor
  · intro hor a ha
    rw [hmem]
    by_cases hfull : (TTLQueryCache.after maxSize defaultTtl h past).Full
    · have hkey := hor.resolve_right (not_not.mpr hfull)
      rw [TTLQueryCache.evict_of_full hfull (hspares.2 hkey hfull), Dict.mem_keys_pop]
      by_cases heq : a = key
      · exact .inl heq
      · exact .inr ⟨ha, heq⟩
    · rw [TTLQueryCache.evict_of_room hfull]
      exact .inr ha
  · intro hnew hfull
    obtain ⟨a, e, ha, hget, hfirst⟩ := TTLQueryCache.exists_victim hfull
    refine ⟨a, e, Dict.mem_keys_iff.mpr ⟨e, hget⟩, fun b hb ↦ ?_, ht.retained a e hget,
      fun b hb e' hr ↦ ?_⟩
    · have hne : b ≠ key := fun heq ↦ hnew (heq ▸ hb)
      rw [hmem, TTLQueryCache.evict_of_full hfull ha, Dict.mem_keys_pop]
      constructor
      · intro hor
        exact (hor.resolve_left hne).2
      · exact fun hba ↦ .inr ⟨hb, hba⟩
    · obtain ⟨e'', hget'⟩ := Dict.mem_keys_iff.mp hb
      obtain rfl := hr.unique (ht.retained b e'' hget')
      rw [← expiry_after hdefault hget, ← expiry_after hdefault hget']
      exact hfirst b e' hget'

private theorem evictsForRoom_of_spares (hdefault : 0 < defaultTtl) {ops : List (TimedOp K V)}
    (hspares : ∀ call past, call :: past <:+ ops →
      (TTLQueryCache.after maxSize defaultTtl h past).Spares call.op) :
    EvictsForRoom maxSize defaultTtl h ops := by
  have htracks (past : List (TimedOp K V)) (hpast : past <:+ ops) :
      Tracks maxSize defaultTtl h past :=
    tracks_of_spares fun call past' hsuffix ↦ hspares call past' (hsuffix.trans hpast)
  constructor
  · exact fun past _ ↦ TTLQueryCache.len_after_le past
  · rintro ⟨now, later, op⟩ past key value ttl hsuffix rfl
    have hpast := (List.suffix_cons ⟨now, later, .put key value ttl⟩ past).trans hsuffix
    exact (htracks past hpast).roomMade hdefault (hspares _ past hsuffix)
  · intro past hpast now key value hnow
    rw [TTLQueryCache.get_eq_some_iff]
    constructor
    · rintro ⟨e, hget, hvalue, hlive⟩
      exact ⟨e, (htracks past hpast).retained key e hget, hvalue, CacheEntry.live_iff.mp hlive⟩
    · rintro ⟨e, hr, hvalue, hage⟩
      have hlive := CacheEntry.live_iff.mpr hage
      refine ⟨e, ?_, hvalue, hlive⟩
      rcases (htracks past hpast).stored key e hr with hget | ⟨call, hmem, hexpired⟩
      · exact hget
      · have hstill := CacheEntry.isExpired_mono (hnow call hmem) hexpired
        rw [hlive] at hstill
        cases hstill

private theorem spares_of_evictsForRoom (hdefault : 0 < defaultTtl) {ops : List (TimedOp K V)}
    (hops : Ordered ops) (hroom : EvictsForRoom maxSize defaultTtl h ops)
    {call : TimedOp K V} (hsuffix : call :: past <:+ ops) :
    (TTLQueryCache.after maxSize defaultTtl h past).Spares call.op := by
  rcases call with ⟨now, later, op⟩
  cases op with
  | get | invalidate | clear => trivial
  | put key value ttl =>
    constructor
    · -- one second later the entry is still found, although it should be no older than 0
      rintro rfl
      have hordered : Ordered (⟨now, later, .put key value (some 0)⟩ :: past) :=
        hops.sublist hsuffix.sublist
      have hnow : ∀ call ∈ (⟨now, later, .put key value (some 0)⟩ : TimedOp K V) :: past,
          call.now ≤ now + 1 := by
        intro call hmem
        rcases List.mem_cons.mp hmem with rfl | hmem
        · exact le_add_of_nonneg_right zero_le_one
        · exact ((List.pairwise_cons.mp hordered).1 call hmem).trans
            (le_add_of_nonneg_right zero_le_one)
      have hget : ((TTLQueryCache.after maxSize defaultTtl h
          (⟨now, later, .put key value (some 0)⟩ :: past)).get (now + 1) key).1 = some value := by
        rw [TTLQueryCache.get_eq_some_iff]
        refine ⟨_, TTLQueryCache.get?_put_self .., rfl, CacheEntry.live_iff.mpr fun ttl httl ↦ ?_⟩
        rw [← Option.some.inj httl, TTLQueryCache.effective]
        have hage : (1 : ℚ) ≤ (defaultTtl : ℚ) := by exact_mod_cast hdefault
        rw [(TTLQueryCache.settings_after past).2]
        simpa using hage
      obtain ⟨e, hr, -, hage⟩ := (hroom.answers _ hsuffix _ _ _ hnow).mp hget
      cases hr with
      | put =>
        have hone := hage 0 rfl
        norm_num at hone
      | keep _ hresets => simp [Op.resets] at hresets
    · intro hkey hfull
      obtain ⟨a, e, ha, hget, -⟩ := TTLQueryCache.exists_victim hfull
      rw [ha]
      by_contra hne
      have hne : a ≠ key := fun heq ↦ hne (congrArg some heq)
      have hstays := (hroom.room _ past key value ttl hsuffix rfl).none (.inl hkey) a
        (Dict.mem_keys_iff.mpr ⟨e, hget⟩)
      obtain ⟨e', he'⟩ := Dict.mem_keys_iff.mp hstays
      rw [TTLQueryCache.after, TTLQueryCache.apply, TTLQueryCache.get?_put_of_ne hne,
        TTLQueryCache.evict_of_full hfull ha, Dict.get?_pop, if_pos rfl] at he'
      cases he'

/-- The cache evicts for room only, all through some calls, exactly when every store among them asks
for a ttl other than 0 and, under a stored key of a full cache, finds that it is the victim. -/
theorem evictsForRoom_iff (maxSize : Nat) (h : 0 < maxSize) (defaultTtl : Int)
    (hdefault : 0 < defaultTtl) (ops : List (TimedOp K V)) (hops : Ordered ops) :
    EvictsForRoom maxSize defaultTtl h ops ↔ ∀ call past, call :: past <:+ ops →
      (TTLQueryCache.after maxSize defaultTtl h past).Spares call.op := by
  constructor
  · exact fun hroom call past hsuffix ↦ spares_of_evictsForRoom hdefault hops hroom hsuffix
  · exact evictsForRoom_of_spares hdefault

end Runs

section Example

private def overwriting (key : Nat) : List (TimedOp Nat Nat) :=
  [⟨2, 2, .put key 30 none⟩, ⟨1, 1, .put 2 20 none⟩, ⟨0, 0, .put 1 10 none⟩]

/-- A store under the key that expires first spares the other one. -/
theorem evictsForRoom_overwriting : EvictsForRoom 2 3600 (by decide) (overwriting 1) := by
  refine (evictsForRoom_iff 2 (by decide) 3600 (by decide) _ ?_).mpr fun call past hsuffix ↦ ?_
  · exact (by decide +kernel : (overwriting 1).Pairwise fun newer older ↦ older.now ≤ newer.now)
  · have hnone (a b : Prop) (h : ¬ a) : a → b := fun ha ↦ absurd ha h
    rcases List.suffix_cons_iff.mp hsuffix with heq | hsuffix
    · cases heq
      exact ⟨by decide, fun _ _ ↦ by decide +kernel⟩
    · rcases List.suffix_cons_iff.mp hsuffix with heq | hsuffix
      · cases heq
        exact ⟨by decide, hnone _ _ (by decide +kernel)⟩
      · rcases List.suffix_cons_iff.mp hsuffix with heq | hsuffix
        · cases heq
          exact ⟨by decide, hnone _ _ (by decide +kernel)⟩
        · cases List.suffix_nil.mp hsuffix

/-- A store under the other key loses the one that expires first, though two keys fit. -/
theorem not_evictsForRoom_overwriting : Ordered (overwriting 2) ∧
    ¬ EvictsForRoom 2 3600 (by decide) (overwriting 2) := by
  refine ⟨?_, fun hroom ↦ ?_⟩
  · exact (by decide +kernel : (overwriting 2).Pairwise fun newer older ↦ older.now ≤ newer.now)
  · have hstays := (hroom.room _ _ 2 30 none (List.suffix_refl _) rfl).none
      (.inl (by decide +kernel)) 1 (by decide +kernel)
    revert hstays
    decide +kernel

end Example
end SalesData.Cache

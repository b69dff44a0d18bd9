import Mathlib.Data.List.Dedup
import SalesData.Cache.Coordinator

/-!
# The invalidation index

What stays in the first level after each operation, and the invariant on which precise
invalidation rests: an entry is listed under every table of its statement
(`query_cache_coordinator.py:84–97`, `161–247`).
-/

namespace SalesData.Cache

open Base

variable {K T D E S : Type}

section Entries

variable [DecidableEq K]

private theorem holds_of_foldl_invalidate {l1 : HybridQueryCache K (Rows T D)} {keys : List K}
    {key : K} {rows : Rows T D} (h : (keys.foldl HybridQueryCache.invalidate l1).Holds key rows) :
    key ∉ keys ∧ l1.Holds key rows := by
  induction keys generalizing l1 with
  | nil => exact ⟨List.not_mem_nil, h⟩
  | cons k keys ih =>
    obtain ⟨hnot, hinv⟩ := ih h
    obtain ⟨hne, hold⟩ := HybridQueryCache.holds_of_invalidate hinv
    exact ⟨List.not_mem_cons_of_ne_of_not_mem hne hnot, hold⟩

/-- The first stretch of a call adds no entry. -/
theorem Start.holds {c c' : QueryCacheCoordinator K T D E} {now : Time} {call : Call K T S}
    {task : Task K T D E S} {key : K} {rows : Rows T D} (h : Start c now call c' task)
    (hl : c'.l1.Holds key rows) : c.l1.Holds key rows := by
  cases h with
  | write => exact hl
  | hit | lead | follow => exact HybridQueryCache.holds_of_get hl

variable [DecidableEq T]

/-- Filling puts the rows into the first level, with its TTL. -/
theorem l1_fill (c : QueryCacheCoordinator K T D E) (now : Time) (key : K) (rows : Rows T D) :
    (c.fill now key rows).l1 = c.l1.put now key rows (some c.l1TtlSeconds) := by
  unfold QueryCacheCoordinator.fill QueryCacheCoordinator.tagTables
  split <;> rfl

/-- A task that has ended takes no more turns. -/
theorem Turn.open? {s : State K T D E S} {t : Nat} {task task' : Task K T D E S} {a : Act K T D E S}
    {c : QueryCacheCoordinator K T D E} (h : Turn s t task a c task') :
    task.phase.open? = true := by
  cases h with
  | begin hp | finish hp | miss _ _ hp | fill _ _ hp | wake _ _ hp | invalidate _ hp
  | flushed _ hp | cancelFollower _ hp =>
    rw [hp]
    rfl
  | throwLookup _ _ hp => exact Phase.open?_of_fetching hp
  | throwWrite _ hp | cancelOther hp => exact hp

end Entries

section Index

variable [DecidableEq T] {c : QueryCacheCoordinator K T D E}

/-- Dropping other tables keeps the keys of a table. -/
theorem get?_foldl_pop {tables : List T} {d : Dict T (List K)} {table : T}
    (h : table ∉ tables) : (tables.foldl Dict.pop d).get? table = d.get? table := by
  induction tables generalizing d with
  | nil => rfl
  | cons t tables ih =>
    rw [List.mem_cons, not_or] at h
    rw [List.foldl_cons, ih h.2, Dict.get?_pop, if_neg h.1]

variable [DecidableEq K]

/-- An invalidation by tables drops what is listed under them, also when it reports that it has
dropped nothing. -/
theorem invalidateTables_eq (c : QueryCacheCoordinator K T D E) (tables : List T) :
    (c.invalidateTables tables).2 = { c with
      tableKeys := tables.foldl Dict.pop c.tableKeys
      keyTables := (tables.flatMap c.keysOf).dedup.foldl Dict.pop c.keyTables
      l1 := (tables.flatMap c.keysOf).dedup.foldl HybridQueryCache.invalidate c.l1 } := by
  unfold QueryCacheCoordinator.invalidateTables
  split
  · next htables =>
    rw [htables]
    rfl
  · dsimp only
    split
    · next hnone =>
      rw [hnone]
      rfl
    · rfl

/-- The lists of the other tables stay as they are. -/
theorem keysOf_invalidateTables (c : QueryCacheCoordinator K T D E) {tables : List T} {table : T}
    (h : table ∉ tables) : (c.invalidateTables tables).2.keysOf table = c.keysOf table := by
  rw [invalidateTables_eq, QueryCacheCoordinator.keysOf, get?_foldl_pop h,
    QueryCacheCoordinator.keysOf]

/-- What is left after an invalidation by tables is not listed under them. -/
theorem holds_of_invalidateTables {tables : List T} {key : K} {rows : Rows T D}
    (h : (c.invalidateTables tables).2.l1.Holds key rows) :
    c.l1.Holds key rows ∧ ∀ table ∈ tables, key ∉ c.keysOf table := by
  rw [invalidateTables_eq] at h
  obtain ⟨hnot, hold⟩ := holds_of_foldl_invalidate h
  refine ⟨hold, fun table ht hk ↦ hnot ?_⟩
  exact List.mem_dedup.mpr (List.mem_flatMap.mpr ⟨table, ht, hk⟩)

/-- A write's invalidation empties the first level, or drops what is listed under its tables
and leaves the lists of the other tables as they are. -/
theorem invalidateAfterWrite_cases (c : QueryCacheCoordinator K T D E) (tables : List T)
    (precise : Bool) :
    (∀ key rows, ¬(c.invalidateAfterWrite tables precise).l1.Holds key rows) ∨
      c.invalidateAfterWrite tables precise = (c.invalidateTables tables).2 := by
  unfold QueryCacheCoordinator.invalidateAfterWrite
  split
  · split
    · next heq => exact .inr (by rw [heq])
    · exact .inl fun _ _ ↦ HybridQueryCache.not_holds_clear
  · exact .inl fun _ _ ↦ HybridQueryCache.not_holds_clear

/-- An invalidation that is not narrowed leaves nothing. -/
theorem not_holds_invalidateAfterWrite {tables : List T} {precise : Bool}
    (h : (precise && (c.invalidateTables tables).1) = false) {key : K} {rows : Rows T D} :
    ¬(c.invalidateAfterWrite tables precise).l1.Holds key rows := by
  unfold QueryCacheCoordinator.invalidateAfterWrite
  split
  · next hprecise =>
    split
    · next c' hi =>
      rw [hprecise, hi] at h
      cases h
    · exact HybridQueryCache.not_holds_clear
  · exact HybridQueryCache.not_holds_clear

/-- What is left after a write's invalidation is not listed under its tables. -/
theorem holds_of_invalidateAfterWrite {tables : List T} {precise : Bool} {key : K}
    {rows : Rows T D} (h : (c.invalidateAfterWrite tables precise).l1.Holds key rows) :
    c.l1.Holds key rows ∧ ∀ table ∈ tables, key ∉ c.keysOf table := by
  rcases invalidateAfterWrite_cases c tables precise with hnone | htables
  · exact absurd h (hnone key rows)
  · rw [htables] at h
    exact holds_of_invalidateTables h

/-- A write's invalidation makes no entry. -/
theorem entryFor_of_invalidateAfterWrite {tables : List T} {precise : Bool} {key : K}
    {e : CacheEntry (Rows T D)}
    (h : (c.invalidateAfterWrite tables precise).l1.entryFor key = some e) :
    c.l1.entryFor key = some e := by
  rcases invalidateAfterWrite_cases c tables precise with hnone | htables
  · exact absurd (HybridQueryCache.holds_of_entryFor h) (hnone key e.value)
  · rw [htables, invalidateTables_eq] at h
    replace h :
        ((tables.flatMap c.keysOf).dedup.foldl HybridQueryCache.invalidate c.l1).entryFor key =
          some e := h
    generalize (tables.flatMap c.keysOf).dedup = keys, c.l1 = l1 at h
    induction keys generalizing l1 with
    | nil => exact h
    | cons k keys ih => exact HybridQueryCache.entryFor_of_invalidate (ih _ h)

private theorem keysOf_foldl_set {tables : List T} {d : Dict T (List K)} {key k : K} {table : T} :
    k ∈ ((tables.foldl (fun d t ↦ d.set t (((d.get? t).getD []).insert key)) d).get? table).getD []
      ↔ k ∈ (d.get? table).getD [] ∨ k = key ∧ table ∈ tables := by
  induction tables generalizing d with
  | nil => simp
  | cons t tables ih =>
    rw [List.foldl_cons, ih, Dict.get?_set]
    by_cases h : table = t
    · subst h
      simp only [if_pos, Option.getD_some, List.mem_insert_iff, List.mem_cons]
      tauto
    · simp only [if_neg h, List.mem_cons]
      tauto

/-- The keys listed under a table after a key has been tagged. -/
theorem mem_keysOf_tagTables {key k : K} {tables : List T} {table : T} :
    k ∈ (c.tagTables key tables).keysOf table ↔ k ∈ c.keysOf table ∨ k = key ∧ table ∈ tables := by
  unfold QueryCacheCoordinator.tagTables
  split
  · next h => simp [h]
  · exact keysOf_foldl_set

/-- The keys listed under a table after a fill. -/
theorem mem_keysOf_fill {now : Time} {key k : K} {rows : Rows T D} {table : T} :
    k ∈ (c.fill now key rows).keysOf table ↔
      k ∈ c.keysOf table ∨ k = key ∧ table ∈ rows.tables :=
  mem_keysOf_tagTables

/-- Every first-level entry is listed under every table of its statement. -/
def QueryCacheCoordinator.TagInv (c : QueryCacheCoordinator K T D E) : Prop :=
  ∀ key rows, c.l1.Holds key rows → ∀ table ∈ rows.tables, key ∈ c.keysOf table

namespace QueryCacheCoordinator

/-- Filling keeps the tags. -/
theorem TagInv.fill (h : c.TagInv) (now : Time) (key : K) (rows : Rows T D) :
    (c.fill now key rows).TagInv := by
  intro k r hr table ht
  rw [l1_fill] at hr
  rw [mem_keysOf_fill]
  rcases HybridQueryCache.holds_of_put hr with ⟨rfl, rfl⟩ | ⟨-, hold⟩
  · exact .inr ⟨rfl, ht⟩
  · exact .inl (h k r hold table ht)

/-- Invalidating tables keeps the tags. -/
theorem TagInv.invalidateTables (h : c.TagInv) (tables : List T) :
    (c.invalidateTables tables).2.TagInv := by
  intro k r hr table ht
  obtain ⟨hold, hnot⟩ := holds_of_invalidateTables hr
  have hmem := h k r hold table ht
  rwa [keysOf_invalidateTables c fun hin ↦ hnot table hin hmem]

/-- The invalidation after a write keeps the tags. -/
theorem TagInv.invalidateAfterWrite (h : c.TagInv) (tables : List T) (precise : Bool) :
    (c.invalidateAfterWrite tables precise).TagInv := by
  rcases invalidateAfterWrite_cases c tables precise with hnone | htables
  · exact fun k r hr ↦ absurd hr (hnone k r)
  · rw [htables]
    exact h.invalidateTables tables

/-- Fewer entries and the same lists. -/
theorem TagInv.mono {c' : QueryCacheCoordinator K T D E} (h : c.TagInv)
    (hl : ∀ key rows, c'.l1.Holds key rows → c.l1.Holds key rows)
    (ht : c'.tableKeys = c.tableKeys) : c'.TagInv := by
  intro k r hr table htable
  rw [keysOf, ht]
  exact h k r (hl k r hr) table htable

end QueryCacheCoordinator

variable {s s' : State K T D E S}

private theorem tagInv_start {c' : QueryCacheCoordinator K T D E} {now : Time} {call : Call K T S}
    {task : Task K T D E S} (hinv : c.TagInv) (h : Start c now call c' task) : c'.TagInv := by
  refine hinv.mono (fun _ _ hr ↦ h.holds hr) ?_
  cases h <;> rfl

private theorem tagInv_turn {t : Nat} {task task' : Task K T D E S} {a : Act K T D E S}
    (hinv : s.cache.TagInv) (h : Turn s t task a c task') : c.TagInv := by
  cases h with
  | begin | finish | miss | wake | flushed | throwWrite | cancelOther => exact hinv
  | throwLookup | cancelFollower => exact hinv.mono (fun _ _ hr ↦ hr) rfl
  | fill => exact (hinv.fill _ _ _).mono (fun _ _ hr ↦ hr) rfl
  | invalidate => exact hinv.invalidateAfterWrite _ _

/-- The index lists every entry in every run. -/
theorem tagInv_of_reach {l1MaxSize : Nat} {l1TtlSeconds : Int} {hpos : 0 < l1MaxSize}
    {ok : State K T D E S → Act K T D E S → Prop}
    (h : (system l1MaxSize l1TtlSeconds hpos).Reach ok s) : s.cache.TagInv := by
  refine h.invariant (P := fun s ↦ s.cache.TagInv) ?_ fun s a s' hinv _ hs ↦ ?_
  · exact fun key rows hr ↦ absurd hr HybridQueryCache.not_holds_new
  · rcases step_cases hs with ⟨call, rfl, rfl⟩ | ⟨t, task, c, task', ht, hturn, rfl⟩ |
      ⟨key, rfl, rfl⟩ | ⟨now, rfl, rfl⟩
    · exact tagInv_start hinv (start_spec s.cache s.now call)
    · exact tagInv_turn hinv hturn
    · exact hinv.mono (fun _ _ hr ↦ (HybridQueryCache.holds_of_invalidate hr).2) rfl
    · exact hinv

end Index
end SalesData.Cache

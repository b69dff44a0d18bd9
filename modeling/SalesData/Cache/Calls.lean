import SalesData.Base.System
import SalesData.Cache.Freshness
import SalesData.Cache.ResultCache

/-!
# Both levels under whole calls

The query cache under a sequence of calls, each of them one step: `get_or_execute`
(`core/caching/query_cache_coordinator.py:103–185`), `invalidate`, `clear_all` and
`invalidate_tables` (lines 195–247), the persistence of a result in the second level, and
`_invalidate_after_write` (`core/services/query_service.py:140–147`). Every call takes the key and
the tables of its own statement.
-/

namespace SalesData.Cache

open Base Sql

/-- The coordinator and the second-level cache behind it. -/
structure Caches (K D E : Type) where
  coordinator : QueryCacheCoordinator K Text D E
  l2 : QueryResultCache K D
  now : Time

namespace Caches

variable {K P D E : Type} [DecidableEq K]

section Calls

variable (u : Unicode) (cacheKey : Text → P → K) (reload : D → D)

/-- `_resolve` without its access record: the row of the second level, or the answer of the
warehouse (`query_cache_coordinator.py:161–185`). -/
def resolve (s : Caches K D E) (key : K) (answer : Except E D) : Except E (D × Source) :=
  match s.l2.getCachedResult s.now key with
  | some data => .ok (reload data, .l2)
  | none => answer.map fun data ↦ (data, .miss)

/-- `get_or_execute` with nobody else in flight. -/
def getOrExecute (s : Caches K D E) (sql : Text) (params : P) (answer : Except E D) :
    Caches K D E :=
  let key := cacheKey sql params
  match s.coordinator.l1.get s.now key with
  | (some _, l1) => { s with coordinator := { s.coordinator with l1 } }
  | (none, l1) =>
    let (f, _, c) := { s.coordinator with l1 }.join key
    match s.resolve reload key answer with
    | .ok (data, source) =>
      let result : CacheLookupResult Text D := ⟨⟨data, 0, extractTables u sql⟩, source⟩
      { s with coordinator := (c.fill s.now key result.data).conclude key f (.returned result) }
    | .error e => { s with coordinator := c.conclude key f (.raised (.error e)) }

/-- `cache_result` of a query (`query_result_cache.py:105–170`). -/
def persist (s : Caches K D E) (sql : Text) (params : P) (data : D) (ttl : Int) : Caches K D E :=
  { s with l2 := s.l2.cacheResult s.now (cacheKey sql params) sql data ttl }

/-- `invalidate`, of the first level only. -/
def invalidate (s : Caches K D E) (key : K) : Caches K D E :=
  { s with coordinator := s.coordinator.invalidate key }

/-- `invalidate_tables` on both levels. -/
def invalidateTables (s : Caches K D E) (tables : List Text) : Bool × Caches K D E :=
  let (dropped, c) := s.coordinator.invalidateTables tables
  (dropped, { s with
    coordinator := c
    l2 := if dropped then (tables.map Purge.table).foldl .purge s.l2 else s.l2 })

/-- `clear_all` on both levels. -/
def clearAll (s : Caches K D E) : Caches K D E :=
  { s with coordinator := s.coordinator.clearAll, l2 := s.l2.purge .all }

/-- `_invalidate_after_write`. -/
def invalidateAfterWrite (s : Caches K D E) (write : Text) (precise : Bool) : Caches K D E :=
  if precise then
    match s.invalidateTables (extractTables u write) with
    | (true, s) => s
    | (false, s) => s.clearAll
  else s.clearAll

/-- The calls on the caches; `tick` is a reading of the clock. -/
inductive Act (K P D E : Type) where
  | getOrExecute (sql : Text) (params : P) (answer : Except E D)
  | persist (sql : Text) (params : P) (data : D) (ttl : Int)
  | invalidate (key : K)
  | invalidateTables (tables : List Text)
  | clearAll
  | invalidateAfterWrite (write : Text) (precise : Bool)
  | tick (now : Time)

/-- The caches after a call. -/
def act (s : Caches K D E) : Act K P D E → Caches K D E
  | .getOrExecute sql params answer => s.getOrExecute u cacheKey reload sql params answer
  | .persist sql params data ttl => s.persist cacheKey sql params data ttl
  | .invalidate key => s.invalidate key
  | .invalidateTables tables => (s.invalidateTables tables).2
  | .clearAll => s.clearAll
  | .invalidateAfterWrite write precise => s.invalidateAfterWrite u write precise
  | .tick now => { s with now }

/-- A new coordinator in front of an empty table. -/
def system (l1MaxSize : Nat) (l1TtlSeconds : Int) (h : 0 < l1MaxSize) (now : Time) :
    System (Caches K D E) (Act K P D E) :=
  ⟨⟨.new l1MaxSize l1TtlSeconds h, .new, now⟩, fun s a ↦ some (s.act u cacheKey reload a)⟩

end Calls

end Caches

section Entries

variable {K T D E : Type}

/-- The two coordinators have the same entries and the same index. -/
structure QueryCacheCoordinator.SameEntries (c c' : QueryCacheCoordinator K T D E) : Prop where
  l1 : c'.l1 = c.l1
  keyTables : c'.keyTables = c.keyTables
  tableKeys : c'.tableKeys = c.tableKeys

variable [DecidableEq K] [DecidableEq T]

/-- The coordinator after the first look of a lookup. -/
def QueryCacheCoordinator.looked (c : QueryCacheCoordinator K T D E) (now : Time) (key : K) :
    QueryCacheCoordinator K T D E :=
  { c with l1 := (c.l1.get now key).2 }

/-- What a whole lookup does to the entries and to the index; on a miss there are rows to store, or
the query raises. -/
inductive Resolved (c : QueryCacheCoordinator K T D E) (now : Time) (key : K) (tables : List T)
    (fetched : Bool) (c' : QueryCacheCoordinator K T D E) : Prop
  | hit (hfound : (c.l1.get now key).1 ≠ none) (hsame : (c.looked now key).SameEntries c')
  | raised (hmiss : (c.l1.get now key).1 = none) (hnot : fetched = false)
      (hsame : (c.looked now key).SameEntries c')
  | filled (rows : Rows T D) (hmiss : (c.l1.get now key).1 = none) (hfetched : fetched = true)
      (htables : rows.tables = tables)
      (hsame : ((c.looked now key).fill now key rows).SameEntries c')

variable {c c' : QueryCacheCoordinator K T D E}

omit [DecidableEq T] in
/-- The flights have no part in the entries and in the index. -/
theorem sameEntries_join (c : QueryCacheCoordinator K T D E) (key : K) :
    c.SameEntries (c.join key).2.2 := by
  unfold QueryCacheCoordinator.join
  split
  · exact ⟨rfl, rfl, rfl⟩
  · exact ⟨rfl, rfl, rfl⟩

/-- Equal entries are filled equally. -/
theorem QueryCacheCoordinator.SameEntries.fill (h : c.SameEntries c')
    (httl : c'.l1TtlSeconds = c.l1TtlSeconds) (now : Time) (key : K) (rows : Rows T D) :
    (c.fill now key rows).SameEntries (c'.fill now key rows) := by
  unfold QueryCacheCoordinator.fill QueryCacheCoordinator.tagTables
  rw [h.l1, httl]
  split
  · exact ⟨rfl, h.keyTables, h.tableKeys⟩
  · constructor
    · rfl
    · exact congrArg (Dict.set · key rows.tables) h.keyTables
    · show List.foldl _ c'.tableKeys _ = List.foldl _ c.tableKeys _
      rw [h.tableKeys]

/-- Equal entries are indexed equally. -/
theorem QueryCacheCoordinator.SameEntries.tagInv (h : c.SameEntries c') (hinv : c.TagInv) :
    c'.TagInv := by
  apply hinv.mono
  · intro key rows hr
    rwa [h.l1] at hr
  · exact h.tableKeys

end Entries

namespace Caches

variable {K P D E : Type} [DecidableEq K] {u : Unicode} {cacheKey : Text → P → K} {reload : D → D}
  {s : Caches K D E}

/-- There are rows for a key behind the first level. -/
def fetches (s : Caches K D E) (key : K) (answer : Except E D) : Bool :=
  (s.l2.getCachedResult s.now key).isSome || answer.isOk

/-- A fetch gives rows or raises. -/
theorem isOk_resolve (reload : D → D) (s : Caches K D E) (key : K) (answer : Except E D) :
    (s.resolve reload key answer).isOk = s.fetches key answer := by
  unfold resolve fetches
  cases s.l2.getCachedResult s.now key with
  | some data => rfl
  | none =>
    cases answer with
    | ok data => rfl
    | error e => rfl

variable (u cacheKey reload) in
/-- A whole lookup keeps the second level. -/
theorem getOrExecute_spec (s : Caches K D E) (sql : Text) (params : P) (answer : Except E D) :
    (s.getOrExecute u cacheKey reload sql params answer).l2 = s.l2 ∧
      Resolved s.coordinator s.now (cacheKey sql params) (extractTables u sql)
        (s.fetches (cacheKey sql params) answer)
        (s.getOrExecute u cacheKey reload sql params answer).coordinator := by
  unfold getOrExecute
  dsimp only
  split
  · next rows l1 hget =>
    refine ⟨rfl, .hit ?_ ⟨?_, rfl, rfl⟩⟩
    · rw [hget]
      exact Option.some_ne_none rows
    · rw [QueryCacheCoordinator.looked, hget]
  · next l1 hget =>
    have hmiss : (s.coordinator.l1.get s.now (cacheKey sql params)).1 = none := by rw [hget]
    have hlooked : s.coordinator.looked s.now (cacheKey sql params) =
        { s.coordinator with l1 } := by
      rw [QueryCacheCoordinator.looked, hget]
    have hjoin := sameEntries_join { s.coordinator with l1 } (cacheKey sql params)
    rw [← isOk_resolve reload]
    split
    · next data source hresolve =>
      refine ⟨rfl, .filled ⟨data, 0, extractTables u sql⟩ hmiss (by rw [hresolve]; rfl) rfl ?_⟩
      rw [hlooked]
      have hfill := hjoin.fill ?_ s.now (cacheKey sql params) ⟨data, 0, extractTables u sql⟩
      · exact ⟨hfill.l1, hfill.keyTables, hfill.tableKeys⟩
      · unfold QueryCacheCoordinator.join
        split
        · rfl
        · rfl
    · next e hresolve =>
      refine ⟨rfl, .raised hmiss (by rw [hresolve]; rfl) ?_⟩
      rw [hlooked]
      exact ⟨hjoin.l1, hjoin.keyTables, hjoin.tableKeys⟩

/-- Purges add no row. -/
theorem get?_of_purges {ps : List Purge} {l2 : QueryResultCache K D} {key : K}
    {row : CachedResult D} (h : (ps.foldl .purge l2).rows.get? key = some row) :
    l2.rows.get? key = some row ∧ ∀ p ∈ ps, p.deletes row.querySql = false := by
  induction ps generalizing l2 with
  | nil => exact ⟨h, fun _ hp ↦ by cases hp⟩
  | cons p ps ih =>
    obtain ⟨hrest, hps⟩ := ih h
    obtain ⟨hold, hp⟩ := QueryResultCache.get?_purge.mp hrest
    refine ⟨hold, fun q hq ↦ ?_⟩
    rcases List.mem_cons.mp hq with rfl | hq
    · exact hp
    · exact hps q hq

/-- The invalidation after a write is one of the two. -/
theorem invalidateAfterWrite_cases (u : Unicode) (s : Caches K D E) (write : Text)
    (precise : Bool) :
    (s.invalidateTables (extractTables u write)).1 = true ∧
        s.invalidateAfterWrite u write precise = (s.invalidateTables (extractTables u write)).2 ∨
      s.invalidateAfterWrite u write precise = s.clearAll ∨
      s.invalidateAfterWrite u write precise =
        (s.invalidateTables (extractTables u write)).2.clearAll := by
  unfold Caches.invalidateAfterWrite
  split
  · split
    · next heq => exact .inl (by rw [heq]; exact ⟨rfl, rfl⟩)
    · next heq => exact .inr (.inr (by rw [heq]))
  · exact .inr (.inl rfl)

/-- The invariant of the calls: the first level is indexed, and what stands under a key belongs to
the statement of the key. -/
structure CallsInv (u : Unicode) (cacheKey : Text → P → K) (s : Caches K D E) : Prop where
  indexed : s.coordinator.TagInv
  tagged : ∀ key rows, s.coordinator.l1.Holds key rows →
    ∃ sql params, key = cacheKey sql params ∧ rows.tables = extractTables u sql
  stored : ∀ key row, s.l2.rows.get? key = some row → ∃ params, key = cacheKey row.querySql params

namespace CallsInv

variable {s' : Caches K D E}

/-- Fewer entries and rows, with the same lists of their keys. -/
theorem mono (h : CallsInv u cacheKey s) (hindexed : s'.coordinator.TagInv)
    (hl1 : ∀ key rows, s'.coordinator.l1.Holds key rows → s.coordinator.l1.Holds key rows)
    (hl2 : ∀ key row, s'.l2.rows.get? key = some row → s.l2.rows.get? key = some row) :
    CallsInv u cacheKey s' :=
  ⟨hindexed, fun key rows hr ↦ h.tagged key rows (hl1 key rows hr),
    fun key row hr ↦ h.stored key row (hl2 key row hr)⟩

/-- A lookup keeps the index and the tables of every entry. -/
theorem getOrExecute (h : CallsInv u cacheKey s) (sql : Text) (params : P) (answer : Except E D) :
    CallsInv u cacheKey (s.getOrExecute u cacheKey reload sql params answer) := by
  obtain ⟨hl2, hresolved⟩ := getOrExecute_spec u cacheKey reload s sql params answer
  have hlooked : (s.coordinator.looked s.now (cacheKey sql params)).TagInv :=
    h.indexed.mono (fun _ _ hr ↦ HybridQueryCache.holds_of_get hr) rfl
  have hfound {c' : QueryCacheCoordinator K Text D E}
      (hsame : (s.coordinator.looked s.now (cacheKey sql params)).SameEntries c') (key : K)
      (rows : Rows Text D) (hr : c'.l1.Holds key rows) : s.coordinator.l1.Holds key rows := by
    rw [hsame.l1] at hr
    exact HybridQueryCache.holds_of_get hr
  cases hresolved with
  | hit _ hsame => exact h.mono (hsame.tagInv hlooked) (hfound hsame) (by simp [hl2])
  | raised _ _ hsame => exact h.mono (hsame.tagInv hlooked) (hfound hsame) (by simp [hl2])
  | filled rows _ _ htables hsame =>
    constructor
    · exact hsame.tagInv (hlooked.fill _ _ _)
    · intro key rows' hr
      rw [hsame.l1, l1_fill] at hr
      rcases HybridQueryCache.holds_of_put hr with ⟨rfl, rfl⟩ | ⟨-, hold⟩
      · exact ⟨sql, params, rfl, htables⟩
      · exact h.tagged key rows' (HybridQueryCache.holds_of_get hold)
    · rw [hl2]
      exact h.stored

/-- A result is stored under the key of its statement. -/
theorem persist (h : CallsInv u cacheKey s) (sql : Text) (params : P) (data : D) (ttl : Int) :
    CallsInv u cacheKey (s.persist cacheKey sql params data ttl) := by
  constructor
  · exact h.indexed
  · exact h.tagged
  · intro key row hr
    rcases QueryResultCache.get?_cacheResult hr with ⟨rfl, rfl, -⟩ | ⟨-, hold⟩
    · exact ⟨params, rfl⟩
    · exact h.stored key row hold

/-- An invalidation by tables only takes entries and rows. -/
theorem invalidateTables (h : CallsInv u cacheKey s) (tables : List Text) :
    CallsInv u cacheKey (s.invalidateTables tables).2 := by
  apply h.mono
  · exact h.indexed.invalidateTables tables
  · exact fun key rows hr ↦ (holds_of_invalidateTables hr).1
  · intro key row hr
    unfold Caches.invalidateTables at hr
    dsimp only at hr
    split at hr
    · exact (get?_of_purges hr).1
    · exact hr

/-- A full clear leaves nothing. -/
theorem clearAll (h : CallsInv u cacheKey s) : CallsInv u cacheKey s.clearAll := by
  have hnone (key : K) (rows : Rows Text D) : ¬s.clearAll.coordinator.l1.Holds key rows :=
    HybridQueryCache.not_holds_clear
  apply h.mono
  · exact fun key rows hr ↦ absurd hr (hnone key rows)
  · exact fun key rows hr ↦ absurd hr (hnone key rows)
  · exact fun key row hr ↦ (QueryResultCache.get?_purge.mp hr).1

/-- Every call keeps the invariant. -/
theorem act (h : CallsInv u cacheKey s) (a : Act K P D E) :
    CallsInv u cacheKey (s.act u cacheKey reload a) := by
  cases a with
  | getOrExecute sql params answer => exact h.getOrExecute sql params answer
  | persist sql params data ttl => exact h.persist sql params data ttl
  | invalidate key =>
    apply h.mono
    · exact h.indexed.mono (fun _ _ hr ↦ (HybridQueryCache.holds_of_invalidate hr).2) rfl
    · exact fun _ _ hr ↦ (HybridQueryCache.holds_of_invalidate hr).2
    · exact fun _ _ hr ↦ hr
  | invalidateTables tables => exact h.invalidateTables tables
  | clearAll => exact h.clearAll
  | invalidateAfterWrite write precise =>
    show CallsInv u cacheKey (s.invalidateAfterWrite u write precise)
    rcases invalidateAfterWrite_cases u s write precise with ⟨-, heq⟩ | heq | heq
    · rw [heq]
      exact h.invalidateTables _
    · rw [heq]
      exact h.clearAll
    · rw [heq]
      exact (h.invalidateTables _).clearAll
  | tick now => exact h.mono h.indexed (fun _ _ hr ↦ hr) (fun _ _ hr ↦ hr)

/-- In every run the invariant holds. -/
theorem of_reach {l1MaxSize : Nat} {l1TtlSeconds : Int} {hpos : 0 < l1MaxSize} {now : Time}
    (h : (system u cacheKey reload l1MaxSize l1TtlSeconds hpos now).Reachable s) :
    CallsInv u cacheKey s := by
  apply h.invariant (P := CallsInv u cacheKey)
  · constructor
    · exact fun key rows hr ↦ absurd hr HybridQueryCache.not_holds_new
    · exact fun key rows hr ↦ absurd hr HybridQueryCache.not_holds_new
    · intro key row hr
      cases hr
  · intro s a s' hs _ hstep
    obtain rfl := Option.some.inj hstep
    exact hs.act a

end CallsInv

/-- In every state that calls can lead to: an entry of the first level is listed under every table
that its statement names; and after the invalidation of a write, neither level has anything for a
query that names a table of the write. -/
theorem invalidation_complete (u : Unicode) (cacheKey : Text → P → K) (reload : D → D)
    (hkey : ∀ sql p sql' p', cacheKey sql p = cacheKey sql' p' → sql = sql') (l1MaxSize : Nat)
    (l1TtlSeconds : Int) (hpos : 0 < l1MaxSize) (now : Time) (s : Caches K D E)
    (h : (system u cacheKey reload l1MaxSize l1TtlSeconds hpos now).Reachable s) :
    (∀ sql params rows, s.coordinator.l1.Holds (cacheKey sql params) rows →
      ∀ table ∈ extractTables u sql, cacheKey sql params ∈ s.coordinator.keysOf table) ∧
    ∀ write precise sql params, shares (extractTables u sql) (extractTables u write) = true →
      (∀ rows, ¬(s.invalidateAfterWrite u write precise).coordinator.l1.Holds
        (cacheKey sql params) rows) ∧
      (s.invalidateAfterWrite u write precise).l2.rows.get? (cacheKey sql params) = none := by
  have hinv := CallsInv.of_reach h
  have htables {sql : Text} {params : P} {rows : Rows Text D}
      (hr : s.coordinator.l1.Holds (cacheKey sql params) rows) :
      rows.tables = extractTables u sql := by
    obtain ⟨sql', params', heq, htables⟩ := hinv.tagged _ rows hr
    rw [htables, hkey _ _ _ _ heq]
  constructor
  · intro sql params rows hr table ht
    apply hinv.indexed _ rows hr
    rwa [htables hr]
  · intro write precise sql params hshares
    obtain ⟨table, ht, htw⟩ := List.any_eq_true.mp hshares
    replace htw : table ∈ extractTables u write := by simpa using htw
    have hcleared (s : Caches K D E) :
        (∀ rows, ¬s.clearAll.coordinator.l1.Holds (cacheKey sql params) rows) ∧
        s.clearAll.l2.rows.get? (cacheKey sql params) = none := by
      refine ⟨fun rows ↦ HybridQueryCache.not_holds_clear, Option.eq_none_iff_forall_ne_some.mpr ?_⟩
      intro row hr
      have hnot := (QueryResultCache.get?_purge.mp hr).2
      cases hnot
    rcases invalidateAfterWrite_cases u s write precise with ⟨hdropped, heq⟩ | heq | heq
    · rw [heq]
      constructor
      · intro rows hr
        obtain ⟨hold, hnot⟩ := holds_of_invalidateTables hr
        apply hnot table htw
        apply hinv.indexed _ rows hold
        rwa [htables hold]
      · apply Option.eq_none_iff_forall_ne_some.mpr
        intro row hr
        unfold Caches.invalidateTables at hr hdropped
        dsimp only at hr hdropped
        rw [if_pos hdropped] at hr
        obtain ⟨hold, hnot⟩ := get?_of_purges hr
        have hdeletes := hnot (.table table) (List.mem_map.mpr ⟨table, htw, rfl⟩)
        obtain ⟨params', hrow⟩ := hinv.stored _ row hold
        obtain rfl := hkey _ _ _ _ hrow
        rw [Purge.deletes_of_names (show (Purge.table table).Names u _ from ht)] at hdeletes
        cases hdeletes
    · rw [heq]
      exact hcleared s
    · rw [heq]
      exact hcleared _

section Example

private def join : Text := "SELECT * FROM orders JOIN items ON orders.id = items.id".toList

private def deleteItems : Text := "DELETE FROM items".toList

private def oneEntry : System (Caches (Text × Unit) Nat Unit) (Act (Text × Unit) Unit Nat Unit) :=
  system .basic Prod.mk id 2 3600 (by decide) 0

/-- A query on two tables is dropped with the first one, comes back, and is dropped with the
second one. -/
theorem invalidation_complete_join : ∃ s, oneEntry.Reachable s ∧
    (join, ()) ∈ s.coordinator.l1.lru.cache.keys ∧ (join, ()) ∈ s.l2.rows.keys ∧
    (∀ rows, ¬(s.invalidateAfterWrite .basic deleteItems true).coordinator.l1.Holds
      (join, ()) rows) ∧
    (s.invalidateAfterWrite .basic deleteItems true).l2.rows.get? (join, ()) = none := by
  obtain ⟨s, hs, hheld⟩ := System.exists_of_exec oneEntry (fun _ _ ↦ True)
    [.getOrExecute join () (.ok 1), .invalidateTables ["orders".toList],
      .getOrExecute join () (.ok 2), .persist join () 2 3600]
    (fun s ↦ decide ((join, ()) ∈ s.coordinator.l1.lru.cache.keys ∧ (join, ()) ∈ s.l2.rows.keys))
    (by decide +kernel)
  have hheld := of_decide_eq_true hheld
  refine ⟨s, hs, hheld.1, hheld.2, ?_⟩
  exact (invalidation_complete .basic Prod.mk id (fun _ _ _ _ h ↦ (Prod.mk.inj h).1) 2 3600
    (by decide) 0 s hs).2 deleteItems true join () (by decide +kernel)

end Example

end Caches
end SalesData.Cache

import Mathlib.Data.List.Infix
import SalesData.Cache.Coordinator
import SalesData.Sql.Policy

/-!
# The second-level cache

The `query_cache` table behind `core/caching/query_result_cache.py`: one row for each cache key,
found by its key while it lives and deleted by a `LIKE` on the text of its statement. Columns
that only statistics read are left out. The statements on the table do not fail.
-/

namespace SalesData.Cache

open Base Sql

/-- SQLite's `text LIKE pattern`: `%` is any text, `_` any character, and the ASCII letters have
no case. -/
def like : Text → Text → Bool
  | [], text => text.isEmpty
  | '%' :: pattern, text => text.tails.any (like pattern)
  | '_' :: pattern, text => match text with
    | [] => false
    | _ :: text => like pattern text
  | c :: pattern, text => match text with
    | [] => false
    | d :: text => c.toLower == d.toLower && like pattern text

/-- The pattern `%name%`. -/
def anywhere (name : Text) : Text := '%' :: name ++ ['%']

private theorem like_percent (text : Text) : like ['%'] text = true := by
  rw [like, List.any_eq_true]
  exact ⟨[], (List.mem_tails _ _).mpr List.nil_suffix, rfl⟩

private theorem like_prefix (name rest : Text) : like (name ++ ['%']) (name ++ rest) = true := by
  induction name with
  | nil => exact like_percent rest
  | cons c name ih =>
    rw [List.cons_append, List.cons_append]
    unfold like
    split
    · next heq => cases heq
    · next heq =>
      obtain ⟨-, rfl⟩ := List.cons.inj heq
      rw [List.any_eq_true]
      exact ⟨name ++ rest, (List.mem_tails _ _).mpr (List.suffix_cons c _), ih⟩
    · next heq =>
      obtain ⟨-, rfl⟩ := List.cons.inj heq
      exact ih
    · next heq =>
      obtain ⟨rfl, rfl⟩ := List.cons.inj heq
      simp [ih]

/-- A text that contains a name is like the name anywhere in it. -/
theorem like_anywhere {name text : Text} (h : name <:+: text) :
    like (anywhere name) text = true := by
  obtain ⟨before, after, rfl⟩ := h
  rw [anywhere, List.cons_append, like, List.any_eq_true]
  exact ⟨name ++ after, (List.mem_tails _ _).mpr (by simp), like_prefix name after⟩

/-- Python's `int(x)` of a reading of the clock. -/
def Time.toInt (now : Time) : Int := now.num.tdiv now.den

/-- A row of `query_cache`. -/
structure CachedResult (D : Type) where
  querySql : Text
  resultData : D
  expiresAt : Option Int
  deriving DecidableEq, Repr

/-- `expires_at IS NULL OR expires_at > ?`. -/
def CachedResult.live {D : Type} (row : CachedResult D) (now : Time) : Bool :=
  row.expiresAt.all fun e ↦ decide (now.toInt < e)

/-- `QueryResultCache`: its table, by cache key. -/
structure QueryResultCache (K D : Type) where
  rows : Dict K (CachedResult D)

/-- The `ttl_seconds` of `cache_result` (`query_result_cache.py:113`). -/
def defaultTtlSeconds : Int := 3600

/-- What an invalidation deletes: the rows whose text is like a table's name, or all. -/
inductive Purge where
  | table (name : Text)
  | all
  deriving DecidableEq, Repr

/-- The purge deletes a row with this text; an empty pattern deletes nothing
(`query_result_cache.py:213–219`). -/
def Purge.deletes : Purge → Text → Bool
  | table name, text => !name.isEmpty && like (anywhere name) text
  | all, _ => true

/-- The statement names the table of the purge. -/
def Purge.Names (u : Unicode) (sql : Text) : Purge → Prop
  | table name => name ∈ extractTables u sql
  | all => True

instance (u : Unicode) (sql : Text) (p : Purge) : Decidable (p.Names u sql) :=
  match p with
  | .table name => inferInstanceAs (Decidable (name ∈ extractTables u sql))
  | .all => isTrue trivial

/-- A purge deletes the rows of the statements that name its table. -/
theorem Purge.deletes_of_names {u : Unicode} {sql : Text} {p : Purge} (h : p.Names u sql) :
    p.deletes sql = true := by
  cases p with
  | all => rfl
  | table name =>
    have hne := ne_nil_of_mem_extractTables h
    simp [deletes, hne, like_anywhere (infix_of_mem_extractTables h)]

namespace QueryResultCache

variable {K D : Type} [DecidableEq K]

omit [DecidableEq K] in
/-- The table before the first row. -/
def new : QueryResultCache K D := ⟨.empty⟩

/-- `get_cached_result` (`query_result_cache.py:49–82`): its data. -/
def getCachedResult (c : QueryResultCache K D) (now : Time) (key : K) : Option D :=
  ((c.rows.get? key).filter fun row ↦ row.live now).map CachedResult.resultData

/-- `cache_result` (`query_result_cache.py:105–170`). -/
def cacheResult (c : QueryResultCache K D) (now : Time) (key : K) (sql : Text) (data : D)
    (ttl : Int) : QueryResultCache K D :=
  ⟨c.rows.set key ⟨sql, data, if 0 < ttl then some (now.toInt + ttl) else none⟩⟩

omit [DecidableEq K] in
/-- `clear_all` and `invalidate_cache` (`query_result_cache.py:172–238`). -/
def purge (c : QueryResultCache K D) (p : Purge) : QueryResultCache K D :=
  ⟨c.rows.filter fun row ↦ !p.deletes row.querySql⟩

/-- What is found under a key is the data of its row. -/
theorem get?_of_getCachedResult {c : QueryResultCache K D} {now : Time} {key : K} {data : D}
    (h : c.getCachedResult now key = some data) :
    ∃ row, c.rows.get? key = some row ∧ row.resultData = data := by
  obtain ⟨row, hrow, rfl⟩ := Option.map_eq_some_iff.mp h
  exact ⟨row, (Option.filter_eq_some_iff.mp hrow).1, rfl⟩

/-- The rows after a result has been stored. -/
theorem get?_cacheResult {c : QueryResultCache K D} {now : Time} {key a : K} {sql : Text}
    {data : D} {ttl : Int} {row : CachedResult D}
    (h : (c.cacheResult now key sql data ttl).rows.get? a = some row) :
    a = key ∧ row.querySql = sql ∧ row.resultData = data ∨ a ≠ key ∧ c.rows.get? a = some row := by
  rw [cacheResult, Dict.get?_set] at h
  split at h
  · next hk =>
    obtain rfl := Option.some.inj h
    exact .inl ⟨hk, rfl, rfl⟩
  · next hk => exact .inr ⟨hk, h⟩

/-- The rows that a purge leaves. -/
theorem get?_purge {c : QueryResultCache K D} {p : Purge} {key : K} {row : CachedResult D} :
    (c.purge p).rows.get? key = some row ↔
      c.rows.get? key = some row ∧ p.deletes row.querySql = false := by
  rw [purge, Dict.get?_filter, Bool.not_eq_true']

end QueryResultCache

/-- What an invalidation after a write deletes from the second level
(`query_cache_coordinator.py:209` and `245–246`, `query_service.py:140–147`). -/
def purges {K E D : Type} [DecidableEq K] (c : QueryCacheCoordinator K Text D E)
    (tables : List Text) (precise : Bool) : List Purge :=
  if precise && (c.invalidateTables tables).1 then tables.map .table else [.all]

end SalesData.Cache

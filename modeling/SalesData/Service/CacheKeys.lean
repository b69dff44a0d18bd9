import SalesData.Base.Repr
import SalesData.Service.QueryService

/-!
# Cache keys

The key of a query is the digest of its text, a bar, and the parameters as Python writes a tuple
(`core/caching/query_result_cache.py:45–57`). The bar is not escaped, and both sides may contain
it; the tuple is nevertheless known from the end of the text.
-/

namespace SalesData.Service

open Base Sql Cache

/-- What `generate_cache_key` hashes. -/
def queryStr (isPrintable : Char → Bool) (querySql : Text) (params : List Literal) : Text :=
  querySql ++ '|' :: Literal.reprTuple isPrintable params

/-- `generate_cache_key` (`query_result_cache.py:45–57`), also the coordinator's `cache_key`. -/
def generateCacheKey (sha256 : Text → Text) (isPrintable : Char → Bool) (querySql : Text)
    (params : List Literal) : Text :=
  sha256 (queryStr isPrintable querySql params)

variable {isPrintable : Char → Bool}

/-- The hashed text determines the query and its parameters. -/
theorem queryStr_inj {sql sql' : Text} {params params' : List Literal}
    (h : queryStr isPrintable sql params = queryStr isPrintable sql' params') :
    sql = sql' ∧ params = params' := by
  have hbar (text : Text) (items : List Literal) : queryStr isPrintable text items =
      (text ++ ['|']) ++ Literal.reprTuple isPrintable items := by
    simp [queryStr]
  rw [hbar, hbar] at h
  obtain ⟨hsql, hparams⟩ := Literal.eq_of_append_reprTuple h
  exact ⟨List.append_cancel_right hsql, hparams⟩

/-- With a digest that has no collisions, queries with one key are one query, and two lookups of
the service meet under a key only if they are for the same query. -/
theorem cacheKeys_distinct (isPrintable : Char → Bool) (sha256 : Text → Text)
    (hsha : Function.Injective sha256) :
    (∀ sql sql' params params',
      queryStr isPrintable sql params = queryStr isPrintable sql' params' → sql = sql' ∧ params = params') ∧
    (∀ sql sql' params params', generateCacheKey sha256 isPrintable sql params =
      generateCacheKey sha256 isPrintable sql' params' → sql = sql' ∧ params = params') ∧
    ∀ (u : Unicode) (run run' : Run (List Literal)) (key : Text) (tables tables' : List Text),
      run.call? u (generateCacheKey sha256 isPrintable) = some (.lookup key run tables) →
      run'.call? u (generateCacheKey sha256 isPrintable) = some (.lookup key run' tables') →
      run.sql = run'.sql ∧ run.params = run'.params := by
  have hkey (sql sql' : Text) (params params' : List Literal)
      (h : generateCacheKey sha256 isPrintable sql params =
        generateCacheKey sha256 isPrintable sql' params') : sql = sql' ∧ params = params' :=
    queryStr_inj (hsha h)
  refine ⟨fun _ _ _ _ h ↦ queryStr_inj h, hkey, ?_⟩
  intro u run run' key tables tables' h h'
  apply hkey
  rw [← key_of_call? h, ← key_of_call? h']

/-- A bar and quotes in a parameter: the keys of two queries whose texts are prefixes of one
another differ. -/
theorem cacheKeys_distinct_bar :
    generateCacheKey id (fun _ ↦ false) "a".toList [.str "|('".toList] ≠
      generateCacheKey id (fun _ ↦ false) "a|(\"".toList [.str "'".toList] := by
  intro h
  have hsql := ((cacheKeys_distinct (fun _ ↦ false) id Function.injective_id).2.1 _ _ _ _ h).1
  revert hsql
  decide

end SalesData.Service

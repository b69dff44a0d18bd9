import SalesData.Base.Dict
import SalesData.Base.Text

/-!
# Fetching from DuckDB

`DuckDBAdapter.fetch_one` and `fetch_all` (`core/db/adapters/duckdb.py:82–168`) over a driver that
takes the database from one state to the next. `fetch_one` runs its statement again to learn the
names of the columns, and so is one run and the head of `fetch_all` only where a second run
changes nothing.
-/

namespace SalesData.Execution.DuckDB

open Base

/-- A row that a driver returns. -/
inductive Row (V : Type) where
  | tuple (values : List V)
  | dict (row : Dict Text V)

/-- The result of a statement; some have no attribute `description`. -/
structure Relation (V : Type) where
  description : Option (List Text)
  rows : List (Row V)

/-- What a call raises: `RuntimeError("Not connected to database")`, or what the driver does. -/
inductive Raised (E : Type) where
  | notConnected
  | driver (exc : E)

/-- `connection.execute`, with or without parameters. -/
abbrev Execute (S V E : Type) := Text → Option (List V) → S → S × Except E (Relation V)

variable {S V E : Type}

/-- `[desc[0] for desc in result.description]`, or `[]` without the attribute. -/
def Relation.columns (result : Relation V) : List Text := result.description.getD []

/-- `dict(zip(columns, row))`. -/
def named (columns : List Text) (row : List V) : Dict Text V := .ofEntries (columns.zip row)

/-- `dict(zip(columns, row)) if isinstance(row, tuple) else row`. -/
def Row.named (columns : List Text) : Row V → Row V
  | tuple row => dict (DuckDB.named columns row)
  | dict row => dict row

section Adapter

variable (execute : Execute S V E) (sql : Text) (params : Option (List V)) (db : Option S)

/-- `DuckDBAdapter.execute_query` (`duckdb.py:82–103`); `db` is the database behind `connection`. -/
def executeQuery : Option S × Except (Raised E) (Relation V) :=
  match db with
  | none => (none, .error .notConnected)
  | some s =>
    let (s', result) := execute sql (params.filter fun ps ↦ !ps.isEmpty) s
    (some s', result.mapError .driver)

/-- `DuckDBAdapter.fetch_one` (`duckdb.py:105–130`). -/
def fetchOne : Option S × Except (Raised E) (Option (Dict Text V)) :=
  match executeQuery execute sql params db with
  | (db, .error exc) => (db, .error exc)
  | (db, .ok relation) =>
    match relation.rows.head? with
    | none => (db, .ok none)
    | some (.dict result) => (db, .ok (some result))
    | some (.tuple result) =>
      match executeQuery execute sql params db with
      | (db, .error exc) => (db, .error exc)
      | (db, .ok queryResult) =>
        (db, .ok (if queryResult.columns = [] then none
          else some (named queryResult.columns result)))

/-- `DuckDBAdapter.fetch_all` (`duckdb.py:132–168`). -/
def fetchAll : Option S × Except (Raised E) (List (Row V)) :=
  match executeQuery execute sql params db with
  | (db, .error exc) => (db, .error exc)
  | (db, .ok queryResult) =>
    (db, .ok (match queryResult.rows with
      | [] => []
      | .dict row :: rows => .dict row :: rows
      | .tuple row :: rows =>
        if queryResult.columns = [] then .tuple row :: rows
        else (.tuple row :: rows).map (Row.named queryResult.columns)))

/-- `AsyncSessionWrapper.fetch_one` (`core/db/session.py:144–145`): the call in the db executor. -/
def sessionFetchOne : Option S × Except (Raised E) (Option (Dict Text V)) :=
  fetchOne execute sql (some (params.getD [])) db

/-- `AsyncSessionWrapper.fetch_all` (`session.py:141–142`). -/
def sessionFetchAll : Option S × Except (Raised E) (List (Row V)) :=
  fetchAll execute sql (some (params.getD [])) db

/-- One run of the statement and the head of `fetch_all`: a failure is raised, a result without rows
is `None`. -/
def IsHeadOfAll (one : Option S × Except (Raised E) (Option (Dict Text V)))
    (all : Option S × Except (Raised E) (List (Row V))) : Prop :=
  match executeQuery execute sql params db with
  | (db', .error exc) => one = (db', .error exc)
  | (db', .ok relation) => one.1 = db' ∧
      if relation.rows = [] then one.2 = .ok none
      else one.2.map (Option.map Row.dict) = all.2.map List.head?

/-- A statement whose first row is a tuple runs again without an error, changes nothing then, and
names the values of the row as before. -/
def Repeatable : Prop :=
  ∀ db' relation row, executeQuery execute sql params db = (db', .ok relation) →
    relation.rows.head? = some (.tuple row) →
    ∃ again, executeQuery execute sql params db' = (db', .ok again) ∧
      again.columns ≠ [] ∧ relation.columns ≠ [] ∧
      named again.columns row = named relation.columns row

end Adapter

section Runs

variable {execute : Execute S V E} {sql : Text} {params : Option (List V)} {db db' : Option S}

/-- Empty parameters are none. -/
theorem executeQuery_getD (db : Option S) :
    executeQuery execute sql (some (params.getD [])) db = executeQuery execute sql params db := by
  have hparams : (some (params.getD [])).filter (fun ps ↦ !ps.isEmpty) =
      params.filter fun ps ↦ !ps.isEmpty := by
    rcases params with - | (- | ⟨p, ps⟩)
    · rfl
    · rfl
    · rfl
  unfold executeQuery
  rw [hparams]

/-- A session's `fetch_one` is its adapter's. -/
theorem sessionFetchOne_eq (db : Option S) :
    sessionFetchOne execute sql params db = fetchOne execute sql params db := by
  unfold sessionFetchOne fetchOne
  simp only [executeQuery_getD]

/-- A session's `fetch_all` is its adapter's. -/
theorem sessionFetchAll_eq (db : Option S) :
    sessionFetchAll execute sql params db = fetchAll execute sql params db := by
  unfold sessionFetchAll fetchAll
  simp only [executeQuery_getD]

/-- A failure is raised at once. -/
theorem fetchOne_of_error {exc : Raised E}
    (h : executeQuery execute sql params db = (db', .error exc)) :
    fetchOne execute sql params db = (db', .error exc) := by
  simp only [fetchOne, h]

variable {relation : Relation V} {row : List V}

/-- A result without rows is `None`. -/
theorem fetchOne_of_no_rows (h : executeQuery execute sql params db = (db', .ok relation))
    (hrows : relation.rows = []) : fetchOne execute sql params db = (db', .ok none) := by
  simp only [fetchOne, h, hrows, List.head?_nil]

/-- A first row that is a dictionary is returned. -/
theorem fetchOne_of_dict {row : Dict Text V}
    (h : executeQuery execute sql params db = (db', .ok relation))
    (hrow : relation.rows.head? = some (.dict row)) :
    fetchOne execute sql params db = (db', .ok (some row)) := by
  simp only [fetchOne, h, hrow]

/-- A first row that is a tuple makes the statement run again. -/
theorem fetchOne_of_tuple (h : executeQuery execute sql params db = (db', .ok relation))
    (hrow : relation.rows.head? = some (.tuple row)) :
    fetchOne execute sql params db =
      ((executeQuery execute sql params db').1,
        (executeQuery execute sql params db').2.map fun again ↦
          if again.columns = [] then none else some (named again.columns row)) := by
  simp only [fetchOne, h, hrow]
  split
  · next hagain => rw [hagain]; rfl
  · next hagain => rw [hagain]; rfl

/-- The head of `fetch_all`. -/
theorem fetchAll_head (h : executeQuery execute sql params db = (db', .ok relation)) :
    (fetchAll execute sql params db).2.map List.head? =
      .ok (if relation.columns = [] then relation.rows.head?
        else relation.rows.head?.map (Row.named relation.columns)) := by
  simp only [fetchAll, h, Except.map]
  split
  · next hrows => simp [hrows]
  · next hrows => simp [hrows, Row.named]
  · next hrows => split <;> simp_all

private theorem repeatable_of_not_tuple
    (h : executeQuery execute sql params db = (db', .ok relation))
    (hrow : ∀ row, relation.rows.head? ≠ some (.tuple row)) :
    Repeatable execute sql params db := by
  intro db'' relation' row h' hrow'
  rw [h] at h'
  cases h'
  exact absurd hrow' (hrow row)

private theorem repeatable_iff_of_tuple
    (h : executeQuery execute sql params db = (db', .ok relation))
    (hrow : relation.rows.head? = some (.tuple row)) :
    Repeatable execute sql params db ↔
      ∃ again, executeQuery execute sql params db' = (db', .ok again) ∧
        again.columns ≠ [] ∧ relation.columns ≠ [] ∧
        named again.columns row = named relation.columns row := by
  constructor
  · intro hrepeat
    exact hrepeat db' relation row h hrow
  · intro hagain db'' relation' row' h' hrow'
    rw [h] at h'
    cases h'
    rw [hrow] at hrow'
    cases hrow'
    exact hagain

private theorem isHeadOfAll_of_ok {one : Option S × Except (Raised E) (Option (Dict Text V))}
    (h : executeQuery execute sql params db = (db', .ok relation)) :
    IsHeadOfAll execute sql params db one (fetchAll execute sql params db) ↔
      one.1 = db' ∧ if relation.rows = [] then one.2 = .ok none
        else one.2.map (Option.map Row.dict) =
          .ok (if relation.columns = [] then relation.rows.head?
            else relation.rows.head?.map (Row.named relation.columns)) := by
  rw [← fetchAll_head h]
  simp only [IsHeadOfAll, h]

/-- `fetch_one` is one run and the head of `fetch_all` exactly where the statement may run again. -/
theorem fetchOne_isHeadOfAll_iff (execute : Execute S V E) (sql : Text) (params : Option (List V))
    (db : Option S) :
    IsHeadOfAll execute sql params db (fetchOne execute sql params db)
      (fetchAll execute sql params db) ↔ Repeatable execute sql params db := by
  rcases h : executeQuery execute sql params db with ⟨db', exc | relation⟩
  · have hraised := fetchOne_of_error h
    refine iff_of_true ?_ fun _ _ _ hok _ ↦ ?_
    · simpa only [IsHeadOfAll, h] using hraised
    · rw [h] at hok
      cases hok
  · rw [isHeadOfAll_of_ok h]
    cases hrow : relation.rows.head? with
    | none =>
      have hrows := List.head?_eq_none_iff.mp hrow
      refine iff_of_true ?_ (repeatable_of_not_tuple h fun row ↦ by simp [hrow])
      rw [fetchOne_of_no_rows h hrows, if_pos hrows]
      exact ⟨rfl, rfl⟩
    | some first =>
      have hrows : relation.rows ≠ [] := fun hnil ↦ by simp [hnil] at hrow
      rw [if_neg hrows]
      cases first with
      | dict row =>
        refine iff_of_true ?_ (repeatable_of_not_tuple h fun row ↦ by simp [hrow])
        rw [fetchOne_of_dict h hrow]
        refine ⟨rfl, ?_⟩
        split <;> rfl
      | tuple row =>
        rw [fetchOne_of_tuple h hrow, repeatable_iff_of_tuple h hrow]
        rcases executeQuery execute sql params db' with ⟨db'', exc | again⟩
        · constructor
          · rintro ⟨-, hvalue⟩
            cases hvalue
          · rintro ⟨again, hagain, -⟩
            cases hagain
        · have hvalue : (Except.map (Option.map Row.dict) (Except.map (ε := Raised E)
              (fun again : Relation V ↦ if again.columns = [] then none
                else some (named again.columns row)) (.ok again)) =
              .ok (if relation.columns = [] then some (.tuple row)
                else (some (.tuple row)).map (Row.named relation.columns))) ↔
              again.columns ≠ [] ∧ relation.columns ≠ [] ∧
                named again.columns row = named relation.columns row := by
            by_cases hagain : again.columns = [] <;> by_cases hcolumns : relation.columns = [] <;>
              simp [Except.map, Row.named, hagain, hcolumns]
          constructor
          · rintro ⟨rfl, heq⟩
            exact ⟨again, rfl, hvalue.mp heq⟩
          · rintro ⟨again', hagain, hnames⟩
            cases hagain
            exact ⟨rfl, hvalue.mpr hnames⟩

/-- A row is added and its number returned. -/
def addRow : Execute (List Nat) Nat Empty := fun _ _ rows ↦
  (rows ++ [rows.length], .ok ⟨some ["id".toList], [.tuple [rows.length]]⟩)

/-- `INSERT ... RETURNING` adds two rows. -/
theorem fetchOne_returning :
    let sql := "INSERT INTO t DEFAULT VALUES RETURNING id".toList
    (fetchOne addRow sql none (some [])).1 = some [0, 1] ∧
      (executeQuery addRow sql none (some [])).1 = some [0] ∧
      ¬IsHeadOfAll addRow sql none (some []) (fetchOne addRow sql none (some []))
        (fetchAll addRow sql none (some [])) := by
  refine ⟨rfl, rfl, fun h ↦ ?_⟩
  have hstate : some [0, 1] = some [0] := h.1
  cases hstate

end Runs

end SalesData.Execution.DuckDB

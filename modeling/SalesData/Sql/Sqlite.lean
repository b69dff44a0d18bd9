import SalesData.Base.Text

/-!
# Transactions of a SQLite connection

Python's `sqlite3` in its default transaction mode. The driver opens a transaction before a
statement that it takes for a modification, which it tells by the first letters of the text; a
statement that then fails leaves the transaction open, and `commit()` or `rollback()` closes it.
-/

namespace SalesData.Sql.Sqlite

open Base

/-- What the driver is skipping at the head of a statement. -/
inductive Skip where
  | blanks
  | lineComment
  | blockComment
  deriving DecidableEq, Repr

/-- A statement without the blanks and comments at its head. -/
def lstrip : Skip → Text → Text
  | _, [] => []
  | .blanks, '-' :: '-' :: sql => lstrip .lineComment sql
  | .blanks, '/' :: '*' :: sql => lstrip .blockComment sql
  | .blanks, c :: sql =>
    if c ∈ [' ', '\t', '\x0c', '\n', '\r'] then lstrip .blanks sql else c :: sql
  | .lineComment, '\n' :: sql => lstrip .blanks sql
  | .lineComment, _ :: sql => lstrip .lineComment sql
  | .blockComment, '*' :: '/' :: sql => lstrip .blanks sql
  | .blockComment, _ :: sql => lstrip .blockComment sql

/-- The statement begins with one of the words, in any case of ASCII letters. -/
def beginsWith (words : List String) (sql : Text) : Bool :=
  let head := (lstrip .blanks sql).map Char.toLower
  words.any fun word ↦ word.toList.isPrefixOf head

/-- The driver takes the statement for a modification. -/
def isDml (sql : Text) : Bool := beginsWith ["insert", "update", "delete", "replace"] sql

/-- The statement opens a transaction by itself. -/
def isBegin (sql : Text) : Bool := beginsWith ["begin", "savepoint"] sql

/-- How `cursor.execute` ends: it returns, or it raises before or after the statement has begun
to run. -/
inductive Result where
  | done
  | unprepared
  | failed
  deriving DecidableEq, Repr

/-- Whether `cursor.execute` opens a transaction. -/
def opens (sql : Text) : Result → Bool
  | .done => isDml sql || isBegin sql
  | .unprepared => false
  | .failed => isDml sql

/-- The statement may end a transaction by itself. -/
def isEnd (sql : Text) : Bool := beginsWith ["commit", "end", "rollback", "release"] sql

/-- Whether a connection may be in a transaction `after` a statement, if it was `before`. A
statement that fails may take the whole transaction back. -/
def allows (sql : Text) (result : Result) (before after : Bool) : Bool :=
  match result with
  | .done => if before then after || isEnd sql else after == opens sql .done
  | .unprepared => after == before
  | .failed => !after || before || opens sql .failed

example : isDml " -- note\n/* x */ Insert INTO t VALUES (1)".toList = true := by decide

example : isDml "WITH t AS (SELECT 1) INSERT INTO u SELECT * FROM t".toList = false := by decide

end SalesData.Sql.Sqlite

import SalesData.Base.Text

/-!
# The tables that a statement names

What SQL itself says about the tables of a statement: a query lists them in its `FROM` clause
and a write names its target. Comments count as white space, and identifiers have no case.
Independent of the regular expressions of `core/db/sql_policy.py`.
-/

namespace SalesData.Sql

open Base

/-- Where the scanner stands. -/
inductive Scan where
  | code
  | lineComment
  | blockComment
  /-- Inside a string or a quoted identifier, up to this character. -/
  | quoted (q : Char)
  deriving DecidableEq, Repr

/-- The text with every comment replaced by a blank and without what is quoted. -/
def blank : Scan → Text → Text
  | _, [] => []
  | .code, '-' :: '-' :: rest => ' ' :: blank .lineComment rest
  | .code, '/' :: '*' :: rest => ' ' :: blank .blockComment rest
  | .code, c :: rest =>
    c :: blank (if c = '\'' ∨ c = '"' ∨ c = '\x60' then .quoted c else .code) rest
  | .lineComment, c :: rest =>
    if c = '\n' then c :: blank .code rest else blank .lineComment rest
  | .blockComment, '*' :: '/' :: rest => blank .code rest
  | .blockComment, _ :: rest => blank .blockComment rest
  | .quoted q, c :: rest => blank (if c = q then .code else .quoted q) rest

/-- A character of a plain identifier. -/
def isNameChar (c : Char) : Bool := c.isAlphanum || c == '_'

/-- The words and the other characters of a statement. -/
def tokens (sql : Text) : List Text :=
  ((blank .code sql).splitBy fun a b ↦ isNameChar a && isNameChar b).filter
    fun t ↦ !t.all Text.isSpace

/-- A plain identifier. -/
def isName (t : Text) : Bool :=
  t.head?.any fun c ↦ isNameChar c && !c.isDigit

/-- Names and keywords without case. -/
def folded (t : Text) : Text := t.map Char.toLower

/-- The token is one of these keywords. -/
def isKeyword (ws : List String) (t : Text) : Bool := ws.any fun w ↦ folded t == w.toList

/-- The keywords that end a `FROM` clause. -/
def clauses : List String :=
  ["where", "group", "having", "order", "limit", "offset", "fetch", "window", "qualify", "union",
    "intersect", "except"]

/-- What stands behind the `FROM` of the outermost query; `before` is the token in front.
`IS DISTINCT FROM` is an operator. -/
def fromClause (depth : Nat) (before : Text) : List Text → List Text
  | [] => []
  | t :: rest =>
    if t = ['('] then fromClause (depth + 1) t rest
    else if t = [')'] then fromClause (depth - 1) t rest
    else if depth = 0 ∧ isKeyword ["from"] t ∧ !isKeyword ["distinct"] before then rest
    else fromClause depth t rest

/-- The plain identifiers that a `FROM` clause lists: one at its beginning, and one behind each
comma and each `JOIN`. -/
def listed : Nat → Bool → List Text → List Text
  | _, _, [] => []
  | depth + 1, _, t :: rest =>
    if t = ['('] then listed (depth + 2) false rest
    else if t = [')'] then listed depth false rest
    else listed (depth + 1) false rest
  | 0, begins, t :: rest =>
    if t = ['('] then listed 1 false rest
    else if t = [')'] ∨ t = [';'] ∨ isKeyword clauses t then []
    else if t = [','] ∨ isKeyword ["join"] t then listed 0 true rest
    else if begins && isName t && rest.head? != some ['.'] && rest.head? != some ['('] then
      t :: listed 0 false rest
    else listed 0 false rest

/-- The tables that the `FROM` clause of a `SELECT` lists. -/
def selectTables (sql : Text) : List Text :=
  match tokens sql with
  | t :: rest => if isKeyword ["select"] t then listed 0 true (fromClause 0 t rest) else []
  | [] => []

/-- What stands behind `INSERT INTO`, `UPDATE` or `DELETE FROM`. -/
def target : List Text → List Text
  | t :: rest =>
    if isKeyword ["update"] t then rest
    else match rest with
      | t' :: rest =>
        if isKeyword ["insert"] t ∧ isKeyword ["into"] t' then rest
        else if isKeyword ["delete"] t ∧ isKeyword ["from"] t' then rest
        else []
      | [] => []
  | [] => []

/-- The table that a statement inserts into, updates or deletes from. -/
def writtenTable? (sql : Text) : Option Text :=
  match target (tokens sql) with
  | t :: rest => if isName t && rest.head? != some ['.'] then some t else none
  | [] => none

/-- The write is on a table that the query lists. -/
def touches (query write : Text) : Bool :=
  (writtenTable? write).any fun t ↦ (selectTables query).any fun t' ↦ folded t' == folded t

example : selectTables
    "select x, 'from z' FROM a, /* c */ b y LEFT JOIN s.d ON y.i = d.i join E where 1".toList =
    ["a".toList, "b".toList, "E".toList] := by
  decide +kernel

end SalesData.Sql

import Mathlib.Data.List.Dedup
import SalesData.Base.Regex

/-!
# Statement classification

`core/db/sql_policy.py`: the textual tests that decide what a statement may do, which
tables it names and which concurrency class it waits in.
-/

namespace SalesData.Sql

open Base

/-- `Operation` (`sql_policy.py:28`). -/
inductive Operation where
  | read
  | write
  deriving DecidableEq, Repr

/-- `Cost` (`sql_policy.py:29`). -/
inductive Cost where
  | fast
  | normal
  | expensive
  deriving DecidableEq, Repr

section Patterns

open Pattern

private def space : Pattern := set Text.isSpace

private def isAsciiLetter (c : Char) : Bool := c.isAlpha

/-- `_LEADING_COMMENT_RE` (`sql_policy.py:31`). With `re.DOTALL` the dot is any character;
nobody asks for the group of the repetition. -/
def leadingCommentRe : Pattern :=
  seqs [start, star true space, star true (alt
    (seqs [lit "--", star true (set (· != '\n')), lit "\n"])
    (seqs [lit "/*", star false (set fun _ ↦ true), lit "*/", star true space]))]

/-- `_FIRST_WORD_RE` (`sql_policy.py:32`). -/
def firstWordRe : Pattern := seqs [start, star true space, group (plus (set isAsciiLetter))]

/-- The keywords of `_WRITE_KEYWORDS_RE`. -/
def writeKeywords : List String :=
  ["INSERT", "UPDATE", "DELETE", "MERGE", "REPLACE", "DROP", "ALTER", "CREATE", "TRUNCATE",
    "GRANT", "REVOKE"]

/-- `_WRITE_KEYWORDS_RE` (`sql_policy.py:44–47`). -/
def writeKeywordsRe : Pattern := words writeKeywords

/-- `_TABLE_REF_RE` (`sql_policy.py:55–58`). -/
def tableRefRe : Pattern :=
  seqs [boundary, alts (["FROM", "JOIN", "INTO", "UPDATE", "TABLE"].map caseless), plus space,
    opt (set ("`\"[".toList.contains ·)),
    group (seq (caselessSet fun c ↦ isAsciiLetter c || c == '_')
      (star true (caselessSet fun c ↦ isAsciiLetter c || c.isDigit || c == '_')))]

private def twoWords (v w : String) : Pattern := seqs [caseless v, plus space, caseless w]

/-- `_NORMAL_MARKERS` (`sql_policy.py:62–64`). -/
def normalMarkers : Pattern :=
  whole [caseless "JOIN", twoWords "GROUP" "BY", twoWords "ORDER" "BY", caseless "HAVING",
    caseless "DISTINCT", caseless "UNION"]

/-- `_EXPENSIVE_MARKERS` (`sql_policy.py:65–67`). -/
def expensiveMarkers : Pattern :=
  whole [twoWords "CROSS" "JOIN", twoWords "GROUP" "BY", caseless "WINDOW",
    seqs [caseless "OVER", star true space, lit "("], caseless "RECURSIVE"]

/-- `_HAS_LIMIT` (`sql_policy.py:68`). -/
def hasLimit (u : Unicode) : Pattern :=
  seqs [boundary, caseless "LIMIT", plus space, plus (set u.isDecimal), boundary]

/-- `_SELECT_STAR` (`sql_policy.py:69`). -/
def selectStar : Pattern := seqs [caseless "SELECT", plus space, lit "*"]

end Patterns

variable (u : Unicode)

/-- `_first_keyword` (`sql_policy.py:72–78`). -/
def firstKeyword (sql : Text) : Text :=
  let stripped := leadingCommentRe.remove u sql
  match firstWordRe.matchAt u (.ofText stripped) with
  | some m => (m.group.getD []).map Char.toUpper
  | none => []

/-- `_READ_KEYWORDS` (`sql_policy.py:34`). -/
def readKeywords : List Text := ["SELECT".toList, "WITH".toList]

/-- `classify_operation` (`sql_policy.py:81–95`). -/
def classifyOperation (sql : Text) : Operation :=
  let keyword := firstKeyword u sql
  if keyword ∉ readKeywords then .write
  else if keyword = "WITH".toList ∧ (writeKeywordsRe.search u sql).isSome then .write
  else .read

/-- `extract_tables` (`sql_policy.py:98–108`); the set as a list without repetition. -/
def extractTables (sql : Text) : List Text :=
  ((tableRefRe.finditer u sql).map fun m ↦ m.group.getD []).dedup

/-- `classify_cost` (`sql_policy.py:111–129`). -/
def classifyCost (sql : Text) : Cost :=
  if Text.strip sql = [] then .fast
  else if (expensiveMarkers.search u sql).isSome then .expensive
  else
    let isNormal := (normalMarkers.search u sql).isSome
    let unboundedWideScan :=
      (selectStar.search u sql).isSome && !((hasLimit u).search u sql).isSome
    if isNormal && unboundedWideScan then .expensive
    else if isNormal || unboundedWideScan then .normal
    else .fast

/-- `has_scope` (`sql_policy.py:132–144`). -/
def hasScope (scopes : Option Text) (required : Text) : Bool :=
  let named := ((scopes.getD []).splitOn ',').filter (Text.strip · ≠ [])
  let granted := named.map fun s ↦ u.lower (Text.strip s)
  let granted := if granted = [] then ["read".toList] else granted
  granted.contains (u.lower required)

/-- A write keyword occurs as a whole word. -/
def HasWriteKeyword (sql : Text) : Prop := ∃ w ∈ writeKeywords, Text.OccursAsWord u w sql

variable {u}

/-- Write keywords are words in lower case. -/
theorem lower_writeKeywords :
    ∀ w ∈ writeKeywords, w.toList ≠ [] ∧ ∀ c ∈ w.toList, (Text.fold c).isLower = true := by
  have hall : writeKeywords.all (fun w ↦ !w.toList.isEmpty &&
      w.toList.all fun c ↦ (Text.fold c).isLower) = true := by decide
  simpa using hall

/-- The search for write keywords is exact. -/
theorem isSome_search_writeKeywordsRe {sql : Text} :
    (writeKeywordsRe.search u sql).isSome ↔ HasWriteKeyword u sql :=
  Pattern.isSome_search_words lower_writeKeywords

instance (sql : Text) : Decidable (HasWriteKeyword u sql) :=
  decidable_of_iff _ isSome_search_writeKeywordsRe

/-- What passes for a read: `SELECT` with anything behind it, `WITH` without a write keyword. -/
theorem classifyOperation_eq_read {sql : Text} :
    classifyOperation u sql = .read ↔ firstKeyword u sql = "SELECT".toList ∨
      firstKeyword u sql = "WITH".toList ∧ ¬HasWriteKeyword u sql := by
  have hne : "SELECT".toList ≠ "WITH".toList := by decide
  simp only [classifyOperation, isSome_search_writeKeywordsRe, readKeywords, List.mem_cons,
    List.not_mem_nil, or_false]
  by_cases hselect : firstKeyword u sql = "SELECT".toList
  · rw [hselect, if_neg (by simp), if_neg (fun h ↦ hne h.1)]
    simp
  · by_cases hwith : firstKeyword u sql = "WITH".toList
    · by_cases hkey : HasWriteKeyword u sql <;> simp [hwith, hkey]
    · rw [if_pos (by tauto)]
      simp only [hselect, hwith]
      simp

private theorem captures_tableRefRe : Pattern.Captures u tableRefRe := by
  have hname : Pattern.Captures u (Pattern.seqs [.group (.seq
      (Pattern.caselessSet fun c ↦ isAsciiLetter c || c == '_')
      (.star true (Pattern.caselessSet fun c ↦ isAsciiLetter c || c.isDigit || c == '_')))]) :=
    Pattern.captures_group
  exact hname.seq.seq.seq.seq

/-- The name of a table that a statement refers to is a part of its text. -/
theorem infix_of_mem_extractTables {sql name : Text} (h : name ∈ extractTables u sql) :
    name <:+: sql := by
  obtain ⟨m, hm, rfl⟩ := List.mem_map.mp (List.mem_dedup.mp h)
  obtain ⟨g, hg, -⟩ := captures_tableRefRe.of_mem_finditer hm
  rw [hg]
  exact Pattern.group_infix_of_mem_finditer hm hg

/-- The name of a table is not empty. -/
theorem ne_nil_of_mem_extractTables {sql name : Text} (h : name ∈ extractTables u sql) :
    name ≠ [] := by
  obtain ⟨m, hm, rfl⟩ := List.mem_map.mp (List.mem_dedup.mp h)
  obtain ⟨g, hg, hne⟩ := captures_tableRefRe.of_mem_finditer hm
  rw [hg]
  exact hne

end SalesData.Sql

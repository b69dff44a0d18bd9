import Mathlib.Algebra.Group.Nat.Defs
import Mathlib.Algebra.Ring.Int.Defs
import Mathlib.Data.Char
import Mathlib.Data.List.Lex
import Mathlib.Data.List.Sort
import SalesData.Base.Text

/-!
# Pages of a table

`SELECT * FROM … WHERE … ORDER BY … DESC LIMIT ? OFFSET ?`, as a text that a program puts together
and as what a database reads in it: the part of SQL that such texts are written in. A value comes
in as a parameter only, in the order of the question marks. A program that collects its filters in
two lists, of conditions and of parameters, gets the rows that pass all of them, page by page.
-/

namespace SalesData.Base

/-- A value of a column or a parameter. -/
inductive SqlValue where
  | null
  | int (n : Int)
  | text (t : Text)
  deriving DecidableEq

namespace SqlValue

/-- The order of values: `NULL`, the integers, the texts by their code points. -/
def le : SqlValue → SqlValue → Bool
  | null, _ => true
  | int m, int n => decide (m ≤ n)
  | int _, text _ => true
  | text s, text t => decide (s ≤ t)
  | int _, null | text _, null | text _, int _ => false

/-- What a driver can pass on: an integer has 64 bits. -/
def Bindable : SqlValue → Prop
  | int n => -2 ^ 63 ≤ n ∧ n < 2 ^ 63
  | null | text _ => True

instance (v : SqlValue) : Decidable v.Bindable :=
  match v with
  | int _ => inferInstanceAs (Decidable (_ ∧ _))
  | null | text _ => instDecidableTrue

/-- Any two values are in order. -/
theorem le_total (v w : SqlValue) : v.le w = true ∨ w.le v = true := by
  cases v <;> cases w <;> simp [le, LinearOrder.le_total]

/-- The order of values is transitive. -/
theorem le_trans {u v w : SqlValue} (huv : u.le v = true) (hvw : v.le w = true) :
    u.le w = true := by
  cases u with
  | null => rfl
  | int m =>
    cases v with
    | null => cases huv
    | int n =>
      cases w with
      | null => cases hvw
      | int k =>
        simp only [le, decide_eq_true_eq] at huv hvw ⊢
        omega
      | text t => rfl
    | text s =>
      cases w with
      | text t => rfl
      | null | int => cases hvw
  | text s =>
    cases v with
    | null | int => cases huv
    | text t =>
      cases w with
      | null | int => cases hvw
      | text r =>
        simp only [le, decide_eq_true_eq] at huv hvw ⊢
        exact Preorder.le_trans _ _ _ huv hvw

end SqlValue

/-- How a column is compared with a parameter. -/
inductive Comparison where
  | eq
  | ge
  | le
  deriving DecidableEq

namespace Comparison

/-- The operator. -/
def symbol : Comparison → Text
  | eq => ['=']
  | ge => ['>', '=']
  | le => ['<', '=']

/-- The comparison of an operator. -/
def ofSymbol (word : Text) : Option Comparison := [eq, ge, le].find? (·.symbol == word)

/-- An operator is read as it is written. -/
@[simp] theorem ofSymbol_symbol (c : Comparison) : ofSymbol c.symbol = some c := by
  cases c <;> rfl

/-- The comparison is true; with `NULL` none is. -/
def holds (c : Comparison) (v p : SqlValue) : Bool :=
  v != .null && p != .null && match c with
    | eq => v == p
    | ge => p.le v
    | le => v.le p

/-- Texts are equal. -/
@[simp] theorem holds_eq_text (s t : Text) : holds eq (.text s) (.text t) = (s == t) := by
  rw [Bool.eq_iff_iff]
  simp [holds]

/-- An integer is no lower. -/
@[simp] theorem holds_ge_int (m n : Int) : holds ge (.int m) (.int n) = decide (n ≤ m) := rfl

/-- An integer is no higher. -/
@[simp] theorem holds_le_int (m n : Int) : holds le (.int m) (.int n) = decide (m ≤ n) := rfl

end Comparison

/-- `column comparison ?`. -/
structure Condition where
  column : Text
  comparison : Comparison
  deriving DecidableEq

/-- `SELECT * FROM table WHERE conditions ORDER BY orderBy DESC LIMIT ? OFFSET ?`. -/
structure Select where
  table : Text
  conditions : List Condition
  orderBy : Text
  deriving DecidableEq

/-! ## The words of a text -/

namespace Text

/-- `str.split()`. -/
def words (text : Text) : List Text := (text.splitOnP isSpace).filter (· ≠ [])

/-- The words before white space and the words behind it. -/
theorem words_space {c : Char} (hc : isSpace c = true) (a b : Text) :
    words (a ++ c :: b) = words a ++ words b := by
  rw [words, List.splitOnP_append_cons _ _ hc, List.filter_append]
  rfl

/-- Behind a text that ends with white space a word begins. -/
theorem words_append_left {a : Text} (h : a.getLast?.any isSpace = true) (b : Text) :
    words (a ++ b) = words a ++ words b := by
  rcases List.eq_nil_or_concat a with rfl | ⟨l, c, rfl⟩
  · cases h
  · have hc : isSpace c = true := by simpa using h
    have hend := words_space hc l []
    rw [List.concat_eq_append, List.append_assoc, List.singleton_append, words_space hc, hend]
    simp [words]

/-- White space at the front of a text ends the word before it. -/
theorem words_append_right {b : Text} (h : b.head?.any isSpace = true) (a : Text) :
    words (a ++ b) = words a ++ words b := by
  cases b with
  | nil => cases h
  | cons c b =>
    have hfront := words_space h [] b
    rw [List.nil_append] at hfront
    rw [words_space h, hfront]
    rfl

/-- Some characters without white space are a word. -/
theorem words_word {w : Text} (hne : w ≠ []) (h : ∀ c ∈ w, isSpace c = false) :
    words w = [w] := by
  rw [words, List.splitOnP_eq_singleton h]
  simp [hne]

end Text

/-! ## The text of a statement -/

/-- The name of a table or a column: letters and underscores. -/
def IsName (word : Text) : Prop := word ≠ [] ∧ ∀ c ∈ word, c.isAlpha = true ∨ c = '_'

-- The general instance for a statement about all characters would go through every one of them.
instance (word : Text) : Decidable (IsName word) :=
  @instDecidableAnd _ _ inferInstance
    (List.decidableBAll (fun c ↦ c.isAlpha = true ∨ c = '_') word)

/-- A name is one word. -/
theorem IsName.words {word : Text} (h : IsName word) : word.words = [word] := by
  refine Text.words_word h.1 fun c hc ↦ ?_
  rcases h.2 c hc with halpha | rfl
  · cases hspace : Text.isSpace c with
    | false => rfl
    | true =>
      rw [Unicode.not_isAlpha_of_isSpace hspace] at halpha
      cases halpha
  · rfl

/-- The text of a condition. -/
def Condition.sql (c : Condition) : Text := c.column ++ ' ' :: (c.comparison.symbol ++ " ?".toList)

/-- The text behind `WHERE`: `" AND ".join(conditions) if conditions else "1=1"`. -/
def whereClause (conditions : List Text) : Text :=
  if conditions = [] then "1=1".toList else " AND ".toList.intercalate conditions

/-- The text of a statement with these conditions. -/
def selectSql (table : Text) (conditions : List Text) (orderBy : Text) : Text :=
  "\n        SELECT * FROM ".toList ++ table ++ "\n        WHERE ".toList ++
    whereClause conditions ++ "\n        ORDER BY ".toList ++ orderBy ++
    " DESC\n        LIMIT ? OFFSET ?\n        ".toList

namespace Select

/-- The conditions at the front of some words, and the words behind them. -/
def readConditions : List Text → Option (List Condition × List Text)
  | column :: symbol :: mark :: rest =>
    if mark = ['?'] then
      (Comparison.ofSymbol symbol).bind fun comparison ↦
        match rest with
        | [] => some ([⟨column, comparison⟩], [])
        | word :: rest =>
          if word = "AND".toList then
            (readConditions rest).map fun (conditions, rest) ↦
              (⟨column, comparison⟩ :: conditions, rest)
          else some ([⟨column, comparison⟩], word :: rest)
    else none
  | _ => none

/-- The words behind `WHERE`. -/
def readWhere : List Text → Option (List Condition × List Text)
  | [] => none
  | word :: rest => if word = "1=1".toList then some ([], rest) else readConditions (word :: rest)

/-- A statement as the database reads it. -/
def read (sql : Text) : Option Select :=
  match sql.words with
  | select :: star :: source :: table :: condition :: rest =>
    if [select, star, source, condition] = ["SELECT", "*", "FROM", "WHERE"].map String.toList then
      (readWhere rest).bind fun (conditions, rest) ↦
        match rest with
        | order :: key :: orderBy :: rest =>
          if order :: key :: rest =
              ["ORDER", "BY", "DESC", "LIMIT", "?", "OFFSET", "?"].map String.toList then
            some ⟨table, conditions, orderBy⟩
          else none
        | _ => none
    else none
  | _ => none

/-- The words of a condition. -/
def conditionWords (c : Condition) : List Text := [c.column, c.comparison.symbol, ['?']]

/-- The words of some conditions. -/
def conditionsWords : List Condition → List Text
  | [] => []
  | [c] => conditionWords c
  | c :: cs => conditionWords c ++ "AND".toList :: conditionsWords cs

/-- A condition has three words. -/
theorem words_condition {c : Condition} (h : IsName c.column) :
    c.sql.words = conditionWords c := by
  have hsymbol : (c.comparison.symbol ++ " ?".toList).words = [c.comparison.symbol, ['?']] := by
    cases c.comparison <;> decide
  rw [Condition.sql, Text.words_space rfl, h.words, hsymbol]
  rfl

/-- The words of the conditions that a program joins. -/
theorem words_whereClause {cs : List Condition} (h : ∀ c ∈ cs, IsName c.column) (hne : cs ≠ []) :
    (whereClause (cs.map Condition.sql)).words = conditionsWords cs := by
  rw [whereClause, if_neg (by simpa using hne)]
  induction cs with
  | nil => exact absurd rfl hne
  | cons c cs ih =>
    have hc := words_condition (h c List.mem_cons_self)
    cases cs with
    | nil => simpa [List.intercalate, conditionsWords] using hc
    | cons d ds =>
      have hrest := ih (fun x hx ↦ h x (List.mem_cons_of_mem _ hx)) (by simp)
      have hjoin : " AND ".toList.intercalate ((c :: d :: ds).map Condition.sql) =
          c.sql ++ ' ' :: ("AND".toList ++
            ' ' :: " AND ".toList.intercalate ((d :: ds).map Condition.sql)) := by
        simp [List.intercalate]
      rw [hjoin, Text.words_space rfl, hc, Text.words_space rfl, hrest]
      rfl

/-- The conditions are read as they were joined. -/
theorem readConditions_conditionsWords {cs : List Condition} (hne : cs ≠ []) {word : Text}
    (hword : word ≠ "AND".toList) (rest : List Text) :
    readConditions (conditionsWords cs ++ word :: rest) = some (cs, word :: rest) := by
  induction cs with
  | nil => exact absurd rfl hne
  | cons c cs ih =>
    cases cs with
    | nil =>
      have hother : ¬ word = ['A', 'N', 'D'] := hword
      simp [conditionsWords, conditionWords, readConditions, hother]
    | cons d ds =>
      have hrest := ih (by simp)
      simp [conditionsWords, conditionWords, readConditions] at hrest ⊢
      simp [hrest]

/-- No name is the condition without columns. -/
theorem ne_of_isName {word : Text} (h : IsName word) : word ≠ "1=1".toList := by
  rintro rfl
  exact absurd h (by decide)

/-- The words behind `WHERE`, read. -/
theorem readWhere_whereClause {cs : List Condition} (h : ∀ c ∈ cs, IsName c.column) {word : Text}
    (hword : word ≠ "AND".toList) (rest : List Text) :
    readWhere ((whereClause (cs.map Condition.sql)).words ++ word :: rest) =
      some (cs, word :: rest) := by
  cases cs with
  | nil =>
    have hnone : (whereClause (([] : List Condition).map Condition.sql)).words =
      ["1=1".toList] := by decide
    rw [hnone]
    rfl
  | cons c cs =>
    rw [words_whereClause h (by simp), ← readConditions_conditionsWords (by simp) hword rest]
    have hc := ne_of_isName (h c List.mem_cons_self)
    cases cs with
    | nil => exact if_neg hc
    | cons d ds => exact if_neg hc

/-- The words of the program's text. -/
theorem words_selectSql {table orderBy : Text} (htable : IsName table) (horder : IsName orderBy)
    (conditions : List Text) :
    (selectSql table conditions orderBy).words =
      "SELECT".toList :: "*".toList :: "FROM".toList :: table :: "WHERE".toList ::
        ((whereClause conditions).words ++ "ORDER".toList :: "BY".toList :: orderBy ::
          ["DESC", "LIMIT", "?", "OFFSET", "?"].map String.toList) := by
  have hselect : Text.words "\n        SELECT * FROM ".toList =
    ["SELECT".toList, "*".toList, "FROM".toList] := by decide
  have hwhere : Text.words "\n        WHERE ".toList = ["WHERE".toList] := by decide
  have horderBy : Text.words "\n        ORDER BY ".toList = ["ORDER".toList, "BY".toList] := by
    decide
  have hpage : Text.words " DESC\n        LIMIT ? OFFSET ?\n        ".toList =
    ["DESC", "LIMIT", "?", "OFFSET", "?"].map String.toList := by decide
  unfold selectSql
  simp only [List.append_assoc]
  rw [Text.words_append_left (by decide), hselect, Text.words_append_right (by rfl), htable.words,
    Text.words_append_left (by decide), hwhere, Text.words_append_right (by rfl),
    Text.words_append_left (by decide), horderBy, Text.words_append_right (by rfl), horder.words,
    hpage]
  rfl

/-- The database reads the statement that the program means. -/
theorem read_selectSql {s : Select} (htable : IsName s.table)
    (hconditions : ∀ c ∈ s.conditions, IsName c.column) (horder : IsName s.orderBy) :
    read (selectSql s.table (s.conditions.map Condition.sql) s.orderBy) = some s := by
  rw [read, words_selectSql htable horder]
  simp only [List.map_cons, List.map_nil, ↓reduceIte]
  rw [readWhere_whereClause hconditions (by decide)]
  simp only [Option.bind_some, ↓reduceIte]

/-! ## What a statement answers -/

/-- A row, as `dict(row)`. -/
abbrev Row := List (Text × SqlValue)

/-- The value of a column. -/
def column (row : Row) (name : Text) : SqlValue := (row.lookup name).getD .null

/-- How a database sorts: some order for each statement and table, with the highest values of the
column at the front. Rows that agree there stand in an order of its own. -/
structure Plan where
  order : Select → List Row → List Row
  perm : ∀ s rows, (order s rows).Perm rows
  sorted : ∀ s rows, (order s rows).Pairwise fun a b ↦
    (column b s.orderBy).le (column a s.orderBy) = true

/-- A database that sorts by insertion. -/
def Plan.insertion : Plan where
  order s rows := rows.insertionSort fun a b ↦ (column b s.orderBy).le (column a s.orderBy) = true
  perm _ rows := List.perm_insertionSort _ rows
  sorted s rows := by
    have : Std.Total fun a b : Row ↦ (column b s.orderBy).le (column a s.orderBy) = true :=
      ⟨fun _ _ ↦ SqlValue.le_total _ _⟩
    have : IsTrans Row fun a b ↦ (column b s.orderBy).le (column a s.orderBy) = true :=
      ⟨fun _ _ _ hab hbc ↦ SqlValue.le_trans hbc hab⟩
    exact List.pairwise_insertionSort _ rows

/-- `LIMIT` and `OFFSET`: a negative limit is none, a negative offset is 0. -/
def page {R : Type} (limit offset : Int) (rows : List R) : List R :=
  if limit < 0 then rows.drop offset.toNat else (rows.drop offset.toNat).take limit.toNat

/-- The row meets the conditions, with the parameters for their question marks. -/
def meets (s : Select) (params : List SqlValue) (row : Row) : Bool :=
  (s.conditions.zip params).all fun (c, p) ↦ c.comparison.holds (column row c.column) p

/-- The rows that a statement answers; `none` is an error of the driver or the database. -/
def answer (plan : Plan) (s : Select) (params : List SqlValue) (rows : List Row) :
    Option (List Row) :=
  match params.drop s.conditions.length with
  | [.int limit, .int offset] =>
    if ∀ p ∈ params, p.Bindable then
      some (page limit offset (plan.order s (rows.filter (s.meets params))))
    else none
  | _ => none

/-- `fetch_all`: the statement is read and answered. -/
def fetchAll (plan : Plan) (database : Text → List Row) (sql : Text) (params : List SqlValue) :
    Option (List Row) :=
  (read sql).bind fun s ↦ answer plan s params (database s.table)

end Select

/-! ## Filters -/

/-- A filter of a program: its condition, with the value if one is given. -/
structure RowFilter where
  condition : Condition
  value : Option SqlValue

namespace RowFilter

open Select

/-- The row passes the filter. -/
def passes (f : RowFilter) (row : Row) : Bool :=
  f.value.all fun p ↦ f.condition.comparison.holds (column row f.condition.column) p

/-- A filter whose value is given joins both lists. -/
def add (lists : List Text × List SqlValue) (f : RowFilter) : List Text × List SqlValue :=
  match f.value with
  | none => lists
  | some p => (lists.1 ++ [f.condition.sql], lists.2 ++ [p])

/-- The conditions and the parameters that a program collects. -/
def build (filters : List RowFilter) : List Text × List SqlValue := filters.foldl add ([], [])

/-- The filters that are given, with their values. -/
def given (filters : List RowFilter) : List (Condition × SqlValue) :=
  filters.filterMap fun f ↦ f.value.map (f.condition, ·)

/-- What is given stands in one of the filters. -/
theorem of_mem_given {filters : List RowFilter} {c : Condition} {p : SqlValue}
    (h : (c, p) ∈ given filters) : ∃ f ∈ filters, f.condition = c ∧ f.value = some p := by
  obtain ⟨f, hf, hpair⟩ := List.mem_filterMap.mp h
  obtain ⟨p', hvalue, hpair⟩ := Option.map_eq_some_iff.mp hpair
  obtain ⟨rfl, rfl⟩ := Prod.mk.inj hpair
  exact ⟨f, hf, rfl, hvalue⟩

/-- A program's page: `execute` with the two lists, the limit and the offset. -/
def select (plan : Plan) (database : Text → List Row) (table orderBy : Text)
    (filters : List RowFilter) (limit offset : Int) : Option (List Row) :=
  fetchAll plan database (selectSql table (build filters).1 orderBy)
    ((build filters).2 ++ [.int limit, .int offset])

/-- The statement of a page. -/
def statement (table orderBy : Text) (filters : List RowFilter) : Select :=
  ⟨table, (given filters).map Prod.fst, orderBy⟩

private theorem foldl_add (filters : List RowFilter) (lists : List Text × List SqlValue) :
    filters.foldl add lists = (lists.1 ++ (given filters).map (·.1.sql),
      lists.2 ++ (given filters).map Prod.snd) := by
  induction filters generalizing lists with
  | nil => simp [given]
  | cons f filters ih =>
    rw [List.foldl_cons, ih]
    cases hvalue : f.value with
    | none => simp [add, given, hvalue]
    | some p => simp [add, given, hvalue]

/-- The two lists stay aligned. -/
theorem build_eq (filters : List RowFilter) :
    build filters = ((given filters).map (·.1.sql), (given filters).map Prod.snd) := by
  rw [build, foldl_add]
  simp

/-- A row meets the statement when it passes every filter. -/
theorem meets_statement (table orderBy : Text) (filters : List RowFilter) (more : List SqlValue)
    (row : Row) :
    (statement table orderBy filters).meets ((given filters).map Prod.snd ++ more) row =
      filters.all (·.passes row) := by
  unfold statement meets
  induction filters with
  | nil => rfl
  | cons f filters ih =>
    cases hvalue : f.value with
    | none => simpa [given, hvalue, passes] using ih
    | some p =>
      simp only [given, passes] at ih ⊢
      simp [hvalue, ih]

/-- The driver can pass on what is given. -/
def AllBindable (filters : List RowFilter) : Prop := ∀ f ∈ filters, ∀ p ∈ f.value, p.Bindable

variable {plan : Plan} {database : Text → List Row} {table orderBy : Text}
  {filters : List RowFilter}

/-- The rows that pass the filters, as the database sorts them. -/
def matching (plan : Plan) (database : Text → List Row) (table orderBy : Text)
    (filters : List RowFilter) : List Row :=
  plan.order (statement table orderBy filters)
    ((database table).filter fun row ↦ filters.all (·.passes row))

/-- The statement compares named columns. -/
theorem isName_statement (hnames : ∀ f ∈ filters, IsName f.condition.column) :
    ∀ c ∈ (statement table orderBy filters).conditions, IsName c.column := by
  intro c hc
  obtain ⟨⟨c, p⟩, hp, rfl⟩ := List.mem_map.mp hc
  obtain ⟨f, hf, rfl, -⟩ := of_mem_given hp
  exact hnames f hf

/-- The driver can pass on the parameters. -/
theorem bindable_given (hbind : AllBindable filters) :
    ∀ p ∈ (given filters).map Prod.snd, p.Bindable := by
  intro p hp
  obtain ⟨⟨c, p⟩, hmem, rfl⟩ := List.mem_map.mp hp
  obtain ⟨f, hf, -, hvalue⟩ := of_mem_given hmem
  exact hbind f hf p hvalue

/-- A page holds what passes the filters, whichever are given. -/
theorem select_eq (htable : IsName table) (horder : IsName orderBy)
    (hnames : ∀ f ∈ filters, IsName f.condition.column) (hbind : AllBindable filters)
    {limit offset : Int} (hlimit : (SqlValue.int limit).Bindable)
    (hoffset : (SqlValue.int offset).Bindable) :
    select plan database table orderBy filters limit offset =
      some (page limit offset (matching plan database table orderBy filters)) := by
  have hsql : (given filters).map (·.1.sql) =
      (statement table orderBy filters).conditions.map Condition.sql := by
    simp [statement]
  have hread := read_selectSql (s := statement table orderBy filters) htable
    (isName_statement hnames) horder
  have hvalues : ∀ p ∈ (given filters).map Prod.snd ++ [.int limit, .int offset],
      p.Bindable := by
    intro p hp
    rcases List.mem_append.mp hp with hp | hp
    · exact bindable_given hbind p hp
    · rcases List.mem_pair.mp hp with rfl | rfl
      · exact hlimit
      · exact hoffset
  have hlength : (statement table orderBy filters).conditions.length =
      ((given filters).map Prod.snd).length := by
    simp [statement]
  rw [select, build_eq, fetchAll]
  dsimp only
  rw [hsql]
  change (read (selectSql (statement table orderBy filters).table _
    (statement table orderBy filters).orderBy)).bind _ = _
  rw [hread, Option.bind_some, answer, hlength, List.drop_left]
  dsimp only
  have hmeets : (statement table orderBy filters).meets
      ((given filters).map Prod.snd ++ [.int limit, .int offset]) =
        fun row ↦ filters.all (·.passes row) := funext fun row ↦ meets_statement ..
  rw [if_pos hvalues, hmeets]
  rfl

/-- Pages that follow each other hold the rows one after the other. -/
theorem flatMap_page {R : Type} (rows : List R) (size n : Nat) :
    (List.range n).flatMap (fun i : Nat ↦ page size ((i * size : Nat) : Int) rows) =
      rows.take (n * size) := by
  induction n with
  | zero => simp
  | succ n ih =>
    have hpage : page (size : Int) ((n * size : Nat) : Int) rows =
        (rows.drop (n * size)).take size := by
      rw [page, if_neg (by omega), Int.toNat_natCast, Int.toNat_natCast]
    rw [List.range_succ, List.flatMap_append, ih, List.flatMap_singleton, hpage, Nat.succ_mul,
      List.take_add]

/-- All pages together hold every row that passes the filters, once. -/
theorem flatMap_select (htable : IsName table) (horder : IsName orderBy)
    (hnames : ∀ f ∈ filters, IsName f.condition.column) (hbind : AllBindable filters)
    {size n : Nat} (hbound : n * size < 2 ^ 63)
    (hn : (matching plan database table orderBy filters).length ≤ n * size) :
    (List.range n).flatMap (fun i : Nat ↦
      (select plan database table orderBy filters size ((i * size : Nat) : Int)).getD []) =
        matching plan database table orderBy filters := by
  rw [← List.take_of_length_le hn, ← flatMap_page]
  refine List.flatMap_congr fun i hi ↦ ?_
  have hi : i < n := List.mem_range.mp hi
  have hsize : size ≤ n * size := Nat.le_mul_of_pos_left _ (by omega)
  have hoffset : i * size ≤ n * size := Nat.mul_le_mul_right _ (Nat.le_of_lt hi)
  rw [select_eq htable horder hnames hbind, Option.getD_some]
  · exact ⟨by omega, by omega⟩
  · exact ⟨by omega, by omega⟩

/-- The rows on the pages are the ones that pass the filters. -/
theorem matching_perm : (matching plan database table orderBy filters).Perm
    ((database table).filter fun row ↦ filters.all (·.passes row)) := plan.perm _ _

/-- The pages begin with the highest value of their column. -/
theorem matching_sorted : (matching plan database table orderBy filters).Pairwise fun a b ↦
    (column b orderBy).le (column a orderBy) = true :=
  plan.sorted (statement table orderBy filters) _

end RowFilter
end SalesData.Base

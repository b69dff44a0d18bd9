import Mathlib.Data.List.Perm.Basic
import SalesData.Base.Json
import SalesData.Base.Select

/-!
# The audit trail

`AuditTrail` (`core/observability/audit.py`): the events that are written to `audit_log` and the
filtered pages they are read back on. The dictionaries of an event have text keys and hold what
`json` can write.
-/

namespace SalesData.Observability

open Base Select

/-- A dictionary that `json` writes: no key occurs twice. -/
structure JsonDict (F : Type) where
  items : List (Text × Json F)
  distinct : (Json.dict items).Distinct

/-- The arguments of `log_audit_event` (`audit.py:24–39`). -/
structure AuditEvent (F : Type) where
  eventType : Text
  action : Text
  userId : Text
  sessionId : Text
  ipAddress : Text
  userAgent : Text
  resourceType : Text
  resourceId : Text
  oldValues : Option (JsonDict F)
  newValues : Option (JsonDict F)
  success : Bool
  errorMessage : Text
  metadata : Option (JsonDict F)

/-- The arguments of `get_audit_events` that filter (`audit.py:98–110`). -/
structure AuditQuery where
  eventType : Text
  userId : Text
  resourceType : Text
  resourceId : Text
  action : Text
  startTime : Int
  endTime : Int
  success : Option Bool

/-- What `get_audit_events` returns under a key: a column, or what `json` has read in one. -/
inductive Field (F : Type) where
  | value (v : SqlValue)
  | json (v : Json F)

/-- The table `audit_log`, with the last number it has given a row. -/
structure AuditTrail where
  rows : List Row
  sequence : Nat

namespace AuditTrail

variable {F : Type} (floats : Floats F)

/-- `json.dumps(values) if values else None`. -/
def dumpsOrNone : Option (JsonDict F) → SqlValue
  | none => .null
  | some values =>
    if values.items.isEmpty then .null else .text (Json.dumps floats (.dict values.items))

/-- SQLite has no truth values. -/
def ofBool (b : Bool) : SqlValue := .int (if b then 1 else 0)

/-- The row of an event (`audit.py:63–89`), in the order of the table's columns. -/
def row (id : Nat) (timestamp : Int) (event : AuditEvent F) : Row :=
  [("audit_id".toList, .int id),
    ("timestamp".toList, .int timestamp),
    ("event_type".toList, .text event.eventType),
    ("user_id".toList, .text event.userId),
    ("session_id".toList, .text event.sessionId),
    ("ip_address".toList, .text event.ipAddress),
    ("user_agent".toList, .text event.userAgent),
    ("resource_type".toList, .text event.resourceType),
    ("resource_id".toList, .text event.resourceId),
    ("action".toList, .text event.action),
    ("old_values".toList, dumpsOrNone floats event.oldValues),
    ("new_values".toList, dumpsOrNone floats event.newValues),
    ("success".toList, ofBool event.success),
    ("error_message".toList, .text event.errorMessage),
    ("metadata".toList, dumpsOrNone floats event.metadata)]

/-- A call of `log_audit_event` at a reading of the clock; `execute` may raise and leave no row,
which is logged. -/
structure Call (F : Type) where
  now : Int
  event : AuditEvent F
  fails : Bool

/-- The `INSERT` goes through. -/
def Call.inserts (call : Call F) : Bool := !call.fails && decide (SqlValue.int call.now).Bindable

/-- `log_audit_event` (`audit.py:24–96`). -/
def logAuditEvent (trail : AuditTrail) (call : Call F) : AuditTrail :=
  if call.inserts then
    { rows := trail.rows ++ [row floats (trail.sequence + 1) call.now call.event]
      sequence := trail.sequence + 1 }
  else trail

/-- The table before the first event. -/
def empty : AuditTrail := ⟨[], 0⟩

/-- A filter by a text, which is none when it is empty. -/
def textFilter (column value : Text) : RowFilter :=
  ⟨⟨column, .eq⟩, if value.isEmpty then none else some (.text value)⟩

/-- A filter by a time, which is none when it is 0. -/
def timeFilter (column : Text) (comparison : Comparison) (time : Int) : RowFilter :=
  ⟨⟨column, comparison⟩, if time = 0 then none else some (.int time)⟩

/-- The filters of `get_audit_events` (`audit.py:129–161`). -/
def filters (query : AuditQuery) : List RowFilter :=
  [textFilter "event_type".toList query.eventType,
    textFilter "user_id".toList query.userId,
    textFilter "resource_type".toList query.resourceType,
    textFilter "resource_id".toList query.resourceId,
    textFilter "action".toList query.action,
    timeFilter "timestamp".toList .ge query.startTime,
    timeFilter "timestamp".toList .le query.endTime,
    ⟨⟨"success".toList, .eq⟩, query.success.map ofBool⟩]

/-- `json.loads` of a column that has a text, `None` for one that has none or no JSON
(`audit.py:181–188`). -/
def loadsOrNone : SqlValue → Field F
  | .text t =>
    if t.isEmpty then .value .null
    else match Json.loads floats t with
      | some v => .json v
      | none => .value .null
  | .null | .int _ => .value .null

/-- `event_dict` (`audit.py:178–189`). -/
def eventDict (row : Row) : List (Text × Field F) :=
  row.map fun (name, v) ↦
    (name, if ["old_values".toList, "new_values".toList, "metadata".toList].contains name then
      loadsOrNone floats v else .value v)

/-- The tables that the trail's statements read. -/
def database (trail : AuditTrail) (table : Text) : List Row :=
  if table = "audit_log".toList then trail.rows else []

/-- `get_audit_events` (`audit.py:98–192`); an exception is logged. -/
def getAuditEvents (plan : Plan) (trail : AuditTrail) (query : AuditQuery) (limit offset : Int) :
    List (List (Text × Field F)) :=
  match RowFilter.select plan trail.database "audit_log".toList "timestamp".toList (filters query)
    limit offset with
  | some rows => rows.map (eventDict floats)
  | none => []

/-! ## What is read back -/

/-- The field of a dictionary that was logged. -/
def jsonOrNone : Option (JsonDict F) → Field F
  | none => .value .null
  | some values => if values.items.isEmpty then .value .null else .json (.dict values.items)

/-- An event as `get_audit_events` should return it. -/
def loggedEvent (id : Nat) (timestamp : Int) (event : AuditEvent F) : List (Text × Field F) :=
  [("audit_id".toList, .value (.int id)),
    ("timestamp".toList, .value (.int timestamp)),
    ("event_type".toList, .value (.text event.eventType)),
    ("user_id".toList, .value (.text event.userId)),
    ("session_id".toList, .value (.text event.sessionId)),
    ("ip_address".toList, .value (.text event.ipAddress)),
    ("user_agent".toList, .value (.text event.userAgent)),
    ("resource_type".toList, .value (.text event.resourceType)),
    ("resource_id".toList, .value (.text event.resourceId)),
    ("action".toList, .value (.text event.action)),
    ("old_values".toList, jsonOrNone event.oldValues),
    ("new_values".toList, jsonOrNone event.newValues),
    ("success".toList, .value (ofBool event.success)),
    ("error_message".toList, .value (.text event.errorMessage)),
    ("metadata".toList, jsonOrNone event.metadata)]

/-- The event meets the query: what is not given does not count. -/
def accepts (query : AuditQuery) (timestamp : Int) (event : AuditEvent F) : Bool :=
  (query.eventType.isEmpty || event.eventType == query.eventType) &&
  (query.userId.isEmpty || event.userId == query.userId) &&
  (query.resourceType.isEmpty || event.resourceType == query.resourceType) &&
  (query.resourceId.isEmpty || event.resourceId == query.resourceId) &&
  (query.action.isEmpty || event.action == query.action) &&
  (query.startTime == 0 || decide (query.startTime ≤ timestamp)) &&
  (query.endTime == 0 || decide (timestamp ≤ query.endTime)) &&
  query.success.all (event.success == ·)

/-- A dictionary comes back as it was logged. -/
theorem loadsOrNone_dumpsOrNone (values : Option (JsonDict F)) :
    loadsOrNone floats (dumpsOrNone floats values) = jsonOrNone values := by
  cases values with
  | none => rfl
  | some values =>
    unfold dumpsOrNone jsonOrNone
    dsimp only
    split
    · rfl
    · have htext : (Json.dumps floats (.dict values.items)).isEmpty = false :=
        List.isEmpty_eq_false_iff.mpr
          (List.ne_nil_of_length_pos (Json.length_dumps_pos floats _))
      rw [loadsOrNone, htext, Json.loads_dumps, Json.collapse_of_distinct _ values.distinct]
      rfl

/-- A row comes back as the event it was written for. -/
theorem eventDict_row (id : Nat) (timestamp : Int) (event : AuditEvent F) :
    eventDict floats (row floats id timestamp event) = loggedEvent id timestamp event := by
  simp [eventDict, row, loggedEvent, loadsOrNone_dumpsOrNone]

/-- A text filter holds a column against its text. -/
theorem passes_textFilter {name value text : Text} {row : Row}
    (h : column row name = .text text) :
    (textFilter name value).passes row = (value.isEmpty || text == value) := by
  unfold textFilter RowFilter.passes
  cases value with
  | nil => rfl
  | cons c value => simp [h]

/-- A time filter holds a column against its time. -/
theorem passes_timeFilter {name : Text} {comparison : Comparison} {time n : Int} {row : Row}
    (h : column row name = .int n) :
    (timeFilter name comparison time).passes row =
      (time == 0 || comparison.holds (.int n) (.int time)) := by
  unfold timeFilter RowFilter.passes
  by_cases htime : time = 0 <;> simp [h, htime]

/-- The filter by success holds the column against the flag. -/
theorem passes_successFilter {name : Text} {value : Option Bool} {b : Bool} {row : Row}
    (h : column row name = ofBool b) :
    RowFilter.passes ⟨⟨name, .eq⟩, value.map ofBool⟩ row = value.all (b == ·) := by
  cases value with
  | none => rfl
  | some value =>
    unfold RowFilter.passes
    simp only [Option.map_some, Option.all_some, h]
    cases b <;> cases value <;> rfl

/-- The filters of a query are its conditions. -/
theorem passes_filters (query : AuditQuery) (id : Nat) (timestamp : Int) (event : AuditEvent F) :
    (filters query).all (·.passes (row floats id timestamp event)) =
      accepts query timestamp event := by
  have heventType : column (row floats id timestamp event) "event_type".toList =
    .text event.eventType := rfl
  have huserId : column (row floats id timestamp event) "user_id".toList =
    .text event.userId := rfl
  have hresourceType : column (row floats id timestamp event) "resource_type".toList =
    .text event.resourceType := rfl
  have hresourceId : column (row floats id timestamp event) "resource_id".toList =
    .text event.resourceId := rfl
  have haction : column (row floats id timestamp event) "action".toList =
    .text event.action := rfl
  have htimestamp : column (row floats id timestamp event) "timestamp".toList =
    .int timestamp := rfl
  have hsuccess : column (row floats id timestamp event) "success".toList =
    ofBool event.success := rfl
  simp only [filters, List.all_cons, List.all_nil, Bool.and_true, passes_textFilter heventType,
    passes_textFilter huserId, passes_textFilter hresourceType, passes_textFilter hresourceId,
    passes_textFilter haction, passes_timeFilter htimestamp, passes_successFilter hsuccess,
    Comparison.holds_ge_int, Comparison.holds_le_int, accepts, Bool.and_assoc]

/-! ## The events of a trail -/

/-- The calls whose `INSERT` went through, with the numbers of their rows. -/
def logged (calls : List (Call F)) (sequence : Nat) : List (Call F × Nat) :=
  (calls.filter Call.inserts).zipIdx (sequence + 1)

/-- The row of a call. -/
def callRow (entry : Call F × Nat) : Row := row floats entry.2 entry.1.now entry.1.event

/-- What a call comes back as. -/
def callEvent (entry : Call F × Nat) : List (Text × Field F) :=
  loggedEvent entry.2 entry.1.now entry.1.event

/-- The query accepts the event of a call. -/
def acceptsCall (query : AuditQuery) (entry : Call F × Nat) : Bool :=
  accepts query entry.1.now entry.1.event

/-- A trail grows by the rows of the calls that insert. -/
theorem rows_foldl (calls : List (Call F)) (trail : AuditTrail) :
    (calls.foldl (logAuditEvent floats) trail).rows =
      trail.rows ++ (logged calls trail.sequence).map (callRow floats) := by
  induction calls generalizing trail with
  | nil => simp [logged]
  | cons call calls ih =>
    rw [List.foldl_cons, ih]
    cases hinserts : call.inserts with
    | false => simp [logAuditEvent, logged, hinserts]
    | true => simp [logAuditEvent, logged, hinserts, callRow]

/-- What the driver can pass on of a query. -/
theorem allBindable_filters {query : AuditQuery} (hstart : (SqlValue.int query.startTime).Bindable)
    (hend : (SqlValue.int query.endTime).Bindable) : RowFilter.AllBindable (filters query) := by
  have htext : ∀ column value, ∀ p ∈ (textFilter column value).value, p.Bindable := by
    intro column value p hp
    unfold textFilter at hp
    split at hp
    · cases hp
    · obtain rfl := Option.some.inj hp
      trivial
  have htime : ∀ column comparison time, (SqlValue.int time).Bindable →
      ∀ p ∈ (timeFilter column comparison time).value, p.Bindable := by
    intro column comparison time hbindable p hp
    unfold timeFilter at hp
    split at hp
    · cases hp
    · obtain rfl := Option.some.inj hp
      exact hbindable
  have hsuccess : ∀ p ∈ query.success.map ofBool, p.Bindable := by
    intro p hp
    obtain ⟨b, -, rfl⟩ := Option.map_eq_some_iff.mp hp
    cases b <;> decide
  simp only [RowFilter.AllBindable, filters, List.forall_mem_cons]
  exact ⟨htext _ _, htext _ _, htext _ _, htext _ _, htext _ _, htime _ _ _ hstart,
    htime _ _ _ hend, hsuccess, nofun⟩

/-- The columns of the filters. -/
theorem isName_filters (query : AuditQuery) : ∀ f ∈ filters query, IsName f.condition.column := by
  have hcolumns : (filters query).map (·.condition.column) =
      ["event_type", "user_id", "resource_type", "resource_id", "action", "timestamp", "timestamp",
        "success"].map String.toList := rfl
  refine List.forall_mem_map.mp ?_
  rw [hcolumns]
  decide

/-- The rows that pass the filters are those of the calls that the query accepts. -/
theorem exists_matching_eq (plan : Plan) (calls : List (Call F)) (query : AuditQuery) :
    ∃ entries, List.Perm entries ((logged calls 0).filter (acceptsCall query)) ∧
      RowFilter.matching plan (calls.foldl (logAuditEvent floats) empty).database
        "audit_log".toList "timestamp".toList (filters query) = entries.map (callRow floats) := by
  have hrows : (calls.foldl (logAuditEvent floats) empty).database "audit_log".toList =
      (logged calls 0).map (callRow floats) := by
    rw [database, if_pos rfl, rows_foldl]
    rfl
  have hpasses : ((fun row ↦ (filters query).all (·.passes row)) ∘ callRow floats) =
      acceptsCall query := funext fun entry ↦ passes_filters floats query _ _ _
  have hperm : (RowFilter.matching plan (calls.foldl (logAuditEvent floats) empty).database
      "audit_log".toList "timestamp".toList (filters query)).Perm
        (((logged calls 0).filter (acceptsCall query)).map (callRow floats)) := by
    refine RowFilter.matching_perm.trans (.of_eq ?_)
    rw [hrows, List.filter_map, hpasses]
  obtain ⟨entries, heq, hentries⟩ :=
    (congrFun₂ (List.eq_map_comp_perm (callRow floats)) _ _).mpr hperm
  exact ⟨entries, hentries, heq⟩

/-- What is read is made of the rows of the statement. -/
theorem getAuditEvents_eq (plan : Plan) (trail : AuditTrail) (query : AuditQuery)
    (limit offset : Int) :
    getAuditEvents floats plan trail query limit offset =
      ((RowFilter.select plan trail.database "audit_log".toList "timestamp".toList (filters query)
        limit offset).getD []).map (eventDict floats) := by
  unfold getAuditEvents
  cases RowFilter.select plan trail.database "audit_log".toList "timestamp".toList (filters query)
    limit offset <;> rfl

/-- Pages that follow each other hold each event that was written and that the query accepts, once
and as it was logged, the latest first. -/
theorem events_read_back (plan : Plan) (calls : List (Call F)) (query : AuditQuery)
    (hstart : (SqlValue.int query.startTime).Bindable)
    (hend : (SqlValue.int query.endTime).Bindable) (size n : Nat) (hbound : n * size < 2 ^ 63)
    (hn : ((logged calls 0).filter (acceptsCall query)).length ≤ n * size) :
    ∃ entries, List.Perm entries ((logged calls 0).filter (acceptsCall query)) ∧
      entries.Pairwise (fun a b ↦ b.1.now ≤ a.1.now) ∧
      (List.range n).flatMap (fun i : Nat ↦ getAuditEvents floats plan
        (calls.foldl (logAuditEvent floats) empty) query size ((i * size : Nat) : Int)) =
          entries.map callEvent := by
  obtain ⟨entries, hentries, hrows⟩ := exists_matching_eq floats plan calls query
  have hlength : (RowFilter.matching plan (calls.foldl (logAuditEvent floats) empty).database
      "audit_log".toList "timestamp".toList (filters query)).length ≤ n * size := by
    rwa [hrows, List.length_map, hentries.length_eq]
  have hpages := RowFilter.flatMap_select (by decide) (by decide) (isName_filters query)
    (allBindable_filters hstart hend) hbound hlength
  have hsorted : (entries.map (callRow floats)).Pairwise fun a b ↦
      (column b "timestamp".toList).le (column a "timestamp".toList) = true :=
    hrows ▸ RowFilter.matching_sorted
  refine ⟨entries, hentries, ?_, ?_⟩
  · exact (List.pairwise_map.mp hsorted).imp fun h ↦ of_decide_eq_true h
  · have hevents : eventDict floats ∘ callRow floats = callEvent :=
      funext fun entry ↦ eventDict_row floats _ _ _
    simp only [getAuditEvents_eq]
    rw [← List.map_flatMap, hpages, hrows, List.map_map, hevents]

section Example

-- The float one half.
private def half : Floats Unit where
  repr _ := ['0', '.', '5']
  parse _ := ()
  parse_repr _ := rfl
  isNumeral _ := .inl ⟨[], ['0'], ['.', '5'], [], rfl, .inl rfl, .inl rfl,
    .inr ⟨['5'], rfl, by simp, by simp⟩, .inl rfl, .inl (by simp)⟩

-- A login of this user.
private def login (user : Text) : AuditEvent Unit :=
  ⟨"auth".toList, "login".toList, user, [], [], [], [], [], none, none, true, [],
    some ⟨[("attempt".toList, .int 1)], by simp [Json.Distinct, Json.DistinctPairs]⟩⟩

-- Three users log in; the second event is not written, the first user comes back.
private def logins : List (Call Unit) :=
  [⟨10, login ['a'], false⟩, ⟨20, login ['b'], true⟩, ⟨30, login ['c'], false⟩,
    ⟨30, login ['a'], false⟩]

-- The successful events of the first user.
private def ofFirst : AuditQuery := ⟨[], ['a'], [], [], [], 5, 0, some true⟩

/-- Two pages of one event each. -/
theorem events_read_back_twoPages : ∃ entries,
    List.Perm entries ((logged logins 0).filter (acceptsCall ofFirst)) ∧
      entries.Pairwise (fun a b ↦ b.1.now ≤ a.1.now) ∧
      (List.range 2).flatMap (fun i : Nat ↦ getAuditEvents half Plan.insertion
        (logins.foldl (logAuditEvent half) empty) ofFirst ((1 : Nat) : Int)
          ((i * 1 : Nat) : Int)) = entries.map callEvent :=
  events_read_back half Plan.insertion logins ofFirst (by decide) (by decide) 1 2 (by decide)
    (by decide)

end Example

end AuditTrail
end SalesData.Observability

import Mathlib.Algebra.Order.Floor.Ring
import Mathlib.Data.Rat.Floor
import SalesData.Base.Hex
import SalesData.Observability.WriteQueue

/-!
# Rows of traces

The part of a record that becomes a row of `traces`: `emit_request_observability` and
`write_observability_record` (`core/observability/context.py:49–166`), and the tracer
(`core/observability/request_tracer.py:24–164`). Both readings of the clock are made when the record
is written, so the row tells how long its own writing took.
-/

namespace SalesData.Observability

open Base

/-- Python's `round`: the nearest integer, and the even one of two. -/
def round (x : ℚ) : Int :=
  let n := ⌊x + 1 / 2⌋
  if x + 1 / 2 = n ∧ n % 2 = 1 then n - 1 else n

/-- What `build_request_context` returns (`context.py:41–48`). -/
structure Context where
  requestId : Text
  sessionId : Text
  userId : Text
  username : Text

/-- A completed request: what `emit_request_observability` is called with. -/
structure Completed where
  method : Text
  url : Text
  statusCode : Int
  durationMs : Option ℚ
  error : Option Text
  userId : Option Text
  operationName : Text

/-- `record["trace_start"]`. -/
structure TraceStart where
  traceId : Text
  spanId : Text
  operationName : Text
  serviceName : Text
  parentSpanId : Text
  userId : Text
  sessionId : Text
  requestId : Text
  serviceVersion : Text
  deriving DecidableEq

/-- The tags of a trace. -/
structure Tags where
  durationMs : ℚ
  username : Text
  sessionId : Text
  deriving DecidableEq

/-- `record["trace_end"]`. -/
structure TraceEnd where
  traceId : Text
  spanId : Text
  status : Text
  errorMessage : Text
  httpMethod : Text
  httpUrl : Text
  httpStatusCode : Int
  dbQuery : Text
  dbDurationMs : Int
  tags : Tags
  deriving DecidableEq

/-- A record, up to its entries for the tables of logs and of audits. -/
structure Record where
  traceStart : TraceStart
  traceEnd : TraceEnd
  deriving DecidableEq

/-- The record that `emit_request_observability` enqueues (`context.py:52–141`); `token` is what
`secrets.token_hex(4)` draws. -/
def emitRequestObservability (context : Context) (request : Completed) (token : List UInt8) :
    Record :=
  let userId := match request.userId with
    | some (c :: s) => c :: s
    | _ => context.userId
  let durationMs := request.durationMs.getD 0
  let traceId := "trace-".toList ++ context.requestId
  let spanId := "span-".toList ++ Hex.hex token
  { traceStart :=
      { traceId, spanId
        operationName := request.operationName
        serviceName := "preparedata-api".toList
        parentSpanId := []
        userId
        sessionId := context.sessionId
        requestId := context.requestId
        serviceVersion := "1.0.0".toList }
    traceEnd :=
      { traceId, spanId
        status := if request.statusCode < 400 then "OK".toList else "ERROR".toList
        errorMessage := request.error.getD []
        httpMethod := request.method
        httpUrl := request.url
        httpStatusCode := request.statusCode
        dbQuery := []
        dbDurationMs := 0
        tags := ⟨round (durationMs * 1000) / 1000, context.username, context.sessionId⟩ } }

/-- What `end_trace` sets. -/
structure Ended where
  endTime : Int
  durationMs : Int
  fields : TraceEnd
  deriving DecidableEq

/-- A row of `traces`; the columns that `end_trace` sets are null before. -/
structure TraceRow where
  start : TraceStart
  startTime : Int
  ended : Option Ended
  deriving DecidableEq

/-- The circumstances of a writing: the clock in microseconds at `start_trace` and at `end_trace`,
and which statements fail for a reason of the database's own. -/
structure Writing where
  startClock : Int
  endClock : Int
  insertFails : Bool
  selectFails : Bool
  updateFails : Bool

/-- `WHERE trace_id = ? AND span_id = ?`. -/
def TraceRow.hasKey (traceId spanId : Text) (row : TraceRow) : Bool :=
  row.start.traceId == traceId && row.start.spanId == spanId

/-- `trace_id` is the primary key. -/
def Inserts (w : Writing) (fields : TraceStart) (table : List TraceRow) : Prop :=
  w.insertFails = false ∧ ∀ row ∈ table, row.start.traceId ≠ fields.traceId

instance (w : Writing) (fields : TraceStart) (table : List TraceRow) :
    Decidable (Inserts w fields table) :=
  inferInstanceAs (Decidable (_ ∧ _))

/-- `RequestTracer.start_trace` (`request_tracer.py:24–88`); an error is logged. -/
def startTrace (w : Writing) (fields : TraceStart) (table : List TraceRow) : List TraceRow :=
  if Inserts w fields table then table ++ [⟨fields, w.startClock, none⟩] else table

/-- The duration that `end_trace` calculates (`request_tracer.py:119–131`). -/
def calculatedDuration (w : Writing) (fields : TraceEnd) (table : List TraceRow) : Int :=
  match table.find? (TraceRow.hasKey fields.traceId fields.spanId) with
  | some row => (w.endClock - row.startTime) / 1000
  | none => 0

/-- `RequestTracer.end_trace` (`request_tracer.py:90–164`); an error of its `SELECT` ends the
writing of the record, and one of its `UPDATE` is logged. -/
def endTrace (w : Writing) (fields : TraceEnd) (table : List TraceRow) : List TraceRow :=
  if w.selectFails || w.updateFails then table
  else
    let durationMs := calculatedDuration w fields table
    table.map fun row ↦
      if row.hasKey fields.traceId fields.spanId then
        { row with ended := some ⟨w.endClock, durationMs, fields⟩ }
      else row

/-- `write_observability_record` (`context.py:149–166`). -/
def writeObservabilityRecord (w : Writing) (record : Record) (table : List TraceRow) :
    List TraceRow :=
  endTrace w record.traceEnd (startTrace w record.traceStart table)

/-- The loop of `_flush_batch` (`write_queue.py:119–128`); the circumstances of a record are found
under its place in the order of the `enqueue` calls. -/
def writeItems (ws : Nat → Writing) (items : List (Item Record)) (table : List TraceRow) :
    List TraceRow :=
  items.foldl (fun table item ↦ writeObservabilityRecord (ws item.seq) item.record table) table

/-- The table behind a transaction. -/
def Transaction.traces (ws : Nat → Writing) (t : Transaction Record) (table : List TraceRow) :
    List TraceRow :=
  match t.ending with
  | .commits => writeItems ws t.items table
  | .acquireFails | .commitFails => table

/-- The table behind some transactions. -/
def traces (ws : Nat → Writing) (log : List (Transaction Record)) (table : List TraceRow) :
    List TraceRow :=
  log.foldl (fun table t ↦ t.traces ws table) table

/-- A committed transaction has written `row` for the item. -/
def State.Wrote (ws : Nat → Writing) (table : List TraceRow) (s : State Record)
    (item : Item Record) (row : TraceRow) : Prop :=
  ∃ log t log' items items', s.log = log ++ t :: log' ∧ t.ending = .commits ∧
    t.items = items ++ item :: items' ∧
    let before := writeItems ws items (traces ws log table)
    Inserts (ws item.seq) item.record.traceStart before ∧
      row ∈ writeObservabilityRecord (ws item.seq) item.record before ∧
      row.start.traceId = item.record.traceStart.traceId

/-- The row describes a request of `d` milliseconds. -/
def TraceRow.Describes (d : ℚ) (row : TraceRow) : Prop :=
  ∃ ended, row.ended = some ended ∧ ended.durationMs = round d ∧
    |((ended.endTime - row.startTime : Int) : ℚ) - 1000 * d| ≤ 1000

/-- The writing itself takes as long as a request of `d` milliseconds. -/
def Writing.Takes (d : ℚ) (w : Writing) : Prop :=
  w.selectFails = false ∧ w.updateFails = false ∧
    (w.endClock - w.startClock) / 1000 = round d ∧
    |((w.endClock - w.startClock : Int) : ℚ) - 1000 * d| ≤ 1000

/-- Two writings read the same times, as far as they come. -/
def Writing.SameTimes (w' w : Writing) : Prop :=
  w'.startClock = w.startClock ∧
    (w'.selectFails || w'.updateFails) = (w.selectFails || w.updateFails) ∧
    ((w.selectFails || w.updateFails) = false → w'.endClock = w.endClock)

/-- The row of a record, whatever the table. -/
def Writing.row (w : Writing) (record : Record) : TraceRow where
  start := record.traceStart
  startTime := w.startClock
  ended :=
    if w.selectFails || w.updateFails then none
    else some ⟨w.endClock, (w.endClock - w.startClock) / 1000, record.traceEnd⟩

/-- Both entries of a record have one key. -/
structure Record.Keyed (record : Record) : Prop where
  traceId : record.traceEnd.traceId = record.traceStart.traceId
  spanId : record.traceEnd.spanId = record.traceStart.spanId

variable {w : Writing} {record : Record} {table : List TraceRow}

/-- Records of requests are keyed. -/
theorem keyed_emit (context : Context) (request : Completed) (token : List UInt8) :
    (emitRequestObservability context request token).Keyed := ⟨rfl, rfl⟩

private theorem hasKey_before (hkeyed : record.Keyed) (h : Inserts w record.traceStart table)
    {row : TraceRow} (hrow : row ∈ table) :
    row.hasKey record.traceEnd.traceId record.traceEnd.spanId = false := by
  rw [TraceRow.hasKey, hkeyed.traceId, beq_false_of_ne (h.2 row hrow)]
  rfl

private theorem hasKey_new (hkeyed : record.Keyed) (startTime : Int) (ended : Option Ended) :
    (TraceRow.mk record.traceStart startTime ended).hasKey record.traceEnd.traceId
      record.traceEnd.spanId = true := by
  simp [TraceRow.hasKey, hkeyed.traceId, hkeyed.spanId]

/-- The duration is that of the writing. -/
theorem calculatedDuration_insert (hkeyed : record.Keyed)
    (h : Inserts w record.traceStart table) :
    calculatedDuration w record.traceEnd (startTrace w record.traceStart table) =
      (w.endClock - w.startClock) / 1000 := by
  have hnone : table.find? (TraceRow.hasKey record.traceEnd.traceId record.traceEnd.spanId) =
      none := by
    rw [List.find?_eq_none]
    intro row hrow
    rw [hasKey_before hkeyed h hrow]
    exact Bool.false_ne_true
  rw [calculatedDuration, startTrace, if_pos h, List.find?_append, hnone, Option.none_or,
    List.find?_singleton, hasKey_new hkeyed, if_pos rfl]

/-- A record that is inserted adds its row and leaves the others alone. -/
theorem writeObservabilityRecord_insert (hkeyed : record.Keyed)
    (h : Inserts w record.traceStart table) :
    writeObservabilityRecord w record table = table ++ [w.row record] := by
  rw [writeObservabilityRecord, endTrace, Writing.row]
  by_cases hfails : w.selectFails || w.updateFails
  · rw [if_pos hfails, if_pos hfails, startTrace, if_pos h]
  · rw [if_neg hfails, if_neg hfails, calculatedDuration_insert hkeyed h, startTrace, if_pos h,
      List.map_append, List.map_singleton, hasKey_new hkeyed, if_pos rfl]
    congr 1
    refine (List.map_congr_left fun row hrow ↦ ?_).trans (List.map_id table)
    rw [hasKey_before hkeyed h hrow, if_neg Bool.false_ne_true, id_eq]

/-- What a transaction has written for a keyed record is the row of the record. -/
theorem State.Wrote.row_eq {ws : Nat → Writing} {s : State Record} {item : Item Record}
    {row : TraceRow} (h : s.Wrote ws table item row) (hkeyed : item.record.Keyed) :
    row = (ws item.seq).row item.record := by
  obtain ⟨log, t, log', items, items', -, -, -, hinserts, hmem, hid⟩ := h
  rw [writeObservabilityRecord_insert hkeyed hinserts] at hmem
  rcases List.mem_append.mp hmem with hmem | hmem
  · exact absurd hid (hinserts.2 row hmem)
  · exact List.mem_singleton.mp hmem

/-- A row describes a request exactly when the writing takes as long. -/
theorem describes_row_iff (d : ℚ) (w : Writing) (record : Record) :
    (w.row record).Describes d ↔ w.Takes d := by
  rw [TraceRow.Describes, Writing.Takes, Writing.row]
  dsimp only
  cases w.selectFails <;> cases w.updateFails <;> simp

/-- Two writings of one record make the same row exactly when they read the same times. -/
theorem row_eq_row_iff {w' : Writing} :
    w'.row record = w.row record ↔ w'.SameTimes w := by
  rw [Writing.row, Writing.row, TraceRow.mk.injEq, Writing.SameTimes]
  cases w'.selectFails || w'.updateFails <;> cases w.selectFails || w.updateFails
  · constructor
    · rintro ⟨-, hstart, hended⟩
      exact ⟨hstart, rfl, fun _ ↦ congrArg Ended.endTime (Option.some.inj hended)⟩
    · rintro ⟨hstart, -, hend⟩
      refine ⟨rfl, hstart, ?_⟩
      rw [hstart, hend rfl]
  · simp
  · simp
  · simp

/-- A row stays unless a record has its key. -/
theorem mem_writeObservabilityRecord {row : TraceRow} (h : row ∈ table)
    (hkey : row.hasKey record.traceEnd.traceId record.traceEnd.spanId = false) :
    row ∈ writeObservabilityRecord w record table := by
  have hstart : row ∈ startTrace w record.traceStart table := by
    unfold startTrace
    split
    · exact List.mem_append_left _ h
    · exact h
  rw [writeObservabilityRecord, endTrace]
  split
  · exact hstart
  · exact List.mem_map.mpr ⟨row, hstart, by rw [hkey, if_neg Bool.false_ne_true]⟩

/-- A row stays through a batch. -/
theorem mem_writeItems {ws : Nat → Writing} {items : List (Item Record)} {row : TraceRow}
    (h : row ∈ table) (hkeys : ∀ item ∈ items,
      row.hasKey item.record.traceEnd.traceId item.record.traceEnd.spanId = false) :
    row ∈ writeItems ws items table := by
  induction items generalizing table with
  | nil => exact h
  | cons item items ih =>
    apply ih
    · exact mem_writeObservabilityRecord h (hkeys item List.mem_cons_self)
    · exact fun item' h ↦ hkeys item' (List.mem_cons_of_mem _ h)

/-- A row stays through transactions. -/
theorem mem_traces {ws : Nat → Writing} {log : List (Transaction Record)} {row : TraceRow}
    (h : row ∈ table) (hkeys : ∀ item ∈ log.flatMap Transaction.items,
      row.hasKey item.record.traceEnd.traceId item.record.traceEnd.spanId = false) :
    row ∈ traces ws log table := by
  induction log generalizing table with
  | nil => exact h
  | cons t log ih =>
    rw [List.flatMap_cons] at hkeys
    apply ih
    · cases hending : t.ending with
      | commits =>
        simp only [Transaction.traces, hending]
        exact mem_writeItems h fun item hitem ↦ hkeys item (List.mem_append_left _ hitem)
      | acquireFails => simpa only [Transaction.traces, hending] using h
      | commitFails => simpa only [Transaction.traces, hending] using h
    · exact fun item hitem ↦ hkeys item (List.mem_append_right _ hitem)

/-- In every run the row of a record stays in the table unless another record has its key. -/
theorem State.Wrote.mem_traces {maxBatch : Nat} {ws : Nat → Writing} {s : State Record}
    {item : Item Record} {row : TraceRow} (hs : (writeQueue Record maxBatch).Reachable s)
    (h : s.Wrote ws table item row)
    (hkeys : ∀ item' ∈ s.handed, item'.seq ≠ item.seq →
      row.hasKey item'.record.traceEnd.traceId item'.record.traceEnd.spanId = false) :
    row ∈ traces ws s.log table := by
  obtain ⟨log, t, log', items, items', hlog, hending, hitems, -, hmem, -⟩ := h
  have hhanded : s.handed = log.flatMap Transaction.items ++ items ++
      item :: (items' ++ log'.flatMap Transaction.items) := by
    simp [State.handed, hlog, hitems]
  have horder := handed_inOrder (inv_of_reachable hs)
  rw [hhanded, seqs, List.map_append, List.map_cons, List.pairwise_append,
    List.pairwise_cons] at horder
  have hlater : ∀ item' ∈ items' ++ log'.flatMap Transaction.items,
      row.hasKey item'.record.traceEnd.traceId item'.record.traceEnd.spanId = false := by
    intro item' hitem'
    refine hkeys item' ?_ (Nat.ne_of_gt (horder.2.1.1 _ (List.mem_map_of_mem hitem')))
    rw [hhanded]
    exact List.mem_append_right _ (List.mem_cons_of_mem _ hitem')
  rw [hlog, traces, List.foldl_append, List.foldl_cons]
  simp only [Transaction.traces, hending, hitems, writeItems, List.foldl_append, List.foldl_cons]
  apply SalesData.Observability.mem_traces
  · exact mem_writeItems hmem fun item' h ↦ hlater item' (List.mem_append_left _ h)
  · exact fun item' h ↦ hlater item' (List.mem_append_right _ h)

/-- A row describes its request exactly when its writing takes as long as the request did, and does
not depend on when it is written exactly when the clock is read at the same times. -/
theorem traceRow_describes_iff (ws ws' : Nat → Writing) (table table' : List TraceRow)
    (s s' : State Record) (item item' : Item Record) (row row' : TraceRow) (context : Context)
    (request : Completed) (token : List UInt8)
    (hitem : item.record = emitRequestObservability context request token)
    (hitem' : item'.record = item.record) (hrow : s.Wrote ws table item row)
    (hrow' : s'.Wrote ws' table' item' row') :
    (row.Describes (request.durationMs.getD 0) ↔
      (ws item.seq).Takes (request.durationMs.getD 0)) ∧
      (row' = row ↔ (ws' item'.seq).SameTimes (ws item.seq)) := by
  have hkeyed : item.record.Keyed := hitem ▸ keyed_emit context request token
  rw [hrow.row_eq hkeyed, hrow'.row_eq (hitem' ▸ hkeyed), hitem']
  exact ⟨describes_row_iff _ _ _, row_eq_row_iff⟩

/-- A committed transaction that inserts the record has written its row. -/
theorem State.wrote_row {ws : Nat → Writing} {s : State Record} {item : Item Record}
    (log log' : List (Transaction Record)) {t : Transaction Record}
    (items items' : List (Item Record)) (hlog : s.log = log ++ t :: log')
    (hending : t.ending = .commits) (hitems : t.items = items ++ item :: items')
    (hkeyed : item.record.Keyed)
    (hinserts : Inserts (ws item.seq) item.record.traceStart
      (writeItems ws items (traces ws log table))) :
    s.Wrote ws table item ((ws item.seq).row item.record) := by
  refine ⟨log, t, log', items, items', hlog, hending, hitems, hinserts, ?_, rfl⟩
  rw [writeObservabilityRecord_insert hkeyed hinserts]
  exact List.mem_append_right _ (List.mem_singleton.mpr rfl)

/-- A query of a quarter of a second. -/
def slowQuery : Completed where
  method := "POST".toList
  url := "/query".toList
  statusCode := 200
  durationMs := some 250
  error := none
  userId := none
  operationName := "http.request".toList

/-- The record of the query, at the head of the queue. -/
def slowItem : Item Record :=
  ⟨0, emitRequestObservability ⟨"1".toList, [], [], []⟩ slowQuery [0, 0, 0, 1]⟩

/-- A writing that takes 40 microseconds. -/
def Writing.fast (startClock : Int) : Writing :=
  ⟨startClock, startClock + 40, false, false, false⟩

private theorem slowItem_wrote {s : State Record} (hlog : s.log = [⟨[slowItem], .commits, true⟩])
    (startClock : Int) :
    s.Wrote (fun _ ↦ .fast startClock) [] slowItem
      ((Writing.fast startClock).row slowItem.record) :=
  State.wrote_row [] [] [] [] hlog rfl rfl (keyed_emit _ _ _)
    ⟨rfl, fun row hrow ↦ (by cases hrow)⟩

/-- The query, written early and late. -/
theorem traceRow_describes_iff_slowQuery :
    (((Writing.fast 1000000).row slowItem.record).Describes (slowQuery.durationMs.getD 0) ↔
      (Writing.fast 1000000).Takes (slowQuery.durationMs.getD 0)) ∧
      ((Writing.fast 9000000).row slowItem.record = (Writing.fast 1000000).row slowItem.record ↔
        (Writing.fast 9000000).SameTimes (.fast 1000000)) :=
  traceRow_describes_iff (fun _ ↦ .fast 1000000) (fun _ ↦ .fast 9000000) [] []
    ⟨[], false, true, .check, .idle, [⟨[slowItem], .commits, true⟩], 1, 0⟩
    ⟨[], false, true, .check, .idle, [⟨[slowItem], .commits, true⟩], 1, 0⟩
    slowItem slowItem _ _ ⟨"1".toList, [], [], []⟩ slowQuery [0, 0, 0, 1] rfl rfl
    (slowItem_wrote rfl 1000000) (slowItem_wrote rfl 9000000)

/-- The row of a query of 250 ms has no duration, and tells when the queue was flushed. -/
theorem traceRow_slowQuery :
    ∃ s, (writeQueue Record 200).Reachable s ∧
      ∃ row row', s.Wrote (fun _ ↦ .fast 1000000) [] slowItem row ∧
        s.Wrote (fun _ ↦ .fast 9000000) [] slowItem row' ∧
        row.ended.map Ended.durationMs = some 0 ∧ ¬row.Describes 250 ∧ row' ≠ row := by
  obtain ⟨s, hs, hend⟩ := System.exists_of_exec (writeQueue Record 200) (fun _ _ ↦ True)
    [.start, .enqueue slowItem.record, .worker .commits, .worker .commits, .worker .commits,
      .worker .commits, .worker .commits]
    (fun s ↦ decide (s.log = [⟨[slowItem], .commits, true⟩])) (by decide +kernel)
  have hlog := of_decide_eq_true hend
  refine ⟨s, hs, _, _, slowItem_wrote hlog 1000000, slowItem_wrote hlog 9000000, rfl, ?_, ?_⟩
  · rintro ⟨ended, hended, hduration, -⟩
    cases hended
    revert hduration
    decide +kernel
  · intro heq
    have hstart : (9000000 : Int) = 1000000 := congrArg TraceRow.startTime heq
    omega

end SalesData.Observability

import SalesData.Service.QueryService

/-!
# Reads after a write

What the first level and the flights of the service carry for a read once a write on one of
its tables has returned. `_invalidate_after_write` is there to "avoid stale data after
mutations" (`core/caching/query_result_cache.py:178–182`).
-/

namespace SalesData.Service

open Base Sql Cache

variable {K P D E : Type} [DecidableEq K]

/-- The condition on a step of the service. -/
def Timely (s : State K P D E) : Act K P D E → Prop
  | .run _ => True
  | .task a => Cache.Timely s.core a

instance (s : State K P D E) (a : Act K P D E) : Decidable (Timely s a) :=
  match a with
  | .run _ => isTrue trivial
  | .task a => inferInstanceAs (Decidable (Cache.Timely s.core a))

/-- Once a write has returned, neither an entry of the first level nor a registered flight
carries rows of a statement that names a table of the write and that the warehouse or the
second level was asked for before the write's execution finished. -/
def State.Fresh (u : Unicode) (s : State K P D E) : Prop :=
  ∀ w ∈ s.core.tasks, ∀ data finished, w.phase = .written data finished →
    (∀ key rows, s.core.cache.l1.Holds key rows →
      shares rows.tables (extractTables u w.call.sql.sql) = true → finished ≤ rows.since) ∧
    ∀ key f, s.core.cache.inflight.get? key = some f → ∀ leader ∈ s.core.tasks, leader.Leads f →
      shares (extractTables u leader.call.sql.sql) (extractTables u w.call.sql.sql) = true →
      ∀ since, leader.phase.carries? = some since → finished ≤ since

variable {u : Unicode} {cacheKey : Text → P → K} {s : State K P D E}

/-- In timely runs what is cached or under way on a write's tables is fresh once the write
has returned. -/
theorem writes_visible {l1MaxSize : Nat} {l1TtlSeconds : Int} {hpos : 0 < l1MaxSize}
    (h : (system u cacheKey l1MaxSize l1TtlSeconds hpos).Reach Timely s) : s.Fresh u := by
  have hcall := callInv_of_reach h
  have hfresh : s.core.Fresh :=
    fresh_of_reach (core_reach h (fun _ _ ↦ rfl) fun _ _ hok ↦ hok)
  intro w hw data finished hp
  have htables := tables_of_call? (hcall w hw)
  obtain ⟨hl1, hflight⟩ := hfresh w hw data finished hp
  rw [htables] at hl1 hflight
  refine ⟨hl1, fun key f hr leader hleader hl hshares ↦ hflight key f hr leader hleader hl ?_⟩
  rwa [tables_of_call? (hcall leader hleader)]

/-- Two statements on one table. -/
def readOrders : Run Unit := ⟨⟨true, true⟩, "SELECT * FROM orders".toList, (), []⟩

/-- The write is allowed to its caller. -/
def deleteOrders : Run Unit := ⟨⟨true, true⟩, "DELETE FROM orders".toList, (), "write".toList⟩

/-- The read misses the second level and starts its execution; then the write runs and
returns; then the read ends. -/
def overtakenRead : List (Act Text Unit Nat Nat) :=
  [.run readOrders, .task (.begin 0), .task (.finish 0 none), .task (.resume 0),
    .task (.begin 0), .run deleteOrders, .task (.begin 1), .task (.finish 1 (some 0)),
    .task (.resume 1), .task (.resume 1), .task (.finish 0 (some 7)), .task (.resume 0)]

private theorem four_slots : 0 < 4 := by decide

/-- The service of the examples; a statement is its own key. -/
def demo : System (State Text Unit Nat Nat) (Act Text Unit Nat Nat) :=
  system .basic (fun sql _ ↦ sql) 4 3600 four_slots

/-- The write's task once it has returned. -/
def deletedOrders : Task Text Text Nat Nat (Run Unit) :=
  ⟨.write deleteOrders ["orders".toList] true, none, false, false, .written 0 7⟩

/-- The first level is left with rows from before the write. -/
theorem overtakenRead_stays : ¬ ∀ s, demo.Reachable s → s.Fresh .basic := by
  intro h
  obtain ⟨s, hs, hend⟩ := System.exists_of_exec demo (fun _ _ ↦ True) overtakenRead
    (fun s ↦ s.core.tasks[1]? == some deletedOrders &&
      (s.core.cache.l1.lru.cache.get? readOrders.sql).any fun e ↦
        e.value == ⟨7, 4, ["orders".toList]⟩) (by decide +kernel)
  simp only [Bool.and_eq_true, beq_iff_eq, Option.any_eq_true] at hend
  obtain ⟨hwrite, e, hentry, hvalue⟩ := hend
  have hshares : shares ["orders".toList] (extractTables .basic deleteOrders.sql) = true := by
    decide +kernel
  have hle := (h s hs _ (List.mem_of_getElem? hwrite) 0 7 rfl).1 readOrders.sql _
    ⟨e, hvalue, .inl hentry⟩ hshares
  exact absurd hle (by decide)

/-- A `DELETE` and a read that starts its execution when the write's has finished. -/
def orderedRead : List (Act Text Unit Nat Nat) :=
  [.run deleteOrders, .task (.begin 0), .run readOrders, .task (.begin 1),
    .task (.finish 1 none), .task (.resume 1), .task (.finish 0 (some 0)), .task (.begin 1),
    .task (.resume 0), .task (.resume 0), .task (.finish 1 (some 7)), .task (.resume 1)]

/-- A run in which a read overlaps a write and its rows stay in the first level. -/
theorem writes_visible_orderedRead :
    ∃ s, demo.Reach Timely s ∧ s.core.tasks[0]?.map (·.phase) = some (.written 0 6) ∧
      (∃ rows, s.core.cache.l1.Holds readOrders.sql rows) ∧ s.Fresh .basic := by
  obtain ⟨s, hs, hend⟩ := System.exists_of_exec demo Timely orderedRead
    (fun s ↦ s.core.tasks[0]?.map (·.phase) == some (.written 0 6) &&
      (s.core.cache.l1.lru.cache.get? readOrders.sql).isSome) (by decide +kernel)
  simp only [Bool.and_eq_true, beq_iff_eq, Option.isSome_iff_exists] at hend
  obtain ⟨hwrite, e, hentry⟩ := hend
  exact ⟨s, hs, hwrite, ⟨e.value, e, rfl, .inl hentry⟩, writes_visible hs⟩

end SalesData.Service

import SalesData.Service.QueryService

/-!
# The write gate

Which statements a caller without the write scope can have executed. A statement passes for a
read "only when no DML/DDL keyword appears anywhere" (`sql_policy.py:12–16`); the code looks
for the keywords only behind a leading `WITH` (`sql_policy.py:90–95`).
-/

namespace SalesData.Service

open Base Sql Cache

section Sent

variable {K P D E : Type} {u : Unicode} {cacheKey : Text → P → K}
  {s : State K P D E}

private theorem sends_spec (hcall : CallInv u cacheKey s) {a : Cache.Act K Text D E (Run P)}
    {e : Sent P} (he : e ∈ sends s.core a) : e.text = e.run.sql ∧ e.run.denied u = false := by
  unfold sends at he
  split at he
  · split at he
    · next t call fut isLeader cancelled ht =>
      rw [List.mem_singleton.mp he]
      have hmade := hcall _ (List.mem_of_getElem? ht)
      have hdenied := not_denied_of_call? hmade
      exact ⟨rfl, hdenied⟩
    · cases he
  · cases he

/-- What a step sends belongs to the run of a task. -/
theorem run_of_sends {s : Cache.State K Text D E (Run P)} {a : Cache.Act K Text D E (Run P)}
    {e : Sent P} (he : e ∈ sends s a) : ∃ task ∈ s.tasks, e.run = task.call.sql := by
  unfold sends at he
  split at he
  · split at he
    · next ht =>
      rw [List.mem_singleton.mp he]
      exact ⟨_, List.mem_of_getElem? ht, rfl⟩
    · cases he
  · cases he

variable [DecidableEq K]

/-- Whatever reached the warehouse is the text of a run that was not denied. -/
theorem sent_of_reach {l1MaxSize : Nat} {l1TtlSeconds : Int} {hpos : 0 < l1MaxSize}
    {ok : State K P D E → Act K P D E → Prop}
    (h : (system u cacheKey l1MaxSize l1TtlSeconds hpos).Reach ok s) :
    ∀ e ∈ s.sent, e.text = e.run.sql ∧ e.run.denied u = false := by
  refine h.invariant_of (P := fun s ↦ ∀ e ∈ s.sent, e.text = e.run.sql ∧ e.run.denied u = false)
    (fun s h ↦ callInv_of_reach h) (fun e he ↦ by cases he) ?_
  intro s a s' hinv hcall _ _ hstep
  rcases step_cases hstep with ⟨run, rfl, -, rfl⟩ | ⟨run, call, core, rfl, -, -, rfl⟩ |
    ⟨b, core, rfl, -, -, rfl⟩
  · exact hinv
  · exact hinv
  · intro e he
    rcases List.mem_append.mp he with he | he
    · exact hinv e he
    · exact sends_spec hcall he

/-- What holds of every run that is made holds of the run of everything sent. -/
theorem runs_of_reach {l1MaxSize : Nat} {l1TtlSeconds : Int} {hpos : 0 < l1MaxSize}
    {R : Run P → Prop} (h : (system u cacheKey l1MaxSize l1TtlSeconds hpos).Reach
      (fun _ a ↦ ∀ run, a = .run run → R run) s) : ∀ e ∈ s.sent, R e.run := by
  refine h.invariant_of (P := fun s ↦ ∀ e ∈ s.sent, R e.run)
    (Q := fun s ↦ ∀ task ∈ s.core.tasks, R task.call.sql) ?_ (fun e he ↦ by cases he) ?_
  · intro s hs
    refine calls_of_reach (Q := fun call ↦ R call.sql) hs ?_
    intro s run call hok hmade
    rw [sql_of_call? hmade]
    exact hok run rfl
  · intro s a s' hinv htasks _ _ hstep
    rcases step_cases hstep with ⟨run, rfl, -, rfl⟩ | ⟨run, call, core, rfl, -, -, rfl⟩ |
      ⟨b, core, rfl, -, -, rfl⟩
    · exact hinv
    · exact hinv
    · intro e he
      rcases List.mem_append.mp he with hold | hnew
      · exact hinv e hold
      · obtain ⟨task, htask, hrun⟩ := run_of_sends hnew
        rw [hrun]
        exact htasks task htask

end Sent

/-- In every run of the service, no call for `sql` by a caller without the write scope sends a
text with a write keyword to the warehouse. -/
def NeverSendsWrite (u : Unicode) (sql : Text) : Prop :=
  ∀ (K P D E : Type) [DecidableEq K] (cacheKey : Text → P → K) (l1MaxSize : Nat)
    (l1TtlSeconds : Int) (hpos : 0 < l1MaxSize) (s : State K P D E),
    (system u cacheKey l1MaxSize l1TtlSeconds hpos).Reachable s →
    ∀ e ∈ s.sent, e.run.sql = sql → e.run.service.requireWriteScope = true →
      hasScope u (some e.run.scopes) "write".toList = false → ¬HasWriteKeyword u e.text

/-- A statement that passes for a read has no write keyword, and hence a caller without the
write scope sends none. -/
def WriteGate (u : Unicode) (sql : Text) : Prop :=
  (classifyOperation u sql = .read → ¬HasWriteKeyword u sql) ∧ NeverSendsWrite u sql

/-- If a statement passes for a read only without write keywords, then a caller without the
write scope sends none. -/
theorem neverSendsWrite_of_classified {u : Unicode} {sql : Text}
    (hread : classifyOperation u sql = .read → ¬HasWriteKeyword u sql) : NeverSendsWrite u sql := by
  intro K P D E _ cacheKey l1MaxSize l1TtlSeconds hpos s hs e he hsql hrequire hscope
  obtain ⟨htext, hdenied⟩ := sent_of_reach hs e he
  rw [htext, hsql]
  apply hread
  cases hop : classifyOperation u sql with
  | read => rfl
  | write =>
    rw [Run.denied, hsql, hop, hrequire, hscope] at hdenied
    cases hdenied

/-- The write gate is sound exactly for the statements that are not led by `SELECT` with a
write keyword behind it. -/
theorem writeGate_iff (u : Unicode) (sql : Text) :
    WriteGate u sql ↔ ¬(firstKeyword u sql = "SELECT".toList ∧ HasWriteKeyword u sql) := by
  constructor
  · rintro ⟨hread, -⟩ ⟨hselect, hkey⟩
    exact hread (classifyOperation_eq_read.mpr (.inl hselect)) hkey
  · intro h
    have hread : classifyOperation u sql = .read → ¬HasWriteKeyword u sql := by
      intro hop hkey
      rcases classifyOperation_eq_read.mp hop with hselect | ⟨-, hnot⟩
      · exact h ⟨hselect, hkey⟩
      · exact hnot hkey
    exact ⟨hread, neverSendsWrite_of_classified hread⟩

/-- A `SELECT` with a second statement behind it passes for a read. -/
theorem selectThenDelete_passes : ¬ ∀ sql, WriteGate .basic sql := by
  intro h
  have hop : classifyOperation .basic "SELECT 1; DELETE FROM orders".toList = .read := by
    decide +kernel
  have hkey : HasWriteKeyword .basic "SELECT 1; DELETE FROM orders".toList := by
    decide +kernel
  exact (h _).1 hop hkey

end SalesData.Service

import SalesData.Service.QueryService

/-!
# Limits on results

`max_result_rows` and `max_result_bytes` protect "one caller's unbounded SELECT from exhausting
memory or the response pipeline" (`core/app/settings.py:51–59`). `run` applies them on its way out
of a lookup only: what `classify_operation` does not take for a read comes back as it is
(`core/services/query_service.py:109–118`).
-/

namespace SalesData.Service

open Base Sql Cache

section Limits

variable {R : Type}

/-- The rows are within the limits. -/
def QueryLimits.Within (limits : QueryLimits) (size : R → Nat) (rows : List R) : Prop :=
  rows.length ≤ limits.maxResultRows ∧ (rows.map size).sum ≤ limits.maxResultBytes

instance (limits : QueryLimits) (size : R → Nat) (rows : List R) :
    Decidable (limits.Within size rows) := inferInstanceAs (Decidable (_ ∧ _))

/-- An outcome for these rows: the first ones of them, within the limits, and flagged if rows were
dropped. -/
structure QueryLimits.Holds (limits : QueryLimits) (size : R → Nat) (rows : List R)
    (outcome : QueryOutcome R) : Prop where
  within : limits.Within size outcome.data
  first : outcome.data <+: rows
  truncated : outcome.truncated = true ↔ outcome.data.length < rows.length

/-- The loop keeps first rows that fit, and stops early exactly if it drops some. -/
theorem takeBytes_spec (maxBytes : Nat) (size : R → Nat) (rows : List R) (totalBytes : Nat)
    (h : totalBytes ≤ maxBytes) :
    (takeBytes maxBytes size totalBytes rows).1 <+: rows ∧
      totalBytes + ((takeBytes maxBytes size totalBytes rows).1.map size).sum ≤ maxBytes ∧
      ((takeBytes maxBytes size totalBytes rows).2 = true ↔
        (takeBytes maxBytes size totalBytes rows).1.length < rows.length) := by
  induction rows generalizing totalBytes with
  | nil => simpa [takeBytes] using h
  | cons row rows ih =>
    unfold takeBytes
    by_cases hfull : maxBytes < totalBytes + size row
    · rw [if_pos hfull]
      simpa using h
    · rw [if_neg hfull]
      obtain ⟨hfirst, hsum, hstopped⟩ := ih (totalBytes + size row) (by omega)
      refine ⟨?_, ?_, ?_⟩
      · exact List.cons_prefix_cons.mpr ⟨rfl, hfirst⟩
      · simp only [List.map_cons, List.sum_cons]
        omega
      · simp only [List.length_cons, Nat.add_lt_add_iff_right]
        exact hstopped

/-- What `_apply_result_limits` keeps. -/
theorem applyResultLimits_spec (limits : QueryLimits) (size : R → Nat) (data : List R) :
    limits.Within size (applyResultLimits limits size data).1 ∧
      (applyResultLimits limits size data).1 <+: data ∧
      ((applyResultLimits limits size data).2 = true ↔
        (applyResultLimits limits size data).1.length < data.length) := by
  obtain ⟨hfirst, hsum, hstopped⟩ := takeBytes_spec limits.maxResultBytes size
    (data.take limits.maxResultRows) 0 (Nat.zero_le _)
  have hlen := hfirst.length_le
  rw [List.length_take] at hlen hstopped
  unfold applyResultLimits
  dsimp only
  refine ⟨⟨?_, ?_⟩, ?_, ?_⟩
  · omega
  · omega
  · exact hfirst.trans (List.take_prefix _ _)
  · rw [Bool.or_eq_true, decide_eq_true_eq, hstopped]
    omega

/-- The loop keeps all first rows that fit. -/
theorem takeBytes_longest {maxBytes : Nat} {size : R → Nat} {rows first : List R} {totalBytes : Nat}
    (hfirst : first <+: rows) (hfit : totalBytes + (first.map size).sum ≤ maxBytes) :
    first <+: (takeBytes maxBytes size totalBytes rows).1 := by
  induction rows generalizing first totalBytes with
  | nil => rwa [takeBytes]
  | cons row rows ih =>
    cases first with
    | nil => exact List.nil_prefix
    | cons row' first =>
      obtain ⟨rfl, htail⟩ := List.cons_prefix_cons.mp hfirst
      rw [List.map_cons, List.sum_cons] at hfit
      rw [takeBytes, if_neg (by omega)]
      exact List.cons_prefix_cons.mpr ⟨rfl, ih htail (by omega)⟩

/-- `_apply_result_limits` keeps all first rows that are within the limits. -/
theorem applyResultLimits_longest {limits : QueryLimits} {size : R → Nat} {data first : List R}
    (hfirst : first <+: data) (hwithin : limits.Within size first) :
    first <+: (applyResultLimits limits size data).1 := by
  rw [applyResultLimits]
  apply takeBytes_longest
  · rw [List.prefix_take_iff]
    exact ⟨hfirst, hwithin.1⟩
  · rw [Nat.zero_add]
    exact hwithin.2

/-- What is within the limits is left alone. -/
theorem applyResultLimits_of_within {limits : QueryLimits} {size : R → Nat} {data : List R}
    (h : limits.Within size data) : applyResultLimits limits size data = (data, false) := by
  obtain ⟨-, hfirst, htruncated⟩ := applyResultLimits_spec limits size data
  have hall := applyResultLimits_longest (List.prefix_refl data) h
  have heq := hfirst.eq_of_length_le hall.length_le
  rw [heq, lt_self_iff_false, iff_false, Bool.not_eq_true] at htruncated
  exact Prod.ext heq htruncated

/-- Wider limits admit what narrower ones do. -/
theorem QueryLimits.Within.mono {limits wider : QueryLimits} {size : R → Nat} {rows : List R}
    (h : limits.Within size rows) (hrows : limits.maxResultRows ≤ wider.maxResultRows)
    (hbytes : limits.maxResultBytes ≤ wider.maxResultBytes) : wider.Within size rows :=
  ⟨h.1.trans hrows, h.2.trans hbytes⟩

/-- `_apply_result_limits` keeps the longest first rows that are within the limits, and flags that
it dropped some. To cut again changes nothing, and wider limits keep no fewer rows. -/
theorem applyResultLimits_keeps_longest (limits : QueryLimits) (size : R → Nat) (data : List R) :
    let out := (applyResultLimits limits size data).1
    out <+: data ∧ limits.Within size out ∧
      (∀ first, first <+: data → limits.Within size first → first <+: out) ∧
      ((applyResultLimits limits size data).2 = true ↔ out.length < data.length) ∧
      applyResultLimits limits size out = (out, false) ∧
      ∀ wider : QueryLimits, limits.maxResultRows ≤ wider.maxResultRows →
        limits.maxResultBytes ≤ wider.maxResultBytes →
          out.length ≤ (applyResultLimits wider size data).1.length := by
  obtain ⟨hwithin, hfirst, htruncated⟩ := applyResultLimits_spec limits size data
  refine ⟨hfirst, hwithin, fun first ↦ applyResultLimits_longest, htruncated,
    applyResultLimits_of_within hwithin, fun wider hrows hbytes ↦ ?_⟩
  exact (applyResultLimits_longest hfirst (hwithin.mono hrows hbytes)).length_le

/-- Rows that all take as many bytes as others are kept as those are. -/
theorem takeBytes_map (maxBytes : Nat) (size : R → Nat) (f : R → R) (rows : List R)
    (totalBytes : Nat) (h : ∀ row ∈ rows, size (f row) = size row) :
    takeBytes maxBytes size totalBytes (rows.map f) =
      ((takeBytes maxBytes size totalBytes rows).1.map f,
        (takeBytes maxBytes size totalBytes rows).2) := by
  induction rows generalizing totalBytes with
  | nil => rfl
  | cons row rows ih =>
    have hrow := h row (List.mem_cons_self ..)
    have hrows := ih (totalBytes + size row) fun row hmem ↦ h row (List.mem_cons_of_mem _ hmem)
    rw [List.map_cons, takeBytes, takeBytes, hrow]
    by_cases hfull : maxBytes < totalBytes + size row
    · rw [if_pos hfull, if_pos hfull]
      rfl
    · rw [if_neg hfull, if_neg hfull, hrows]
      rfl

/-- Rows of which the first ones take as many bytes as others are cut as those are. -/
theorem applyResultLimits_map (limits : QueryLimits) (size : R → Nat) (f : R → R) (data : List R)
    (h : ∀ row ∈ data.take limits.maxResultRows, size (f row) = size row) :
    applyResultLimits limits size (data.map f) =
      ((applyResultLimits limits size data).1.map f, (applyResultLimits limits size data).2) := by
  unfold applyResultLimits
  rw [← List.map_take, takeBytes_map _ _ _ _ _ h, List.length_map]

end Limits

section Outcomes

variable {K P R E : Type}

/-- The rows that a call has been answered with. -/
def rows? (task : Task K Text (List R) E (Run P)) : Option (List R) :=
  match task.phase with
  | .written data _ => some data
  | .ended (.returned result) => some result.data.data
  | _ => none

/-- Writes return what they have executed, and lookups a result of the coordinator. -/
def Suited (task : Task K Text (List R) E (Run P)) : Prop :=
  match task.phase with
  | .flushing .. | .written .. => task.call.key? = none
  | .ended (.returned _) => task.call.key? ≠ none
  | _ => True

variable [DecidableEq K] {u : Unicode} {cacheKey : Text → P → K} {s : State K P (List R) E}

/-- A call begins suited. -/
theorem Suited.start {c c' : QueryCacheCoordinator K Text (List R) E} {now : Time}
    {call : Call K Text (Run P)} {task : Task K Text (List R) E (Run P)}
    (h : Start c now call c' task) : Suited task := by
  cases h with
  | write => trivial
  | hit => exact Option.some_ne_none _
  | lead => trivial
  | @follow key sql tables f hmiss hr =>
    unfold Suited
    cases ho : c.settled? f with
    | none => trivial
    | some o =>
      cases o with
      | returned => exact Option.some_ne_none _
      | raised => trivial

/-- A turn of a suited task is suited. -/
theorem Suited.turn {core : Cache.State K Text (List R) E (Run P)} {t : Nat}
    {task task' : Task K Text (List R) E (Run P)} {a : Cache.Act K Text (List R) E (Run P)}
    {c : QueryCacheCoordinator K Text (List R) E} (h : Suited task)
    (hturn : Turn core t task a c task') : Suited task' := by
  have hlookup {key : K} {run : Run P} {tables : List Text}
      (hc : task.call = .lookup key run tables) : task.call.key? ≠ none := by
    rw [hc]
    exact Option.some_ne_none _
  cases hturn with
  | begin | finish | miss | throwLookup | throwWrite => trivial
  | fill hc => exact hlookup hc
  | @wake _ _ _ _ o hc =>
    unfold Suited
    dsimp only
    cases task.cancelled with
    | true => trivial
    | false =>
      cases o with
      | returned => exact hlookup hc
      | raised => trivial
  | invalidate hc | flushed hc =>
    show task.call.key? = none
    rw [hc]
    rfl
  | cancelFollower | cancelOther => exact h

/-- In every run every task is suited. -/
theorem suited_of_reach {l1MaxSize : Nat} {l1TtlSeconds : Int} {hpos : 0 < l1MaxSize}
    (h : (system u cacheKey l1MaxSize l1TtlSeconds hpos).Reachable s) :
    ∀ task ∈ s.core.tasks, Suited task := by
  apply h.invariant (P := fun s ↦ ∀ task ∈ s.core.tasks, Suited task)
  · intro task htask
    cases htask
  · intro s a s' hs _ hstep
    have hcore {b : Cache.Act K Text (List R) E (Run P)}
        {core : Cache.State K Text (List R) E (Run P)} (hcore : Cache.step s.core b = some core) :
        ∀ task ∈ core.tasks, Suited task := by
      rcases Cache.step_cases hcore with ⟨call, rfl, rfl⟩ | ⟨t, task, c, task', ht, hturn, rfl⟩ |
        ⟨key, rfl, rfl⟩ | ⟨now, rfl, rfl⟩
      · intro task htask
        rcases List.mem_append.mp htask with hold | hnew
        · exact hs task hold
        · obtain rfl := List.mem_singleton.mp hnew
          exact Suited.start (start_spec s.core.cache s.core.now call)
      · exact forall_mem_set hs ((hs task (List.mem_of_getElem? ht)).turn hturn)
      · exact hs
      · exact hs
    rcases step_cases hstep with ⟨run, -, -, rfl⟩ | ⟨run, call, core, -, -, hc, rfl⟩ |
      ⟨b, core, -, -, hc, rfl⟩
    · exact hs
    · exact hcore hc
    · exact hcore hc

omit [DecidableEq K] in
/-- A call is a lookup exactly if its statement passes for a read. -/
theorem lookup_iff_read {run : Run P} {call : Call K Text (Run P)}
    (h : run.call? u cacheKey = some call) :
    call.key? ≠ none ↔ classifyOperation u run.sql = .read := by
  unfold Run.call? at h
  split at h
  · cases h
  · split at h
    · next hwrite =>
      obtain rfl := Option.some.inj h
      rw [hwrite]
      exact iff_of_false (fun hne ↦ hne rfl) (fun hread ↦ by cases hread)
    · next hnot =>
      obtain rfl := Option.some.inj h
      refine iff_of_true (Option.some_ne_none _) ?_
      cases hop : classifyOperation u run.sql with
      | read => rfl
      | write => exact absurd hop hnot

/-- Whatever the rows that a call is answered with, from either level, another call's flight or its
own execution: its outcome keeps the limits exactly if the statement passes for a read, or the rows
are within the limits. -/
theorem resultLimits_hold_iff (limits : QueryLimits) (size : R → Nat) {l1MaxSize : Nat}
    {l1TtlSeconds : Int} {hpos : 0 < l1MaxSize}
    (h : (system u cacheKey l1MaxSize l1TtlSeconds hpos).Reachable s) :
    ∀ task ∈ s.core.tasks, ∀ rows out, rows? task = some rows →
      outcome limits size task = some out →
      (limits.Holds size rows out ↔
        classifyOperation u task.call.sql.sql = .read ∨ limits.Within size rows) := by
  intro task htask rows out hrows hout
  have hsuited := suited_of_reach h task htask
  have hread := lookup_iff_read (callInv_of_reach h task htask)
  unfold Suited at hsuited
  unfold rows? at hrows
  unfold outcome at hout
  split at hrows
  · next data finished hphase =>
    obtain rfl := Option.some.inj hrows
    rw [hphase] at hout hsuited
    obtain rfl := Option.some.inj hout
    constructor
    · exact fun hlimits ↦ .inr hlimits.within
    · rintro (hr | hwithin)
      · exact absurd hsuited (hread.mpr hr)
      · exact ⟨hwithin, List.prefix_refl _, by simp⟩
  · next result hphase =>
    obtain rfl := Option.some.inj hrows
    rw [hphase] at hout hsuited
    obtain rfl := Option.some.inj hout
    obtain ⟨hwithin, hfirst, htruncated⟩ := applyResultLimits_spec limits size result.data.data
    refine iff_of_true ⟨hwithin, hfirst, htruncated⟩ (.inl ?_)
    exact hread.mp hsuited
  · cases hrows

end Outcomes

section Example

private def capped : System (State (Text × Unit) Unit (List Nat) Unit)
    (Act (Text × Unit) Unit (List Nat) Unit) :=
  system .basic Prod.mk 8 3600 (by decide)

private def twoRows : QueryLimits := ⟨2, 100⟩

private def readAll (sql : String) : Run Unit := ⟨⟨true, true⟩, sql.toList, (), "read,write".toList⟩

/-- A `SELECT` in parentheses comes back with all its rows. -/
theorem resultLimits_exceeded : ∃ s, capped.Reachable s ∧ ∃ task ∈ s.core.tasks,
    rows? task = some [1, 2, 3] ∧ outcome twoRows id task = some ⟨[1, 2, 3], false, false⟩ ∧
    ¬ twoRows.Holds id [1, 2, 3] ⟨[1, 2, 3], false, false⟩ := by
  obtain ⟨s, hs, htask⟩ := System.exists_of_exec capped (fun _ _ ↦ True)
    [.run (readAll "(SELECT * FROM orders)"), .task (.begin 0), .task (.finish 0 (some [1, 2, 3])),
      .task (.resume 0), .task (.resume 0)]
    (fun s ↦ decide (∃ task ∈ s.core.tasks, rows? task = some [1, 2, 3] ∧
      outcome twoRows id task = some ⟨[1, 2, 3], false, false⟩)) (by decide +kernel)
  obtain ⟨task, hmem, hrows, hout⟩ := of_decide_eq_true htask
  refine ⟨s, hs, task, hmem, hrows, hout, fun hlimits ↦ ?_⟩
  exact absurd hlimits.within (by decide)

/-- A `SELECT` without parentheses is cut and flagged. -/
theorem resultLimits_hold_select : ∃ s, capped.Reachable s ∧ ∃ task ∈ s.core.tasks,
    rows? task = some [1, 2, 3] ∧ outcome twoRows id task = some ⟨[1, 2], false, true⟩ ∧
    (twoRows.Holds id [1, 2, 3] ⟨[1, 2], false, true⟩ ↔
      classifyOperation .basic task.call.sql.sql = .read ∨ twoRows.Within id [1, 2, 3]) := by
  obtain ⟨s, hs, htask⟩ := System.exists_of_exec capped (fun _ _ ↦ True)
    [.run (readAll "SELECT * FROM orders"), .task (.begin 0), .task (.finish 0 none),
      .task (.resume 0), .task (.begin 0), .task (.finish 0 (some [1, 2, 3])), .task (.resume 0)]
    (fun s ↦ decide (∃ task ∈ s.core.tasks, rows? task = some [1, 2, 3] ∧
      outcome twoRows id task = some ⟨[1, 2], false, true⟩)) (by decide +kernel)
  obtain ⟨task, hmem, hrows, hout⟩ := of_decide_eq_true htask
  refine ⟨s, hs, task, hmem, hrows, hout, ?_⟩
  exact resultLimits_hold_iff twoRows id hs task hmem _ _ hrows hout

end Example

end SalesData.Service

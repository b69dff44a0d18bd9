import SalesData.Service.WriteBehind

/-!
# Stale rows in the second level

A persist job carries its rows through the queue for as long as it takes
(`core/caching/query_cache_coordinator.py:180–185`, `248–262`). Rows of an execution that was
under way when a write purged their tables come back behind the purge; otherwise what the table
holds is younger than every purge of its tables.
-/

namespace SalesData.Service.WriteBehind

open Base Sql Cache

variable {K P R E : Type}

/-- The beginning of an execution whose rows are not yet handed to the queue. -/
def pending? (task : ServiceTask K P R E) : Option Nat :=
  match task.phase with
  | .running .warehouse since => some since
  | .answered .warehouse _ _ (some data) => some data.began
  | _ => none

/-- The write has returned. -/
def written (task : ServiceTask K P R E) : Bool :=
  match task.phase with
  | .written .. => true
  | _ => false

/-- A purge is about a statement that names a table of the write, and this table is purged. -/
def Purged.Concerns (u : Unicode) (e : Purged) (sql : Text) : Prop :=
  shares (extractTables u sql) e.tables = true ∧ e.purge.Names u sql

instance (e : Purged) (sql : Text) : Decidable (e.Concerns u sql) := by
  unfold Purged.Concerns; infer_instance

/-- The queue is drained and no call of `run` is pending. -/
def State.Drained (s : State K P R E) : Prop :=
  s.jobs = [] ∧ ∀ task ∈ s.tasks, task.phase.open? = false

/-- Once everything has come to rest, a row whose statement names a table of a write that has
returned was computed by an execution that began behind that write's purges of it; and no row is
older than a result that was ever stored under its key. -/
def State.NotResurrected (u : Unicode) (s : State K P R E) [DecidableEq K] : Prop :=
  s.Drained → ∀ key row, s.l2.rows.get? key = some row →
    (∀ (i : Nat) (w : ServiceTask K P R E), s.tasks[i]? = some w → written w = true →
      shares (extractTables u row.querySql) (extractTables u w.call.sql.sql) = true →
      (∃ e ∈ s.purged, e.task = i ∧ e.Concerns u row.querySql) ∧
        ∀ e ∈ s.purged, e.task = i → e.Concerns u row.querySql →
          e.step ≤ row.resultData.began) ∧
    ∀ b, (key, b) ∈ s.stored → b ≤ row.resultData.began

/-- When a purge is done, no execution and no job of a statement that it is about is under way;
and the results for one key are stored in the order of their executions. -/
def Settled (u : Unicode) (cacheKey : Text → P → K) (s : State K P R E) : Act K P R E → Prop
  | .purge t => ∀ e ∈ s.nextPurge? t,
    (∀ job ∈ s.jobs, ¬e.Concerns u job.run.sql) ∧
    ∀ task ∈ s.tasks, task.call.key?.isSome → (pending? task).isSome →
      ¬e.Concerns u task.call.sql.sql
  | .store j => ∀ job ∈ s.jobs[j]?, ∀ e ∈ s.stored,
    e.1 = cacheKey job.run.sql job.run.params → e.2 ≤ job.data.began
  | _ => True

variable [DecidableEq K] {u : Unicode} {cacheKey : Text → P → K} {reload : List R → List R}
  {s s' : State K P R E}

section Pending

/-- A new task has not reached the warehouse. -/
theorem pending?_start (c : QueryCacheCoordinator K Text (Computed R) E) (now : Time)
    (call : Call K Text (Run P)) : pending? (c.start now call).2 = none := by
  have hstart := start_spec c now call
  generalize (c.start now call).1 = c', (c.start now call).2 = task at hstart
  cases hstart with
  | follow key sql tables hmiss h =>
    unfold pending?
    cases c.settled? _ <;> rfl
  | _ => rfl

/-- What a turn leaves under way began with it, or was under way before. -/
theorem pending?_turn {t n : Nat} {task task' : ServiceTask K P R E}
    {b : Cache.Act K Text (Computed R) E (Run P)} {c : QueryCacheCoordinator K Text (Computed R) E}
    (h : Turn s.service.core t task b c task')
    (hfin : ∀ answer since, b = .finish t answer → task.phase = .running .warehouse since →
      ∃ data, answer = some data ∧ data.began = since)
    (hn : pending? task' = some n) : n = s.service.core.clock ∨ pending? task = some n := by
  cases h with
  | @begin src hp =>
    cases src with
    | l2 => cases hn
    | warehouse => exact .inl (Option.some.inj hn).symm
  | @finish src since answer hp ha =>
    right
    cases src with
    | l2 => cases hn
    | warehouse =>
      obtain ⟨data, rfl, rfl⟩ := hfin answer since rfl hp
      rw [pending?, hp]
      exact hn
  | cancelFollower hf hp | cancelOther hp => exact .inr hn
  | _ => cases hn

/-- What is under way after a step began with it, or was under way before. -/
theorem pending?_step {a : Act K P R E} (h : step u cacheKey reload s a = some s')
    {task' : ServiceTask K P R E} {n : Nat} (hmem : task' ∈ s'.tasks)
    (hn : pending? task' = some n) : s.service.core.clock ≤ n ∨
      ∃ task ∈ s.tasks, task.call = task'.call ∧ pending? task = some n := by
  have hservice {b : Service.Act K P (Computed R) E} {v : Service.State K P (Computed R) E}
      (hv : Service.step u cacheKey s.service b = some v) (hmem : task' ∈ v.core.tasks)
      (hfin : ∀ t task answer since, b = .task (.finish t answer) → s.tasks[t]? = some task →
        task.phase = .running .warehouse since → ∃ data, answer = some data ∧ data.began = since) :
      s.service.core.clock ≤ n ∨
        ∃ task ∈ s.tasks, task.call = task'.call ∧ pending? task = some n := by
    rcases tasks_of_service hv with ⟨htasks, -⟩ | ⟨run, call, rfl, htasks, -⟩ |
      ⟨b, t, task, c, new, rfl, -, ht, hturn, htasks, -⟩
    · rw [htasks] at hmem
      exact .inr ⟨task', hmem, rfl, hn⟩
    · rw [htasks] at hmem
      rcases List.mem_append.mp hmem with hmem | hmem
      · exact .inr ⟨task', hmem, rfl, hn⟩
      · obtain rfl := List.mem_singleton.mp hmem
        rw [pending?_start] at hn
        cases hn
    · rw [htasks] at hmem
      rcases List.mem_or_eq_of_mem_set hmem with hmem | rfl
      · exact .inr ⟨task', hmem, rfl, hn⟩
      · rcases pending?_turn hturn (fun answer since he ↦ hfin t task answer since (by rw [he]) ht)
          hn with rfl | hold
        · exact .inl (Nat.le_refl _)
        · exact .inr ⟨task, List.mem_of_getElem? ht, hturn.seat.1.symm, hold⟩
  rcases step_cases h with ⟨run, v, rfl, hv, rfl⟩ | ⟨b, v, rfl, hadm, hv, rfl⟩ |
    ⟨t, task, key, sql, tables, since, v, rfl, ht, hc, hp, hv, rfl⟩ | ⟨t, e, rfl, -, rfl⟩ |
    ⟨j, job, key, rfl, -, -, rfl⟩ | ⟨j, rfl, rfl⟩
  · exact hservice hv hmem (by simp)
  · rw [State.tasks, State.after_service] at hmem
    refine hservice hv hmem fun t task answer since he ht hp ↦ ?_
    obtain rfl := Service.Act.task.inj he
    exact State.admits_finish hadm ht hp
  · refine hservice hv hmem fun t' task' answer since' he ht' hp' ↦ ?_
    obtain ⟨rfl, -⟩ := Cache.Act.finish.inj (Service.Act.task.inj he)
    obtain rfl := Option.some.inj (ht.symm.trans ht')
    rw [hp] at hp'
    cases hp'
  · exact .inr ⟨task', hmem, rfl, hn⟩
  · exact .inr ⟨task', hmem, rfl, hn⟩
  · exact .inr ⟨task', hmem, rfl, hn⟩

/-- The clock does not go back. -/
theorem clock_step {a : Act K P R E} (h : step u cacheKey reload s a = some s') :
    s.service.core.clock ≤ s'.service.core.clock := by
  have hservice {b : Service.Act K P (Computed R) E} {v : Service.State K P (Computed R) E}
      (hv : Service.step u cacheKey s.service b = some v) :
      s.service.core.clock ≤ v.core.clock := by
    rcases tasks_of_service hv with ⟨-, hle, -⟩ | ⟨_, _, _, -, hle⟩ |
      ⟨_, _, _, _, _, _, _, _, _, -, hle⟩
    · exact hle
    · exact hle
    · exact hle
  rcases step_cases h with ⟨run, v, rfl, hv, rfl⟩ | ⟨b, v, rfl, hadm, hv, rfl⟩ |
    ⟨t, task, key, sql, tables, since, v, rfl, ht, hc, hp, hv, rfl⟩ | ⟨t, e, rfl, -, rfl⟩ |
    ⟨j, job, key, rfl, -, -, rfl⟩ | ⟨j, rfl, rfl⟩
  · exact hservice hv
  · rw [State.after_service]
    exact hservice hv
  · exact hservice hv
  · exact Nat.le_refl _
  · exact Nat.le_refl _
  · exact Nat.le_refl _

/-- A job is new only when a lookup goes on with rows from the warehouse. -/
theorem job_of_after {v : Service.State K P (Computed R) E}
    {b : Cache.Act K Text (Computed R) E (Run P)} {job : Persist P R}
    (h : job ∈ (s.after v b).jobs) : job ∈ s.jobs ∨
      ∃ t task key tables since finished, b = .resume t ∧ s.tasks[t]? = some task ∧
        task.call = .lookup key job.run tables ∧
        task.phase = .answered .warehouse since finished (some job.data) := by
  rcases s.after_cases v b with ⟨t, rfl, heq⟩ | ⟨t, -, heq⟩ | heq
  · rw [heq] at h
    rcases s.resumed_cases t v with
      ⟨task, key, run, tables, src, since, finished, data, ht, hc, hp, heq⟩ |
      ⟨task, run, tables, precise, ht, hc, hp, heq⟩ | heq
    · rw [heq] at h
      dsimp only at h
      split at h
      · next hsrc =>
        rcases List.mem_append.mp h with h | h
        · exact .inl h
        · obtain rfl := List.mem_singleton.mp h
          rw [hsrc.1] at hp
          exact .inr ⟨t, task, key, tables, since, finished, rfl, ht, hc, hp⟩
      · exact .inl h
    · rw [heq] at h
      exact .inl h
    · rw [heq] at h
      exact .inl h
  · rw [heq] at h
    exact .inl h
  · rw [heq] at h
    exact .inl h

/-- A job is new only when a lookup hands over the rows that it has waited for. -/
theorem jobs_after {v : Service.State K P (Computed R) E}
    {b : Cache.Act K Text (Computed R) E (Run P)} {job : Persist P R}
    (h : job ∈ (s.after v b).jobs) : job ∈ s.jobs ∨
      ∃ task ∈ s.tasks, task.call.key?.isSome ∧ task.call.sql = job.run ∧
        pending? task = some job.data.began := by
  rcases job_of_after h with hold | ⟨t, task, key, tables, since, finished, -, ht, hc, hp⟩
  · exact .inl hold
  · refine .inr ⟨task, List.mem_of_getElem? ht, ?_, ?_, ?_⟩
    · rw [hc]
      rfl
    · rw [hc]
      rfl
    · rw [pending?, hp]

/-- The table and the record of it do not depend on the service. -/
theorem table_after (v : Service.State K P (Computed R) E)
    (b : Cache.Act K Text (Computed R) E (Run P)) :
    (s.after v b).l2 = s.l2 ∧ (s.after v b).purged = s.purged ∧
      (s.after v b).stored = s.stored := by
  rcases s.after_cases v b with ⟨t, -, heq⟩ | ⟨t, -, heq⟩ | heq
  · rw [heq]
    rcases s.resumed_cases t v with ⟨_, _, _, _, _, _, _, _, _, _, _, heq⟩ |
      ⟨_, _, _, _, _, _, _, heq⟩ | heq
    · rw [heq]
      exact ⟨rfl, rfl, rfl⟩
    · rw [heq]
      exact ⟨rfl, rfl, rfl⟩
    · rw [heq]
      exact ⟨rfl, rfl, rfl⟩
  · rw [heq]
    exact ⟨rfl, rfl, rfl⟩
  · rw [heq]
    exact ⟨rfl, rfl, rfl⟩

end Pending

/-- Whatever a purge is about is younger than the purge: the rows, the jobs and the executions
under way. -/
structure PurgeInv (u : Unicode) (s : State K P R E) : Prop where
  rows : ∀ key row, s.l2.rows.get? key = some row → ∀ e ∈ s.purged,
    e.Concerns u row.querySql → e.step ≤ row.resultData.began
  jobs : ∀ job ∈ s.jobs, ∀ e ∈ s.purged, e.Concerns u job.run.sql → e.step ≤ job.data.began
  tasks : ∀ task ∈ s.tasks, task.call.key?.isSome → ∀ n, pending? task = some n →
    ∀ e ∈ s.purged, e.Concerns u task.call.sql.sql → e.step ≤ n
  past : ∀ e ∈ s.purged, e.step ≤ s.service.core.clock

private theorem PurgeInv.service (h : PurgeInv u s) {a : Act K P R E}
    (hstep : step u cacheKey reload s a = some s') (hl2 : s'.l2 = s.l2)
    (hpurged : s'.purged = s.purged)
    (hjobs : ∀ job ∈ s'.jobs, job ∈ s.jobs ∨ ∃ task ∈ s.tasks, task.call.key?.isSome ∧
      task.call.sql = job.run ∧ pending? task = some job.data.began) : PurgeInv u s' := by
  constructor
  · rw [hl2, hpurged]
    exact h.rows
  · intro job hmem e he hnames
    rw [hpurged] at he
    rcases hjobs job hmem with hold | ⟨task, htask, hkey, hrun, hpend⟩
    · exact h.jobs job hold e he hnames
    · refine h.tasks task htask hkey _ hpend e he ?_
      rw [hrun]
      exact hnames
  · intro task' hmem hkey n hn e he hnames
    rw [hpurged] at he
    rcases pending?_step hstep hmem hn with hle | ⟨task, htask, hcall, hpend⟩
    · exact (h.past e he).trans hle
    · rw [← hcall] at hkey hnames
      exact h.tasks task htask hkey n hpend e he hnames
  · intro e he
    rw [hpurged] at he
    exact (h.past e he).trans (clock_step hstep)

/-- No step breaks the invariant, if nothing is under way that a purge ought to reach. -/
theorem PurgeInv.step (h : PurgeInv u s) {a : Act K P R E} (hok : Settled u cacheKey s a)
    (hstep : step u cacheKey reload s a = some s') : PurgeInv u s' := by
  rcases step_cases hstep with ⟨run, v, rfl, hv, rfl⟩ | ⟨b, v, rfl, hadm, hv, rfl⟩ |
    ⟨t, task, key, sql, tables, since, v, rfl, ht, hc, hp, hv, rfl⟩ |
    ⟨t, new, rfl, hnext, rfl⟩ | ⟨j, job, key, rfl, hjob, hkey, rfl⟩ | ⟨j, rfl, rfl⟩
  · exact h.service hstep rfl rfl fun job hmem ↦ .inl hmem
  · obtain ⟨hl2, hpurged, -⟩ := table_after (s := s) v b
    exact h.service hstep hl2 hpurged fun job hmem ↦ jobs_after hmem
  · exact h.service hstep rfl rfl fun job hmem ↦ .inl hmem
  · obtain ⟨hjobs, htasks⟩ := hok new hnext
    obtain ⟨-, -, -, -, -, -, hnow⟩ := State.nextPurge?_eq_some hnext
    have hcases {e : Purged} (he : e ∈ s.purged ++ [new]) : e ∈ s.purged ∨ e = new := by
      rcases List.mem_append.mp he with he | he
      · exact .inl he
      · exact .inr (List.mem_singleton.mp he)
    constructor
    · intro key row hrow e he hnames
      obtain ⟨hrow, hdel⟩ := QueryResultCache.get?_purge.mp hrow
      rcases hcases he with he | rfl
      · exact h.rows key row hrow e he hnames
      · rw [Purge.deletes_of_names hnames.2] at hdel
        cases hdel
    · intro job hmem e he hnames
      rcases hcases he with he | rfl
      · exact h.jobs job hmem e he hnames
      · exact absurd hnames (hjobs job hmem)
    · intro task hmem hkey n hn e he hnames
      rcases hcases he with he | rfl
      · exact h.tasks task hmem hkey n hn e he hnames
      · exact absurd hnames (htasks task hmem hkey (by rw [hn]; rfl))
    · intro e he
      rcases hcases he with he | rfl
      · exact h.past e he
      · exact Nat.le_of_eq hnow
  · refine ⟨fun a row hrow e he hnames ↦ ?_, fun job' hmem ↦ ?_, h.tasks, h.past⟩
    · rcases QueryResultCache.get?_cacheResult hrow with ⟨rfl, hsql, hdata⟩ | ⟨-, hold⟩
      · rw [hdata]
        rw [hsql] at hnames
        exact h.jobs job (List.mem_of_getElem? hjob) e he hnames
      · exact h.rows a row hold e he hnames
    · exact h.jobs job' (List.mem_of_mem_eraseIdx hmem)
  · exact ⟨h.rows, fun job' hmem ↦ h.jobs job' (List.mem_of_mem_eraseIdx hmem), h.tasks, h.past⟩

/-- No row is older than a result that was stored under its key. -/
def StoredInv (s : State K P R E) : Prop :=
  ∀ key row, s.l2.rows.get? key = some row → ∀ b, (key, b) ∈ s.stored →
    b ≤ row.resultData.began

/-- No step breaks the invariant. -/
theorem StoredInv.step (h : StoredInv s) {a : Act K P R E} (hok : Settled u cacheKey s a)
    (hstep : step u cacheKey reload s a = some s') : StoredInv s' := by
  rcases step_cases hstep with ⟨run, v, rfl, hv, rfl⟩ | ⟨b, v, rfl, hadm, hv, rfl⟩ |
    ⟨t, task, key, sql, tables, since, v, rfl, ht, hc, hp, hv, rfl⟩ |
    ⟨t, new, rfl, hnext, rfl⟩ | ⟨j, job, key, rfl, hjob, hkey, rfl⟩ | ⟨j, rfl, rfl⟩
  · exact h
  · obtain ⟨hl2, -, hstored⟩ := table_after (s := s) v b
    unfold StoredInv
    rw [hl2, hstored]
    exact h
  · exact h
  · intro key row hrow b hb
    exact h key row (QueryResultCache.get?_purge.mp hrow).1 b hb
  · intro a row hrow b hb
    rcases QueryResultCache.get?_cacheResult hrow with ⟨rfl, -, hdata⟩ | ⟨hne, hold⟩
    · rw [hdata]
      rcases List.mem_append.mp hb with hb | hb
      · exact hok job (by rw [hjob]; rfl) (a, b) hb hkey
      · obtain ⟨-, rfl⟩ := Prod.mk.inj (List.mem_singleton.mp hb)
        exact Nat.le_refl _
    · rcases List.mem_append.mp hb with hb | hb
      · exact h a row hold b hb
      · exact absurd (Prod.mk.inj (List.mem_singleton.mp hb)).1 hne
  · exact h

/-- Write `i` on `tables` has done the purge, or still has to. -/
def Announced (s : State K P R E) (i : Nat) (tables : List Text) (p : Purge) : Prop :=
  p ∈ s.todo i ∨ ∃ e ∈ s.purged, e.task = i ∧ e.tables = tables ∧ e.purge = p

/-- The write is behind the invalidation of the first level. -/
def purging (task : ServiceTask K P R E) : Bool :=
  match task.phase with
  | .flushing .. | .written .. => true
  | _ => false

/-- A write behind the invalidation of the first level has announced the purges of all its
tables, and has done them when it returns. -/
structure DoneInv (s : State K P R E) : Prop where
  announced : ∀ (i : Nat) (w : ServiceTask K P R E), s.tasks[i]? = some w → purging w = true →
    Announced s i w.call.tables .all ∨ ∀ t ∈ w.call.tables, Announced s i w.call.tables (.table t)
  done : ∀ (i : Nat) (w : ServiceTask K P R E), s.tasks[i]? = some w → written w = true →
    s.todo i = []

section Keeping

omit [DecidableEq K]

private theorem purging_of_written {task : ServiceTask K P R E} (h : written task = true) :
    purging task = true := by
  unfold written at h
  unfold purging
  split at h
  · next hp => rw [hp]
  · cases h

private theorem announced_congr {i : Nat} (htodo : s'.todo i = s.todo i)
    (hpurged : s'.purged = s.purged) {tables : List Text} {p : Purge}
    (h : Announced s i tables p) : Announced s' i tables p := by
  unfold Announced
  rw [htodo, hpurged]
  exact h

namespace DoneInv

private theorem keep (h : DoneInv s) {i : Nat} {w w' : ServiceTask K P R E}
    (hw : s.tasks[i]? = some w) (hcall : w'.call = w.call) (hphase : w'.phase = w.phase)
    (htodo : s'.todo i = s.todo i) (hpurged : s'.purged = s.purged) :
    (purging w' = true → Announced s' i w'.call.tables .all ∨
      ∀ t ∈ w'.call.tables, Announced s' i w'.call.tables (.table t)) ∧
    (written w' = true → s'.todo i = []) := by
  constructor
  · intro hp
    rw [purging, hphase] at hp
    rw [hcall]
    exact (h.announced i w hw hp).imp (announced_congr htodo hpurged) fun hall t ht ↦
      announced_congr htodo hpurged (hall t ht)
  · intro hwr
    rw [written, hphase] at hwr
    rw [htodo]
    exact h.done i w hw hwr

private theorem of_tasks (h : DoneInv s)
    (htasks : ∀ (i : Nat) (w : ServiceTask K P R E), s'.tasks[i]? = some w →
      s.tasks[i]? = some w ∨ purging w = false)
    (htodo : s'.todo = s.todo) (hpurged : s'.purged = s.purged) : DoneInv s' := by
  constructor
  · intro i w hw hp
    rcases htasks i w hw with hold | hnew
    · unfold Announced
      rw [htodo, hpurged]
      exact h.announced i w hold hp
    · rw [hnew] at hp
      cases hp
  · intro i w hw hwr
    rcases htasks i w hw with hold | hnew
    · rw [htodo]
      exact h.done i w hold hwr
    · have hp := purging_of_written hwr
      rw [hnew] at hp
      cases hp

private theorem purged (h : DoneInv s) {t : Nat} {new : Purged}
    (hnext : s.nextPurge? t = some new) :
    DoneInv { s with
      l2 := s.l2.purge new.purge
      todo := Function.update s.todo t (s.todo t).tail
      purged := s.purged ++ [new] } := by
  obtain ⟨writer, rest, hwriter, htodo, hi, htables, -⟩ := State.nextPurge?_eq_some hnext
  have hmoved {i : Nat} {w : ServiceTask K P R E} {q : Purge} (hw : s.tasks[i]? = some w)
      (hq : Announced s i w.call.tables q) : Announced { s with
        l2 := s.l2.purge new.purge
        todo := Function.update s.todo t (s.todo t).tail
        purged := s.purged ++ [new] } i w.call.tables q := by
    rcases hq with hq | ⟨e, he, hei, het, hpe⟩
    · by_cases hit : i = t
      · subst hit
        obtain rfl := Option.some.inj (hw.symm.trans hwriter)
        rw [htodo] at hq
        rcases List.mem_cons.mp hq with rfl | hq
        · exact .inr ⟨new, List.mem_append_right _ (List.mem_singleton_self _), hi, htables, rfl⟩
        · refine .inl ?_
          dsimp only
          rw [Function.update_self, htodo]
          exact hq
      · refine .inl ?_
        dsimp only
        rw [Function.update_of_ne hit]
        exact hq
    · exact .inr ⟨e, List.mem_append_left _ he, hei, het, hpe⟩
  constructor
  · intro i w hw hp
    exact (h.announced i w hw hp).imp (hmoved hw) fun hall n hn ↦ hmoved hw (hall n hn)
  · intro i w hw hwr
    have hempty := h.done i w hw hwr
    have hne : i ≠ t := by
      rintro rfl
      rw [htodo] at hempty
      cases hempty
    dsimp only
    rw [Function.update_of_ne hne]
    exact hempty

end DoneInv

end Keeping

namespace DoneInv

private theorem turn (h : DoneInv s) {t : Nat}
    {task task' : ServiceTask K P R E} {b : Cache.Act K Text (Computed R) E (Run P)}
    {c : QueryCacheCoordinator K Text (Computed R) E} {v : Service.State K P (Computed R) E}
    (ht : s.tasks[t]? = some task) (hturn : Turn s.service.core t task b c task')
    (hadm : s.admits b = true) :
    (purging task' = true → Announced (s.after v b) t task'.call.tables .all ∨
      ∀ n ∈ task'.call.tables, Announced (s.after v b) t task'.call.tables (.table n)) ∧
    (written task' = true → (s.after v b).todo t = []) := by
  have hpurged := (table_after (s := s) v b).2.1
  cases hturn with
  | @invalidate sql tables precise src since finished data hc hp =>
    have htodo : (s.after v (.resume t)).todo t = purges s.service.core.cache tables precise :=
      State.todo_resumed_write ht hc hp
    refine ⟨fun _ ↦ ?_, fun hw ↦ by cases hw⟩
    unfold Announced
    rw [htodo, purges]
    split
    · right
      intro n hn
      left
      rw [hc] at hn
      exact List.mem_map_of_mem hn
    · exact .inl (.inl (List.mem_singleton_self _))
  | @flushed sql tables precise data finished hc hp =>
    have hempty : s.todo t = [] := by
      simpa [State.admits, ht, hp] using hadm
    have htodo : (s.after v (.resume t)).todo t = s.todo t := by
      apply State.todo_after
      · intro _ x hx src since fin answer hne
        obtain rfl := Option.some.inj (ht.symm.trans hx)
        rw [hp] at hne
        cases hne
      · simp
    refine ⟨fun _ ↦ ?_, fun _ ↦ htodo.trans hempty⟩
    have hpurging : purging task = true := by rw [purging, hp]
    exact (h.announced t task ht hpurging).imp (announced_congr htodo hpurged) fun hall n hn ↦
      announced_congr htodo hpurged (hall n hn)
  | cancelFollower hf hp | cancelOther hp =>
    refine h.keep ht rfl rfl (State.todo_after ?_ ?_) hpurged
    · simp
    · simp
  | _ => exact ⟨fun hp ↦ (by cases hp), fun hw ↦ (by cases hw)⟩

private theorem purging_start (c : QueryCacheCoordinator K Text (Computed R) E) (now : Time)
    (call : Call K Text (Run P)) : purging (c.start now call).2 = false := by
  have hstart := start_spec c now call
  generalize (c.start now call).1 = c', (c.start now call).2 = task at hstart
  cases hstart with
  | follow key sql tables hmiss h =>
    unfold purging
    cases c.settled? _ <;> rfl
  | _ => rfl

private theorem after (h : DoneInv s) {b : Cache.Act K Text (Computed R) E (Run P)}
    {v : Service.State K P (Computed R) E} (hadm : s.admits b = true)
    (hv : Service.step u cacheKey s.service (.task b) = some v) :
    DoneInv (s.after v b) := by
  have hpurged := (table_after (s := s) v b).2.1
  have hservice := s.after_service v b
  rcases tasks_of_service hv with ⟨htasks, -, hnone⟩ | ⟨run, call, hb, -, -⟩ |
    ⟨b', t, task, c, task', hb, hat, ht, hturn, htasks, -⟩
  · have hnone := hnone b rfl
    have hsame : s.after v b = { s with service := v } := by
      cases b <;> first | rfl | cases hnone
    rw [hsame]
    exact h.of_tasks (fun i w hw ↦ .inl (htasks ▸ hw)) rfl rfl
  · cases hb
  · obtain rfl := Service.Act.task.inj hb
    have hother (i : Nat) (hi : i ≠ t) : (s.after v b).todo i = s.todo i := by
      apply State.todo_after
      · rintro rfl
        exact absurd (Option.some.inj hat) hi
      · rintro rfl
        exact absurd (Option.some.inj hat) hi
    have hturned := h.turn (v := v) ht hturn hadm
    constructor
    · intro i w hw hp
      rw [State.tasks, hservice, htasks] at hw
      rcases getElem?_set_cases hw with ⟨rfl, rfl⟩ | ⟨hi, hold⟩
      · exact hturned.1 hp
      · exact (h.keep hold rfl rfl (hother i hi) hpurged).1 hp
    · intro i w hw hwr
      rw [State.tasks, hservice, htasks] at hw
      rcases getElem?_set_cases hw with ⟨rfl, rfl⟩ | ⟨hi, hold⟩
      · exact hturned.2 hwr
      · exact (h.keep hold rfl rfl (hother i hi) hpurged).2 hwr

/-- No step forgets a purge. -/
theorem step (h : DoneInv s) {a : Act K P R E}
    (hstep : WriteBehind.step u cacheKey reload s a = some s') : DoneInv s' := by
  rcases step_cases hstep with ⟨run, v, rfl, hv, rfl⟩ | ⟨b, v, rfl, hadm, hv, rfl⟩ |
    ⟨t, task, key, sql, tables, since, v, rfl, ht, hc, hp, hv, rfl⟩ |
    ⟨t, new, rfl, hnext, rfl⟩ | ⟨j, job, key, rfl, hjob, hkey, rfl⟩ | ⟨j, rfl, rfl⟩
  · rcases tasks_of_service hv with ⟨htasks, -, -⟩ | ⟨run, call, -, htasks, -⟩ |
      ⟨_, _, _, _, _, hb, -⟩
    · exact h.of_tasks (fun i w hw ↦ .inl (htasks ▸ hw)) rfl rfl
    · refine h.of_tasks (fun i w hw ↦ ?_) rfl rfl
      rw [State.tasks, htasks] at hw
      rcases getElem?_append_singleton hw with hold | ⟨-, rfl⟩
      · exact .inl hold
      · exact .inr (purging_start _ _ _)
    · cases hb
  · exact h.after hadm hv
  · -- The answer of the table only makes a lookup go on.
    rcases tasks_of_service hv with ⟨-, -, hnone⟩ | ⟨run, call, hb, -, -⟩ |
      ⟨b', t', task', c, new, hb, hat, ht', hturn, htasks, -⟩
    · exact absurd (hnone _ rfl) (by simp [Cache.Act.task?])
    · cases hb
    · obtain rfl := Service.Act.task.inj hb
      obtain rfl := Option.some.inj hat
      have hnew : purging new = false := by
        cases hturn with
        | finish hp ha => rfl
        | throwLookup _ _ _ _ | throwWrite _ _ => rfl
      refine h.of_tasks (fun i w hw ↦ ?_) rfl rfl
      rw [State.tasks, htasks] at hw
      rcases getElem?_set_cases hw with ⟨-, rfl⟩ | ⟨-, hold⟩
      · exact .inr hnew
      · exact .inl hold
  · exact h.purged hnext
  · exact h.of_tasks (fun _ _ hw ↦ .inl hw) rfl rfl
  · exact h.of_tasks (fun _ _ hw ↦ .inl hw) rfl rfl

end DoneInv

/-- The purges of every write that has returned are done, in every run. -/
theorem doneInv_of_reach {l1MaxSize : Nat} {l1TtlSeconds : Int} {hpos : 0 < l1MaxSize}
    {ok : State K P R E → Act K P R E → Prop}
    (h : (system (E := E) u cacheKey reload l1MaxSize l1TtlSeconds hpos).Reach ok s) :
    DoneInv s := by
  refine h.invariant (P := DoneInv) ?_ fun _ _ _ hs _ hstep ↦ hs.step hstep
  constructor <;> simp [system, State.tasks, Service.system, Cache.system]

/-- As long as no execution and no job of a statement is under way when its tables are purged,
and the results for one key are stored in the order of their executions, nothing that is stored
is older than a purge of its tables or than another result for its key. -/
theorem rows_notResurrected {l1MaxSize : Nat} {l1TtlSeconds : Int} {hpos : 0 < l1MaxSize}
    (h : (system (E := E) u cacheKey reload l1MaxSize l1TtlSeconds hpos).Reach
      (Settled u cacheKey) s) : s.NotResurrected u := by
  have hpurge : PurgeInv u s := by
    refine h.invariant (P := PurgeInv u) ?_ fun _ _ _ hs hok hstep ↦ hs.step hok hstep
    constructor <;> simp [system, State.tasks, Service.system, Cache.system]
  have hstored : StoredInv s := by
    refine h.invariant (P := StoredInv) ?_ fun _ _ _ hs hok hstep ↦ hs.step hok hstep
    intro key row _ b hb
    cases hb
  have hdone : DoneInv s := doneInv_of_reach h
  have hcall : CallInv u cacheKey s.service := callInv_of_reach (service_reach h)
  intro _ key row hrow
  refine ⟨fun i w hw hwr hshares ↦ ⟨?_, fun e he _ ↦ hpurge.rows key row hrow e he⟩,
    hstored key row hrow⟩
  -- All purges that the write has announced are done.
  have hpast {p : Purge} (hp : Announced s i w.call.tables p) (hnames : p.Names u row.querySql) :
      ∃ e ∈ s.purged, e.task = i ∧ e.Concerns u row.querySql := by
    rcases hp with hp | ⟨e, he, hi, htables, rfl⟩
    · rw [hdone.done i w hw hwr] at hp
      cases hp
    · refine ⟨e, he, hi, ?_, hnames⟩
      rw [htables, tables_of_call? (hcall w (List.mem_of_getElem? hw))]
      exact hshares
  rcases hdone.announced i w hw (purging_of_written hwr) with hall | htables
  · exact hpast hall trivial
  · obtain ⟨t, ht, htw⟩ := List.any_eq_true.mp hshares
    rw [← tables_of_call? (hcall w (List.mem_of_getElem? hw))] at htw
    exact hpast (htables t (by simpa using htw)) ht

instance (s : State K P R E) (a : Act K P R E) : Decidable (Settled u cacheKey s a) :=
  match a with
  | .purge t => inferInstanceAs (Decidable (∀ e ∈ s.nextPurge? t,
      (∀ job ∈ s.jobs, ¬e.Concerns u job.run.sql) ∧
      ∀ task ∈ s.tasks, task.call.key?.isSome → (pending? task).isSome →
        ¬e.Concerns u task.call.sql.sql))
  | .store j => inferInstanceAs (Decidable (∀ job ∈ s.jobs[j]?, ∀ e ∈ s.stored,
      e.1 = cacheKey job.run.sql job.run.params → e.2 ≤ job.data.began))
  | .run _ | .task _ | .select _ | .drop _ => isTrue trivial

/-- The service of the examples: a statement is its own key, and rows are numbers. -/
def demo : System (State Text Unit Nat Nat) (Act Text Unit Nat Nat) :=
  system .basic (fun sql _ ↦ sql) id 4 3600 (by decide)

/-- A read of the orders. -/
def readOrders : Run Unit := ⟨⟨true, true⟩, "SELECT * FROM orders".toList, (), []⟩

/-- A write on the orders. -/
def deleteOrders : Run Unit := ⟨⟨true, true⟩, "DELETE FROM orders".toList, (), "write".toList⟩

/-- A read misses both levels and asks the warehouse. -/
def missed (t : Nat) : List (Act Text Unit Nat Nat) :=
  [.run readOrders, .task (.begin t), .select t, .task (.resume t), .task (.begin t)]

/-- A write is executed, purges and returns. -/
def deleted (t began : Nat) : List (Act Text Unit Nat Nat) :=
  [.run deleteOrders, .task (.begin t), .task (.finish t (some ⟨[], began⟩)), .task (.resume t),
    .purge t, .task (.resume t)]

/-- The write's task once it has returned. -/
def deletedOrders (began finished : Nat) : ServiceTask Text Unit Nat Nat :=
  ⟨.write deleteOrders ["orders".toList] true, none, false, false, .written ⟨[], began⟩ finished⟩

/-- The row of the read. -/
def ordersRow (began : Nat) : CachedResult (Computed Nat) :=
  ⟨readOrders.sql, ⟨[7], began⟩, some 3600⟩

private theorem shares_orders : shares (extractTables .basic readOrders.sql)
    (extractTables .basic deleteOrders.sql) = true := by
  decide +kernel

/-- The read's execution began before the write; its rows are stored behind the write's purge
and stay there. -/
theorem overtakenRead_resurrects : ¬ ∀ s, demo.Reachable s → s.NotResurrected .basic := by
  intro h
  obtain ⟨s, hs, hend⟩ := System.exists_of_exec demo (fun _ _ ↦ True)
    (missed 0 ++ deleted 1 6 ++
      [.task (.finish 0 (some ⟨[7], 4⟩)), .task (.resume 0), .store 0])
    (fun s ↦ s.jobs.isEmpty && s.tasks.all (fun task ↦ !task.phase.open?) &&
      s.l2.rows.get? readOrders.sql == some (ordersRow 4) &&
      s.purged == [⟨1, ["orders".toList], .all, 9⟩] &&
      s.tasks[1]? == some (deletedOrders 6 7)) (by decide +kernel)
  simp only [Bool.and_eq_true, beq_iff_eq, List.isEmpty_iff, List.all_eq_true,
    Bool.not_eq_true'] at hend
  obtain ⟨⟨⟨⟨hjobs, htasks⟩, hrow⟩, hpurged⟩, hwrite⟩ := hend
  have hyoung := ((h s hs ⟨hjobs, htasks⟩ _ _ hrow).1 1 _ hwrite rfl shares_orders).2
    ⟨1, ["orders".toList], .all, 9⟩ (by rw [hpurged]; exact List.mem_singleton_self _) rfl
    ⟨shares_orders, trivial⟩
  exact absurd hyoung (by decide)

/-- A read behind the write leaves the rows of its own execution. -/
theorem rows_notResurrected_orderedRead :
    ∃ s, demo.Reach (Settled .basic fun sql _ ↦ sql) s ∧ s.Drained ∧
      s.l2.rows.get? readOrders.sql = some (ordersRow 9) ∧
      s.purged = [⟨0, ["orders".toList], .all, 4⟩] ∧ s.NotResurrected .basic := by
  obtain ⟨s, hs, hend⟩ := System.exists_of_exec demo (Settled .basic fun sql _ ↦ sql)
    (deleted 0 1 ++ missed 1 ++
      [.task (.finish 1 (some ⟨[7], 9⟩)), .task (.resume 1), .store 0])
    (fun s ↦ s.jobs.isEmpty && s.tasks.all (fun task ↦ !task.phase.open?) &&
      s.l2.rows.get? readOrders.sql == some (ordersRow 9) &&
      s.purged == [⟨0, ["orders".toList], .all, 4⟩])
    (by decide +kernel)
  simp only [Bool.and_eq_true, beq_iff_eq, List.isEmpty_iff, List.all_eq_true,
    Bool.not_eq_true'] at hend
  obtain ⟨⟨⟨hjobs, htasks⟩, hrow⟩, hpurged⟩ := hend
  exact ⟨s, hs, ⟨hjobs, htasks⟩, hrow, hpurged, rows_notResurrected hs⟩

end SalesData.Service.WriteBehind

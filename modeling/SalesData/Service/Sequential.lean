import SalesData.Service.Age
import SalesData.Sql.Names

/-!
# Statements one at a time

With one call at a time and a drained queue only the last call can be open. Which rows are younger
than the writes before them is kept by every call and by every turn that is no invalidation, as
long as what it carries, stores and returns is young enough.
-/

namespace SalesData.Service.WriteBehind

open Base Sql Cache

variable {K P R E : Type}

/-- A call is made when the ones before have ended and the queue is drained. -/
def Sequential (s : State K P R E) : Act K P R E → Prop
  | .run _ => s.jobs = [] ∧ ∀ task ∈ s.tasks, task.phase.open? = false
  | _ => True

/-- A query that returns behind a write on a table that it lists returns rows of an execution
that began behind the write's. -/
def State.Covered (s : State K P R E) : Prop :=
  ∀ (i j : Nat) (task w : ServiceTask K P R E) (r : CacheLookupResult Text (Computed R))
    (data : Computed R) (finished : Nat), s.tasks[i]? = some task → s.tasks[j]? = some w → j < i →
    task.phase = .ended (.returned r) → w.phase = .written data finished →
    touches task.call.sql.sql w.call.sql.sql = true → finished < r.data.data.began

/-- The beginning of the execution whose rows the task has in hand, or waits for. -/
def carried? (task : ServiceTask K P R E) : Option Nat :=
  match task.phase with
  | .running .warehouse since => some since
  | .answered _ _ _ (some data) => some data.began
  | _ => none

/-- A task that carries an execution is not over. -/
theorem open?_of_carried? {task : ServiceTask K P R E} {n : Nat} (h : carried? task = some n) :
    task.phase.open? = true := by
  unfold carried? at h
  split at h
  · next hp => rw [hp]; rfl
  · next hp => rw [hp]; rfl
  · cases h

/-- Rows of this execution are younger than every write that has invalidated and concerns the
query. -/
def State.Younger (s : State K P R E) (sql : Text) (began : Nat) : Prop :=
  ∀ w ∈ s.tasks, ∀ finished, w.phase.invalidated? = some finished →
    touches sql w.call.sql.sql = true → finished < began

/-- A pending execution is carried. -/
theorem carried?_of_pending? {task : ServiceTask K P R E} {n : Nat} (h : pending? task = some n) :
    carried? task = some n := by
  unfold pending? at h
  unfold carried?
  split at h
  · next hp => rw [hp]; exact h
  · next hp => rw [hp]; exact h
  · cases h

variable {u : Unicode} {cacheKey : Text → P → K} {s s' : State K P R E}

/-- A step that lets no write count as invalidated that did not before. -/
def Kept (s s' : State K P R E) : Prop :=
  ∀ (j : Nat) (w' : ServiceTask K P R E) (finished : Nat), s'.tasks[j]? = some w' →
    w'.phase.invalidated? = some finished →
    ∃ w, s.tasks[j]? = some w ∧ w.call = w'.call ∧ w.phase.invalidated? = some finished

/-- What is younger stays younger. -/
theorem Kept.younger (h : Kept s s') {sql : Text} {n : Nat} (hy : s.Younger sql n) :
    s'.Younger sql n := by
  intro w' hw' finished hfin htouch
  obtain ⟨j, hj⟩ := List.getElem?_of_mem hw'
  obtain ⟨w, hw, hcall, hold⟩ := h j w' finished hj hfin
  rw [← hcall] at htouch
  exact hy w (List.mem_of_getElem? hw) finished hold htouch

private theorem lookup_of_call? {new run : Run P} {key : K} {tables : List Text}
    (h : new.call? u cacheKey = some (.lookup key run tables)) :
    run = new ∧ key = cacheKey new.sql new.params ∧ tables = extractTables u new.sql := by
  unfold Run.call? at h
  split at h
  · cases h
  · split at h
    · cases h
    · obtain ⟨hk, hr, ht⟩ := Call.lookup.inj (Option.some.inj h)
      exact ⟨hr.symm, hk.symm, ht.symm⟩

/-- A lookup has the key and the tables of its statement. -/
theorem lookup_of_mem (hcall : CallInv u cacheKey s.service) {task : ServiceTask K P R E}
    (hmem : task ∈ s.tasks) {key : K} {run : Run P} {tables : List Text}
    (hc : task.call = .lookup key run tables) :
    key = cacheKey run.sql run.params ∧ tables = extractTables u run.sql := by
  have h := hcall task hmem
  rw [hc] at h
  exact (lookup_of_call? h).2

section TurnOfOne

variable {t : Nat} {task task' : ServiceTask K P R E}

/-- Behind a turn of task `t` every task is this one or an old one. -/
theorem cases_set (htasks : s'.tasks = s.tasks.set t task') {i : Nat}
    {x : ServiceTask K P R E} (hx : s'.tasks[i]? = some x) :
    i = t ∧ x = task' ∨ i ≠ t ∧ s.tasks[i]? = some x := by
  rw [htasks] at hx
  exact getElem?_set_cases hx

private theorem call_set (ht : s.tasks[t]? = some task) (hcall : task'.call = task.call)
    (htasks : s'.tasks = s.tasks.set t task') {x : ServiceTask K P R E} (hx : x ∈ s.tasks) :
    ∃ x' ∈ s'.tasks, x'.call = x.call := by
  obtain ⟨i, hi⟩ := List.getElem?_of_mem hx
  rw [htasks]
  by_cases hit : i = t
  · subst hit
    obtain rfl := Option.some.inj (hi.symm.trans ht)
    exact ⟨task', List.mem_set (List.getElem?_eq_some_iff.mp ht).1 task', hcall⟩
  · refine ⟨x, List.mem_of_getElem? (i := i) ?_, rfl⟩
    rw [List.getElem?_set_ne (Ne.symm hit)]
    exact hi

private theorem kept_set (ht : s.tasks[t]? = some task) (hcall : task'.call = task.call)
    (htasks : s'.tasks = s.tasks.set t task')
    (hkept : ∀ finished, task'.phase.invalidated? = some finished →
      task.phase.invalidated? = some finished) : Kept s s' := by
  intro j w' finished hj hp
  rcases cases_set htasks hj with ⟨rfl, rfl⟩ | ⟨-, hold⟩
  · exact ⟨task, ht, hcall.symm, hkept finished hp⟩
  · exact ⟨w', hold, rfl, hp⟩

end TurnOfOne

variable [DecidableEq K]

/-- The invalidation of a write on `tables` reaches a query: it is not narrowed, or the two
statements share a name, or the first level has no entry for the query and the second one no row
that the patterns miss. -/
def State.Reaches (u : Unicode) (s : State K P R E) (key : K) (sql : Text) (tables : List Text)
    (precise : Bool) : Prop :=
  (precise && (s.service.core.cache.invalidateTables tables).1) = false ∨
    shares (extractTables u sql) tables = true ∨
    s.service.core.cache.l1.entryFor key = none ∧
      ∀ row ∈ s.l2.rows.get? key, ∃ t ∈ tables, (Purge.table t).deletes row.querySql = true

/-- A write's invalidation reaches every query before it that lists the write's table. -/
def Reaching (u : Unicode) (s : State K P R E) : Act K P R E → Prop
  | .task (.resume t) => ∀ w ∈ s.tasks[t]?, ∀ task ∈ s.tasks,
    match w.call, w.phase, task.call with
    | .write run tables precise, .answered .., .lookup key query _ =>
      touches query.sql run.sql = true → s.Reaches u key query.sql tables precise
    | _, _, _ => True
  | _ => True

/-- The invariant of sequential runs. -/
structure SeqInv (cacheKey : Text → P → K) (s : State K P R E) : Prop where
  /-- Only the last call can be open. -/
  alone : ∀ (i : Nat) (task : ServiceTask K P R E), s.tasks[i]? = some task →
    task.phase.open? = true → i + 1 = s.tasks.length
  calm : ∀ task ∈ s.tasks, task.phase ≠ .awaiting
  quiet : ∀ w ∈ s.tasks, w.phase.open? = true → w.call.key? = none → s.jobs = []
  past : ∀ task ∈ s.tasks, ∀ finished, task.phase.finished? = some finished →
    finished < s.service.core.clock
  entries : ∀ key e, s.service.core.cache.l1.entryFor key = some e →
    ∃ task ∈ s.tasks, ∃ run, task.call = .lookup key run e.value.tables ∧
      s.Younger run.sql e.value.data.began
  rows : ∀ key row, s.l2.rows.get? key = some row →
    (∃ task ∈ s.tasks, ∃ run tables, task.call = .lookup key run tables ∧
      run.sql = row.querySql) ∧
    ∀ (j : Nat) (w : ServiceTask K P R E) (finished : Nat), s.tasks[j]? = some w →
      w.phase.invalidated? = some finished → touches row.querySql w.call.sql.sql = true →
      finished < row.resultData.began ∨ ∃ p ∈ s.todo j, p.deletes row.querySql = true
  jobs : ∀ job ∈ s.jobs, (∃ task ∈ s.tasks, ∃ tables,
    task.call = .lookup (cacheKey job.run.sql job.run.params) job.run tables) ∧
    s.Younger job.run.sql job.data.began
  carried : ∀ task ∈ s.tasks, task.call.key?.isSome → ∀ n, carried? task = some n →
    s.Younger task.call.sql.sql n
  served : ∀ (i j : Nat) (task w : ServiceTask K P R E)
    (r : CacheLookupResult Text (Computed R)) (finished : Nat), s.tasks[i]? = some task →
    s.tasks[j]? = some w → j < i → task.phase = .ended (.returned r) →
    w.phase.invalidated? = some finished → touches task.call.sql.sql w.call.sql.sql = true →
    finished < r.data.data.began

variable {reload : List R → List R}

/-- Nothing is younger than what begins now. -/
theorem SeqInv.younger_now (h : SeqInv cacheKey s) (sql : Text) :
    s.Younger sql s.service.core.clock := by
  intro w hw finished hfin _
  exact h.past w hw finished (Phase.finished?_of_invalidated? hfin)

section Calls

private theorem start_alone (hflight : FlightInv s.service.core)
    (hclosed : ∀ task ∈ s.tasks, task.phase.open? = false) {call : Call K Text (Run P)}
    {c : QueryCacheCoordinator K Text (Computed R) E} {task : ServiceTask K P R E}
    (h : Start s.service.core.cache s.now call c task) :
    task.phase ≠ .awaiting ∧ task.phase.finished? = none ∧ carried? task = none ∧
      ∀ key e, c.l1.entryFor key = some e → s.service.core.cache.l1.entryFor key = some e := by
  cases h with
  | write => exact ⟨by simp, rfl, rfl, fun _ _ he ↦ he⟩
  | hit | lead =>
    exact ⟨by simp, rfl, rfl, fun _ _ he ↦ HybridQueryCache.entryFor_of_get he⟩
  | follow key sql tables hmiss hr =>
    obtain ⟨leader, hleader, -, -, hfetching⟩ := hflight.registered key _ hr
    have hopen := Phase.open?_of_fetching hfetching
    rw [hclosed leader hleader] at hopen
    cases hopen

end Calls

namespace SeqInv

private theorem called (h : SeqInv cacheKey s) (hjobs : s.jobs = [])
    (hclosed : ∀ task ∈ s.tasks, task.phase.open? = false)
    {c : QueryCacheCoordinator K Text (Computed R) E} {new : ServiceTask K P R E}
    (hcalm : new.phase ≠ .awaiting) (hfin : new.phase.finished? = none)
    (hcarried : carried? new = none)
    (hl1 : ∀ key e, c.l1.entryFor key = some e → s.service.core.cache.l1.entryFor key = some e)
    (hentry : ∀ r, new.phase = .ended (.returned r) →
      s.Younger new.call.sql.sql r.data.data.began) {served : List (Nat × Time)} :
    SeqInv cacheKey { s with
      service := { s.service with core := { s.service.core with
        cache := c, tasks := s.service.core.tasks ++ [new], clock := s.service.core.clock + 1 } }
      served := served } := by
  have hmem {x : ServiceTask K P R E} (hx : x ∈ s.tasks ++ [new]) : x ∈ s.tasks ∨ x = new := by
    rw [List.mem_append, List.mem_singleton] at hx
    exact hx
  have hnot {finished : Nat} (hp : new.phase.invalidated? = some finished) : False := by
    rw [Phase.finished?_of_invalidated? hp] at hfin
    cases hfin
  have hkept {s' : State K P R E} (hs' : s'.tasks = s.tasks ++ [new]) : Kept s s' := by
    intro j w' finished hj hp
    rw [hs'] at hj
    rcases getElem?_append_singleton hj with hold | ⟨-, rfl⟩
    · exact ⟨w', hold, rfl, hp⟩
    · exact (hnot hp).elim
  constructor
  · intro i x hx hopen
    rcases getElem?_append_singleton hx with hold | ⟨rfl, rfl⟩
    · rw [hclosed x (List.mem_of_getElem? hold)] at hopen
      cases hopen
    · simp [State.tasks]
  · intro x hx
    rcases hmem hx with hx | rfl
    · exact h.calm x hx
    · exact hcalm
  · exact fun _ _ _ _ ↦ hjobs
  · intro x hx finished hp
    rcases hmem hx with hx | rfl
    · exact Nat.lt_succ_of_lt (h.past x hx finished hp)
    · rw [hfin] at hp
      cases hp
  · intro key e he
    obtain ⟨x, hx, run, hc, hy⟩ := h.entries key e (hl1 key e he)
    exact ⟨x, List.mem_append_left _ hx, run, hc, (hkept rfl).younger hy⟩
  · intro key row hrow
    obtain ⟨⟨x, hx, run, tables, hc, hsql⟩, hyoung⟩ := h.rows key row hrow
    refine ⟨⟨x, List.mem_append_left _ hx, run, tables, hc, hsql⟩, fun j w finished hw hp ↦ ?_⟩
    rcases getElem?_append_singleton hw with hold | ⟨-, rfl⟩
    · exact hyoung j w finished hold hp
    · exact (hnot hp).elim
  · intro job hjob
    replace hjob : job ∈ s.jobs := hjob
    rw [hjobs] at hjob
    cases hjob
  · intro x hx hlookup n hn
    rcases hmem hx with hx | rfl
    · exact (hkept rfl).younger (h.carried x hx hlookup n hn)
    · rw [hcarried] at hn
      cases hn
  · intro i j x w r finished hx hw hji hp hwp
    have hwold : s.tasks[j]? = some w := by
      rcases getElem?_append_singleton hw with hold | ⟨-, rfl⟩
      · exact hold
      · exact (hnot hwp).elim
    rcases getElem?_append_singleton hx with hold | ⟨-, rfl⟩
    · exact h.served i j x w r finished hold hwold hji hp hwp
    · exact hentry r hp w (List.mem_of_getElem? hwold) finished hwp

/-- A new call keeps the invariant. -/
theorem run (h : SeqInv cacheKey s) (hflight : FlightInv s.service.core)
    (hcallInv : CallInv u cacheKey s.service)
    (hkey : ∀ sql p sql' p', cacheKey sql p = cacheKey sql' p' → sql = sql') {new : Run P}
    (hok : Sequential s (.run new)) {v : Service.State K P (Computed R) E}
    (hv : Service.step u cacheKey s.service (.run new) = some v) {served : List (Nat × Time)} :
    SeqInv cacheKey { s with service := v, served := served } := by
  rcases Service.step_cases hv with ⟨_, -, -, rfl⟩ | ⟨new, call, core, -, hcall, hcore, rfl⟩ |
    ⟨b, core, hb, -⟩
  · exact ⟨h.alone, h.calm, h.quiet, h.past, h.entries, h.rows, h.jobs, h.carried, h.served⟩
  · obtain rfl := step_call hcore
    obtain ⟨hjobs, hclosed⟩ := hok
    have hstart := start_spec s.service.core.cache s.now call
    obtain ⟨hcalm, hfin, hcarried, hl1⟩ := start_alone hflight hclosed hstart
    refine h.called hjobs hclosed hcalm hfin hcarried hl1 fun r hp ↦ ?_
    obtain ⟨key, e, hk, he, hval, -⟩ := entryFor_of_start hflight hstart hp
    obtain ⟨task, hmem, run, hc, hy⟩ := h.entries key e he
    rw [hstart.call_eq]
    cases call with
    | write => cases hk
    | lookup key' run' tables' =>
      obtain rfl := Option.some.inj hk
      obtain ⟨rfl, hk', -⟩ := lookup_of_call? hcall
      obtain ⟨hk, -⟩ := lookup_of_mem hcallInv hmem hc
      rw [← hval]
      show s.Younger run'.sql e.value.data.began
      rw [hkey _ _ _ _ (hk'.symm.trans hk)]
      exact hy
  · cases hb

/-- Only one call is open. -/
theorem eq_of_open (h : SeqInv cacheKey s) {t : Nat} {task x : ServiceTask K P R E}
    (ht : s.tasks[t]? = some task) (hopen : task.phase.open? = true) (hx : x ∈ s.tasks)
    (hxopen : x.phase.open? = true) : x = task := by
  obtain ⟨i, hi⟩ := List.getElem?_of_mem hx
  have hlast := h.alone t task ht hopen
  have hi' := h.alone i x hi hxopen
  obtain rfl : i = t := by omega
  exact Option.some.inj (hi.symm.trans ht)

/-- While a write is open nothing is in the queue. -/
theorem jobs_of_write (h : SeqInv cacheKey s) {t : Nat} {task : ServiceTask K P R E}
    (ht : s.tasks[t]? = some task) (hopen : task.phase.open? = true)
    (hwrite : task.call.key? = none) (hjobs : ∀ job ∈ s'.jobs, job ∈ s.jobs ∨
      ∃ x ∈ s.tasks, x.call.key?.isSome ∧ x.call.sql = job.run ∧
        pending? x = some job.data.began) : s'.jobs = [] := by
  apply List.eq_nil_iff_forall_not_mem.mpr
  intro job hjob
  rcases hjobs job hjob with hold | ⟨x, hx, hlookup, -, hpend⟩
  · rw [h.quiet task (List.mem_of_getElem? ht) hopen hwrite] at hold
    cases hold
  · obtain rfl := h.eq_of_open ht hopen hx (open?_of_carried? (carried?_of_pending? hpend))
    rw [hwrite] at hlookup
    cases hlookup

section TurnOfOne

variable {t : Nat} {task task' : ServiceTask K P R E}

/-- Behind a turn only the last call can be open. -/
theorem alone_set (h : SeqInv cacheKey s) (ht : s.tasks[t]? = some task)
    (hopen : task.phase.open? = true) (htasks : s'.tasks = s.tasks.set t task') (i : Nat)
    (x : ServiceTask K P R E) (hx : s'.tasks[i]? = some x) (hxopen : x.phase.open? = true) :
    i + 1 = s'.tasks.length := by
  rw [htasks, List.length_set]
  rw [htasks] at hx
  rcases getElem?_set_cases hx with ⟨rfl, -⟩ | ⟨-, hold⟩
  · exact h.alone i task ht hopen
  · exact h.alone i x hold hxopen

/-- Behind a turn no call waits for another one. -/
theorem calm_set (h : SeqInv cacheKey s) (htasks : s'.tasks = s.tasks.set t task')
    (hcalm : task'.phase ≠ .awaiting) : ∀ x ∈ s'.tasks, x.phase ≠ .awaiting := by
  intro x hx
  rw [htasks] at hx
  rcases List.mem_or_eq_of_mem_set hx with hold | rfl
  · exact h.calm x hold
  · exact hcalm

/-- Behind a turn what has finished lies in the past. -/
theorem past_set (h : SeqInv cacheKey s) (ht : s.tasks[t]? = some task)
    (htasks : s'.tasks = s.tasks.set t task')
    (hclock : s'.service.core.clock = s.service.core.clock + 1)
    (hfin : ∀ finished, task'.phase.finished? = some finished →
      task.phase.finished? = some finished ∨ finished = s.service.core.clock) :
    ∀ x ∈ s'.tasks, ∀ finished, x.phase.finished? = some finished →
      finished < s'.service.core.clock := by
  intro x hx finished hp
  rw [hclock]
  rw [htasks] at hx
  rcases List.mem_or_eq_of_mem_set hx with hold | rfl
  · exact Nat.lt_succ_of_lt (h.past x hold finished hp)
  · rcases hfin finished hp with hp | rfl
    · exact Nat.lt_succ_of_lt (h.past task (List.mem_of_getElem? ht) finished hp)
    · exact Nat.lt_succ_self _

private theorem quiet_set (h : SeqInv cacheKey s) (ht : s.tasks[t]? = some task)
    (hopen : task.phase.open? = true) (hcall : task'.call = task.call)
    (htasks : s'.tasks = s.tasks.set t task') (hjobs : ∀ job ∈ s'.jobs, job ∈ s.jobs ∨
      ∃ x ∈ s.tasks, x.call.key?.isSome ∧ x.call.sql = job.run ∧
        pending? x = some job.data.began) :
    ∀ w ∈ s'.tasks, w.phase.open? = true → w.call.key? = none → s'.jobs = [] := by
  intro w hw hwopen hwrite
  obtain ⟨i, hi⟩ := List.getElem?_of_mem hw
  refine h.jobs_of_write ht hopen ?_ hjobs
  rcases cases_set htasks hi with ⟨-, rfl⟩ | ⟨-, hold⟩
  · rw [← hcall]
    exact hwrite
  · rw [← h.eq_of_open ht hopen (List.mem_of_getElem? hold) hwopen]
    exact hwrite

private theorem entries_set (h : SeqInv cacheKey s) (ht : s.tasks[t]? = some task)
    (hcall : task'.call = task.call) (htasks : s'.tasks = s.tasks.set t task')
    (hkept : Kept s s') (hl1 : ∀ key e, s'.service.core.cache.l1.entryFor key = some e →
      s.service.core.cache.l1.entryFor key = some e ∨
        ∃ run, task.call = .lookup key run e.value.tables ∧
          carried? task = some e.value.data.began) (key : K)
    (e : CacheEntry (Rows Text (Computed R)))
    (he : s'.service.core.cache.l1.entryFor key = some e) :
    ∃ x ∈ s'.tasks, ∃ run, x.call = .lookup key run e.value.tables ∧
      s'.Younger run.sql e.value.data.began := by
  rcases hl1 key e he with hold | ⟨run, hc, hcar⟩
  · obtain ⟨x, hx, run, hc, hy⟩ := h.entries key e hold
    obtain ⟨x', hx', hcall'⟩ := call_set ht hcall htasks hx
    exact ⟨x', hx', run, hcall'.trans hc, hkept.younger hy⟩
  · have hmem := List.mem_of_getElem? ht
    obtain ⟨x', hx', hcall'⟩ := call_set ht hcall htasks hmem
    refine ⟨x', hx', run, hcall'.trans hc, hkept.younger ?_⟩
    have hy := h.carried task hmem (by rw [hc]; rfl) _ hcar
    rw [hc] at hy
    exact hy

private theorem rows_set (h : SeqInv cacheKey s) (ht : s.tasks[t]? = some task)
    (hcall : task'.call = task.call) (htasks : s'.tasks = s.tasks.set t task')
    (hl2 : s'.l2 = s.l2)
    (hkept : ∀ finished, task'.phase.invalidated? = some finished →
      task.phase.invalidated? = some finished ∧ s'.todo t = s.todo t)
    (htodo : ∀ i, i ≠ t → s'.todo i = s.todo i) (key : K) (row : CachedResult (Computed R))
    (hrow : s'.l2.rows.get? key = some row) :
    (∃ x ∈ s'.tasks, ∃ run tables, x.call = .lookup key run tables ∧ run.sql = row.querySql) ∧
      ∀ (j : Nat) (w : ServiceTask K P R E) (finished : Nat), s'.tasks[j]? = some w →
        w.phase.invalidated? = some finished → touches row.querySql w.call.sql.sql = true →
        finished < row.resultData.began ∨ ∃ p ∈ s'.todo j, p.deletes row.querySql = true := by
  rw [hl2] at hrow
  obtain ⟨⟨x, hx, run, tables, hc, hsql⟩, hyoung⟩ := h.rows key row hrow
  obtain ⟨x', hx', hcall'⟩ := call_set ht hcall htasks hx
  refine ⟨⟨x', hx', run, tables, hcall'.trans hc, hsql⟩, fun j w finished hw hp htouch ↦ ?_⟩
  rcases cases_set htasks hw with ⟨rfl, rfl⟩ | ⟨hjt, hold⟩
  · obtain ⟨hp, htodo⟩ := hkept finished hp
    rw [hcall] at htouch
    rw [htodo]
    exact hyoung j task finished ht hp htouch
  · rw [htodo j hjt]
    exact hyoung j w finished hold hp htouch

private theorem jobs_set (h : SeqInv cacheKey s) (hcallInv : CallInv u cacheKey s.service)
    (ht : s.tasks[t]? = some task) (hcall : task'.call = task.call)
    (htasks : s'.tasks = s.tasks.set t task') (hkept : Kept s s')
    (hjobs : ∀ job ∈ s'.jobs, job ∈ s.jobs ∨ ∃ x ∈ s.tasks, x.call.key?.isSome ∧
      x.call.sql = job.run ∧ pending? x = some job.data.began) (job : Persist P R)
    (hjob : job ∈ s'.jobs) :
    (∃ x ∈ s'.tasks, ∃ tables,
      x.call = .lookup (cacheKey job.run.sql job.run.params) job.run tables) ∧
      s'.Younger job.run.sql job.data.began := by
  rcases hjobs job hjob with hold | ⟨x, hx, hlookup, hrun, hpend⟩
  · obtain ⟨⟨x, hx, tables, hc⟩, hy⟩ := h.jobs job hold
    obtain ⟨x', hx', hcall'⟩ := call_set ht hcall htasks hx
    exact ⟨⟨x', hx', tables, hcall'.trans hc⟩, hkept.younger hy⟩
  · obtain ⟨x', hx', hcall'⟩ := call_set ht hcall htasks hx
    have hy := h.carried x hx hlookup _ (carried?_of_pending? hpend)
    rw [hrun] at hy
    refine ⟨?_, hkept.younger hy⟩
    cases hc : x.call with
    | write => rw [hc] at hlookup; cases hlookup
    | lookup key run tables =>
      obtain ⟨rfl, -⟩ := lookup_of_mem hcallInv hx hc
      rw [hc] at hrun hcall'
      obtain rfl : run = job.run := hrun
      exact ⟨x', hx', tables, hcall'⟩

private theorem carried_set (h : SeqInv cacheKey s) (hcall : task'.call = task.call)
    (htasks : s'.tasks = s.tasks.set t task') (hkept : Kept s s')
    (hcarried : task.call.key?.isSome → ∀ n, carried? task' = some n →
      s.Younger task.call.sql.sql n) :
    ∀ x ∈ s'.tasks, x.call.key?.isSome → ∀ n, carried? x = some n →
      s'.Younger x.call.sql.sql n := by
  intro x hx hlookup n hn
  obtain ⟨i, hi⟩ := List.getElem?_of_mem hx
  apply hkept.younger
  rcases cases_set htasks hi with ⟨-, rfl⟩ | ⟨-, hold⟩
  · rw [hcall] at hlookup ⊢
    exact hcarried hlookup n hn
  · exact h.carried x (List.mem_of_getElem? hold) hlookup n hn

/-- A call that returns behind the writes returns younger rows. -/
theorem served_set (h : SeqInv cacheKey s) (ht : s.tasks[t]? = some task)
    (hopen : task.phase.open? = true) (hcall : task'.call = task.call)
    (htasks : s'.tasks = s.tasks.set t task')
    (hserved : ∀ r, task'.phase = .ended (.returned r) →
      task.call.key?.isSome ∧ carried? task = some r.data.data.began) (i j : Nat)
    (x w : ServiceTask K P R E) (r : CacheLookupResult Text (Computed R)) (finished : Nat)
    (hx : s'.tasks[i]? = some x) (hw : s'.tasks[j]? = some w) (hji : j < i)
    (hp : x.phase = .ended (.returned r)) (hwp : w.phase.invalidated? = some finished)
    (htouch : touches x.call.sql.sql w.call.sql.sql = true) : finished < r.data.data.began := by
  have hi := (List.getElem?_eq_some_iff.mp hx).1
  rw [htasks, List.length_set] at hi
  rcases cases_set htasks hw with ⟨rfl, -⟩ | ⟨-, hwold⟩
  -- The call that takes the turn is the last one.
  · have hlast := h.alone j task ht hopen
    omega
  · rcases cases_set htasks hx with ⟨rfl, rfl⟩ | ⟨-, hold⟩
    · obtain ⟨hlookup, hcar⟩ := hserved r hp
      rw [hcall] at htouch
      exact h.carried task (List.mem_of_getElem? ht) hlookup _ hcar w (List.mem_of_getElem? hwold)
        finished hwp htouch
    · exact h.served i j x w r finished hold hwold hji hp hwp htouch

/-- A turn that is no invalidation keeps the invariant, if what it carries, stores and returns is
young enough. -/
theorem turned (h : SeqInv cacheKey s) (hcallInv : CallInv u cacheKey s.service)
    (ht : s.tasks[t]? = some task) (hopen : task.phase.open? = true)
    (hcall : task'.call = task.call) (htasks : s'.tasks = s.tasks.set t task')
    (hclock : s'.service.core.clock = s.service.core.clock + 1) (hl2 : s'.l2 = s.l2)
    (hcalm : task'.phase ≠ .awaiting)
    (hkept : ∀ finished, task'.phase.invalidated? = some finished →
      task.phase.invalidated? = some finished ∧ s'.todo t = s.todo t)
    (htodo : ∀ i, i ≠ t → s'.todo i = s.todo i)
    (hfin : ∀ finished, task'.phase.finished? = some finished →
      task.phase.finished? = some finished ∨ finished = s.service.core.clock)
    (hl1 : ∀ key e, s'.service.core.cache.l1.entryFor key = some e →
      s.service.core.cache.l1.entryFor key = some e ∨
        ∃ run, task.call = .lookup key run e.value.tables ∧
          carried? task = some e.value.data.began)
    (hcarried : task.call.key?.isSome → ∀ n, carried? task' = some n →
      s.Younger task.call.sql.sql n)
    (hserved : ∀ r, task'.phase = .ended (.returned r) →
      task.call.key?.isSome ∧ carried? task = some r.data.data.began)
    (hjobs : ∀ job ∈ s'.jobs, job ∈ s.jobs ∨ ∃ x ∈ s.tasks, x.call.key?.isSome ∧
      x.call.sql = job.run ∧ pending? x = some job.data.began) : SeqInv cacheKey s' :=
  have hyounger := kept_set ht hcall htasks fun finished hp ↦ (hkept finished hp).1
  { alone := h.alone_set ht hopen htasks
    calm := h.calm_set htasks hcalm
    quiet := h.quiet_set ht hopen hcall htasks hjobs
    past := h.past_set ht htasks hclock hfin
    entries := h.entries_set ht hcall htasks hyounger hl1
    rows := h.rows_set ht hcall htasks hl2 hkept htodo
    jobs := h.jobs_set hcallInv ht hcall htasks hyounger hjobs
    carried := h.carried_set hcall htasks hyounger hcarried
    served := h.served_set ht hopen hcall htasks hserved }

end TurnOfOne

end SeqInv

end SalesData.Service.WriteBehind

import Mathlib.Logic.Function.Basic
import SalesData.Cache.ResultCache
import SalesData.Service.QueryService

/-!
# The service with its second-level cache

The query service together with the `query_cache` table and the queue of jobs that fill it
(`core/caching/query_cache_coordinator.py:161–262`, `core/caching/persistence_queue.py:67–121`).
A statement on the table is one step, in which its thread also reads the clock; the jobs of the
queue run in any order, and any of them may be lost. What the warehouse returns carries the step
at which its execution began.
-/

namespace SalesData.Service.WriteBehind

open Base Sql Cache

/-- Rows that an execution computed which began at step `began`. The program passes on `rows`
only. -/
structure Computed (R : Type) where
  rows : List R
  began : Nat
  deriving DecidableEq, Repr

/-- A `persist_l2` job (`query_service.py:131–132`). -/
structure Persist (P R : Type) where
  run : Run P
  data : Computed R
  deriving DecidableEq, Repr

/-- A purge that write number `task` on `tables` has done before step `step`. -/
structure Purged where
  task : Nat
  tables : List Text
  purge : Purge
  step : Nat
  deriving DecidableEq, Repr

/-- The service, the table, the pending jobs and, for each write, the purges that it still has
to do. The rest is a record of the run: the purges done, the key and age of each stored result,
when each execution returned to its caller, when each future was settled, and which rows
`get_or_execute` returned when. -/
structure State (K P R E : Type) where
  service : Service.State K P (Computed R) E
  l2 : QueryResultCache K (Computed R)
  jobs : List (Persist P R)
  todo : Nat → List Purge
  purged : List Purged
  stored : List (K × Nat)
  returned : List (Nat × Time)
  settled : List (Nat × Time)
  served : List (Nat × Time)

/-- Scheduler actions. -/
inductive Act (K P R E : Type) where
  | run (run : Run P)
  | task (a : Cache.Act K Text (Computed R) E (Run P))
  /-- The lookup in the table that task `t` awaits. -/
  | select (t : Nat)
  /-- The next purge of write `t`. -/
  | purge (t : Nat)
  /-- Job `j` writes its row. -/
  | store (j : Nat)
  /-- Job `j` is dropped, or fails. -/
  | drop (j : Nat)
  deriving DecidableEq, Repr

variable {K P R E : Type}

/-- The tasks of the service. -/
abbrev ServiceTask (K P R E : Type) := Task K Text (Computed R) E (Run P)

namespace State

/-- The tasks of all calls. -/
def tasks (s : State K P R E) : List (ServiceTask K P R E) := s.service.core.tasks

/-- The reading of the clock. -/
def now (s : State K P R E) : Time := s.service.core.now

/-- What `get_or_execute` has just returned in task `t`. -/
def serves (v : Service.State K P (Computed R) E) (t : Nat) : List (Nat × Time) :=
  match (v.core.tasks[t]?).map Task.phase with
  | some (.ended (.returned result)) => [(result.data.data.began, v.core.now)]
  | _ => []

/-- The purge that write `t` does next. -/
def nextPurge? (s : State K P R E) (t : Nat) : Option Purged :=
  (s.todo t).head?.bind fun p ↦ (s.tasks[t]?).map fun w ↦
    ⟨t, w.call.tables, p, s.service.core.clock⟩

/-- The warehouse answers with rows of this execution; a write goes on when its purges are
done. -/
def admits (s : State K P R E) : Cache.Act K Text (Computed R) E (Run P) → Bool
  | .finish t answer =>
    match (s.tasks[t]?).map Task.phase with
    | some (.running .warehouse since) => answer.any fun data ↦ data.began == since
    | _ => false
  | .resume t =>
    match (s.tasks[t]?).map Task.phase with
    | some (.flushing ..) => (s.todo t).isEmpty
    | _ => true
  | _ => true

variable {s : State K P R E}

/-- The purge that a write does next is the first that it still has to do. -/
theorem nextPurge?_eq_some {t : Nat} {e : Purged} (h : s.nextPurge? t = some e) :
    ∃ w rest, s.tasks[t]? = some w ∧ s.todo t = e.purge :: rest ∧ e.task = t ∧
      e.tables = w.call.tables ∧ e.step = s.service.core.clock := by
  obtain ⟨p, hp, h⟩ := Option.bind_eq_some_iff.mp h
  obtain ⟨w, hw, rfl⟩ := Option.map_eq_some_iff.mp h
  obtain ⟨rest, hrest⟩ := List.head?_eq_some_iff.mp hp
  exact ⟨w, rest, hw, hrest, rfl, rfl, rfl⟩

/-- The warehouse answers with rows of the execution that runs. -/
theorem admits_finish {t since : Nat} {answer : Option (Computed R)}
    {task : ServiceTask K P R E} (h : s.admits (.finish t answer) = true)
    (ht : s.tasks[t]? = some task) (hp : task.phase = .running .warehouse since) :
    ∃ data, answer = some data ∧ data.began = since := by
  simp only [admits, ht, Option.map_some, hp] at h
  cases answer with
  | none => cases h
  | some data => exact ⟨data, rfl, by simpa using h⟩

variable [DecidableEq K]

/-- Task `t` has gone on: rows from the warehouse are handed to the queue unless there are none
(`query_cache_coordinator.py:180–184`), and a write takes up its purges. -/
def resumed (s : State K P R E) (t : Nat) (v : Service.State K P (Computed R) E) :
    State K P R E :=
  let s' := { s with service := v, served := s.served ++ serves v t }
  match s.tasks[t]? with
  | some ⟨.lookup _ run _, fut, _, _, .answered src _ _ (some data)⟩ =>
    let s' := { s' with settled := s.settled ++ (fut.map fun f ↦ (f, s.now)).toList }
    if src = .warehouse then
      { s' with
        jobs := if data.rows = [] then s.jobs else s.jobs ++ [⟨run, data⟩]
        returned := s.returned ++ [(data.began, s.now)] }
    else s'
  | some ⟨.write _ tables precise, _, _, _, .answered ..⟩ =>
    { s' with todo := Function.update s.todo t (purges s.service.core.cache tables precise) }
  | _ => s'

/-- A task has taken a turn. Of a write that is interrupted, a thread may still do the purge
that it awaits. -/
def after (s : State K P R E) (v : Service.State K P (Computed R) E) :
    Cache.Act K Text (Computed R) E (Run P) → State K P R E
  | .resume t => s.resumed t v
  | .interrupt t =>
    { s with service := v, todo := Function.update s.todo t ((s.todo t).take 1) }
  | _ => { s with service := v }

end State

variable [DecidableEq K] (u : Unicode) (cacheKey : Text → P → K) (reload : List R → List R)

/-- One scheduler action. `reload` is what `json.loads` makes of the stored rows. -/
def step (s : State K P R E) : Act K P R E → Option (State K P R E)
  | .run run => (Service.step u cacheKey s.service (.run run)).map fun v ↦
      { s with service := v, served := s.served ++ State.serves v s.tasks.length }
  | .task a =>
    if s.admits a then (Service.step u cacheKey s.service (.task a)).map fun v ↦ s.after v a
    else none
  | .select t =>
    match s.tasks[t]? with
    | some ⟨.lookup key _ _, _, _, _, .running .l2 _⟩ =>
      (Service.step u cacheKey s.service
        (.task (.finish t (s.l2.getCachedResult s.now key)))).map fun v ↦ { s with service := v }
    | _ => none
  | .purge t => (s.nextPurge? t).map fun e ↦
      { s with
        l2 := s.l2.purge e.purge
        todo := Function.update s.todo t (s.todo t).tail
        purged := s.purged ++ [e] }
  | .store j => (s.jobs[j]?).map fun job ↦
      let key := cacheKey job.run.sql job.run.params
      { s with
        l2 := s.l2.cacheResult s.now key job.run.sql ⟨reload job.data.rows, job.data.began⟩
          defaultTtlSeconds
        jobs := s.jobs.eraseIdx j
        stored := s.stored ++ [(key, job.data.began)] }
  | .drop j => (s.jobs[j]?).map fun _ ↦ { s with jobs := s.jobs.eraseIdx j }

/-- The service with its second-level cache as a transition system. -/
def system (l1MaxSize : Nat) (l1TtlSeconds : Int) (h : 0 < l1MaxSize) :
    System (State K P R E) (Act K P R E) :=
  ⟨⟨(Service.system u cacheKey l1MaxSize l1TtlSeconds h).init, .new, [], fun _ ↦ [], [], [], [],
    [], []⟩, step u cacheKey reload⟩

variable {u cacheKey reload} {s s' : State K P R E}

/-- Everything that a step can do. -/
theorem step_cases {a : Act K P R E} (h : step u cacheKey reload s a = some s') :
    (∃ run v, a = .run run ∧ Service.step u cacheKey s.service (.run run) = some v ∧
      s' = { s with service := v, served := s.served ++ State.serves v s.tasks.length }) ∨
    (∃ b v, a = .task b ∧ s.admits b = true ∧
      Service.step u cacheKey s.service (.task b) = some v ∧ s' = s.after v b) ∨
    (∃ t task key sql tables since v, a = .select t ∧ s.tasks[t]? = some task ∧
      task.call = .lookup key sql tables ∧ task.phase = .running .l2 since ∧
      Service.step u cacheKey s.service
        (.task (.finish t (s.l2.getCachedResult s.now key))) = some v ∧
      s' = { s with service := v }) ∨
    (∃ t e, a = .purge t ∧ s.nextPurge? t = some e ∧ s' = { s with
      l2 := s.l2.purge e.purge
      todo := Function.update s.todo t (s.todo t).tail
      purged := s.purged ++ [e] }) ∨
    (∃ j job key, a = .store j ∧ s.jobs[j]? = some job ∧
      key = cacheKey job.run.sql job.run.params ∧ s' = { s with
        l2 := s.l2.cacheResult s.now key job.run.sql ⟨reload job.data.rows, job.data.began⟩
          defaultTtlSeconds
        jobs := s.jobs.eraseIdx j
        stored := s.stored ++ [(key, job.data.began)] }) ∨
    (∃ j, a = .drop j ∧ s' = { s with jobs := s.jobs.eraseIdx j }) := by
  cases a with
  | run run =>
    obtain ⟨v, hv, rfl⟩ := Option.map_eq_some_iff.mp h
    exact .inl ⟨run, v, rfl, hv, rfl⟩
  | task b =>
    simp only [step] at h
    split at h
    · next hadm =>
      obtain ⟨v, hv, rfl⟩ := Option.map_eq_some_iff.mp h
      exact .inr (.inl ⟨b, v, rfl, hadm, hv, rfl⟩)
    · cases h
  | select t =>
    simp only [step] at h
    split at h
    · next hat =>
      obtain ⟨v, hv, rfl⟩ := Option.map_eq_some_iff.mp h
      exact .inr (.inr (.inl ⟨t, _, _, _, _, _, v, rfl, hat, rfl, rfl, hv, rfl⟩))
    · cases h
  | purge t =>
    obtain ⟨e, he, rfl⟩ := Option.map_eq_some_iff.mp h
    exact .inr (.inr (.inr (.inl ⟨t, e, rfl, he, rfl⟩)))
  | store j =>
    obtain ⟨job, hjob, rfl⟩ := Option.map_eq_some_iff.mp h
    exact .inr (.inr (.inr (.inr (.inl ⟨j, job, _, rfl, hjob, rfl, rfl⟩))))
  | drop j =>
    obtain ⟨job, hjob, rfl⟩ := Option.map_eq_some_iff.mp h
    exact .inr (.inr (.inr (.inr (.inr ⟨j, rfl, rfl⟩))))

/-- Only the turns of its tasks and their interruption touch more than the service. -/
theorem State.after_cases (s : State K P R E) (v : Service.State K P (Computed R) E)
    (b : Cache.Act K Text (Computed R) E (Run P)) :
    (∃ t, b = .resume t ∧ s.after v b = s.resumed t v) ∨
    (∃ t, b = .interrupt t ∧ s.after v b =
      { s with service := v, todo := Function.update s.todo t ((s.todo t).take 1) }) ∨
    s.after v b = { s with service := v } := by
  cases b with
  | resume t => exact .inl ⟨t, rfl, rfl⟩
  | interrupt t => exact .inr (.inl ⟨t, rfl, rfl⟩)
  | _ => exact .inr (.inr rfl)

/-- What a turn of a task touches besides the service. -/
theorem State.resumed_cases (s : State K P R E) (t : Nat) (v : Service.State K P (Computed R) E) :
    (∃ task key run tables src since finished data, s.tasks[t]? = some task ∧
      task.call = .lookup key run tables ∧ task.phase = .answered src since finished (some data) ∧
      s.resumed t v = { s with
        service := v
        served := s.served ++ serves v t
        settled := s.settled ++ (task.fut.map fun f ↦ (f, s.now)).toList
        jobs := if src = .warehouse ∧ data.rows ≠ [] then s.jobs ++ [⟨run, data⟩] else s.jobs
        returned := if src = .warehouse then s.returned ++ [(data.began, s.now)]
          else s.returned }) ∨
    (∃ task run tables precise, s.tasks[t]? = some task ∧
      task.call = .write run tables precise ∧
      (∃ src since finished answer, task.phase = .answered src since finished answer) ∧
      s.resumed t v = { s with
        service := v
        served := s.served ++ serves v t
        todo := Function.update s.todo t (purges s.service.core.cache tables precise) }) ∨
    s.resumed t v = { s with service := v, served := s.served ++ serves v t } := by
  unfold resumed
  dsimp only
  split
  · next key run tables fut isLeader cancelled src since finished data hat =>
    refine .inl ⟨_, key, run, tables, src, since, finished, data, hat, rfl, rfl, ?_⟩
    by_cases hsrc : src = .warehouse <;> by_cases hrows : data.rows = [] <;> simp [hsrc, hrows]
  · next run tables precise fut isLeader cancelled src since finished answer hat =>
    exact .inr (.inl ⟨_, run, tables, precise, hat, rfl, ⟨src, since, finished, answer, rfl⟩, rfl⟩)
  · exact .inr (.inr rfl)

/-- A write that goes on behind its execution takes up its purges. -/
theorem State.todo_resumed_write {t : Nat} {task : ServiceTask K P R E} {run : Run P}
    {tables : List Text} {precise : Bool} {src : Fetch} {since finished : Nat}
    {answer : Option (Computed R)} {v : Service.State K P (Computed R) E}
    (ht : s.tasks[t]? = some task) (hc : task.call = .write run tables precise)
    (hp : task.phase = .answered src since finished answer) :
    (s.resumed t v).todo t = purges s.service.core.cache tables precise := by
  obtain ⟨call, fut, isLeader, cancelled, phase⟩ := task
  dsimp only at hc hp
  subst hc hp
  simp [resumed, ht]

/-- The purges of a task stay when another one goes on, or when it does so from elsewhere. -/
theorem State.todo_after {v : Service.State K P (Computed R) E} {i : Nat}
    {b : Cache.Act K Text (Computed R) E (Run P)}
    (hresume : b = .resume i → ∀ task, s.tasks[i]? = some task →
      ∀ src since finished answer, task.phase ≠ .answered src since finished answer)
    (hinterrupt : b ≠ .interrupt i) : (s.after v b).todo i = s.todo i := by
  rcases s.after_cases v b with ⟨t, rfl, heq⟩ | ⟨t, rfl, heq⟩ | heq
  · rw [heq]
    rcases s.resumed_cases t v with ⟨_, _, _, _, _, _, _, _, _, _, _, heq⟩ |
      ⟨task, _, _, _, ht, _, ⟨src, since, finished, answer, hp⟩, heq⟩ | heq
    · rw [heq]
    · rw [heq]
      refine Function.update_of_ne ?_ _ _
      rintro rfl
      exact hresume rfl task ht src since finished answer hp
    · rw [heq]
  · rw [heq]
    refine Function.update_of_ne ?_ _ _
    rintro rfl
    exact hinterrupt rfl
  · rw [heq]

/-- The service goes on by its own step. -/
theorem State.after_service (s : State K P R E) (v : Service.State K P (Computed R) E)
    (b : Cache.Act K Text (Computed R) E (Run P)) : (s.after v b).service = v := by
  rcases s.after_cases v b with ⟨t, -, h⟩ | ⟨t, -, h⟩ | h
  · rw [h]
    rcases s.resumed_cases t v with ⟨_, _, _, _, _, _, _, _, _, _, _, h⟩ |
      ⟨_, _, _, _, _, _, _, h⟩ | h
    · rw [h]
    · rw [h]
    · rw [h]
  · rw [h]
  · rw [h]

/-- The service inside runs as the service does. -/
theorem service_reach {l1MaxSize : Nat} {l1TtlSeconds : Int} {hpos : 0 < l1MaxSize}
    {ok : State K P R E → Act K P R E → Prop}
    (h : (system u cacheKey reload l1MaxSize l1TtlSeconds hpos).Reach ok s) :
    (Service.system u cacheKey l1MaxSize l1TtlSeconds hpos).Reachable s.service := by
  refine h.invariant (P := fun x ↦ (Service.system u cacheKey l1MaxSize l1TtlSeconds hpos).Reach
    (fun _ _ ↦ True) x.service) .init ?_
  intro s a s' hs _ hstep
  have hgo {b : Service.Act K P (Computed R) E} {v : Service.State K P (Computed R) E}
      (hv : Service.step u cacheKey s.service b = some v) :
      (Service.system u cacheKey l1MaxSize l1TtlSeconds hpos).Reach (fun _ _ ↦ True) v :=
    hs.step (a := b) trivial hv
  rcases step_cases hstep with ⟨run, v, rfl, hv, rfl⟩ | ⟨b, v, rfl, -, hv, rfl⟩ |
    ⟨t, task, key, sql, tables, since, v, rfl, -, -, -, hv, rfl⟩ | ⟨t, e, rfl, -, rfl⟩ |
    ⟨j, job, key, rfl, -, -, rfl⟩ | ⟨j, rfl, rfl⟩
  · exact hgo hv
  · rw [State.after_service]
    exact hgo hv
  · exact hgo hv
  · exact hs
  · exact hs
  · exact hs

/-- What a step of the service does to its tasks. -/
theorem tasks_of_service {v : Service.State K P (Computed R) E}
    {a : Service.Act K P (Computed R) E} (h : Service.step u cacheKey s.service a = some v) :
    (v.core.tasks = s.tasks ∧ s.service.core.clock ≤ v.core.clock ∧
      ∀ b, a = .task b → b.task? = none) ∨
    (∃ run call, a = .run run ∧ v.core.tasks =
      s.tasks ++ [(s.service.core.cache.start s.now call).2] ∧
      s.service.core.clock ≤ v.core.clock) ∨
    ∃ b t task c task', a = .task b ∧ b.task? = some t ∧ s.tasks[t]? = some task ∧
      Turn s.service.core t task b c task' ∧ v.core.tasks = s.tasks.set t task' ∧
      s.service.core.clock ≤ v.core.clock := by
  rcases Service.step_cases h with ⟨run, rfl, -, rfl⟩ | ⟨run, call, core, rfl, -, hcore, rfl⟩ |
    ⟨b, core, rfl, hne, hcore, rfl⟩
  · exact .inl ⟨rfl, Nat.le_refl _, by simp⟩
  · obtain rfl := step_call hcore
    exact .inr (.inl ⟨run, call, rfl, rfl, Nat.le_succ _⟩)
  · cases hb : b.task? with
    | some t =>
      obtain ⟨task, c, task', ht, hturn, rfl⟩ := step_task hb hcore
      exact .inr (.inr ⟨b, t, task, c, task', rfl, hb, ht, hturn, rfl, Nat.le_succ _⟩)
    | none =>
      left
      cases b with
      | call call => exact absurd rfl (hne call)
      | invalidate key | tick now =>
        obtain rfl := Option.some.inj hcore
        refine ⟨rfl, Nat.le_succ _, fun b' he ↦ ?_⟩
        rw [← Service.Act.task.inj he]
        rfl
      | _ => cases hb

end SalesData.Service.WriteBehind

import SalesData.Cache.Freshness
import SalesData.Sql.Policy

/-!
# The query service

`core/services/query_service.py`: a call of `run` is checked against the caller's scopes and
then becomes a lookup or a write of the cache coordinator. The service runs any number of
calls at a time; how long the semaphores, the connection pool and the warehouse take is up to
the environment.
-/

namespace SalesData.Service

open Base Sql Cache

/-- The settings of a `QueryService` (`query_service.py:47–70`). -/
structure QueryService where
  requireWriteScope : Bool
  preciseCacheInvalidation : Bool
  deriving DecidableEq, Repr

/-- A call of `QueryService.run` (`query_service.py:72–79`). -/
structure Run (P : Type) where
  service : QueryService
  sql : Text
  params : P
  scopes : Text
  deriving DecidableEq, Repr

/-- `QueryLimits` (`query_limits.py:26–30`) without the duration. -/
structure QueryLimits where
  maxResultRows : Nat
  maxResultBytes : Nat
  deriving DecidableEq, Repr

/-- `QueryOutcome` (`query_service.py:33–37`). -/
structure QueryOutcome (R : Type) where
  data : List R
  cached : Bool
  truncated : Bool
  deriving DecidableEq, Repr

section Limits

variable {R : Type}

/-- The loop of `_apply_result_limits`: the rows that fit behind `totalBytes`, and whether it
stopped early. -/
def takeBytes (maxBytes : Nat) (size : R → Nat) (totalBytes : Nat) : List R → List R × Bool
  | [] => ([], false)
  | row :: rows =>
    if maxBytes < totalBytes + size row then ([], true)
    else
      let (out, stopped) := takeBytes maxBytes size (totalBytes + size row) rows
      (row :: out, stopped)

/-- `_apply_result_limits` (`query_service.py:171–196`); `size` is the length of a row's JSON
form in UTF-8. -/
def applyResultLimits (limits : QueryLimits) (size : R → Nat) (data : List R) : List R × Bool :=
  let (out, stopped) :=
    takeBytes limits.maxResultBytes size 0 (data.take limits.maxResultRows)
  (out, decide (limits.maxResultRows < data.length) || stopped)

/-- What `run` returns, once the lookup or the write has (`query_service.py:123` and
`137–138`). -/
def outcome {K P E : Type} (limits : QueryLimits) (size : R → Nat)
    (task : Task K Text (List R) E (Run P)) : Option (QueryOutcome R) :=
  match task.phase with
  | .written data _ => some ⟨data, false, false⟩
  | .ended (.returned result) =>
    let (data, truncated) := applyResultLimits limits size result.data.data
    some ⟨data, result.cached, truncated⟩
  | _ => none

end Limits

/-- The caller lacks the write scope that the statement needs (`query_service.py:100–105`). -/
def Run.denied {P : Type} (u : Unicode) (run : Run P) : Bool :=
  decide (classifyOperation u run.sql = .write) && run.service.requireWriteScope &&
    !hasScope u (some run.scopes) "write".toList

/-- `QueryService.run` (`query_service.py:100–147`): `none` is `QueryAuthorizationError`. -/
def Run.call? {P K : Type} (u : Unicode) (cacheKey : Text → P → K) (run : Run P) :
    Option (Call K Text (Run P)) :=
  if run.denied u then none
  else if classifyOperation u run.sql = .write then
    some (.write run (extractTables u run.sql) run.service.preciseCacheInvalidation)
  else some (.lookup (cacheKey run.sql run.params) run (extractTables u run.sql))

/-- A statement that the warehouse has begun to execute. -/
structure Sent (P : Type) where
  run : Run P
  text : Text
  params : P
  deriving DecidableEq, Repr

/-- The coordinator with its tasks, the statements that reached the warehouse, and the calls
that were refused. -/
structure State (K P D E : Type) where
  core : Cache.State K Text D E (Run P)
  sent : List (Sent P)
  refused : List (Run P)

/-- Scheduler actions. -/
inductive Act (K P D E : Type) where
  | run (run : Run P)
  | task (a : Cache.Act K Text D E (Run P))
  deriving DecidableEq, Repr

variable {K P D E : Type}

/-- The statement that a step sends to the warehouse: `_execute` passes on `sql` and `params`
as they are (`query_service.py:166–168`). -/
def sends (s : Cache.State K Text D E (Run P)) : Cache.Act K Text D E (Run P) → List (Sent P)
  | .begin t =>
    match s.tasks[t]? with
    | some ⟨call, _, _, _, .submitted .warehouse⟩ => [⟨call.sql, call.sql.sql, call.sql.params⟩]
    | _ => []
  | _ => []

variable {u : Unicode} {cacheKey : Text → P → K}

/-- A call that is made carries its run. -/
theorem sql_of_call? {run : Run P} {call : Call K Text (Run P)}
    (h : run.call? u cacheKey = some call) : call.sql = run := by
  unfold Run.call? at h
  split at h
  · cases h
  · split at h
    · obtain rfl := Option.some.inj h
      rfl
    · obtain rfl := Option.some.inj h
      rfl

/-- The coordinator is told the tables that the statement names. -/
theorem tables_of_call? {run : Run P} {call : Call K Text (Run P)}
    (h : run.call? u cacheKey = some call) : call.tables = extractTables u run.sql := by
  unfold Run.call? at h
  split at h
  · cases h
  · split at h
    · obtain rfl := Option.some.inj h
      rfl
    · obtain rfl := Option.some.inj h
      rfl

/-- A lookup is made under the key of its statement. -/
theorem key_of_call? {run run' : Run P} {key : K} {tables : List Text}
    (h : run.call? u cacheKey = some (.lookup key run' tables)) :
    key = cacheKey run.sql run.params := by
  unfold Run.call? at h
  split at h
  · cases h
  · split at h
    · cases h
    · exact (Call.lookup.inj (Option.some.inj h)).1.symm

/-- A call that is made is not denied. -/
theorem not_denied_of_call? {run : Run P} {call : Call K Text (Run P)}
    (h : run.call? u cacheKey = some call) : run.denied u = false := by
  unfold Run.call? at h
  split at h
  · cases h
  · next hd => simpa using hd

variable [DecidableEq K]

/-- One scheduler action; only `run` makes calls. -/
def step (u : Unicode) (cacheKey : Text → P → K) (s : State K P D E) :
    Act K P D E → Option (State K P D E)
  | .run run =>
    match run.call? u cacheKey with
    | none => some { s with refused := s.refused ++ [run] }
    | some call => (Cache.step s.core (.call call)).map fun core ↦ { s with core := core }
  | .task (.call _) => none
  | .task a =>
    (Cache.step s.core a).map fun core ↦ { s with core := core, sent := s.sent ++ sends s.core a }

/-- The service as a transition system. -/
def system (u : Unicode) (cacheKey : Text → P → K) (l1MaxSize : Nat) (l1TtlSeconds : Int)
    (h : 0 < l1MaxSize) : System (State K P D E) (Act K P D E) :=
  ⟨⟨(Cache.system l1MaxSize l1TtlSeconds h).init, [], []⟩, step u cacheKey⟩

variable {s s' : State K P D E}

/-- Everything a step can do. -/
theorem step_cases {a : Act K P D E} (h : step u cacheKey s a = some s') :
    (∃ run, a = .run run ∧ run.call? u cacheKey = none ∧
      s' = { s with refused := s.refused ++ [run] }) ∨
    (∃ run call core, a = .run run ∧ run.call? u cacheKey = some call ∧
      Cache.step s.core (.call call) = some core ∧ s' = { s with core := core }) ∨
    ∃ b core, a = .task b ∧ (∀ call, b ≠ .call call) ∧ Cache.step s.core b = some core ∧
      s' = { s with core := core, sent := s.sent ++ sends s.core b } := by
  cases a with
  | run run =>
    rw [step] at h
    split at h
    · next hc => exact .inl ⟨run, rfl, hc, (Option.some.inj h).symm⟩
    · next call hc =>
      obtain ⟨core, hcore, rfl⟩ := Option.map_eq_some_iff.mp h
      exact .inr (.inl ⟨run, call, core, rfl, hc, hcore, rfl⟩)
  | task b =>
    right
    right
    unfold step at h
    split at h
    · next heq => cases heq
    · cases h
    · next b' hne heq =>
      obtain rfl := Act.task.inj heq
      obtain ⟨core, hcore, rfl⟩ := Option.map_eq_some_iff.mp h
      exact ⟨b, core, rfl, fun call hb ↦ hne call (by rw [hb]), hcore, rfl⟩

/-- The coordinator inside the service runs as the coordinator does. -/
theorem core_reach {l1MaxSize : Nat} {l1TtlSeconds : Int} {hpos : 0 < l1MaxSize}
    {ok : State K P D E → Act K P D E → Prop}
    {ok' : Cache.State K Text D E (Run P) → Cache.Act K Text D E (Run P) → Prop}
    (h : (system u cacheKey l1MaxSize l1TtlSeconds hpos).Reach ok s)
    (hcall : ∀ s call, ok' s (.call call)) (htask : ∀ s a, ok s (.task a) → ok' s.core a) :
    (Cache.system l1MaxSize l1TtlSeconds hpos).Reach ok' s.core := by
  refine h.invariant (P := fun s ↦ (Cache.system _ _ _).Reach ok' s.core) .init ?_
  intro s a s' hs hok hstep
  rcases step_cases hstep with ⟨run, rfl, -, rfl⟩ | ⟨run, call, core, rfl, -, hcore, rfl⟩ |
    ⟨b, core, rfl, -, hcore, rfl⟩
  · exact hs
  · exact hs.step (hcall _ _) hcore
  · exact hs.step (htask s b hok) hcore

/-- What holds of every call that is made holds of the call of every task. -/
theorem calls_of_reach {l1MaxSize : Nat} {l1TtlSeconds : Int} {hpos : 0 < l1MaxSize}
    {ok : State K P D E → Act K P D E → Prop} {Q : Call K Text (Run P) → Prop}
    (h : (system u cacheKey l1MaxSize l1TtlSeconds hpos).Reach ok s)
    (hcall : ∀ s run call, ok s (.run run) → run.call? u cacheKey = some call → Q call) :
    ∀ task ∈ s.core.tasks, Q task.call := by
  refine h.invariant (P := fun s ↦ ∀ task ∈ s.core.tasks, Q task.call) (fun x hx ↦ by cases hx) ?_
  intro s a s' hinv hok hstep
  rcases step_cases hstep with ⟨run, rfl, -, rfl⟩ | ⟨run, call, core, rfl, hmade, hcore, rfl⟩ |
    ⟨b, core, rfl, hne, hcore, rfl⟩
  · exact hinv
  · obtain rfl := step_call hcore
    intro x hx
    rcases List.mem_append.mp hx with hx | hx
    · exact hinv x hx
    · obtain rfl := List.mem_singleton.mp hx
      rw [(start_spec (E := E) s.core.cache s.core.now call).call_eq]
      exact hcall s run call hok hmade
  · rcases Cache.step_cases hcore with ⟨call, rfl, -⟩ | ⟨t, task, c, task', ht, hturn, rfl⟩ |
      ⟨key, rfl, rfl⟩ | ⟨now, rfl, rfl⟩
    · exact absurd rfl (hne call)
    · apply forall_mem_set hinv
      rw [hturn.seat.1]
      exact hinv task (List.mem_of_getElem? ht)
    · exact hinv
    · exact hinv

/-- Every task is the one that its run calls for. -/
def CallInv (u : Unicode) (cacheKey : Text → P → K) (s : State K P D E) : Prop :=
  ∀ task ∈ s.core.tasks, task.call.sql.call? u cacheKey = some task.call

/-- The invariant holds in every run. -/
theorem callInv_of_reach {l1MaxSize : Nat} {l1TtlSeconds : Int} {hpos : 0 < l1MaxSize}
    {ok : State K P D E → Act K P D E → Prop}
    (h : (system u cacheKey l1MaxSize l1TtlSeconds hpos).Reach ok s) : CallInv u cacheKey s := by
  refine calls_of_reach (Q := fun call ↦ call.sql.call? u cacheKey = some call) h ?_
  intro s run call _ hmade
  rw [sql_of_call? hmade]
  exact hmade

end SalesData.Service

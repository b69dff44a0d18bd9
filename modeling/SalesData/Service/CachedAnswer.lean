import SalesData.Cache.Serializer
import SalesData.Service.Resurrection
import SalesData.Service.ResultLimits

/-!
# Answers from the second level

Rows go through `json.dumps` when they are stored and through `json.loads` when they are found
(`core/caching/query_result_cache.py:134–139`, `core/caching/query_cache_coordinator.py:168–170`).
`run` measures the rows that it has at hand, before or after that
(`core/services/query_service.py:171–196`): "byte size is estimated".
-/

namespace SalesData.Service.WriteBehind

open Base Sql Cache

section Copies

variable {K P R E : Type}

/-- A lookup of the key has executed its statement and returned these rows. -/
def Executed (tasks : List (ServiceTask K P R E)) (key : K) (rows : List R) : Prop :=
  ∃ task ∈ tasks, task.call.key? = some key ∧ ∃ fresh, task.phase = .ended (.returned fresh) ∧
    fresh.source = .miss ∧ fresh.data.data.rows = rows

/-- The rows of an executed lookup, stored and read back. -/
def Copied (reload : List R → List R) (tasks : List (ServiceTask K P R E)) (key : K)
    (rows : List R) : Prop :=
  ∃ fresh, Executed tasks key fresh ∧ rows = reload fresh

/-- What the second level has answered this lookup with, or its caller, is a copy. -/
structure Traced (reload : List R → List R) (tasks : List (ServiceTask K P R E))
    (task : ServiceTask K P R E) : Prop where
  answered : ∀ key since finished data, task.call.key? = some key →
    task.phase = .answered .l2 since finished (some data) → Copied reload tasks key data.rows
  ended : ∀ key result, task.call.key? = some key → task.isLeader = true →
    task.phase = .ended (.returned result) → result.source = .l2 →
    Copied reload tasks key result.data.data.rows

variable [DecidableEq K] {u : Unicode} {cacheKey : Text → P → K} {reload : List R → List R}
  {s s' : State K P R E}

/-- Rows are stored only after their execution, and found only where they are stored. -/
structure CopyInv (cacheKey : Text → P → K) (reload : List R → List R) (s : State K P R E) :
    Prop where
  jobs : ∀ job ∈ s.jobs, Executed s.tasks (cacheKey job.run.sql job.run.params) job.data.rows
  stored : ∀ key row, s.l2.rows.get? key = some row → Copied reload s.tasks key row.resultData.rows
  tasks : ∀ task ∈ s.tasks, Traced reload s.tasks task

/-- A task that has ended takes no more turns. -/
theorem not_ended_of_turn {core : Cache.State K Text (Computed R) E (Run P)} {t : Nat}
    {task task' : ServiceTask K P R E} {a : Cache.Act K Text (Computed R) E (Run P)}
    {c : QueryCacheCoordinator K Text (Computed R) E} (h : Turn core t task a c task')
    (o : Outcome (CacheLookupResult Text (Computed R)) E) : task.phase ≠ .ended o := by
  intro hended
  cases h with
  | begin hp | finish hp | miss _ _ hp | fill _ _ hp | wake _ _ hp | invalidate _ hp
  | flushed _ hp | throwLookup _ _ hp | throwWrite _ hp | cancelFollower _ hp | cancelOther hp =>
    rw [hended] at hp
    cases hp

/-- What has been executed stays executed. -/
theorem Executed.mono {v : Service.State K P (Computed R) E} {a : Service.Act K P (Computed R) E}
    {key : K} {rows : List R} (h : Executed s.tasks key rows)
    (hstep : Service.step u cacheKey s.service a = some v) (hs' : s'.service = v) :
    Executed s'.tasks key rows := by
  obtain ⟨task, htask, hkey, fresh, hp, hrest⟩ := h
  refine ⟨task, ?_, hkey, fresh, hp, hrest⟩
  rw [State.tasks, hs']
  rcases tasks_of_service hstep with ⟨htasks, -⟩ | ⟨run, call, rfl, htasks, -⟩ |
    ⟨b, t, old, c, new, rfl, -, ht, hturn, htasks, -⟩
  · rw [htasks]
    exact htask
  · rw [htasks]
    exact List.mem_append_left _ htask
  · rw [htasks]
    obtain ⟨i, hi⟩ := List.mem_iff_getElem?.mp htask
    apply List.mem_of_getElem? (i := i)
    rw [List.getElem?_set_ne, hi]
    rintro rfl
    rw [hi] at ht
    obtain rfl := Option.some.inj ht
    exact not_ended_of_turn hturn _ hp

/-- A copy stays one. -/
theorem Copied.mono {v : Service.State K P (Computed R) E} {a : Service.Act K P (Computed R) E}
    {key : K} {rows : List R} (h : Copied reload s.tasks key rows)
    (hstep : Service.step u cacheKey s.service a = some v) (hs' : s'.service = v) :
    Copied reload s'.tasks key rows := by
  obtain ⟨fresh, hexecuted, hrows⟩ := h
  exact ⟨fresh, hexecuted.mono hstep hs', hrows⟩

namespace CopyInv

private theorem traced (h : CopyInv cacheKey reload s) (hflight : FlightInv s.service.core)
    {a : Service.Act K P (Computed R) E} {v : Service.State K P (Computed R) E}
    (hstep : Service.step u cacheKey s.service a = some v) (hs' : s'.service = v)
    (hfinish : ∀ t task answer since key data, a = .task (.finish t answer) →
      s.tasks[t]? = some task → task.phase = .running .l2 since → task.call.key? = some key →
      answer = some data → Copied reload s.tasks key data.rows) :
    ∀ task ∈ s'.tasks, Traced reload s'.tasks task := by
  have hkeep (task : ServiceTask K P R E) (ht : Traced reload s.tasks task) :
      Traced reload s'.tasks task := by
    constructor
    · intro key since finished data hkey hp
      exact (ht.answered key since finished data hkey hp).mono hstep hs'
    · intro key result hkey hleads hp hsrc
      exact (ht.ended key result hkey hleads hp hsrc).mono hstep hs'
  intro task hmem
  rw [State.tasks, hs'] at hmem
  rcases tasks_of_service hstep with ⟨htasks, -⟩ | ⟨run, call, rfl, htasks, -⟩ |
    ⟨b, t, old, c, new, rfl, -, ht, hturn, htasks, -⟩
  · rw [htasks] at hmem
    exact hkeep task (h.tasks task hmem)
  · rw [htasks] at hmem
    rcases List.mem_append.mp hmem with hmem | hmem
    · exact hkeep task (h.tasks task hmem)
    · obtain rfl := List.mem_singleton.mp hmem
      have hstart := start_spec s.service.core.cache s.now call
      generalize s.service.core.cache.start s.now call = started at hstart
      obtain ⟨c, task⟩ := started
      cases hstart with
      | write | hit | lead =>
        constructor
        · intro key since finished data hkey hp
          cases hp
        · intro key result hkey hleads hp hsrc
          cases hp <;> cases hleads
      | @follow _ _ _ f =>
        constructor
        · intro key since finished data hkey hp
          dsimp only at hp
          cases hsettled : s.service.core.cache.settled? f with
          | none =>
            rw [hsettled] at hp
            cases hp
          | some o =>
            rw [hsettled] at hp
            cases hp
        · intro key result hkey hleads hp hsrc
          cases hleads
  · rw [htasks] at hmem
    rcases List.mem_or_eq_of_mem_set hmem with hmem | rfl
    · exact hkeep task (h.tasks task hmem)
    · have hold := hkeep old (h.tasks old (List.mem_of_getElem? ht))
      cases hturn with
      | begin | miss | invalidate | flushed | throwLookup | throwWrite =>
        constructor
        · intro key since finished data hkey hp
          cases hp
        · intro key result hkey hleads hp hsrc
          cases hp
      | @finish src since answer hrunning =>
        constructor
        · intro key since' finished data hkey hp
          obtain ⟨rfl, -, -, rfl⟩ := Phase.answered.inj hp
          exact (hfinish t old (some data) since key data rfl ht hrunning hkey rfl).mono hstep hs'
        · intro key result hkey hleads hp hsrc
          cases hp
      | @fill _ _ _ _ src since finished data _ _ hanswered =>
        constructor
        · intro key since finished data hkey hp
          cases hp
        · intro key result hkey hleads hp hsrc
          obtain rfl := Outcome.returned.inj (Phase.ended.inj hp)
          cases src with
          | l2 => exact hold.answered key since finished data hkey hanswered
          | warehouse => cases hsrc
      | wake _ _ hawaiting =>
        constructor
        · intro key since finished data hkey hp
          cases hp
        · intro key result hkey hleads hp hsrc
          rw [(hflight.task old (List.mem_of_getElem? ht)).follows_of_awaiting hawaiting] at hleads
          cases hleads
      | cancelFollower | cancelOther => exact ⟨hold.answered, hold.ended⟩

private theorem executed {v : Service.State K P (Computed R) E} {t : Nat}
    {task : ServiceTask K P R E} {key : K} {run : Run P} {tables : List Text}
    {since finished : Nat} {data : Computed R}
    (hstep : Service.step u cacheKey s.service (.task (.resume t)) = some v) (hs' : s'.service = v)
    (ht : s.tasks[t]? = some task) (hc : task.call = .lookup key run tables)
    (hp : task.phase = .answered .warehouse since finished (some data)) :
    Executed s'.tasks key data.rows := by
  obtain ⟨call, fut, isLeader, cancelled, phase⟩ := task
  obtain rfl : call = .lookup key run tables := hc
  obtain rfl : phase = .answered .warehouse since finished (some data) := hp
  have hlt := (List.getElem?_eq_some_iff.mp ht).1
  rcases Service.step_cases hstep with ⟨_, heq, -⟩ | ⟨_, _, _, heq, -⟩ |
    ⟨b, core, heq, -, hcore, rfl⟩
  · cases heq
  · cases heq
  · obtain rfl := Service.Act.task.inj heq
    rw [State.tasks] at ht
    cases fut with
    | none =>
      simp only [Cache.step, Cache.State.onTask, ht, QueryCacheCoordinator.resume] at hcore
      cases hcore
    | some f =>
      simp only [Cache.step, Cache.State.onTask, ht, QueryCacheCoordinator.resume,
        Option.map_some] at hcore
      obtain rfl := Option.some.inj hcore
      rw [State.tasks, hs']
      exact ⟨_, List.mem_of_getElem? (List.getElem?_set_self hlt), rfl, _, rfl, rfl, rfl⟩

/-- No step breaks the invariant. -/
theorem step (h : CopyInv cacheKey reload s) (hflight : FlightInv s.service.core)
    (hcall : CallInv u cacheKey s.service) {a : Act K P R E}
    (hstep : WriteBehind.step u cacheKey reload s a = some s') : CopyInv cacheKey reload s' := by
  rcases step_cases hstep with ⟨run, v, rfl, hv, rfl⟩ | ⟨b, v, rfl, hadm, hv, rfl⟩ |
    ⟨t, task, key, sql, tables, since, v, rfl, ht, hc, hp, hv, rfl⟩ |
    ⟨t, new, rfl, hnext, rfl⟩ | ⟨j, job, key, rfl, hjob, rfl, rfl⟩ | ⟨j, rfl, rfl⟩
  · refine ⟨fun job hmem ↦ (h.jobs job hmem).mono hv rfl,
      fun key row hrow ↦ (h.stored key row hrow).mono hv rfl, ?_⟩
    exact h.traced hflight hv rfl (by simp)
  · have hservice := State.after_service s v b
    refine ⟨fun job hmem ↦ ?_, fun key row hrow ↦ ?_, ?_⟩
    · rcases job_of_after hmem with hold | ⟨t, task, key, tables, since, finished, rfl, ht, hc, hp⟩
      · exact (h.jobs job hold).mono hv hservice
      · have hkey := hcall task (List.mem_of_getElem? ht)
        rw [hc] at hkey
        have hkey' : key = cacheKey job.run.sql job.run.params := key_of_call? hkey
        rw [← hkey']
        exact executed hv hservice ht hc hp
    · rw [(table_after v b).1] at hrow
      exact (h.stored key row hrow).mono hv hservice
    · apply h.traced hflight hv hservice
      intro t task answer since key data hb ht hp hkey ha
      obtain rfl := Service.Act.task.inj hb
      simp [State.admits, ht, hp] at hadm
  · refine ⟨fun job hmem ↦ (h.jobs job hmem).mono hv rfl,
      fun key row hrow ↦ (h.stored key row hrow).mono hv rfl, ?_⟩
    apply h.traced hflight hv rfl
    intro t' task' answer since' key' data ha ht' hp' hkey' hanswer
    obtain ⟨rfl, rfl⟩ := Cache.Act.finish.inj (Service.Act.task.inj ha)
    obtain rfl := Option.some.inj (ht.symm.trans ht')
    rw [hc] at hkey'
    obtain rfl := Option.some.inj hkey'
    obtain ⟨row, hrow, rfl⟩ := QueryResultCache.get?_of_getCachedResult hanswer
    exact h.stored key row hrow
  · refine ⟨h.jobs, fun key row hrow ↦ ?_, h.tasks⟩
    exact h.stored key row (QueryResultCache.get?_purge.mp hrow).1
  · refine ⟨fun job' hmem ↦ h.jobs job' (List.mem_of_mem_eraseIdx hmem), fun a row hrow ↦ ?_,
      h.tasks⟩
    rcases QueryResultCache.get?_cacheResult hrow with ⟨rfl, -, hdata⟩ | ⟨-, hold⟩
    · rw [hdata]
      exact ⟨job.data.rows, h.jobs job (List.mem_of_getElem? hjob), rfl⟩
    · exact h.stored a row hold
  · exact ⟨fun job' hmem ↦ h.jobs job' (List.mem_of_mem_eraseIdx hmem), h.stored, h.tasks⟩

end CopyInv

/-- What the second level answers in any run is what it has been given, stored and read back. -/
theorem copied_of_reach {l1MaxSize : Nat} {l1TtlSeconds : Int} {hpos : 0 < l1MaxSize}
    (h : (system u cacheKey reload l1MaxSize l1TtlSeconds hpos).Reachable s) :
    ∀ task ∈ s.tasks, ∀ key result, task.call.key? = some key →
      task.phase = .ended (.returned result) → result.source = .l2 →
      Copied reload s.tasks key result.data.data.rows := by
  have hinv : CopyInv cacheKey reload s := by
    refine h.invariant_of (Q := fun x ↦ FlightInv x.service.core ∧ CallInv u cacheKey x.service)
      ?_ ?_ ?_
    · intro x hx
      have hcore : (Cache.system l1MaxSize l1TtlSeconds hpos).Reachable x.service.core :=
        core_reach (service_reach hx) (fun _ _ ↦ trivial) fun _ _ _ ↦ trivial
      exact ⟨FlightInv.of_reach hcore, callInv_of_reach (service_reach hx)⟩
    · constructor
      · intro job hjob
        cases hjob
      · intro key row hrow
        cases hrow
      · intro task htask
        cases htask
    · intro _ _ _ hs hother _ _ hstep
      exact hs.step hother.1 hother.2 hstep
  have hcore : (Cache.system l1MaxSize l1TtlSeconds hpos).Reachable s.service.core :=
    core_reach (service_reach h) (fun _ _ ↦ trivial) fun _ _ _ ↦ trivial
  have hflight := FlightInv.of_reach hcore
  intro task htask key result hkey hp hsrc
  -- A follower has got the result of its leader.
  cases hflight.task task htask with
  | write hnone =>
    rw [hnone] at hkey
    cases hkey
  | hit _ _ _ hp' =>
    rw [hp] at hp'
    obtain rfl := Outcome.returned.inj (Phase.ended.inj hp')
    cases hsrc
  | leader _ _ hleads => exact (hinv.tasks task htask).ended key result hkey hleads hp hsrc
  | @follower key' f hkey' hf hleads hfollows =>
    rw [hp] at hfollows
    obtain ⟨leader, hleader, hl, hlp⟩ : ∃ leader ∈ s.tasks, leader.Leads f ∧
        leader.phase = .ended (.returned result) := by
      cases hfollows with
      | ended hs => exact hflight.leader_of_settled htask hf hs (by simp)
    obtain ⟨leader', hleader', hl', hkeys⟩ := hflight.led task htask f hf
    obtain ⟨i, hi⟩ := List.mem_iff_getElem?.mp hleader
    obtain ⟨j, hj⟩ := List.mem_iff_getElem?.mp hleader'
    obtain rfl := hflight.unique i j leader leader' f hi hj hl hl'
    obtain rfl := Option.some.inj (hi.symm.trans hj)
    exact (hinv.tasks leader hleader).ended key result (hkeys.trans hkey) hl.1 hlp hsrc

end Copies

section Answers

variable {F D : Type} (floats : Floats F) (decimals : Decimals F D)

/-- Rows that have been stored, as they are found. -/
def reloadRows (rows : List (Row F D)) : List (Row F D) :=
  (deserialize floats (serialize floats decimals rows)).getD []

/-- Rows are found one by one. -/
theorem reloadRows_eq (rows : List (Row F D)) :
    reloadRows floats decimals rows = rows.map (reloadRow floats decimals) := by
  rw [reloadRows, deserialize_serialize]
  rfl

/-- What `run` makes of a lookup's result (`query_service.py:134–138`). -/
def answer (limits : QueryLimits) (result : CacheLookupResult Text (Computed (Row F D))) :
    QueryOutcome (Row F D) :=
  let (data, truncated) := applyResultLimits limits (rowBytes floats decimals) result.data.data.rows
  ⟨data, result.cached, truncated⟩

/-- Two answers about the same rows, when they were executed and when they are found. Where both
have a row, it is the same one, read back: what JSON can express is unchanged. They are cut alike
if each of the first rows is plain, or takes as many bytes either way. -/
structure Mirrors (limits : QueryLimits) (rows : List (Row F D))
    (executed found : QueryOutcome (Row F D)) : Prop where
  reloaded : ∀ (i : Nat) (row row' : Row F D), executed.data[i]? = some row →
    found.data[i]? = some row' →
    row' = reloadRow floats decimals row ∧
      ∀ column v, row.get? column = some v → Native v → row'.get? column = some v
  alike : (∀ row ∈ rows.take limits.maxResultRows, (∀ v ∈ row.values, Plain floats v) ∨
      rowBytes floats decimals (reloadRow floats decimals row) = rowBytes floats decimals row) →
    found.truncated = executed.truncated ∧ found.data.length = executed.data.length

private theorem getElem?_of_prefix {α : Type} {xs ys : List α} (h : xs <+: ys) {i : Nat} {x : α}
    (hx : xs[i]? = some x) : ys[i]? = some x := by
  obtain ⟨hlt, rfl⟩ := List.getElem?_eq_some_iff.mp hx
  exact List.prefix_iff_getElem?.mp h i hlt

/-- The answers about rows and about the same rows read back. -/
theorem mirrors_reloadRows (limits : QueryLimits)
    {fresh found : CacheLookupResult Text (Computed (Row F D))}
    (h : found.data.data.rows = reloadRows floats decimals fresh.data.data.rows) :
    Mirrors floats decimals limits fresh.data.data.rows (answer floats decimals limits fresh)
      (answer floats decimals limits found) := by
  rw [reloadRows_eq] at h
  have hexecuted := (applyResultLimits_spec limits (rowBytes floats decimals)
    fresh.data.data.rows).2.1
  have hfound := (applyResultLimits_spec limits (rowBytes floats decimals)
    found.data.data.rows).2.1
  constructor
  · intro i row row' hrow hrow'
    have hat : fresh.data.data.rows[i]? = some row := getElem?_of_prefix hexecuted hrow
    have hat' : found.data.data.rows[i]? = some row' := getElem?_of_prefix hfound hrow'
    rw [h, List.getElem?_map, hat] at hat'
    obtain rfl := Option.some.inj hat'
    refine ⟨rfl, fun column v hv hnative ↦ ?_⟩
    have hreload := Dict.get?_mapValues (f := reload floats decimals) hv
    rw [reload_of_native floats decimals hnative] at hreload
    exact hreload
  · intro hsame
    have hmap := applyResultLimits_map limits (rowBytes floats decimals) (reloadRow floats decimals)
      fresh.data.data.rows fun row hmem ↦
        (hsame row hmem).elim (rowBytes_reloadRow floats decimals) id
    unfold answer
    rw [h, hmap]
    exact ⟨rfl, List.length_map _⟩

/-- An answer from the second level is computed from the rows of an execution of the same query,
stored and read back, and mirrors the answer that was computed from them. -/
theorem foundAnswer_mirrors {K P E : Type} [DecidableEq K] {u : Unicode} {cacheKey : Text → P → K}
    {s : State K P (Row F D) E} (limits : QueryLimits) {l1MaxSize : Nat} {l1TtlSeconds : Int}
    {hpos : 0 < l1MaxSize}
    (h : (system u cacheKey (reloadRows floats decimals) l1MaxSize l1TtlSeconds hpos).Reachable s) :
    ∀ later ∈ s.tasks, ∀ key found, later.call.key? = some key →
      later.phase = .ended (.returned found) → found.source = .l2 →
      ∃ first ∈ s.tasks, first.call.key? = some key ∧
        ∃ fresh, first.phase = .ended (.returned fresh) ∧ fresh.source = .miss ∧
          found.data.data.rows = reloadRows floats decimals fresh.data.data.rows ∧
          Mirrors floats decimals limits fresh.data.data.rows
            (answer floats decimals limits fresh) (answer floats decimals limits found) := by
  intro later hlater key found hkey hp hsrc
  obtain ⟨rows, ⟨first, hfirst, hkey', fresh, hp', hsrc', rfl⟩, hrows⟩ :=
    copied_of_reach h later hlater key found hkey hp hsrc
  exact ⟨first, hfirst, hkey', fresh, hp', hsrc', hrows,
    mirrors_reloadRows floats decimals limits hrows⟩

end Answers

section Example

-- The float zero.
private def zero : Floats Unit where
  repr _ := ['0', '.', '0']
  parse _ := ()
  parse_repr _ := rfl
  isNumeral _ := .inl ⟨[], ['0'], ['.', '0'], [], rfl, .inl rfl, .inl rfl,
    .inr ⟨['0'], rfl, by simp, by simp⟩, .inl rfl, .inl (by simp)⟩

private def noDecimals : Decimals Unit Empty := ⟨Empty.elim, Empty.elim⟩

private theorem four_entries : 0 < 4 := by decide

private def blobs : System (State Text Unit (Row Unit Empty) Nat)
    (Act Text Unit (Row Unit Empty) Nat) :=
  system .basic (fun sql _ ↦ sql) (reloadRows zero noDecimals) 4 3600 four_entries

-- A row with one value.
private def rowWith (v : Value Unit Empty) : Row Unit Empty := Dict.empty.set ['v'] v

private def returned? (task : ServiceTask Text Unit (Row Unit Empty) Nat) :
    Option (CacheLookupResult Text (Computed (Row Unit Empty))) :=
  match task.phase with
  | .ended (.returned result) => some result
  | _ => none

-- A query is executed with this row, and again found in the second level when the first one has
-- forgotten it.
private def executedAndFound (v : Value Unit Empty) : List (Act Text Unit (Row Unit Empty) Nat) :=
  [.run readOrders, .task (.begin 0), .select 0, .task (.resume 0), .task (.begin 0),
    .task (.finish 0 (some ⟨[rowWith v], 4⟩)), .task (.resume 0), .task (.tick 1000), .store 0,
    .task (.tick 4000), .run readOrders, .task (.begin 1), .select 1, .task (.resume 1)]

-- Task `t` reads the orders and has got a result that passes.
private def returns (s : State Text Unit (Row Unit Empty) Nat) (t : Nat)
    (p : CacheLookupResult Text (Computed (Row Unit Empty)) → Bool) : Bool :=
  s.tasks[t]?.any fun task ↦
    task.call.key? == some readOrders.sql && (returned? task).any p

private theorem exists_returned {s : State Text Unit (Row Unit Empty) Nat} {t : Nat}
    {p : CacheLookupResult Text (Computed (Row Unit Empty)) → Bool} (h : returns s t p = true) :
    ∃ task ∈ s.tasks, task.call.key? = some readOrders.sql ∧
      ∃ result, task.phase = .ended (.returned result) ∧ p result = true := by
  unfold returns at h
  cases ht : s.tasks[t]? with
  | none =>
    rw [ht] at h
    cases h
  | some task =>
    rw [ht, Option.any_some, Bool.and_eq_true, beq_iff_eq] at h
    refine ⟨task, List.mem_of_getElem? ht, h.1, ?_⟩
    have hp := h.2
    unfold returned? at hp
    split at hp
    · next result hphase => exact ⟨result, hphase, hp⟩
    · cases hp

-- The result comes from this source, and its answer has that many rows.
private def answers (source : Source) (length : Nat) (truncated : Bool)
    (result : CacheLookupResult Text (Computed (Row Unit Empty))) : Bool :=
  let out := answer zero noDecimals ⟨10, 12⟩ result
  result.source == source && (out.data.length == length && out.truncated == truncated)

/-- Two bytes take fourteen bytes as `{"v": "b'ab'"}` and eleven as `{"v": "ab"}`: the execution
answers without the row, and the second level with it. -/
theorem foundAnswer_longer : ∃ s, blobs.Reachable s ∧ s.tasks.length = 2 ∧
    (∃ first ∈ s.tasks, first.call.key? = some readOrders.sql ∧
      ∃ fresh, first.phase = .ended (.returned fresh) ∧ fresh.source = .miss ∧
        (answer zero noDecimals ⟨10, 12⟩ fresh).data.length = 0 ∧
        (answer zero noDecimals ⟨10, 12⟩ fresh).truncated = true) ∧
    ∃ later ∈ s.tasks, later.call.key? = some readOrders.sql ∧
      ∃ found, later.phase = .ended (.returned found) ∧ found.source = .l2 ∧
        (answer zero noDecimals ⟨10, 12⟩ found).data.length = 1 ∧
        (answer zero noDecimals ⟨10, 12⟩ found).truncated = false := by
  obtain ⟨s, hs, hend⟩ := System.exists_of_exec blobs (fun _ _ ↦ True)
    (executedAndFound (.foreign (.bytes [97, 98])))
    (fun s ↦ s.tasks.length == 2 &&
      (returns s 0 (answers .miss 0 true) && returns s 1 (answers .l2 1 false)))
    (by decide +kernel)
  simp only [Bool.and_eq_true, beq_iff_eq] at hend
  obtain ⟨hlen, hfirst, hlater⟩ := hend
  obtain ⟨first, hmem, hkey, fresh, hp, hfresh⟩ := exists_returned hfirst
  obtain ⟨later, hmem', hkey', found, hp', hfound⟩ := exists_returned hlater
  simp only [answers, Bool.and_eq_true, beq_iff_eq] at hfresh hfound
  exact ⟨s, hs, hlen, ⟨first, hmem, hkey, fresh, hp, hfresh⟩, later, hmem', hkey', found, hp',
    hfound⟩

/-- A text is found as it was executed. -/
theorem foundAnswer_mirrors_text : ∃ s, blobs.Reachable s ∧
    ∃ later ∈ s.tasks, later.call.key? = some readOrders.sql ∧
      ∃ found, later.phase = .ended (.returned found) ∧ found.source = .l2 ∧
      ∃ first ∈ s.tasks, first.call.key? = some readOrders.sql ∧
        ∃ fresh, first.phase = .ended (.returned fresh) ∧ fresh.source = .miss ∧
          found.data.data.rows = reloadRows zero noDecimals fresh.data.data.rows ∧
          Mirrors zero noDecimals ⟨10, 12⟩ fresh.data.data.rows
            (answer zero noDecimals ⟨10, 12⟩ fresh) (answer zero noDecimals ⟨10, 12⟩ found) := by
  obtain ⟨s, hs, hend⟩ := System.exists_of_exec blobs (fun _ _ ↦ True)
    (executedAndFound (.str ['a', 'b'])) (fun s ↦ returns s 1 (answers .l2 1 false))
    (by decide +kernel)
  obtain ⟨later, hmem, hkey, found, hp, hfound⟩ := exists_returned hend
  simp only [answers, Bool.and_eq_true, beq_iff_eq] at hfound
  exact ⟨s, hs, later, hmem, hkey, found, hp, hfound.1,
    foundAnswer_mirrors zero noDecimals ⟨10, 12⟩ hs later hmem _ found hkey hp hfound.1⟩

end Example

end SalesData.Service.WriteBehind

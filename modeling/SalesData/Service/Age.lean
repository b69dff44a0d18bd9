import SalesData.Service.Resurrection

/-!
# The age of what is served

Each level stamps its entries when they are stored, not when their rows were computed
(`core/caching/query_cache_coordinator.py:161–185`, `core/caching/query_result_cache.py:122–128`).
The first level passes on rows of the warehouse for as long as its own lifetime; rows from the
second level begin a new one.
-/

namespace SalesData.Service.WriteBehind

open Base Sql Cache

variable {K P R E : Type}

/-- What `get_or_execute` returns was returned by an execution no longer ago than the lifetime
of an entry. -/
def State.Bounded (s : State K P R E) : Prop :=
  ∀ b t, (b, t) ∈ s.served → ∃ τ, (b, τ) ∈ s.returned ∧ t ≤ τ + (defaultTtlSeconds : ℚ)

/-- The clock does not go back. -/
def Monotone (s : State K P R E) : Act K P R E → Prop
  | .task (.tick now) => s.now ≤ now
  | _ => True

/-- Rows of the second level come back no later than their execution has returned; and who
awaits the future of another caller goes on within the lifetime of an entry. -/
def Prompt (s : State K P R E) : Act K P R E → Prop
  | .task (.resume t) => ∀ task ∈ s.tasks[t]?,
    match task.phase with
    | .answered .l2 _ _ (some data) => (data.began, s.now) ∈ s.returned
    | .awaiting => ∀ f ∈ task.fut, ∀ e ∈ s.settled, e.1 = f →
      s.now ≤ e.2 + (defaultTtlSeconds : ℚ)
    | _ => True
  | _ => True

/-- The entries of the first level and the results of the flights carry rows that were returned
when they were stored. -/
structure Dated (c : QueryCacheCoordinator K Text (Computed R) E) [DecidableEq K]
    (returned settled : List (Nat × Time)) : Prop where
  ttl : c.l1TtlSeconds = defaultTtlSeconds
  entries : ∀ key e, c.l1.entryFor key = some e →
    e.ttl = some defaultTtlSeconds ∧ (e.value.data.began, e.createdAt) ∈ returned
  flights : ∀ f r, c.settled? f = some (.returned r) →
    ∃ τ, (f, τ) ∈ settled ∧ (r.data.data.began, τ) ∈ returned

variable [DecidableEq K] {u : Unicode} {cacheKey : Text → P → K} {reload : List R → List R}
  {s s' : State K P R E} {c c' : QueryCacheCoordinator K Text (Computed R) E}
  {returned returned' settled settled' : List (Nat × Time)}

namespace Dated

/-- A longer record, fewer entries and fewer results. -/
theorem mono (h : Dated c returned settled) (hr : returned ⊆ returned') (hs : settled ⊆ settled')
    (httl : c'.l1TtlSeconds = c.l1TtlSeconds)
    (hl : ∀ key e, c'.l1.entryFor key = some e → c.l1.entryFor key = some e)
    (hf : ∀ f r, c'.settled? f = some (.returned r) → c.settled? f = some (.returned r)) :
    Dated c' returned' settled' := by
  constructor
  · exact httl.trans h.ttl
  · intro key e he
    obtain ⟨hle, hmem⟩ := h.entries key e (hl key e he)
    exact ⟨hle, hr hmem⟩
  · intro f r hfr
    obtain ⟨τ, hτ, hmem⟩ := h.flights f r (hf f r hfr)
    exact ⟨τ, hs hτ, hr hmem⟩

/-- A result that has just been returned is stored. -/
theorem fill (h : Dated c returned settled) {now : Time} {key : K} {f : Nat}
    {rows : Rows Text (Computed R)} {source : Source} (hr : (rows.data.began, now) ∈ returned)
    (hs : (f, now) ∈ settled) :
    Dated ((c.fill now key rows).conclude key f (.returned ⟨rows, source⟩)) returned settled := by
  constructor
  · show (c.fill now key rows).l1TtlSeconds = _
    rw [l1TtlSeconds_fill]
    exact h.ttl
  · intro k e he
    replace he : (c.fill now key rows).l1.entryFor k = some e := he
    rw [l1_fill] at he
    rcases HybridQueryCache.entryFor_of_put he with ⟨-, rfl⟩ | ⟨-, hold⟩
    · exact ⟨by rw [h.ttl], hr⟩
    · exact h.entries k e hold
  · intro g r hg
    rcases settled?_of_conclude hg with hold | ⟨rfl, ho⟩
    · rw [settled?_congr (futures_fill now rows)] at hold
      exact h.flights g r hold
    · obtain rfl := Outcome.returned.inj ho
      exact ⟨now, hs, hr⟩

/-- The first stretch of a call stores nothing. -/
theorem start (h : Dated c returned settled) {now : Time} {call : Call K Text (Run P)}
    {task : ServiceTask K P R E} (hstart : Start c now call c' task) :
    Dated c' returned settled := by
  cases hstart with
  | write => exact h
  | hit | follow =>
    refine h.mono (List.Subset.refl _) (List.Subset.refl _) rfl ?_ ?_
    · exact fun _ _ he ↦ HybridQueryCache.entryFor_of_get he
    · exact fun _ _ hf ↦ hf
  | lead =>
    refine h.mono (List.Subset.refl _) (List.Subset.refl _) rfl ?_ ?_
    · exact fun _ _ he ↦ HybridQueryCache.entryFor_of_get he
    · intro f r hf
      obtain ⟨fut, hfut, ho⟩ := settled?_eq_some.mp hf
      rcases getElem?_append_singleton hfut with hold | ⟨-, rfl⟩
      · exact settled?_eq_some.mpr ⟨fut, hold, ho⟩
      · cases ho

/-- A turn stores nothing but what its task has been given. -/
theorem turn (h : Dated s.service.core.cache returned settled) (hr : returned ⊆ returned')
    (hs : settled ⊆ settled') {t : Nat} {task task' : ServiceTask K P R E}
    {b : Cache.Act K Text (Computed R) E (Run P)}
    (hturn : Turn s.service.core t task b c task')
    (hfill : b = .resume t → ∀ f src since finished data, task.call.key?.isSome →
      task.fut = some f → task.phase = .answered src since finished (some data) →
      (data.began, s.now) ∈ returned' ∧ (f, s.now) ∈ settled') : Dated c returned' settled' := by
  cases hturn with
  | begin | finish | miss | wake | flushed | throwWrite | cancelOther =>
    exact h.mono hr hs rfl (fun _ _ he ↦ he) fun _ _ hf ↦ hf
  | @fill key sql tables f src since finished data hc hf hp =>
    obtain ⟨hret, hset⟩ := hfill rfl f src since finished data (by rw [hc]; rfl) hf hp
    have hmono : Dated s.service.core.cache returned' settled' :=
      h.mono hr hs rfl (fun _ _ he ↦ he) fun _ _ hf ↦ hf
    exact hmono.fill hret hset
  | @invalidate sql tables precise src since finished data hc hp =>
    obtain ⟨hfut, -, httl⟩ := invalidateAfterWrite_frame (c := s.service.core.cache) tables precise
    apply h.mono hr hs httl
    · exact fun key e he ↦ entryFor_of_invalidateAfterWrite he
    · intro f r hf
      rw [settled?_congr hfut] at hf
      exact hf
  | throwLookup hc hf hp hx =>
    refine h.mono hr hs rfl ?_ ?_
    · exact fun _ _ he ↦ he
    · intro f r hf
      rcases settled?_of_conclude hf with hold | ⟨-, ho⟩
      · exact hold
      · cases ho
  | cancelFollower hf hp =>
    refine h.mono hr hs rfl ?_ ?_
    · exact fun _ _ he ↦ he
    · intro f r hf
      rcases settled?_of_cancelFuture hf with hold | ho
      · exact hold
      · cases ho

end Dated

/-- The invariant of prompt runs. -/
structure AgeInv (s : State K P R E) : Prop where
  dated : Dated s.service.core.cache s.returned s.settled
  bounded : s.Bounded

/-- The records of a run grow. -/
theorem records_after (v : Service.State K P (Computed R) E)
    (b : Cache.Act K Text (Computed R) E (Run P)) :
    s.returned ⊆ (s.after v b).returned ∧ s.settled ⊆ (s.after v b).settled := by
  rcases s.after_cases v b with ⟨t, -, heq⟩ | ⟨t, -, heq⟩ | heq
  · rw [heq]
    rcases s.resumed_cases t v with ⟨_, _, _, _, src, _, _, _, _, _, _, heq⟩ |
      ⟨_, _, _, _, _, _, _, heq⟩ | heq
    · rw [heq]
      refine ⟨?_, List.subset_append_left _ _⟩
      dsimp only
      split
      · exact List.subset_append_left _ _
      · exact List.Subset.refl _
    · rw [heq]
      exact ⟨List.Subset.refl _, List.Subset.refl _⟩
    · rw [heq]
      exact ⟨List.Subset.refl _, List.Subset.refl _⟩
  · rw [heq]
    exact ⟨List.Subset.refl _, List.Subset.refl _⟩
  · rw [heq]
    exact ⟨List.Subset.refl _, List.Subset.refl _⟩

/-- What a task is given is recorded with the present reading of the clock. -/
theorem records_fill {v : Service.State K P (Computed R) E} {t : Nat} {task : ServiceTask K P R E}
    (ht : s.tasks[t]? = some task) (hkey : task.call.key?.isSome) {f : Nat}
    (hf : task.fut = some f) {src : Fetch} {since finished : Nat} {data : Computed R}
    (hp : task.phase = .answered src since finished (some data)) :
    (f, s.now) ∈ (s.resumed t v).settled ∧
      (src = .warehouse → (data.began, s.now) ∈ (s.resumed t v).returned) := by
  obtain ⟨call, fut, isLeader, cancelled, phase⟩ := task
  dsimp only at hkey hf hp
  subst hf hp
  cases call with
  | write sql tables precise => cases hkey
  | lookup key run tables =>
    simp only [State.resumed, ht]
    constructor
    · split <;> simp
    · rintro rfl
      simp

/-- What `get_or_execute` returns in a turn. -/
theorem served_after (v : Service.State K P (Computed R) E)
    (b : Cache.Act K Text (Computed R) E (Run P)) :
    (∃ t, b = .resume t ∧ (s.after v b).served = s.served ++ State.serves v t) ∨
      (s.after v b).served = s.served := by
  rcases s.after_cases v b with ⟨t, hb, heq⟩ | ⟨t, -, heq⟩ | heq
  · refine .inl ⟨t, hb, ?_⟩
    rw [heq]
    rcases s.resumed_cases t v with ⟨_, _, _, _, _, _, _, _, _, _, _, heq⟩ |
      ⟨_, _, _, _, _, _, _, heq⟩ | heq
    · rw [heq]
    · rw [heq]
    · rw [heq]
  · exact .inr (by rw [heq])
  · exact .inr (by rw [heq])

omit [DecidableEq K] in
/-- What `get_or_execute` has returned in a task is how the task has ended. -/
theorem mem_serves {v : Service.State K P (Computed R) E} {t b : Nat} {now : Time}
    (h : (b, now) ∈ State.serves v t) : ∃ task r, v.core.tasks[t]? = some task ∧
      task.phase = .ended (.returned r) ∧ b = r.data.data.began ∧ now = v.core.now := by
  unfold State.serves at h
  split at h
  · next r hp =>
    obtain ⟨task, ht, hp⟩ := Option.map_eq_some_iff.mp hp
    obtain ⟨rfl, rfl⟩ := Prod.mk.inj (List.mem_singleton.mp h)
    exact ⟨task, r, ht, hp, rfl, rfl⟩
  · cases h

/-- A call that returns at once has found an entry that is not expired. -/
theorem entryFor_of_start (hflight : FlightInv s.service.core) {call : Call K Text (Run P)}
    {task : ServiceTask K P R E} (h : Start s.service.core.cache s.now call c task)
    {r : CacheLookupResult Text (Computed R)} (hp : task.phase = .ended (.returned r)) :
    ∃ key e, call.key? = some key ∧ s.service.core.cache.l1.entryFor key = some e ∧
      e.value = r.data ∧ e.isExpired s.now = false := by
  cases h with
  | write | lead => cases hp
  | hit key sql tables hget =>
    obtain rfl := Outcome.returned.inj (Phase.ended.inj hp)
    obtain ⟨e, hval, he, hexp⟩ := HybridQueryCache.entryFor_of_hit hget
    exact ⟨key, e, rfl, he, hval, hexp⟩
  | @follow key sql tables f hmiss hr =>
    dsimp only at hp
    cases hs : s.service.core.cache.settled? f with
    | none =>
      rw [hs] at hp
      cases hp
    | some o =>
      rw [hs] at hp
      obtain rfl := Phase.ended.inj hp
      exact absurd hs (hflight.not_returned hr r)

/-- An entry that is not expired was stored no longer ago than its lifetime. -/
theorem le_of_isExpired {V : Type} {e : CacheEntry V} {now : Time} {ttl : Int}
    (httl : e.ttl = some ttl) (h : e.isExpired now = false) : now ≤ e.createdAt + (ttl : ℚ) := by
  simp only [CacheEntry.isExpired, httl, decide_eq_false_iff_not, not_lt] at h
  exact sub_le_iff_le_add'.mp h

namespace AgeInv

private theorem run (h : AgeInv s) (hflight : FlightInv s.service.core) {run : Run P}
    {v : Service.State K P (Computed R) E}
    (hv : Service.step u cacheKey s.service (.run run) = some v) :
    AgeInv { s with service := v, served := s.served ++ State.serves v s.tasks.length } := by
  rcases Service.step_cases hv with ⟨run, -, -, rfl⟩ | ⟨run, call, core, -, -, hcore, rfl⟩ |
    ⟨b, core, hb, -⟩
  · refine ⟨h.dated, fun b t hbt ↦ ?_⟩
    rcases List.mem_append.mp hbt with hold | hnew
    · exact h.bounded b t hold
    · obtain ⟨task, r, ht, -⟩ := mem_serves hnew
      have hlt := (List.getElem?_eq_some_iff.mp ht).1
      exact absurd hlt (Nat.lt_irrefl _)
  · obtain rfl := step_call hcore
    have hstart := start_spec s.service.core.cache s.now call
    refine ⟨h.dated.start hstart, fun b t hbt ↦ ?_⟩
    rcases List.mem_append.mp hbt with hold | hnew
    · exact h.bounded b t hold
    · obtain ⟨task, r, ht, hp, rfl, rfl⟩ := mem_serves hnew
      obtain rfl : (s.service.core.cache.start s.now call).2 = task :=
        Option.some.inj (List.getElem?_concat_length.symm.trans ht)
      obtain ⟨key, e, -, he, hval, hexp⟩ := entryFor_of_start hflight hstart hp
      obtain ⟨httl, hmem⟩ := h.dated.entries key e he
      refine ⟨e.createdAt, ?_, le_of_isExpired httl hexp⟩
      rw [← hval]
      exact hmem
  · cases hb

private theorem turn (h : AgeInv s) {b : Cache.Act K Text (Computed R) E (Run P)} {t : Nat}
    {task task' : ServiceTask K P R E} {v : Service.State K P (Computed R) E}
    (hok : Prompt s (.task b)) (ht : s.tasks[t]? = some task)
    (hturn : Turn s.service.core t task b c task') (hcore : v.core = { s.service.core with
      cache := c, tasks := s.service.core.tasks.set t task', clock := s.service.core.clock + 1 })
    (hb : b.task? = some t) : AgeInv (s.after v b) := by
  obtain ⟨hret, hset⟩ := records_after (s := s) v b
  have hfill (hb : b = .resume t) (f : Nat) (src : Fetch) (since finished : Nat)
      (data : Computed R) (hkey : task.call.key?.isSome) (hf : task.fut = some f)
      (hp : task.phase = .answered src since finished (some data)) :
      (data.began, s.now) ∈ (s.after v b).returned ∧ (f, s.now) ∈ (s.after v b).settled := by
    subst hb
    obtain ⟨hsettled, hreturned⟩ := records_fill (v := v) ht hkey hf hp
    refine ⟨?_, hsettled⟩
    cases src with
    | warehouse => exact hreturned rfl
    | l2 =>
      have hprompt := hok task ht
      rw [hp] at hprompt
      exact hret hprompt
  have hdated : Dated c (s.after v b).returned (s.after v b).settled :=
    h.dated.turn hret hset hturn hfill
  constructor
  · rw [State.after_service, hcore]
    exact hdated
  · intro began now hmem
    have hold (hmem : (began, now) ∈ s.served) :
        ∃ τ, (began, τ) ∈ (s.after v b).returned ∧ now ≤ τ + (defaultTtlSeconds : ℚ) := by
      obtain ⟨τ, hτ, hle⟩ := h.bounded began now hmem
      exact ⟨τ, hret hτ, hle⟩
    rcases served_after (s := s) v b with ⟨i, rfl, heq⟩ | heq
    · rw [heq] at hmem
      rcases List.mem_append.mp hmem with hmem | hmem
      · exact hold hmem
      · obtain rfl := Option.some.inj hb
        obtain ⟨x, r, hx, hp, rfl, rfl⟩ := mem_serves hmem
        rw [hcore] at hx ⊢
        rcases getElem?_set_cases hx with ⟨-, rfl⟩ | ⟨hne, -⟩
        · cases hturn with
          | @fill key sql tables f src since finished data hc hf hp' =>
            obtain rfl := Outcome.returned.inj (Phase.ended.inj hp)
            refine ⟨s.now, (hfill rfl f src since finished data (by rw [hc]; rfl) hf hp').1, ?_⟩
            exact le_add_of_nonneg_right (by decide)
          | @wake key sql tables f o hc hf hp' ho =>
            dsimp only at hp
            split at hp
            · cases hp
            · obtain rfl := Phase.ended.inj hp
              obtain ⟨τ, hsettled, hmem⟩ := h.dated.flights f r ho
              have hprompt := hok task ht
              rw [hp'] at hprompt
              exact ⟨τ, hret hmem, hprompt f hf (f, τ) hsettled rfl⟩
          | throwLookup => cases hp
          | throwWrite => cases hp
          | miss => cases hp
          | invalidate => cases hp
          | flushed => cases hp
        · exact absurd rfl hne
    · rw [heq] at hmem
      exact hold hmem

/-- No step breaks the invariant, if it is prompt. -/
theorem step (h : AgeInv s) (hflight : FlightInv s.service.core) {a : Act K P R E}
    (hok : Prompt s a) (hstep : WriteBehind.step u cacheKey reload s a = some s') : AgeInv s' := by
  rcases step_cases hstep with ⟨run, v, rfl, hv, rfl⟩ | ⟨b, v, rfl, -, hv, rfl⟩ |
    ⟨t, task, key, sql, tables, since, v, rfl, ht, -, hp, hv, rfl⟩ | ⟨t, e, rfl, -, rfl⟩ |
    ⟨j, job, key, rfl, -, -, rfl⟩ | ⟨j, rfl, rfl⟩
  · exact h.run hflight hv
  · rcases Service.step_cases hv with ⟨_, hb, -⟩ | ⟨_, _, _, hb, -⟩ |
      ⟨b', core, hb, hne, hcore, rfl⟩
    · cases hb
    · cases hb
    · obtain rfl := Service.Act.task.inj hb
      cases htask : b.task? with
      | some t =>
        obtain ⟨task, c, task', ht, hturn, rfl⟩ := Cache.step_task htask hcore
        exact h.turn hok ht hturn rfl htask
      | none =>
        cases b with
        | call call => exact absurd rfl (hne call)
        | invalidate key =>
          obtain rfl := Option.some.inj hcore
          refine ⟨h.dated.mono (List.Subset.refl _) (List.Subset.refl _) rfl ?_ ?_, h.bounded⟩
          · exact fun _ _ he ↦ HybridQueryCache.entryFor_of_invalidate he
          · exact fun _ _ hf ↦ hf
        | tick now =>
          obtain rfl := Option.some.inj hcore
          exact ⟨h.dated, h.bounded⟩
        | _ => cases htask
  · -- The answer of the table stores nothing yet.
    rcases Service.step_cases hv with ⟨_, hb, -⟩ | ⟨_, _, _, hb, -⟩ | ⟨b, core, hb, -, hcore, rfl⟩
    · cases hb
    · cases hb
    · obtain rfl := Service.Act.task.inj hb
      obtain ⟨task, c, task', -, hturn, rfl⟩ := Cache.step_task rfl hcore
      refine ⟨h.dated.turn (List.Subset.refl _) (List.Subset.refl _) hturn ?_, h.bounded⟩
      intro hb
      cases hb
  · exact ⟨h.dated, h.bounded⟩
  · exact ⟨h.dated, h.bounded⟩
  · exact ⟨h.dated, h.bounded⟩

end AgeInv

/-- As long as no rows come back from the second level later than their execution returned, and
everybody who awaits a flight goes on in time, whatever is served was returned by an execution
within the lifetime of an entry. -/
theorem served_bounded {l1MaxSize : Nat} {hpos : 0 < l1MaxSize}
    (h : (system (E := E) u cacheKey reload l1MaxSize defaultTtlSeconds hpos).Reach Prompt s) :
    s.Bounded := by
  have hinv : AgeInv s := by
    refine h.invariant_of (Q := fun x ↦ FlightInv x.service.core) ?_ ?_ ?_
    · intro x hx
      have hcore : (Cache.system l1MaxSize defaultTtlSeconds hpos).Reachable x.service.core :=
        core_reach (service_reach hx) (fun _ _ ↦ trivial) fun _ _ _ ↦ trivial
      exact FlightInv.of_reach hcore
    · constructor
      · constructor
        · rfl
        · intro key e he
          cases he
        · intro f r hf
          cases hf
      · intro b t hbt
        cases hbt
    · exact fun _ _ _ hs hflight _ hok hstep ↦ hs.step hflight hok hstep
  exact hinv.bounded

instance (s : State K P R E) (a : Act K P R E) : Decidable (Monotone s a) := by
  unfold Monotone
  split <;> infer_instance

private def decidableInTime (s : State K P R E) (task : ServiceTask K P R E)
    (phase : Phase Text (Computed R) E) : Decidable (
      match phase with
      | .answered .l2 _ _ (some data) => (data.began, s.now) ∈ s.returned
      | .awaiting => ∀ f ∈ task.fut, ∀ e ∈ s.settled, e.1 = f →
        s.now ≤ e.2 + (defaultTtlSeconds : ℚ)
      | _ => True) := by
  split <;> infer_instance

instance (s : State K P R E) (a : Act K P R E) : Decidable (Prompt s a) := by
  unfold Prompt
  split
  · refine @Option.decidableForallMem _ _ (fun task ↦ ?_) _
    exact decidableInTime s task task.phase
  · infer_instance

/-- The lookup of a call reaches the second level. -/
def looked (t : Nat) : List (Act Text Unit Nat Nat) :=
  [.run readOrders, .task (.begin t), .select t, .task (.resume t)]

/-- The rows are stored a quarter of an hour late, and outlive their entry in the first level by
as much. -/
theorem lateRow_served : ¬ ∀ s, demo.Reach Monotone s → s.Bounded := by
  intro h
  obtain ⟨s, hs, hend⟩ := System.exists_of_exec demo Monotone
    (missed 0 ++
      [.task (.finish 0 (some ⟨[7], 4⟩)), .task (.resume 0), .task (.tick 1000), .store 0,
        .task (.tick 4000)] ++ looked 1)
    (fun s ↦ s.served == [(4, 0), (4, 4000)] && s.returned == [(4, 0)]) (by decide +kernel)
  simp only [Bool.and_eq_true, beq_iff_eq] at hend
  obtain ⟨hserved, hreturned⟩ := hend
  obtain ⟨τ, hτ, hle⟩ := h s hs 4 4000 (by simp [hserved])
  rw [hreturned] at hτ
  obtain ⟨-, rfl⟩ := Prod.mk.inj (List.mem_singleton.mp hτ)
  exact absurd hle (by decide +kernel)

/-- An entry that answers at the end of its lifetime. -/
theorem served_bounded_oldEntry : ∃ s, demo.Reach Prompt s ∧
    s.served = [(4, 0), (4, 3600)] ∧ s.returned = [(4, 0)] ∧ s.Bounded := by
  obtain ⟨s, hs, hend⟩ := System.exists_of_exec demo Prompt
    (missed 0 ++ [.task (.finish 0 (some ⟨[7], 4⟩)), .task (.resume 0), .store 0,
      .task (.tick 3600), .run readOrders])
    (fun s ↦ s.served == [(4, 0), (4, 3600)] && s.returned == [(4, 0)]) (by decide +kernel)
  simp only [Bool.and_eq_true, beq_iff_eq] at hend
  exact ⟨s, hs, hend.1, hend.2, served_bounded hs⟩

end SalesData.Service.WriteBehind

import SalesData.Cache.SingleFlight
import SalesData.Cache.Tags

/-!
# Single flight

What the coordinator guarantees when no caller is cancelled: one execution for each key at a
time, one outcome for all callers of a flight, no first-level entry that did not come from an
answer, and no flight without a caller.
-/

namespace SalesData.Cache

open Base

variable {K T D E S : Type} [DecidableEq K]

/-- No caller is cancelled. -/
def NoCancel (_ : State K T D E S) : Act K T D E S → Prop
  | .cancel _ => False
  | _ => True

instance (s : State K T D E S) (a : Act K T D E S) : Decidable (NoCancel s a) := by
  cases a <;> first | exact isTrue trivial | exact isFalse id

/-- The task is inside `run_query` for the key. -/
def Task.Queries (task : Task K T D E S) (key : K) : Prop :=
  task.call.key? = some key ∧ task.phase.querying = true

/-- Every first-level entry is what a leader of its key got from its fetch. -/
def FilledInv (s : State K T D E S) : Prop :=
  ∀ key rows, s.cache.l1.Holds key rows → ∃ leader ∈ s.tasks, leader.isLeader = true ∧
    leader.call.key? = some key ∧
    ∃ src : Fetch, leader.phase = .ended (.returned ⟨rows, src.source⟩)

/-- Two executions of `run_query` for one key never overlap. -/
def State.OneQuery (s : State K T D E S) : Prop :=
  ∀ (t u : Nat) (task task' : Task K T D E S) (key : K), s.tasks[t]? = some task →
    s.tasks[u]? = some task' → task.Queries key → task'.Queries key → t = u

variable [DecidableEq T] in
/-- Once a caller of a flight has ended, every other one has ended alike, or awaits the
flight's future and ends alike in its next turn. -/
def State.SharesOutcomes (s : State K T D E S) : Prop :=
  ∀ (t u : Nat) (task task' : Task K T D E S) (f : Nat) (o : Outcome (CacheLookupResult T D) E),
    s.tasks[t]? = some task → s.tasks[u]? = some task' → task.fut = some f → task'.fut = some f →
    task.phase = .ended o → task'.phase = .ended o ∨ task'.phase = .awaiting ∧
      ∃ s', step s (.resume u) = some s' ∧ (s'.tasks[u]?.map (·.phase)) = some (.ended o)

/-- A key without an open call has no flight. -/
def State.NoStrayFlight (s : State K T D E S) : Prop :=
  ∀ key, (∀ task ∈ s.tasks, task.call.key? = some key → task.phase.open? = false) →
    s.cache.inflight.get? key = none

section Filled

variable {s s' : State K T D E S}

/-- The first stretch of a call cancels nothing. -/
theorem Start.uncancelled {c c' : QueryCacheCoordinator K T D E} {now : Time} {call : Call K T S}
    {task : Task K T D E S} (h : Start c now call c' task)
    (hf : ∀ f : Nat, c.futures[f]? ≠ some .cancelled) :
    task.cancelled = false ∧ ∀ f : Nat, c'.futures[f]? ≠ some .cancelled := by
  cases h with
  | write | hit | follow => exact ⟨rfl, hf⟩
  | lead =>
    refine ⟨rfl, fun f h ↦ ?_⟩
    rcases getElem?_append_singleton h with h | ⟨-, h⟩
    · exact hf f h
    · cases h

private theorem FilledInv.of_holds {c : QueryCacheCoordinator K T D E} (hinv : FilledInv s)
    {tasks : List (Task K T D E S)} {clock : Nat} {now : Time}
    (hl : ∀ key rows, c.l1.Holds key rows → s.cache.l1.Holds key rows)
    (hmem : ∀ task ∈ s.tasks, task.phase.open? = false → task ∈ tasks) :
    FilledInv (⟨c, tasks, clock, now⟩ : State K T D E S) := by
  intro key rows h
  obtain ⟨leader, hleader, his, hk, src, hp⟩ := hinv key rows (hl key rows h)
  exact ⟨leader, hmem leader hleader (by rw [hp]; rfl), his, hk, src, hp⟩

variable [DecidableEq T]

private theorem FilledInv.step {a : Act K T D E S} (hinv : FilledInv s) (hflight : FlightInv s)
    (h : step s a = some s') : FilledInv s' := by
  rcases step_cases h with ⟨call, rfl, rfl⟩ | ⟨t, task, c, task', ht, hturn, rfl⟩ |
    ⟨key, rfl, rfl⟩ | ⟨now, rfl, rfl⟩
  · exact hinv.of_holds (fun _ _ h ↦ (start_spec s.cache s.now call).holds h)
      fun _ h _ ↦ List.mem_append_left _ h
  · have hkeep (x) (hx : x ∈ s.tasks) (hp : x.phase.open? = false) : x ∈ s.tasks.set t task' := by
      obtain ⟨i, hi⟩ := List.getElem?_of_mem hx
      refine List.mem_of_getElem? ((List.getElem?_set_ne ?_).trans hi)
      rintro rfl
      obtain rfl := Option.some.inj (ht.symm.trans hi)
      rw [hturn.open?] at hp
      cases hp
    have hstay (hl : c.l1 = s.cache.l1) : FilledInv
        { s with cache := c, tasks := s.tasks.set t task', clock := s.clock + 1 } :=
      hinv.of_holds (fun key rows h ↦ hl ▸ h) hkeep
    cases hturn with
    | begin | finish | miss | wake | flushed | throwLookup | throwWrite | cancelFollower
    | cancelOther => exact hstay rfl
    | invalidate => exact hinv.of_holds (fun _ _ h ↦ (holds_of_invalidateAfterWrite h).1) hkeep
    | fill hc hf hp =>
      intro key rows h
      have h : (s.cache.fill s.now _ _).l1.Holds key rows := h
      rw [l1_fill] at h
      rcases HybridQueryCache.holds_of_put h with ⟨rfl, rfl⟩ | ⟨-, hold⟩
      · have hk := congrArg Call.key? hc
        obtain ⟨f, hl, -⟩ := (hflight.task task (List.mem_of_getElem? ht)).leads_of_fetching hk
          (by rw [hp]; rfl)
        exact ⟨_, List.mem_of_getElem? (getElem?_set_of_some ht _), hl.1, hk, _, rfl⟩
      · obtain ⟨leader, hleader, hrest⟩ := hinv key rows hold
        obtain ⟨-, -, src, hp⟩ := id hrest
        exact ⟨leader, hkeep leader hleader (by rw [hp]; rfl), hrest⟩
  · exact hinv.of_holds (fun _ _ h ↦ (HybridQueryCache.holds_of_invalidate h).2) fun _ h _ ↦ h
  · exact hinv.of_holds (fun _ _ h ↦ h) fun _ h _ ↦ h

/-- The invariant holds in every run. -/
theorem FilledInv.of_reach {l1MaxSize : Nat} {l1TtlSeconds : Int} {hpos : 0 < l1MaxSize}
    {ok : State K T D E S → Act K T D E S → Prop}
    (h : (system l1MaxSize l1TtlSeconds hpos).Reach ok s) : FilledInv s := by
  refine h.invariant_of (fun s h ↦ FlightInv.of_reach h) ?_
    fun _ _ _ hinv hflight _ _ hs ↦ hinv.step hflight hs
  exact fun key rows h ↦ absurd h HybridQueryCache.not_holds_new

end Filled

section Uncancelled

variable {s s' : State K T D E S}

/-- No task and no future has been cancelled. -/
structure Uncancelled (s : State K T D E S) : Prop where
  task : ∀ task ∈ s.tasks, task.cancelled = false
  future : ∀ f : Nat, s.cache.futures[f]? ≠ some .cancelled

private theorem not_cancelled_of_conclude {c : QueryCacheCoordinator K T D E} {key : K} {f : Nat}
    {o : Outcome (CacheLookupResult T D) E} (h : ∀ g : Nat, c.futures[g]? ≠ some .cancelled)
    (g : Nat) : (c.conclude key f o).futures[g]? ≠ some .cancelled := by
  intro hg
  rw [QueryCacheCoordinator.conclude, List.getElem?_modify, Option.map_eq_map,
    Option.map_eq_some_iff] at hg
  obtain ⟨fut, hfut, hset⟩ := hg
  split at hset
  · cases fut with
    | pending => cases hset
    | settled => cases hset
    | cancelled => exact h g hfut
  · obtain rfl := hset
    exact h g hfut

private theorem settled_of_ended {task : Task K T D E S} {f : Nat}
    {o : Outcome (CacheLookupResult T D) E} (hinv : FlightInv s) (hun : Uncancelled s)
    (hmem : task ∈ s.tasks) (hf : task.fut = some f) (hp : task.phase = .ended o) :
    s.cache.settled? f = some o := by
  have hcan := hun.task task hmem
  cases hinv.task task hmem with
  | write _ hf' | hit _ hf' =>
    rw [hf'] at hf
    cases hf
  | leader _ hf' _ hleader =>
    obtain rfl := Option.some.inj (hf'.symm.trans hf)
    rw [hp] at hleader
    cases hleader with
    | fetching hp' => cases hp'
    | ended hg =>
      rcases hg with hg | hg
      · exact settled?_eq_some.mpr ⟨_, hg, rfl⟩
      · exact absurd hg (hun.future _)
  | follower _ hf' _ hfollower =>
    obtain rfl := Option.some.inj (hf'.symm.trans hf)
    rw [hp] at hfollower
    cases hfollower with
    | ended hs => exact hs
    | cancelled hc =>
      rw [hcan] at hc
      cases hc

private theorem ended_or_awaiting {task : Task K T D E S} {f : Nat}
    {o : Outcome (CacheLookupResult T D) E} (hinv : FlightInv s) (hun : Uncancelled s)
    (hmem : task ∈ s.tasks) (hf : task.fut = some f) (hs : s.cache.settled? f = some o) :
    task.phase = .ended o ∨ task.phase = .awaiting := by
  have hcan := hun.task task hmem
  obtain ⟨fut, hfut, ho⟩ := settled?_eq_some.mp hs
  cases hinv.task task hmem with
  | write _ hf' | hit _ hf' =>
    rw [hf'] at hf
    cases hf
  | leader _ hf' _ hleader =>
    obtain rfl := Option.some.inj (hf'.symm.trans hf)
    generalize task.phase = phase at hleader
    cases hleader with
    | fetching _ _ hg =>
      rcases hg with hg | hg
      · obtain rfl := Option.some.inj (hfut.symm.trans hg)
        cases ho
      · exact absurd hg (hun.future _)
    | ended hg =>
      rcases hg with hg | hg
      · obtain rfl := Option.some.inj (hfut.symm.trans hg)
        obtain rfl := Option.some.inj ho
        exact .inl rfl
      · exact absurd hg (hun.future _)
  | follower _ hf' _ hfollower =>
    obtain rfl := Option.some.inj (hf'.symm.trans hf)
    generalize task.phase = phase at hfollower
    cases hfollower with
    | awaiting => exact .inr rfl
    | ended hs' =>
      obtain rfl := Option.some.inj (hs.symm.trans hs')
      exact .inl rfl
    | cancelled hc =>
      rw [hcan] at hc
      cases hc

variable [DecidableEq T]

private theorem Uncancelled.turn {t : Nat} {task task' : Task K T D E S} {a : Act K T D E S}
    {c : QueryCacheCoordinator K T D E} (hinv : Uncancelled s) (hok : NoCancel s a)
    (ht : s.tasks[t]? = some task) (h : Turn s t task a c task') (clock : Nat) :
    Uncancelled { s with cache := c, tasks := s.tasks.set t task', clock := clock } := by
  have hcan := hinv.task task (List.mem_of_getElem? ht)
  cases h with
  | begin | finish | miss | wake | flushed | throwWrite =>
    exact ⟨forall_mem_set hinv.task hcan, hinv.future⟩
  | invalidate =>
    refine ⟨forall_mem_set hinv.task hcan, fun f ↦ ?_⟩
    dsimp only
    rw [(invalidateAfterWrite_frame _ _).1]
    exact hinv.future f
  | fill =>
    refine ⟨forall_mem_set hinv.task hcan, not_cancelled_of_conclude fun f ↦ ?_⟩
    rw [futures_fill]
    exact hinv.future f
  | throwLookup =>
    exact ⟨forall_mem_set hinv.task hcan, not_cancelled_of_conclude hinv.future⟩
  | cancelFollower | cancelOther => exact hok.elim

private theorem Uncancelled.step {a : Act K T D E S} (hinv : Uncancelled s) (hok : NoCancel s a)
    (h : step s a = some s') : Uncancelled s' := by
  rcases step_cases h with ⟨call, rfl, rfl⟩ | ⟨t, task, c, task', ht, hturn, rfl⟩ |
    ⟨key, rfl, rfl⟩ | ⟨now, rfl, rfl⟩
  · obtain ⟨htask, hfut⟩ := (start_spec (E := E) s.cache s.now call).uncancelled hinv.future
    refine ⟨fun x hx ↦ ?_, hfut⟩
    rcases List.mem_append.mp hx with hx | hx
    · exact hinv.task x hx
    · obtain rfl := List.mem_singleton.mp hx
      exact htask
  · exact hinv.turn hok ht hturn _
  · exact ⟨hinv.task, hinv.future⟩
  · exact ⟨hinv.task, hinv.future⟩

/-- Without cancellations no task and no future is cancelled. -/
theorem Uncancelled.of_reach {l1MaxSize : Nat} {l1TtlSeconds : Int} {hpos : 0 < l1MaxSize}
    (h : (system l1MaxSize l1TtlSeconds hpos).Reach NoCancel s) : Uncancelled s := by
  refine h.invariant ⟨?_, ?_⟩ fun _ _ _ hinv hok hs ↦ hinv.step hok hs
  · exact fun x hx ↦ by cases hx
  · exact fun f hf ↦ by cases hf

/-- The next turn of a follower whose future is settled. -/
theorem step_resume_awaiting {u f : Nat} {task : Task K T D E S} {key : K}
    {o : Outcome (CacheLookupResult T D) E} (hu : s.tasks[u]? = some task)
    (hk : task.call.key? = some key) (hf : task.fut = some f) (hp : task.phase = .awaiting)
    (hs : s.cache.settled? f = some o) :
    step s (.resume u) = some { s with
      tasks := s.tasks.set u
        { task with phase := .ended (if task.cancelled then .raised .cancelledError else o) },
      clock := s.clock + 1 } := by
  obtain ⟨call, fut, isLeader, cancelled, phase⟩ := task
  obtain rfl : fut = some f := hf
  obtain rfl : phase = .awaiting := hp
  cases call with
  | write => cases hk
  | lookup key sql tables => simp [step, State.onTask, hu, QueryCacheCoordinator.resume, hs]

/-- Without cancellations the callers of one key never execute its query at the same time,
all callers of a flight get the outcome of the first of them that has ended, L1 holds
nothing but answers, and a key without an open call has no flight. -/
theorem singleFlight_correct {l1MaxSize : Nat} {l1TtlSeconds : Int} {hpos : 0 < l1MaxSize}
    (h : (system l1MaxSize l1TtlSeconds hpos).Reach NoCancel s) :
    s.OneQuery ∧ s.SharesOutcomes ∧ FilledInv s ∧ s.NoStrayFlight := by
  have hinv := FlightInv.of_reach h
  have hun := Uncancelled.of_reach h
  refine ⟨?_, ?_, FilledInv.of_reach h, ?_⟩
  · intro t u task task' key ht hu hq hq'
    obtain ⟨f, hl, hreg, -⟩ := (hinv.task task (List.mem_of_getElem? ht)).leads_of_fetching hq.1
      (Phase.fetching_of_querying hq.2)
    obtain ⟨f', hl', hreg', -⟩ := (hinv.task task' (List.mem_of_getElem? hu)).leads_of_fetching
      hq'.1 (Phase.fetching_of_querying hq'.2)
    obtain rfl := Option.some.inj (hreg.symm.trans hreg')
    exact hinv.unique t u task task' f ht hu hl hl'
  · intro t u task task' f o ht hu hf hf' hp
    have hmem' := List.mem_of_getElem? hu
    have hs := settled_of_ended hinv hun (List.mem_of_getElem? ht) hf hp
    rcases ended_or_awaiting hinv hun hmem' hf' hs with hp' | hp'
    · exact .inl hp'
    · obtain ⟨key, -, -, hk, -⟩ := (hinv.task task' hmem').of_awaiting hp'
      refine .inr ⟨hp', _, step_resume_awaiting hu hk hf' hp' hs, ?_⟩
      rw [getElem?_set_of_some hu, hun.task task' hmem']
      rfl
  · intro key hclosed
    cases hr : s.cache.inflight.get? key with
    | none => rfl
    | some f =>
      obtain ⟨leader, hmem, -, hk, hp⟩ := hinv.registered key f hr
      have hopen := Phase.open?_of_fetching hp
      rw [hclosed leader hmem hk] at hopen
      cases hopen

end Uncancelled

/-- Two callers of one key and one of another: the leader misses both levels and returns. -/
def twoCallers : List (Act Nat Nat Nat Nat Unit) :=
  [.call (.lookup 1 () [5]), .call (.lookup 1 () [5]), .call (.lookup 2 () []), .begin 0,
    .finish 0 none, .resume 0, .begin 0, .finish 0 (some 7), .resume 0]

/-- A run in which the leader has returned and its follower is about to. -/
theorem singleFlight_correct_twoCallers :
    ∃ s, (system 4 3600 (by decide) : System (State Nat Nat Nat Nat Unit) _).Reach NoCancel s ∧
      s.tasks[1]?.map (·.phase) = some .awaiting ∧
      s.OneQuery ∧ s.SharesOutcomes ∧ FilledInv s ∧ s.NoStrayFlight := by
  obtain ⟨s, hs, hend⟩ := System.exists_of_exec (system 4 3600 (by decide)) NoCancel twoCallers
    (fun s ↦ s.tasks[1]?.map (·.phase) == some .awaiting) (by decide +kernel)
  exact ⟨s, hs, beq_iff_eq.mp hend, singleFlight_correct hs⟩

end SalesData.Cache

import SalesData.Cache.SingleFlight

/-!
# Cancellation of shared flights

All callers of a flight share one future: a follower awaits it bare, so that cancelling the
follower cancels the future, and a leader hands its own `CancelledError` on
(`query_cache_coordinator.py:141–155`). The roadmap wants the others to go on
(`docs/API_PERFORMANCE_LATENCY_REFACTOR_ROADMAP.md`, 11.3).
-/

namespace SalesData.Cache

open Base

variable {K T D E S : Type}

/-- The task is suspended in `await fut`. -/
def Phase.isAwaiting : Phase T D E → Bool
  | awaiting => true
  | _ => false

/-- A caller that has not been cancelled awaits the future `f`. -/
def Task.awaits (task : Task K T D E S) (f : Nat) : Bool :=
  task.fut == some f && task.phase.isAwaiting && !task.cancelled

namespace State

/-- Somebody else than `t` awaits the future `f` and has not been cancelled. -/
def othersAwait (s : State K T D E S) (t f : Nat) : Bool :=
  (List.range s.tasks.length).any fun u ↦ u != t && s.tasks[u]?.any (·.awaits f)

/-- The flight of `t` is settled, or nobody else awaits it. -/
def alone (s : State K T D E S) (t : Nat) : Bool :=
  s.tasks[t]?.all fun task ↦ task.fut.all fun f ↦
    (s.cache.settled? f).isSome || !s.othersAwait t f

end State

variable [DecidableEq K]

/-- No cancellation strikes a flight that somebody else awaits, and nobody joins a flight
whose future has been cancelled. -/
def isolated (s : State K T D E S) : Act K T D E S → Bool
  | .call (.lookup key _ _) => (s.cache.l1.get s.now key).1.isSome ||
      (s.cache.inflight.get? key).all fun f ↦ (s.cache.settled? f).isNone
  | .cancel t => !s.tasks[t]?.any (·.phase.isAwaiting) || s.alone t
  | .interrupt t => s.alone t
  | _ => true

/-- The condition on a step. -/
def Isolated (s : State K T D E S) (a : Act K T D E S) : Prop := isolated s a = true

instance (s : State K T D E S) (a : Act K T D E S) : Decidable (Isolated s a) :=
  inferInstanceAs (Decidable (_ = true))

/-- A lookup that is not cancelled itself: it ends with a result, or with an error that its
flight's leader got from its fetch, and while it awaits an unsettled future its flight has a
leader in a fetch. -/
def State.CancelIsolated (s : State K T D E S) : Prop :=
  ∀ task ∈ s.tasks, task.call.key?.isSome = true → task.cancelled = false →
    (∀ x, task.phase = .ended (.raised x) → ∃ e, x = .error e ∧
      ∃ leader ∈ s.tasks, leader.isLeader = true ∧ leader.fut = task.fut ∧
        leader.phase = .ended (.raised (.error e))) ∧
    (task.phase = .awaiting → ∃ f, task.fut = some f ∧ ((s.cache.settled? f).isSome = true ∨
      ∃ leader ∈ s.tasks, leader.Leads f ∧ leader.phase.fetching = true))

/-- The invariant of isolated runs. -/
structure IsolationInv (s : State K T D E S) : Prop where
  follower : ∀ task ∈ s.tasks, task.isLeader = false → task.cancelled = false →
    ∀ f : Nat, task.fut = some f → s.cache.settled? f ≠ some (.raised .cancelledError)
  leader : ∀ task ∈ s.tasks, task.isLeader = true → task.cancelled = false →
    task.phase ≠ .ended (.raised .cancelledError)

section Isolated

variable {s s' : State K T D E S} {c : QueryCacheCoordinator K T D E} {f g : Nat}
  {o o' : Outcome (CacheLookupResult T D) E}

private theorem settled?_conclude {key : K}
    (h : (c.conclude key g o).settled? f = some o') :
    c.settled? f = some o' ∨ g = f ∧ o' = o ∧ c.settled? f = none := by
  obtain ⟨fut, hfut, ho⟩ := settled?_eq_some.mp h
  rw [QueryCacheCoordinator.conclude, List.getElem?_modify, Option.map_eq_map,
    Option.map_eq_some_iff] at hfut
  obtain ⟨old, hold, hset⟩ := hfut
  split at hset
  · next hgf =>
    cases old with
    | pending =>
      subst hset
      exact .inr ⟨hgf, (Option.some.inj ho).symm,
        by simp [QueryCacheCoordinator.settled?, hold, Future.get?]⟩
    | settled | cancelled =>
      subst hset
      exact .inl (settled?_eq_some.mpr ⟨_, hold, ho⟩)
  · subst hset
    exact .inl (settled?_eq_some.mpr ⟨_, hold, ho⟩)

omit [DecidableEq K] in
private theorem settled?_cancelFuture (h : (c.cancelFuture g).settled? f = some o') :
    c.settled? f = some o' ∨ g = f ∧ c.settled? f = none := by
  obtain ⟨fut, hfut, ho⟩ := settled?_eq_some.mp h
  rw [QueryCacheCoordinator.cancelFuture, List.getElem?_modify, Option.map_eq_map,
    Option.map_eq_some_iff] at hfut
  obtain ⟨old, hold, hset⟩ := hfut
  split at hset
  · next hgf =>
    cases old with
    | pending => exact .inr ⟨hgf, by simp [QueryCacheCoordinator.settled?, hold, Future.get?]⟩
    | settled | cancelled =>
      subst hset
      exact .inl (settled?_eq_some.mpr ⟨_, hold, ho⟩)
  · subst hset
    exact .inl (settled?_eq_some.mpr ⟨_, hold, ho⟩)

private theorem cancelled_of_alone {t u : Nat} {task other : Task K T D E S}
    (hinv : FlightInv s) (ht : s.tasks[t]? = some task) (hu : s.tasks[u]? = some other)
    (hne : u ≠ t) (hf : task.fut = some f) (hf' : other.fut = some f)
    (hfollows : other.isLeader = false) (hs : s.cache.settled? f = none)
    (halone : s.alone t = true) : other.cancelled = true := by
  have hothers : s.othersAwait t f = false := by
    simpa [State.alone, ht, hf, hs] using halone
  have hawaits : other.awaits f = false := by
    have hlt := (List.getElem?_eq_some_iff.mp hu).1
    have := List.any_eq_false.mp hothers u (List.mem_range.mpr hlt)
    simpa [hne, hu] using this
  cases hinv.task other (List.mem_of_getElem? hu) with
  | write _ hnone | hit _ hnone =>
    rw [hnone] at hf'
    cases hf'
  | leader _ _ hl =>
    rw [hl] at hfollows
    cases hfollows
  | follower _ hg _ h =>
    obtain rfl := Option.some.inj (hg.symm.trans hf')
    rw [Task.awaits, hf'] at hawaits
    generalize other.phase = phase at h hawaits
    cases h with
    | awaiting => simpa [Phase.isAwaiting] using hawaits
    | ended hs' | cancelled _ hs' =>
      rw [hs] at hs'
      cases hs'

private theorem IsolationInv.start {call : Call K T S} {task : Task K T D E S}
    (hinv : IsolationInv s) (hflight : FlightInv s) (hok : Isolated s (.call call))
    (h : Start s.cache s.now call c task) (clock : Nat) :
    IsolationInv { s with cache := c, tasks := s.tasks ++ [task], clock := clock } := by
  have hold (hs : ∀ f < s.cache.futures.length, c.settled? f = s.cache.settled? f)
      (hnew : task.isLeader = false → ∀ f : Nat, task.fut = some f →
        c.settled? f ≠ some (.raised .cancelledError))
      (hlead : task.isLeader = true → task.phase ≠ .ended (.raised .cancelledError)) :
      IsolationInv { s with cache := c, tasks := s.tasks ++ [task], clock := clock } := by
    constructor
    · intro x hx hl hcan f hf
      rcases List.mem_append.mp hx with hx | hx
      · dsimp only
        rw [hs f ((hflight.task x hx).fut_lt hf)]
        exact hinv.follower x hx hl hcan f hf
      · obtain rfl := List.mem_singleton.mp hx
        exact hnew hl f hf
    · intro x hx hl hcan
      rcases List.mem_append.mp hx with hx | hx
      · exact hinv.leader x hx hl hcan
      · obtain rfl := List.mem_singleton.mp hx
        exact hlead hl
  cases h with
  | write => exact hold (fun _ _ ↦ rfl) (fun _ f hf ↦ by cases hf) (fun hl ↦ by cases hl)
  | hit => exact hold (fun _ _ ↦ rfl) (fun _ f hf ↦ by cases hf) (fun hl ↦ by cases hl)
  | lead =>
    refine hold (fun f hf ↦ ?_) (fun hl ↦ by cases hl) (fun _ ↦ by simp)
    rw [QueryCacheCoordinator.settled?, List.getElem?_append_left hf]
    rfl
  | @follow key sql tables f hmiss hreg =>
    refine hold (fun _ _ ↦ rfl) (fun _ g hg ↦ ?_) (fun hl ↦ by cases hl)
    obtain rfl := Option.some.inj hg
    have hok : ((s.cache.l1.get s.now key).1.isSome ||
      (s.cache.inflight.get? key).all fun f ↦ (s.cache.settled? f).isNone) = true := hok
    rw [hmiss, hreg] at hok
    have hs : s.cache.settled? f = none := by simpa using hok
    intro hc
    exact absurd (hs.symm.trans hc) (by simp)

variable [DecidableEq T]

private theorem IsolationInv.turn {t : Nat} {task task' : Task K T D E S} {a : Act K T D E S}
    (hinv : IsolationInv s) (hflight : FlightInv s) (hok : Isolated s a)
    (ht : s.tasks[t]? = some task) (h : Turn s t task a c task') (clock : Nat) :
    IsolationInv { s with cache := c, tasks := s.tasks.set t task', clock := clock } := by
  have hmem := List.mem_of_getElem? ht
  have hown := hflight.task task hmem
  obtain ⟨-, hfut, hlead⟩ := h.seat
  -- A future that gets `CancelledError` in this turn belongs to a flight that `t` has alone.
  have halone (g : Nat) (hs : s.cache.settled? g = none)
      (hc : c.settled? g = some (.raised .cancelledError)) :
      task.fut = some g ∧ s.alone t = true ∧ (task.isLeader = false → task'.cancelled = true) := by
    cases h with
    | begin | finish | miss | wake | flushed | throwWrite | cancelOther =>
      rw [hs] at hc
      cases hc
    | invalidate =>
      rw [settled?_congr (invalidateAfterWrite_frame _ _).1, hs] at hc
      cases hc
    | fill =>
      rcases settled?_conclude hc with hc | ⟨-, ho, -⟩
      · rw [settled?_congr (futures_fill _ _), hs] at hc
        cases hc
      · cases ho
    | throwLookup hcall hf hp hx =>
      rcases settled?_conclude hc with hc | ⟨rfl, ho, -⟩
      · rw [hs] at hc
        cases hc
      · obtain ⟨rfl, -⟩ := hx (Outcome.raised.inj ho).symm
        obtain ⟨_, hl, -⟩ := hown.leads_of_fetching (congrArg Call.key? hcall) hp
        exact ⟨hf, hok, fun hnot ↦ by rw [hl.1] at hnot; cases hnot⟩
    | cancelFollower hf hp =>
      rcases settled?_cancelFuture hc with hc | ⟨rfl, -⟩
      · rw [hs] at hc
        cases hc
      · have hok : (!s.tasks[t]?.any (·.phase.isAwaiting) || s.alone t) = true := hok
        rw [ht, Option.any_some, hp] at hok
        exact ⟨hf, hok, fun _ ↦ rfl⟩
  constructor
  · intro other hother hfollows hcan f hf hc
    obtain ⟨u, hu⟩ := List.getElem?_of_mem hother
    dsimp only at hu hc
    by_cases htu : t = u
    · subst htu
      rw [getElem?_set_of_some ht] at hu
      obtain rfl := Option.some.inj hu
      rw [hlead] at hfollows
      rw [hfut] at hf
      cases hs : s.cache.settled? f with
      | none =>
        rw [(halone f hs hc).2.2 hfollows] at hcan
        cases hcan
      | some o =>
        have ho := h.evolves.settled? hs
        rw [hc] at ho
        obtain rfl := Option.some.inj ho
        exact hinv.follower task hmem hfollows (h.not_cancelled hcan) f hf hs
    · rw [List.getElem?_set_ne htu] at hu
      have hother' := List.mem_of_getElem? hu
      cases hs : s.cache.settled? f with
      | none =>
        obtain ⟨hf', hal, -⟩ := halone f hs hc
        rw [cancelled_of_alone hflight ht hu (Ne.symm htu) hf' hf hfollows hs hal] at hcan
        cases hcan
      | some o =>
        have ho := h.evolves.settled? hs
        rw [hc] at ho
        obtain rfl := Option.some.inj ho
        exact hinv.follower other hother' hfollows hcan f hf hs
  · apply forall_mem_set hinv.leader
    intro hl hcan hp
    rw [hlead] at hl
    cases h with
    | begin | finish | miss | invalidate | flushed | fill => cases hp
    | wake _ _ hawait =>
      rw [hown.follows_of_awaiting hawait] at hl
      cases hl
    | throwLookup _ _ _ hx =>
      obtain ⟨-, htrue⟩ := hx (Outcome.raised.inj (Phase.ended.inj hp))
      rw [htrue] at hcan
      cases hcan
    | throwWrite hcall =>
      rw [(hown.of_write (congrArg Call.key? hcall)).2] at hl
      cases hl
    | cancelFollower | cancelOther => cases hcan

private theorem IsolationInv.step {a : Act K T D E S} (hinv : IsolationInv s)
    (hflight : FlightInv s) (hok : Isolated s a) (h : step s a = some s') : IsolationInv s' := by
  rcases step_cases h with ⟨call, rfl, rfl⟩ | ⟨t, task, c, task', ht, hturn, rfl⟩ |
    ⟨key, rfl, rfl⟩ | ⟨now, rfl, rfl⟩
  · exact hinv.start hflight hok (start_spec s.cache s.now call) _
  · exact hinv.turn hflight hok ht hturn _
  · exact ⟨hinv.follower, hinv.leader⟩
  · exact ⟨hinv.follower, hinv.leader⟩

/-- The invariant holds in every run without a cancelled follower. -/
theorem IsolationInv.of_reach {l1MaxSize : Nat} {l1TtlSeconds : Int} {hpos : 0 < l1MaxSize}
    (h : (system l1MaxSize l1TtlSeconds hpos).Reach Isolated s) : IsolationInv s := by
  refine h.invariant_of (fun s h ↦ FlightInv.of_reach h) ⟨?_, ?_⟩
    fun _ _ _ hinv hflight _ hok hs ↦ hinv.step hflight hok hs
  · exact fun x hx ↦ by cases hx
  · exact fun x hx ↦ by cases hx

/-- As long as no cancellation strikes a flight that somebody else awaits and nobody joins a
cancelled flight, every caller that is not cancelled itself ends as its flight's fetch did. -/
theorem cancellation_isolated {l1MaxSize : Nat} {l1TtlSeconds : Int} {hpos : 0 < l1MaxSize}
    (h : (system l1MaxSize l1TtlSeconds hpos).Reach Isolated s) : s.CancelIsolated := by
  have hflight := FlightInv.of_reach h
  have hinv := IsolationInv.of_reach h
  intro task hmem hlookup hcan
  constructor
  · intro x hp
    cases hflight.task task hmem with
    | write hk =>
      rw [hk] at hlookup
      cases hlookup
    | hit _ _ _ hp' =>
      rw [hp] at hp'
      cases hp'
    | leader _ _ hl =>
      cases x with
      | error e => exact ⟨e, rfl, task, hmem, hl, rfl, hp⟩
      | cancelledError => exact absurd hp (hinv.leader task hmem hl hcan)
    | follower _ hf hl h =>
      rw [hp] at h
      cases h with
      | ended hs =>
        have hne := hinv.follower task hmem hl hcan _ hf
        rw [hs] at hne
        obtain ⟨leader, hleader, hlead, hp'⟩ := hflight.leader_of_settled hmem hf hs
          fun ho ↦ hne (congrArg some ho)
        cases x with
        | error e => exact ⟨e, rfl, leader, hleader, hlead.1, hlead.2.trans hf.symm, hp'⟩
        | cancelledError => exact absurd rfl hne
      | cancelled hc =>
        rw [hcan] at hc
        cases hc
  · intro hp
    obtain ⟨key, f, fut, -, hf, -, hfut, -⟩ := (hflight.task task hmem).of_awaiting hp
    refine ⟨f, hf, ?_⟩
    cases hs : s.cache.settled? f with
    | none => exact .inr (hflight.attended hmem hf hs)
    | some o => exact .inl rfl

end Isolated

/-- A leader and two followers; the first follower is cancelled. -/
def cancelledFollower : List (Act Nat Nat Nat Nat Unit) :=
  [.call (.lookup 1 () [5]), .call (.lookup 1 () [5]), .call (.lookup 1 () [5]), .cancel 1,
    .resume 2]

/-- When one follower is cancelled, the other one raises `CancelledError`, although nobody cancelled
it. -/
theorem cancelledFollower_strikes_other :
    ¬ ∀ s, (system 4 3600 (by decide) : System (State Nat Nat Nat Nat Unit) _).Reachable s →
      s.CancelIsolated := by
  intro h
  obtain ⟨s, hs, hend⟩ := System.exists_of_exec (system 4 3600 (by decide)) (fun _ _ ↦ True)
    cancelledFollower (fun s ↦ s.tasks[2]? ==
      some ⟨.lookup 1 () [5], some 0, false, false, .ended (.raised .cancelledError)⟩)
    (by decide +kernel)
  have hmem := List.mem_of_getElem? (beq_iff_eq.mp hend)
  obtain ⟨e, he, -⟩ := (h s hs _ hmem rfl rfl).1 .cancelledError rfl
  cases he

/-- A leader and a follower; the follower is cancelled while nobody else awaits. -/
def cancelledAlone : List (Act Nat Nat Nat Nat Unit) :=
  [.call (.lookup 1 () [5]), .call (.lookup 1 () [5]), .cancel 1, .begin 0, .finish 0 none,
    .resume 0, .begin 0, .finish 0 (some 7), .resume 0, .resume 1]

/-- A run in which the only follower is cancelled and the leader returns its rows. -/
theorem cancellation_isolated_leader :
    ∃ s, (system 4 3600 (by decide) : System (State Nat Nat Nat Nat Unit) _).Reach Isolated s ∧
      s.tasks[1]?.map (·.phase) = some (.ended (.raised .cancelledError)) ∧
      s.tasks[0]?.map (·.phase) = some (.ended (.returned ⟨⟨7, 6, [5]⟩, .miss⟩)) ∧
      s.CancelIsolated := by
  obtain ⟨s, hs, hend⟩ := System.exists_of_exec (system 4 3600 (by decide)) Isolated
    cancelledAlone (fun s ↦ s.tasks[1]?.map (·.phase) == some (.ended (.raised .cancelledError)) &&
      s.tasks[0]?.map (·.phase) == some (.ended (.returned ⟨⟨7, 6, [5]⟩, .miss⟩)))
    (by decide +kernel)
  simp only [Bool.and_eq_true, beq_iff_eq] at hend
  exact ⟨s, hs, hend.1, hend.2, cancellation_isolated hs⟩

end SalesData.Cache

import SalesData.Base.Tally
import SalesData.Cache.Coordinator

/-!
# Flights

The invariant that links `_inflight`, the futures and the places of leaders and followers
(`query_cache_coordinator.py:129–159`). It holds in every run, with cancellations anywhere.
-/

namespace SalesData.Cache

open Base

variable {K T D E S : Type}

/-- The cache key of a lookup. -/
def Call.key? : Call K T S → Option K
  | .lookup key .. => some key
  | .write .. => none

variable [DecidableEq K]

/-- A leader that is in a fetch has its flight registered and its future is not settled;
afterwards the future has its outcome, unless a follower's cancellation came first. -/
inductive LeaderInv (c : QueryCacheCoordinator K T D E) (key : K) (f : Nat) :
    Phase T D E → Prop
  | fetching {phase : Phase T D E} (hp : phase.fetching = true) (hr : c.inflight.get? key = some f)
      (hf : c.futures[f]? = some .pending ∨ c.futures[f]? = some .cancelled) :
      LeaderInv c key f phase
  | ended {o : Outcome (CacheLookupResult T D) E}
      (hf : c.futures[f]? = some (.settled o) ∨ c.futures[f]? = some .cancelled) :
      LeaderInv c key f (.ended o)

/-- A follower awaits its future, or has ended as the future or its own cancellation says. -/
inductive FollowerInv (c : QueryCacheCoordinator K T D E) (f : Nat) (cancelled : Bool) :
    Phase T D E → Prop
  | awaiting {fut : Future (CacheLookupResult T D) E} (hf : c.futures[f]? = some fut)
      (hd : cancelled = true → fut.done = true) : FollowerInv c f cancelled .awaiting
  | ended {o : Outcome (CacheLookupResult T D) E} (hs : c.settled? f = some o) :
      FollowerInv c f cancelled (.ended o)
  | cancelled (hc : cancelled = true) {o : Outcome (CacheLookupResult T D) E}
      (hs : c.settled? f = some o) : FollowerInv c f cancelled (.ended (.raised .cancelledError))

/-- What holds of one task. -/
inductive TaskInv (c : QueryCacheCoordinator K T D E) : Task K T D E S → Prop
  | write {task : Task K T D E S} (hk : task.call.key? = none) (hf : task.fut = none)
      (hl : task.isLeader = false) (hp : task.phase ≠ .awaiting)
      (hr : ∀ r, task.phase ≠ .ended (.returned r)) : TaskInv c task
  | hit {task : Task K T D E S} {key : K} {rows : Rows T D} (hk : task.call.key? = some key)
      (hf : task.fut = none) (hl : task.isLeader = false)
      (hp : task.phase = .ended (.returned ⟨rows, .l1⟩)) : TaskInv c task
  | leader {task : Task K T D E S} {key : K} {f : Nat} (hk : task.call.key? = some key)
      (hf : task.fut = some f) (hl : task.isLeader = true) (h : LeaderInv c key f task.phase) :
      TaskInv c task
  | follower {task : Task K T D E S} {key : K} {f : Nat} (hk : task.call.key? = some key)
      (hf : task.fut = some f) (hl : task.isLeader = false)
      (h : FollowerInv c f task.cancelled task.phase) : TaskInv c task

/-- The task leads the flight `f`. -/
def Task.Leads (task : Task K T D E S) (f : Nat) : Prop := task.isLeader = true ∧ task.fut = some f

/-- The invariant of the coordinator with its tasks. -/
structure FlightInv (s : State K T D E S) : Prop where
  task : ∀ task ∈ s.tasks, TaskInv s.cache task
  unique : ∀ (t u : Nat) (task task' : Task K T D E S) (f : Nat), s.tasks[t]? = some task →
    s.tasks[u]? = some task' → task.Leads f → task'.Leads f → t = u
  led : ∀ task ∈ s.tasks, ∀ f : Nat, task.fut = some f →
    ∃ leader ∈ s.tasks, leader.Leads f ∧ leader.call.key? = task.call.key?
  registered : ∀ (key : K) (f : Nat), s.cache.inflight.get? key = some f →
    ∃ leader ∈ s.tasks, leader.Leads f ∧ leader.call.key? = some key ∧
      leader.phase.fetching = true

/-- No future loses its outcome. -/
def Evolves (c c' : QueryCacheCoordinator K T D E) : Prop :=
  ∀ (f : Nat) (fut : Future (CacheLookupResult T D) E), c.futures[f]? = some fut →
    ∃ fut', c'.futures[f]? = some fut' ∧ (fut.done = true → fut' = fut)

/-- Nothing happens to a flight except the cancellation of its future. -/
def Spares (c c' : QueryCacheCoordinator K T D E) (key : K) (f : Nat) : Prop :=
  (c.inflight.get? key = some f → c'.inflight.get? key = some f) ∧
    ∀ fut : Future (CacheLookupResult T D) E, c.futures[f]? = some fut →
      c'.futures[f]? = some fut ∨ fut = .pending ∧ c'.futures[f]? = some .cancelled

section Coordinator

variable {c c' : QueryCacheCoordinator K T D E} {key k : K} {f g : Nat}
  {o o' : Outcome (CacheLookupResult T D) E}

section Futures

omit [DecidableEq K]

/-- A future is settled when it is there and has a result. -/
theorem settled?_eq_some : c.settled? f = some o ↔
    ∃ fut, c.futures[f]? = some fut ∧ fut.get? = some o := by
  rw [QueryCacheCoordinator.settled?, Option.bind_eq_some_iff]

/-- What is settled is told by the futures alone. -/
theorem settled?_congr (h : c'.futures = c.futures) (f : Nat) : c'.settled? f = c.settled? f := by
  rw [QueryCacheCoordinator.settled?, h, QueryCacheCoordinator.settled?]

/-- States with the same futures evolve. -/
theorem evolves_of_futures (h : c'.futures = c.futures) : Evolves c c' :=
  fun _ fut hf ↦ ⟨fut, h ▸ hf, fun _ ↦ rfl⟩

/-- A cancelled future keeps the results of the settled ones. -/
theorem evolves_cancelFuture : Evolves c (c.cancelFuture g) := by
  intro f fut hf
  by_cases h : g = f
  · subst h
    refine ⟨fut.cancel, ?_, fun hd ↦ ?_⟩
    · simp [QueryCacheCoordinator.cancelFuture, hf]
    · cases fut with
      | pending => cases hd
      | settled => rfl
      | cancelled => rfl
  · refine ⟨fut, ?_, fun _ ↦ rfl⟩
    simp [QueryCacheCoordinator.cancelFuture, h, hf]

/-- A cancelled future has no result. -/
theorem settled?_of_cancelFuture (h : (c.cancelFuture g).settled? f = some o') :
    c.settled? f = some o' ∨ o' = .raised .cancelledError := by
  obtain ⟨fut', hf', ho⟩ := settled?_eq_some.mp h
  rw [QueryCacheCoordinator.cancelFuture, List.getElem?_modify, Option.map_eq_map,
    Option.map_eq_some_iff] at hf'
  obtain ⟨fut, hfut, rfl⟩ := hf'
  split at ho
  · cases fut with
    | pending => exact .inr (Option.some.inj ho).symm
    | settled | cancelled => exact .inl (settled?_eq_some.mpr ⟨_, hfut, ho⟩)
  · exact .inl (settled?_eq_some.mpr ⟨fut, hfut, ho⟩)

/-- A result stays. -/
theorem Evolves.settled? (h : Evolves c c') (hs : c.settled? f = some o) :
    c'.settled? f = some o := by
  obtain ⟨fut, hf, ho⟩ := settled?_eq_some.mp hs
  obtain ⟨fut', hf', hd⟩ := h f fut hf
  refine settled?_eq_some.mpr ⟨fut', hf', ?_⟩
  rw [hd, ho]
  cases fut with
  | pending => cases ho
  | settled => rfl
  | cancelled => rfl

/-- What evolves keeps the invariant of a follower. -/
theorem FollowerInv.frame {cancelled : Bool} {phase : Phase T D E}
    (h : FollowerInv c f cancelled phase) (he : Evolves c c') :
    FollowerInv c' f cancelled phase := by
  cases h with
  | awaiting hf hd =>
    obtain ⟨fut', hf', hkeep⟩ := he f _ hf
    refine .awaiting hf' fun hc ↦ ?_
    rw [hkeep (hd hc)]
    exact hd hc
  | ended hs => exact .ended (he.settled? hs)
  | cancelled hc hs => exact .cancelled hc (he.settled? hs)

end Futures

/-- What changes neither futures nor flights spares every flight. -/
theorem spares_of_eq (hf : c'.futures = c.futures) (hi : c'.inflight = c.inflight) :
    Spares c c' key f :=
  ⟨fun h ↦ hi ▸ h, fun _ h ↦ .inl (hf ▸ h)⟩

/-- Sparing is told by the futures and the flights alone. -/
theorem Spares.of_eq {x : QueryCacheCoordinator K T D E} (hf : x.futures = c.futures)
    (hi : x.inflight = c.inflight) (h : Spares x c' key f) : Spares c c' key f :=
  ⟨fun hr ↦ h.1 (hi ▸ hr), fun fut hg ↦ h.2 fut (hf ▸ hg)⟩

section Tags

variable [DecidableEq T]

/-- Filling the first level leaves the futures. -/
@[simp] theorem futures_fill (now : Time) (rows : Rows T D) :
    (c.fill now key rows).futures = c.futures := by
  unfold QueryCacheCoordinator.fill QueryCacheCoordinator.tagTables
  split <;> rfl

/-- Filling the first level leaves the flights. -/
@[simp] theorem inflight_fill (now : Time) (rows : Rows T D) :
    (c.fill now key rows).inflight = c.inflight := by
  unfold QueryCacheCoordinator.fill QueryCacheCoordinator.tagTables
  split <;> rfl

/-- Filling the first level leaves its TTL. -/
@[simp] theorem l1TtlSeconds_fill (now : Time) (rows : Rows T D) :
    (c.fill now key rows).l1TtlSeconds = c.l1TtlSeconds := by
  unfold QueryCacheCoordinator.fill QueryCacheCoordinator.tagTables
  split <;> rfl

private theorem invalidateTables_frame (tables : List T) :
    (c.invalidateTables tables).2.futures = c.futures ∧
      (c.invalidateTables tables).2.inflight = c.inflight ∧
      (c.invalidateTables tables).2.l1TtlSeconds = c.l1TtlSeconds := by
  unfold QueryCacheCoordinator.invalidateTables
  dsimp only
  split
  · exact ⟨rfl, rfl, rfl⟩
  · split <;> exact ⟨rfl, rfl, rfl⟩

/-- An invalidation changes neither futures nor flights nor the TTL. -/
theorem invalidateAfterWrite_frame (tables : List T) (precise : Bool) :
    (c.invalidateAfterWrite tables precise).futures = c.futures ∧
      (c.invalidateAfterWrite tables precise).inflight = c.inflight ∧
      (c.invalidateAfterWrite tables precise).l1TtlSeconds = c.l1TtlSeconds := by
  have h := invalidateTables_frame (c := c) tables
  unfold QueryCacheCoordinator.invalidateAfterWrite
  split
  · split
    · next hi =>
      rw [hi] at h
      exact h
    · next hi =>
      rw [hi] at h
      exact h
  · exact ⟨rfl, rfl, rfl⟩

end Tags

/-- A leader that concludes settles its own future only. -/
theorem evolves_conclude : Evolves c (c.conclude key g o) := by
  intro f fut hf
  by_cases h : g = f
  · subst h
    refine ⟨fut.settle o, ?_, fun hd ↦ fut.settle_of_done hd o⟩
    simp [QueryCacheCoordinator.conclude, hf]
  · refine ⟨fut, ?_, fun _ ↦ rfl⟩
    simp [QueryCacheCoordinator.conclude, h, hf]

/-- A leader that concludes spares the other flights. -/
theorem spares_conclude (h : g ≠ f) : Spares c (c.conclude k g o) key f := by
  constructor
  · intro hi
    unfold QueryCacheCoordinator.conclude
    dsimp only
    split
    · next hk =>
      rw [Dict.get?_pop, if_neg, hi]
      rintro rfl
      exact h (Option.some.inj (hk.symm.trans hi))
    · exact hi
  · intro fut hf
    exact .inl (by simp [QueryCacheCoordinator.conclude, h, hf])

/-- Cancelling a future ends no flight. -/
theorem spares_cancelFuture : Spares c (c.cancelFuture g) key f := by
  refine ⟨id, fun fut hf ↦ ?_⟩
  by_cases h : g = f
  · subst h
    cases fut with
    | pending => exact .inr ⟨rfl, by simp [QueryCacheCoordinator.cancelFuture, hf, Future.cancel]⟩
    | settled o => exact .inl (by simp [QueryCacheCoordinator.cancelFuture, hf, Future.cancel])
    | cancelled => exact .inl (by simp [QueryCacheCoordinator.cancelFuture, hf, Future.cancel])
  · exact .inl (by simp [QueryCacheCoordinator.cancelFuture, h, hf])

/-- What a conclusion settles is its own future. -/
theorem settled?_of_conclude (h : (c.conclude key g o).settled? f = some o') :
    c.settled? f = some o' ∨ f = g ∧ o' = o := by
  obtain ⟨fut', hf', ho⟩ := settled?_eq_some.mp h
  rw [QueryCacheCoordinator.conclude, List.getElem?_modify, Option.map_eq_map,
    Option.map_eq_some_iff] at hf'
  obtain ⟨fut, hfut, rfl⟩ := hf'
  split at ho
  · next hg =>
    cases fut with
    | pending => exact .inr ⟨hg.symm, (Option.some.inj ho).symm⟩
    | settled | cancelled => exact .inl (settled?_eq_some.mpr ⟨_, hfut, ho⟩)
  · exact .inl (settled?_eq_some.mpr ⟨fut, hfut, ho⟩)

/-- What spares a flight keeps the invariant of its leader. -/
theorem LeaderInv.frame {phase : Phase T D E} (h : LeaderInv c key f phase)
    (hs : Spares c c' key f) : LeaderInv c' key f phase := by
  cases h with
  | fetching hp hr hf =>
    refine .fetching hp (hs.1 hr) ?_
    rcases hf with hf | hf
    · rcases hs.2 _ hf with h | ⟨-, h⟩
      · exact .inl h
      · exact .inr h
    · rcases hs.2 _ hf with h | ⟨hp, -⟩
      · exact .inr h
      · cases hp
  | ended hf =>
    refine .ended ?_
    rcases hf with hf | hf
    · rcases hs.2 _ hf with h | ⟨hp, -⟩
      · exact .inl h
      · cases hp
    · rcases hs.2 _ hf with h | ⟨hp, -⟩
      · exact .inr h
      · cases hp

/-- A task keeps its invariant when others act. -/
theorem TaskInv.frame {task : Task K T D E S} (h : TaskInv c task) (he : Evolves c c')
    (hs : ∀ key f, task.Leads f → Spares c c' key f) : TaskInv c' task := by
  cases h with
  | write hk hf hl hp hr => exact .write hk hf hl hp hr
  | hit hk hf hl hp => exact .hit hk hf hl hp
  | leader hk hf hl h => exact .leader hk hf hl (h.frame (hs _ _ ⟨hl, hf⟩))
  | follower hk hf hl h => exact .follower hk hf hl (h.frame he)

/-- A task that is in a fetch for a lookup leads its flight. -/
theorem TaskInv.leads_of_fetching {task : Task K T D E S} (h : TaskInv c task)
    (hk : task.call.key? = some key) (hp : task.phase.fetching = true) :
    ∃ f, task.Leads f ∧ c.inflight.get? key = some f ∧
      (c.futures[f]? = some .pending ∨ c.futures[f]? = some .cancelled) := by
  cases h with
  | write hk' => rw [hk'] at hk; cases hk
  | hit _ _ _ hp' => rw [hp'] at hp; cases hp
  | follower _ _ _ h =>
    generalize task.phase = phase at h hp
    cases h <;> cases hp
  | @leader key' f hk' hf hl h =>
    obtain rfl : key' = key := Option.some.inj (hk'.symm.trans hk)
    generalize task.phase = phase at h hp
    cases h with
    | fetching _ hr hfut => exact ⟨f, ⟨hl, hf⟩, hr, hfut⟩
    | ended => cases hp

/-- A task that awaits a future is a follower. -/
theorem TaskInv.follows_of_awaiting {task : Task K T D E S} (h : TaskInv c task)
    (hp : task.phase = .awaiting) : task.isLeader = false := by
  cases h with
  | write _ _ hl => exact hl
  | hit _ _ hl => exact hl
  | follower _ _ hl => exact hl
  | leader _ _ _ h =>
    rw [hp] at h
    cases h with
    | fetching hp => cases hp

/-- The future of an attached task exists. -/
theorem TaskInv.fut_lt {task : Task K T D E S} (h : TaskInv c task) (hf : task.fut = some f) :
    f < c.futures.length := by
  have hlt {fut} (hg : c.futures[f]? = some fut) : f < c.futures.length :=
    (List.getElem?_eq_some_iff.mp hg).1
  cases h with
  | write _ hf' => rw [hf'] at hf; cases hf
  | hit _ hf' => rw [hf'] at hf; cases hf
  | @leader _ g _ hf' _ h =>
    obtain rfl : g = f := Option.some.inj (hf'.symm.trans hf)
    generalize task.phase = phase at h
    cases h with
    | fetching _ _ hg | ended hg => exact hg.elim hlt hlt
  | @follower _ g _ hf' _ h =>
    obtain rfl : g = f := Option.some.inj (hf'.symm.trans hf)
    generalize task.phase = phase at h
    cases h with
    | awaiting hg => exact hlt hg
    | ended hs | cancelled _ hs =>
      obtain ⟨fut, hg, -⟩ := settled?_eq_some.mp hs
      exact hlt hg

/-- The leader's outcome reaches the future, unless the future was cancelled before. -/
theorem futures_conclude_self
    (hf : c.futures[g]? = some .pending ∨ c.futures[g]? = some .cancelled) :
    (c.conclude key g o).futures[g]? = some (.settled o) ∨
      (c.conclude key g o).futures[g]? = some .cancelled := by
  rcases hf with hf | hf
  · exact .inl (by simp [QueryCacheCoordinator.conclude, hf, Future.settle])
  · exact .inr (by simp [QueryCacheCoordinator.conclude, hf, Future.settle])

/-- A leader or writer keeps its invariant while its fetch goes on. -/
theorem TaskInv.fetch {task : Task K T D E S} (h : TaskInv c task)
    (hp : task.phase.fetching = true) {phase : Phase T D E} (hp' : phase.fetching = true) :
    TaskInv c { task with phase := phase } := by
  cases h with
  | write hk hf hl =>
    refine .write hk hf hl ?_ ?_
    · rintro rfl
      cases hp'
    · rintro r rfl
      cases hp'
  | hit _ _ _ hp'' =>
    rw [hp''] at hp
    cases hp
  | leader hk hf hl h =>
    refine .leader hk hf hl ?_
    generalize task.phase = phase at h hp
    cases h with
    | fetching _ hr hg => exact .fetching hp' hr hg
    | ended => cases hp
  | follower _ _ _ h =>
    generalize task.phase = phase at h hp
    cases h <;> cases hp

/-- What holds of a write. -/
theorem TaskInv.of_write {task : Task K T D E S} (h : TaskInv c task)
    (hk : task.call.key? = none) : task.fut = none ∧ task.isLeader = false := by
  cases h with
  | write _ hf hl => exact ⟨hf, hl⟩
  | hit hk' | leader hk' | follower hk' =>
    rw [hk'] at hk
    cases hk

/-- What holds of a task that awaits a future. -/
theorem TaskInv.of_awaiting {task : Task K T D E S} (h : TaskInv c task)
    (hp : task.phase = .awaiting) : ∃ key f fut, task.call.key? = some key ∧ task.fut = some f ∧
      task.isLeader = false ∧ c.futures[f]? = some fut ∧
      (task.cancelled = true → fut.done = true) := by
  cases h with
  | write _ _ _ hp' => exact absurd hp hp'
  | hit _ _ _ hp' =>
    rw [hp'] at hp
    cases hp
  | leader _ _ _ h =>
    rw [hp] at h
    cases h with
    | fetching hp => cases hp
  | follower hk hf hl h =>
    rw [hp] at h
    cases h with
    | awaiting hg hd => exact ⟨_, _, _, hk, hf, hl, hg, hd⟩

end Coordinator

section Turn

variable [DecidableEq T] {s : State K T D E S} {t : Nat} {task task' : Task K T D E S}
  {a : Act K T D E S} {c : QueryCacheCoordinator K T D E}

/-- A turn does not change which call the task makes, nor its place in a flight. -/
theorem Turn.seat (h : Turn s t task a c task') :
    task'.call = task.call ∧ task'.fut = task.fut ∧ task'.isLeader = task.isLeader := by
  cases h <;> exact ⟨rfl, rfl, rfl⟩

/-- A turn changes no leader. -/
theorem Turn.leads_iff (h : Turn s t task a c task') (f : Nat) : task'.Leads f ↔ task.Leads f := by
  obtain ⟨-, hf, hl⟩ := h.seat
  rw [Task.Leads, Task.Leads, hf, hl]

/-- A cancellation request is never taken back. -/
theorem Turn.not_cancelled (h : Turn s t task a c task') (hc : task'.cancelled = false) :
    task.cancelled = false := by
  cases h <;> first | exact hc | cases hc

/-- No turn takes an outcome away. -/
theorem Turn.evolves (h : Turn s t task a c task') : Evolves s.cache c := by
  cases h with
  | begin | finish | miss | wake | flushed | throwWrite | cancelOther =>
    exact evolves_of_futures rfl
  | fill =>
    intro f fut hf
    exact evolves_conclude f fut (by rwa [futures_fill])
  | invalidate => exact evolves_of_futures (invalidateAfterWrite_frame _ _).1
  | throwLookup => exact evolves_conclude
  | cancelFollower => exact evolves_cancelFuture

/-- A turn spares the flights that the task does not lead. -/
theorem Turn.spares (h : Turn s t task a c task') (hinv : TaskInv s.cache task) {f : Nat}
    (hne : ¬task.Leads f) (key : K) : Spares s.cache c key f := by
  have hlead {k : K} {sql : S} {tables : List T} {g : Nat}
      (hc : task.call = .lookup k sql tables) (hg : task.fut = some g)
      (hp : task.phase.fetching = true) : g ≠ f := by
    rintro rfl
    obtain ⟨g', hl, -⟩ := hinv.leads_of_fetching (by rw [hc]; rfl) hp
    exact hne ⟨hl.1, hg⟩
  cases h with
  | begin | finish | miss | wake | flushed | throwWrite | cancelOther => exact spares_of_eq rfl rfl
  | fill hc hf hp =>
    exact .of_eq (futures_fill _ _) (inflight_fill _ _)
      (spares_conclude (hlead hc hf (by rw [hp]; rfl)))
  | invalidate =>
    exact spares_of_eq (invalidateAfterWrite_frame _ _).1 (invalidateAfterWrite_frame _ _).2.1
  | throwLookup hc hf hp => exact spares_conclude (hlead hc hf hp)
  | cancelFollower => exact spares_cancelFuture

/-- A task keeps its invariant in its own turn. -/
theorem Turn.taskInv (h : Turn s t task a c task') (hinv : TaskInv s.cache task) :
    TaskInv c task' := by
  cases h with
  | begin hp => exact hinv.fetch (by rw [hp]; rfl) rfl
  | finish hp => exact hinv.fetch (by rw [hp]; rfl) rfl
  | miss _ _ hp => exact hinv.fetch (by rw [hp]; rfl) rfl
  | fill hc hf hp =>
    have hk := congrArg Call.key? hc
    obtain ⟨g, ⟨hl, hg⟩, -, hfut⟩ := hinv.leads_of_fetching hk (by rw [hp]; rfl)
    obtain rfl := Option.some.inj (hf.symm.trans hg)
    exact .leader hk hg hl (.ended (futures_conclude_self (by rwa [futures_fill])))
  | wake hc hf hp ho =>
    obtain ⟨key, g, fut, hk, hg, hl, -⟩ := hinv.of_awaiting hp
    obtain rfl := Option.some.inj (hf.symm.trans hg)
    refine .follower hk hg hl ?_
    dsimp only
    split
    · next hcan => exact .cancelled hcan ho
    · exact .ended ho
  | invalidate hc hp =>
    have hk := congrArg Call.key? hc
    obtain ⟨hf, hl⟩ := hinv.of_write hk
    exact .write hk hf hl (by simp) (by simp)
  | flushed hc hp =>
    have hk := congrArg Call.key? hc
    obtain ⟨hf, hl⟩ := hinv.of_write hk
    exact .write hk hf hl (by simp) (by simp)
  | throwLookup hc hf hp =>
    have hk := congrArg Call.key? hc
    obtain ⟨g, ⟨hl, hg⟩, -, hfut⟩ := hinv.leads_of_fetching hk hp
    obtain rfl := Option.some.inj (hf.symm.trans hg)
    exact .leader hk hg hl (.ended (futures_conclude_self hfut))
  | throwWrite hc hp =>
    have hk := congrArg Call.key? hc
    obtain ⟨hf, hl⟩ := hinv.of_write hk
    exact .write hk hf hl (by simp) (by simp)
  | @cancelFollower f hf hp =>
    obtain ⟨key, g, fut, hk, hg, hl, hfut, -⟩ := hinv.of_awaiting hp
    obtain rfl := Option.some.inj (hf.symm.trans hg)
    refine .follower hk hg hl ?_
    dsimp only
    rw [hp]
    have hcancel : (s.cache.cancelFuture f).futures[f]? = some fut.cancel := by
      simp [QueryCacheCoordinator.cancelFuture, hfut]
    refine .awaiting hcancel fun _ ↦ ?_
    cases fut <;> rfl
  | cancelOther hp hne =>
    cases hinv with
    | write hk hf hl hp' hr => exact .write hk hf hl hp' hr
    | hit hk hf hl hp' => exact .hit hk hf hl hp'
    | leader hk hf hl h => exact .leader hk hf hl h
    | follower hk hf hl h =>
      rcases hne with hne | hne
      · rw [hf] at hne
        cases hne
      · generalize task.phase = phase at h hp hne
        cases h with
        | awaiting => exact absurd rfl hne
        | ended | cancelled => cases hp

/-- A flight that is registered after a turn was registered before, and if the task leads
it then the task is still in a fetch. -/
theorem Turn.inflight (h : Turn s t task a c task') (hinv : TaskInv s.cache task) {key : K}
    {f : Nat} (hr : c.inflight.get? key = some f) : s.cache.inflight.get? key = some f ∧
      (task.call.key? = some key → task.phase.fetching = true → task'.phase.fetching = true) := by
  have hconclude {k : K} {sql : S} {tables : List T} {g : Nat}
      {o : Outcome (CacheLookupResult T D) E} {x : QueryCacheCoordinator K T D E}
      (hc : task.call = .lookup k sql tables) (hf : task.fut = some g)
      (hp : task.phase.fetching = true) (hx : x.inflight = s.cache.inflight)
      (hr : (x.conclude k g o).inflight.get? key = some f) :
      s.cache.inflight.get? key = some f ∧ task.call.key? ≠ some key := by
    have hk := congrArg Call.key? hc
    obtain ⟨g', hl, hreg, -⟩ := hinv.leads_of_fetching hk hp
    obtain rfl := Option.some.inj (hf.symm.trans hl.2)
    simp only [QueryCacheCoordinator.conclude, hx, if_pos hreg, Dict.get?_pop] at hr
    split at hr
    · cases hr
    · next hne => exact ⟨hr, fun he ↦ hne (Option.some.inj (he.symm.trans hk))⟩
  cases h with
  | begin | finish | miss => exact ⟨hr, fun _ _ ↦ rfl⟩
  | wake _ _ hp => exact ⟨hr, fun _ hp' ↦ by rw [hp] at hp'; cases hp'⟩
  | cancelFollower _ hp => exact ⟨hr, fun _ hp' ↦ by rw [hp] at hp'; cases hp'⟩
  | cancelOther => exact ⟨hr, fun _ hp' ↦ hp'⟩
  | fill hc hf hp =>
    obtain ⟨hr, hne⟩ := hconclude hc hf (by rw [hp]; rfl) (inflight_fill _ _) hr
    exact ⟨hr, fun hk ↦ absurd hk hne⟩
  | throwLookup hc hf hp =>
    obtain ⟨hr, hne⟩ := hconclude hc hf hp rfl hr
    exact ⟨hr, fun hk ↦ absurd hk hne⟩
  | invalidate hc =>
    rw [(invalidateAfterWrite_frame _ _).2.1] at hr
    exact ⟨hr, fun hk ↦ by rw [hc] at hk; cases hk⟩
  | flushed hc => exact ⟨hr, fun hk ↦ by rw [hc] at hk; cases hk⟩
  | throwWrite hc => exact ⟨hr, fun hk ↦ by rw [hc] at hk; cases hk⟩

end Turn

section Step

variable {s s' : State K T D E S}

private theorem leaderInv_of_leads (hinv : FlightInv s) {leader : Task K T D E S} {f : Nat}
    (hleader : leader ∈ s.tasks) (hl : leader.Leads f) :
    ∃ key, LeaderInv s.cache key f leader.phase := by
  cases hinv.task leader hleader with
  | write _ hf' | hit _ hf' =>
    rw [hl.2] at hf'
    cases hf'
  | follower _ _ hl' =>
    rw [hl.1] at hl'
    cases hl'
  | leader _ hf' _ h =>
    obtain rfl := Option.some.inj (hf'.symm.trans hl.2)
    exact ⟨_, h⟩

private theorem append_flightInv {c : QueryCacheCoordinator K T D E} {task : Task K T D E S}
    (hinv : FlightInv s) (he : Evolves s.cache c)
    (hs : ∀ key, ∀ f < s.cache.futures.length, Spares s.cache c key f) (hnew : TaskInv c task)
    (hfresh : ∀ f, task.Leads f → s.cache.futures.length ≤ f)
    (hled : ∀ f, task.fut = some f → task.Leads f ∨
      ∃ leader ∈ s.tasks, leader.Leads f ∧ leader.call.key? = task.call.key?)
    (hreg : ∀ key f, c.inflight.get? key = some f → s.cache.inflight.get? key = some f ∨
      task.Leads f ∧ task.call.key? = some key ∧ task.phase.fetching = true) (clock : Nat) :
    FlightInv { s with cache := c, tasks := s.tasks ++ [task], clock := clock } := by
  have hlt {x : Task K T D E S} (hx : x ∈ s.tasks) {f : Nat} (hl : x.Leads f) :
      f < s.cache.futures.length := (hinv.task x hx).fut_lt hl.2
  have hmem {P : Task K T D E S → Prop} (h : ∃ x ∈ s.tasks, P x) : ∃ x ∈ s.tasks ++ [task], P x :=
    h.imp fun x hx ↦ ⟨List.mem_append_left _ hx.1, hx.2⟩
  constructor
  · intro x hx
    rcases List.mem_append.mp hx with hx | hx
    · exact (hinv.task x hx).frame he fun key f hl ↦ hs key f (hlt hx hl)
    · obtain rfl := List.mem_singleton.mp hx
      exact hnew
  · have hnone {i : Nat} {x : Task K T D E S} {f : Nat} (hi : (s.tasks ++ [task])[i]? = some x)
        (hl : x.Leads f) : s.tasks[i]? = some x ∧ f < s.cache.futures.length ∨
          i = s.tasks.length ∧ s.cache.futures.length ≤ f := by
      rcases getElem?_append_singleton hi with hi | ⟨rfl, rfl⟩
      · exact .inl ⟨hi, hlt (List.mem_of_getElem? hi) hl⟩
      · exact .inr ⟨rfl, hfresh f hl⟩
    intro i j x y f hi hj hx hy
    rcases hnone hi hx with ⟨hi', hf⟩ | ⟨rfl, hf⟩ <;>
      rcases hnone hj hy with ⟨hj', hf'⟩ | ⟨rfl, hf'⟩
    · exact hinv.unique i j x y f hi' hj' hx hy
    · omega
    · omega
    · rfl
  · intro x hx f hf
    rcases List.mem_append.mp hx with hx | hx
    · exact hmem (hinv.led x hx f hf)
    · obtain rfl := List.mem_singleton.mp hx
      rcases hled f hf with hl | h
      · exact ⟨x, List.mem_append_right _ (List.mem_singleton_self x), hl, rfl⟩
      · exact hmem h
  · intro key f hr
    rcases hreg key f hr with h | h
    · exact hmem (hinv.registered key f h)
    · exact ⟨task, List.mem_append_right _ (List.mem_singleton_self task), h⟩

private theorem frame_flightInv {c : QueryCacheCoordinator K T D E} (hinv : FlightInv s)
    (hf : c.futures = s.cache.futures) (hi : c.inflight = s.cache.inflight) (clock : Nat)
    (now : Time) : FlightInv ⟨c, s.tasks, clock, now⟩ :=
  ⟨fun x hx ↦ (hinv.task x hx).frame (evolves_of_futures hf) fun _ _ _ ↦ spares_of_eq hf hi,
    hinv.unique, hinv.led, fun key f hr ↦ hinv.registered key f (hi ▸ hr)⟩

/-- Every flight that somebody is attached to has a leader. -/
theorem FlightInv.leaderInv (hinv : FlightInv s) {task : Task K T D E S} {f : Nat}
    (hmem : task ∈ s.tasks) (hf : task.fut = some f) :
    ∃ leader ∈ s.tasks, leader.Leads f ∧ ∃ key, LeaderInv s.cache key f leader.phase := by
  obtain ⟨leader, hleader, hl, -⟩ := hinv.led task hmem f hf
  exact ⟨leader, hleader, hl, leaderInv_of_leads hinv hleader hl⟩

/-- The leader of a flight whose future is not settled is in a fetch. -/
theorem FlightInv.attended (hinv : FlightInv s) {task : Task K T D E S} {f : Nat}
    (hmem : task ∈ s.tasks) (hf : task.fut = some f) (hs : s.cache.settled? f = none) :
    ∃ leader ∈ s.tasks, leader.Leads f ∧ leader.phase.fetching = true := by
  obtain ⟨leader, hleader, hl, key, h⟩ := hinv.leaderInv hmem hf
  refine ⟨leader, hleader, hl, ?_⟩
  generalize leader.phase = phase at h
  cases h with
  | fetching hp => exact hp
  | ended hg =>
    rcases hg with hg | hg <;> simp [QueryCacheCoordinator.settled?, hg, Future.get?] at hs

/-- The leader of a settled flight has ended as the future says, unless that is
`CancelledError`. -/
theorem FlightInv.leader_of_settled (hinv : FlightInv s) {task : Task K T D E S} {f : Nat}
    {o : Outcome (CacheLookupResult T D) E} (hmem : task ∈ s.tasks) (hf : task.fut = some f)
    (hs : s.cache.settled? f = some o) (ho : o ≠ .raised .cancelledError) :
    ∃ leader ∈ s.tasks, leader.Leads f ∧ leader.phase = .ended o := by
  obtain ⟨leader, hleader, hl, key, h⟩ := hinv.leaderInv hmem hf
  refine ⟨leader, hleader, hl, ?_⟩
  have hcancelled (hg : s.cache.futures[f]? = some .cancelled) : False := by
    have hs' : s.cache.settled? f = some (.raised .cancelledError) :=
      settled?_eq_some.mpr ⟨_, hg, rfl⟩
    exact ho (Option.some.inj (hs.symm.trans hs'))
  generalize leader.phase = phase at h
  cases h with
  | fetching _ _ hg =>
    rcases hg with hg | hg
    · simp [QueryCacheCoordinator.settled?, hg, Future.get?] at hs
    · exact (hcancelled hg).elim
  | ended hg =>
    rcases hg with hg | hg
    · have hs' := settled?_eq_some.mpr ⟨_, hg, rfl⟩
      rw [Option.some.inj (hs.symm.trans hs')]
    · exact (hcancelled hg).elim

/-- A registered flight has no result yet. -/
theorem FlightInv.not_returned (hinv : FlightInv s) {key : K} {f : Nat}
    (hr : s.cache.inflight.get? key = some f) (r : CacheLookupResult T D) :
    s.cache.settled? f ≠ some (.returned r) := by
  intro hs
  obtain ⟨leader, hleader, hl, -, hfetching⟩ := hinv.registered key f hr
  obtain ⟨k, hk⟩ := leaderInv_of_leads hinv hleader hl
  generalize leader.phase = phase at hk hfetching
  cases hk with
  | fetching _ _ hg =>
    rcases hg with hg | hg <;> simp [QueryCacheCoordinator.settled?, hg, Future.get?] at hs
  | ended => cases hfetching

private theorem start_flightInv {call : Call K T S} {c : QueryCacheCoordinator K T D E}
    {task : Task K T D E S} (hinv : FlightInv s) (h : Start s.cache s.now call c task)
    (clock : Nat) :
    FlightInv { s with cache := c, tasks := s.tasks ++ [task], clock := clock } := by
  cases h with
  | write sql tables precise =>
    apply append_flightInv hinv
    · exact evolves_of_futures rfl
    · exact fun key f _ ↦ spares_of_eq rfl rfl
    · exact .write rfl rfl rfl (by simp) (by simp)
    · exact fun f hl ↦ by cases hl.1
    · exact fun f hf ↦ by cases hf
    · exact fun key f hr ↦ .inl hr
  | hit key sql tables h =>
    apply append_flightInv hinv
    · exact evolves_of_futures rfl
    · exact fun key f _ ↦ spares_of_eq rfl rfl
    · exact .hit rfl rfl rfl rfl
    · exact fun f hl ↦ by cases hl.1
    · exact fun f hf ↦ by cases hf
    · exact fun key f hr ↦ .inl hr
  | lead key sql tables _ hnone =>
    apply append_flightInv hinv
    · intro f fut hf
      obtain ⟨hlt, -⟩ := List.getElem?_eq_some_iff.mp hf
      exact ⟨fut, (List.getElem?_append_left hlt).trans hf, fun _ ↦ rfl⟩
    · intro k f hlt
      constructor
      · intro hr
        rw [Dict.get?_set, if_neg, hr]
        rintro rfl
        rw [hnone] at hr
        cases hr
      · exact fun fut hf ↦ .inl ((List.getElem?_append_left hlt).trans hf)
    · refine .leader rfl rfl rfl (.fetching rfl ?_ (.inl ?_))
      · rw [Dict.get?_set, if_pos rfl]
      · simp
    · intro f hl
      obtain rfl := Option.some.inj hl.2
      exact le_rfl
    · exact fun f hf ↦ .inl ⟨rfl, hf⟩
    · intro k f hr
      rw [Dict.get?_set] at hr
      split at hr
      · next hk =>
        subst hk
        exact .inr ⟨⟨rfl, hr⟩, rfl, rfl⟩
      · exact .inl hr
  | @follow key sql tables f _ hreg =>
    obtain ⟨leader, hmem, hl, hk, hp⟩ := hinv.registered key f hreg
    apply append_flightInv hinv
    · exact evolves_of_futures rfl
    · exact fun key f _ ↦ spares_of_eq rfl rfl
    · obtain ⟨g, hg, -, hfut⟩ := (hinv.task leader hmem).leads_of_fetching hk hp
      obtain rfl := Option.some.inj (hl.2.symm.trans hg.2)
      refine .follower rfl rfl rfl ?_
      rcases hfut with hfut | hfut
      · have hs : s.cache.settled? f = none := by
          simp [QueryCacheCoordinator.settled?, hfut, Future.get?]
        dsimp only
        rw [hs]
        exact .awaiting hfut (by simp)
      · have hs : s.cache.settled? f = some (.raised .cancelledError) :=
          settled?_eq_some.mpr ⟨_, hfut, rfl⟩
        dsimp only
        rw [hs]
        exact .ended hs
    · exact fun f hl ↦ by cases hl.1
    · intro g hg
      obtain rfl := Option.some.inj hg
      exact .inr ⟨leader, hmem, hl, hk⟩
    · exact fun key f hr ↦ .inl hr

variable [DecidableEq T]

private theorem turn_flightInv {t : Nat} {task task' : Task K T D E S} {a : Act K T D E S}
    {c : QueryCacheCoordinator K T D E} (hinv : FlightInv s) (ht : s.tasks[t]? = some task)
    (h : Turn s t task a c task') (clock : Nat) :
    FlightInv { s with cache := c, tasks := s.tasks.set t task', clock := clock } := by
  have hmem := List.mem_of_getElem? ht
  have hown := hinv.task task hmem
  obtain ⟨hcall, hfut, hlead⟩ := h.seat
  constructor
  · intro other hother
    obtain ⟨u, hu⟩ := List.getElem?_of_mem hother
    dsimp only at hu
    by_cases htu : t = u
    · subst htu
      rw [getElem?_set_of_some ht] at hu
      obtain rfl := Option.some.inj hu
      exact h.taskInv hown
    · rw [List.getElem?_set_ne htu] at hu
      refine (hinv.task other (List.mem_of_getElem? hu)).frame h.evolves fun key f hl ↦ ?_
      exact h.spares hown (fun hl' ↦ htu (hinv.unique t u _ _ f ht hu hl' hl)) key
  · intro i j x y f hi hj hx hy
    have hold {i : Nat} {x : Task K T D E S} (hi : (s.tasks.set t task')[i]? = some x)
        (hx : x.Leads f) : ∃ x', s.tasks[i]? = some x' ∧ x'.Leads f := by
      by_cases hti : t = i
      · subst hti
        rw [getElem?_set_of_some ht] at hi
        obtain rfl := Option.some.inj hi
        exact ⟨task, ht, (h.leads_iff f).mp hx⟩
      · exact ⟨x, (List.getElem?_set_ne hti).symm.trans hi, hx⟩
    obtain ⟨x', hi', hx'⟩ := hold hi hx
    obtain ⟨y', hj', hy'⟩ := hold hj hy
    exact hinv.unique i j x' y' f hi' hj' hx' hy'
  · apply forall_mem_set
    · intro other hother f hf
      refine exists_mem_set ht (hinv.led other hother f hf) fun hl ↦ ?_
      rwa [h.leads_iff, hcall]
    · intro f hf
      rw [hfut] at hf
      rw [hcall]
      refine exists_mem_set ht (hinv.led task hmem f hf) fun hl ↦ ?_
      rwa [h.leads_iff, hcall]
  · intro key f hr
    obtain ⟨hr', hkeep⟩ := h.inflight hown hr
    refine exists_mem_set ht (hinv.registered key f hr') fun hl ↦ ?_
    rw [h.leads_iff, hcall]
    exact ⟨hl.1, hl.2.1, hkeep hl.2.1 hl.2.2⟩

/-- Every step keeps the invariant. -/
theorem FlightInv.step {a : Act K T D E S} (hinv : FlightInv s) (h : step s a = some s') :
    FlightInv s' := by
  rcases step_cases h with ⟨call, rfl, rfl⟩ | ⟨t, task, c, task', ht, hturn, rfl⟩ |
    ⟨key, rfl, rfl⟩ | ⟨now, rfl, rfl⟩
  · exact start_flightInv hinv (start_spec s.cache s.now call) _
  · exact turn_flightInv hinv ht hturn _
  · exact frame_flightInv hinv (c := s.cache.invalidate key) rfl rfl _ _
  · exact frame_flightInv hinv rfl rfl _ _

/-- The invariant holds in every run. -/
theorem FlightInv.of_reach {l1MaxSize : Nat} {l1TtlSeconds : Int} {hpos : 0 < l1MaxSize}
    {ok : State K T D E S → Act K T D E S → Prop}
    (h : (system l1MaxSize l1TtlSeconds hpos).Reach ok s) : FlightInv s := by
  refine h.invariant ?_ fun _ _ _ hinv _ hs ↦ hinv.step hs
  constructor
  · exact fun x hx ↦ by cases hx
  · exact fun t u x y f ht ↦ by cases ht
  · exact fun x hx ↦ by cases hx
  · exact fun key f hr ↦ by cases hr

end Step

end SalesData.Cache

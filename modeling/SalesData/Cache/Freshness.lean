import SalesData.Cache.SingleFlight
import SalesData.Cache.Tags

/-!
# Freshness after a write

A write drops the first-level entries on its tables once its execution has finished
(`query_service.py:114–147`). It does not touch the flights that are under way, so what a
flight fetched before can still reach the first level and other callers afterwards.
-/

namespace SalesData.Cache

open Base

variable {K T D E S : Type}

/-- The tables that a statement names. -/
def Call.tables : Call K T S → List T
  | .lookup _ _ tables | .write _ tables _ => tables

namespace Phase

/-- When the rows that the task has in hand, or that the warehouse computes for it, were
asked for. -/
def carries? : Phase T D E → Option Nat
  | running .warehouse since | answered _ since _ (some _) => some since
  | _ => none

/-- When the execution of a write finished whose invalidation has reached the first level. -/
def invalidated? : Phase T D E → Option Nat
  | flushing _ finished | written _ finished => some finished
  | _ => none

/-- When the task's last fetch or its execution finished. -/
def finished? : Phase T D E → Option Nat
  | answered _ _ finished _ | flushing _ finished | written _ finished => some finished
  | _ => none

end Phase

variable [DecidableEq K] [DecidableEq T]

/-- The two statements name a common table. -/
def shares (tables tables' : List T) : Bool := tables.any fun t ↦ decide (t ∈ tables')

/-- When the invalidation of a write runs, no flight on one of its tables carries rows that
were asked for before the write's execution finished; and no lookup in the second level
returns such rows after the invalidation. -/
def timely (s : State K T D E S) : Act K T D E S → Bool
  | .resume t => s.tasks[t]?.all fun w ↦
    match w.call, w.phase with
    | .write _ tables _, .answered _ _ finished (some _) => s.tasks.all fun u ↦
      u.call.key?.isNone || !shares u.call.tables tables ||
        u.phase.carries?.all fun since ↦ decide (finished ≤ since)
    | _, _ => true
  | .finish t (some _) => s.tasks[t]?.all fun u ↦
    match u.phase with
    | .running .l2 since => s.tasks.all fun w ↦
      !shares u.call.tables w.call.tables ||
        w.phase.invalidated?.all fun finished ↦ decide (finished ≤ since)
    | _ => true
  | _ => true

/-- The condition on a step. -/
def Timely (s : State K T D E S) (a : Act K T D E S) : Prop := timely s a = true

instance (s : State K T D E S) (a : Act K T D E S) : Decidable (Timely s a) :=
  inferInstanceAs (Decidable (_ = true))

/-- Once a write has returned, no first-level entry and no registered flight on one of its
tables carries rows that were asked for before its execution finished. -/
def State.Fresh (s : State K T D E S) : Prop :=
  ∀ w ∈ s.tasks, ∀ data finished, w.phase = .written data finished →
    (∀ key rows, s.cache.l1.Holds key rows → shares rows.tables w.call.tables = true →
      finished ≤ rows.since) ∧
    ∀ key f, s.cache.inflight.get? key = some f → ∀ leader ∈ s.tasks, leader.Leads f →
      shares leader.call.tables w.call.tables = true →
      ∀ since, leader.phase.carries? = some since → finished ≤ since

/-- The invariant of timely runs. -/
structure FreshInv (s : State K T D E S) : Prop where
  clock : ∀ task ∈ s.tasks, ∀ finished, task.phase.finished? = some finished → finished < s.clock
  l1 : ∀ w ∈ s.tasks, ∀ finished, w.phase.invalidated? = some finished → ∀ key rows,
    s.cache.l1.Holds key rows → shares rows.tables w.call.tables = true → finished ≤ rows.since
  flight : ∀ w ∈ s.tasks, ∀ finished, w.phase.invalidated? = some finished → ∀ u ∈ s.tasks,
    u.call.key?.isSome = true → shares u.call.tables w.call.tables = true →
    ∀ since, u.phase.carries? = some since → finished ≤ since

section Fresh

variable {s s' : State K T D E S} {t : Nat} {task task' : Task K T D E S} {a : Act K T D E S}
  {c : QueryCacheCoordinator K T D E}

omit [DecidableEq T] in
/-- A write that has invalidated has finished. -/
theorem Phase.finished?_of_invalidated? {phase : Phase T D E} {finished : Nat}
    (h : phase.invalidated? = some finished) : phase.finished? = some finished := by
  cases phase <;> first | exact h | cases h

/-- A turn after which the task counts as a write that has invalidated. -/
theorem Turn.invalidated? (h : Turn s t task a c task') {finished : Nat}
    (hp : task'.phase.invalidated? = some finished) :
    task.phase.invalidated? = some finished ∨ a = .resume t ∧
      ∃ sql tables precise src since data, task.call = .write sql tables precise ∧
        task.phase = .answered src since finished (some data) ∧
        c = s.cache.invalidateAfterWrite tables precise := by
  cases h with
  | begin | finish | miss | fill | wake | throwLookup | throwWrite => cases hp
  | invalidate hc hp' =>
    obtain rfl := Option.some.inj hp
    exact .inr ⟨rfl, _, _, _, _, _, _, hc, hp', rfl⟩
  | flushed _ hp' =>
    rw [hp']
    exact .inl hp
  | cancelFollower | cancelOther => exact .inl hp

private theorem Turn.carries? (h : Turn s t task a c task') {since : Nat}
    (hp : task'.phase.carries? = some since) :
    task.phase.carries? = some since ∨ since = s.clock ∨
      ∃ data, a = .finish t (some data) ∧ task.phase = .running .l2 since := by
  cases h with
  | @begin src =>
    cases src with
    | l2 => cases hp
    | warehouse => exact .inr (.inl (Option.some.inj hp).symm)
  | @finish src _ answer hp' =>
    cases answer with
    | none => cases hp
    | some data =>
      obtain rfl := Option.some.inj hp
      cases src with
      | l2 => exact .inr (.inr ⟨data, rfl, hp'⟩)
      | warehouse =>
        rw [hp']
        exact .inl rfl
  | miss | fill | wake | invalidate | flushed | throwLookup | throwWrite => cases hp
  | cancelFollower | cancelOther => exact .inl hp

private theorem Turn.holds (h : Turn s t task a c task') {key : K} {rows : Rows T D}
    (hl : c.l1.Holds key rows) : s.cache.l1.Holds key rows ∨
      task.call.key?.isSome = true ∧ task.call.tables = rows.tables ∧
        task.phase.carries? = some rows.since := by
  cases h with
  | begin | finish | miss | wake | flushed | throwLookup | throwWrite | cancelFollower
  | cancelOther => exact .inl hl
  | invalidate => exact .inl (holds_of_invalidateAfterWrite hl).1
  | fill hc hf hp =>
    have hl : (s.cache.fill s.now _ _).l1.Holds key rows := hl
    rw [l1_fill] at hl
    rcases HybridQueryCache.holds_of_put hl with ⟨-, rfl⟩ | ⟨-, hold⟩
    · rw [hc, hp]
      exact .inr ⟨rfl, rfl, rfl⟩
    · exact .inl hold

/-- No stamp lies in the future. -/
theorem Turn.finished? (h : Turn s t task a c task') {finished : Nat}
    (hp : task'.phase.finished? = some finished) :
    task.phase.finished? = some finished ∨ finished = s.clock := by
  cases h with
  | begin | miss | fill | wake | throwLookup | throwWrite => cases hp
  | finish => exact .inr (Option.some.inj hp).symm
  | invalidate _ hp' | flushed _ hp' =>
    rw [hp']
    exact .inl hp
  | cancelFollower | cancelOther => exact .inl hp

private theorem not_shares {tables tables' : List T}
    (h : ∀ table ∈ tables, table ∉ tables') : shares tables tables' = false := by
  rw [shares, List.any_eq_false]
  intro table ht
  simpa using h table ht

omit [DecidableEq K] [DecidableEq T] in
private theorem mem_turn {x : Task K T D E S} (hx : x ∈ s.tasks.set t task') :
    x = task' ∨ x ∈ s.tasks :=
  (List.mem_or_eq_of_mem_set hx).symm

private theorem FreshInv.turn (hinv : FreshInv s) (htag : s.cache.TagInv) (hok : Timely s a)
    (ht : s.tasks[t]? = some task) (h : Turn s t task a c task') :
    FreshInv { s with cache := c, tasks := s.tasks.set t task', clock := s.clock + 1 } := by
  have hmem := List.mem_of_getElem? ht
  obtain ⟨hcall, -, -⟩ := h.seat
  constructor
  · intro x hx finished hp
    rcases mem_turn hx with rfl | hx
    · rcases h.finished? hp with hp | rfl
      · exact Nat.lt_succ_of_lt (hinv.clock task hmem finished hp)
      · exact Nat.lt_succ_self _
    · exact Nat.lt_succ_of_lt (hinv.clock x hx finished hp)
  · intro w hw finished hp key rows hl hshares
    -- A write that had invalidated before: its entries were fresh, and so is a new one.
    have hold (v) (hv : v ∈ s.tasks) (hp : v.phase.invalidated? = some finished)
        (hshares : shares rows.tables v.call.tables = true) : finished ≤ rows.since := by
      rcases h.holds hl with hl | ⟨hlookup, htables, hcarries⟩
      · exact hinv.l1 v hv finished hp key rows hl hshares
      · exact hinv.flight v hv finished hp task hmem hlookup (htables ▸ hshares) rows.since hcarries
    rcases mem_turn hw with rfl | hw
    · rw [hcall] at hshares
      rcases h.invalidated? hp with hp | ⟨-, sql, tables, precise, src, since, data, hc, -, rfl⟩
      · exact hold task hmem hp hshares
      · obtain ⟨hl, hnot⟩ := holds_of_invalidateAfterWrite hl
        rw [hc, Call.tables, not_shares fun table ht hin ↦
          hnot table hin (htag key rows hl table ht)] at hshares
        cases hshares
    · exact hold w hw hp hshares
  · intro w hw finished hp u hu hlookup hshares since hcarries
    -- A write that had invalidated before: what flights carry is fresh.
    have hold (v) (hv : v ∈ s.tasks) (hp : v.phase.invalidated? = some finished)
        (hshares : shares u.call.tables v.call.tables = true) : finished ≤ since := by
      rcases mem_turn hu with rfl | hu
      · rw [hcall] at hlookup hshares
        rcases h.carries? hcarries with hcarries | rfl | ⟨data, rfl, hrun⟩
        · exact hinv.flight v hv finished hp task hmem hlookup hshares since hcarries
        · exact (hinv.clock v hv finished (Phase.finished?_of_invalidated? hp)).le
        · simp only [Timely, timely, ht, Option.all_some, hrun, List.all_eq_true] at hok
          simpa [hshares, hp] using hok v hv
      · exact hinv.flight v hv finished hp u hu hlookup hshares since hcarries
    rcases mem_turn hw with rfl | hw
    · rcases h.invalidated? hp with hp | ⟨rfl, sql, tables, precise, src, since', data, hc, hp', -⟩
      · exact hold task hmem hp (hcall ▸ hshares)
      · simp only [Timely, timely, ht, Option.all_some, hc, hp', List.all_eq_true] at hok
        rcases mem_turn hu with rfl | hu
        · rw [hcall, hc] at hlookup
          cases hlookup
        · rw [hcall, hc] at hshares
          have hnone : u.call.key?.isNone = false := by simpa using hlookup
          have hshares : shares u.call.tables tables = true := hshares
          simpa [hnone, hshares, hcarries] using hok u hu
    · exact hold w hw hp hshares

private theorem FreshInv.start {call : Call K T S} (hinv : FreshInv s)
    (h : Start s.cache s.now call c task) :
    FreshInv { s with cache := c, tasks := s.tasks ++ [task], clock := s.clock + 1 } := by
  have hnew : task.phase.finished? = none ∧ task.phase.carries? = none := by
    cases h with
    | write | hit | lead => exact ⟨rfl, rfl⟩
    | follow =>
      dsimp only
      cases s.cache.settled? _ <;> exact ⟨rfl, rfl⟩
  have hmem {x : Task K T D E S} (hx : x ∈ s.tasks ++ [task]) : x = task ∨ x ∈ s.tasks := by
    rw [List.mem_append, List.mem_singleton] at hx
    exact hx.symm
  have hnot {finished : Nat} (hp : task.phase.invalidated? = some finished) : False := by
    have hp := Phase.finished?_of_invalidated? hp
    rw [hnew.1] at hp
    cases hp
  constructor
  · intro x hx finished hp
    rcases hmem hx with rfl | hx
    · rw [hnew.1] at hp
      cases hp
    · exact Nat.lt_succ_of_lt (hinv.clock x hx finished hp)
  · intro w hw finished hp key rows hl hshares
    rcases hmem hw with rfl | hw
    · exact (hnot hp).elim
    · exact hinv.l1 w hw finished hp key rows (h.holds hl) hshares
  · intro w hw finished hp u hu hlookup hshares since hcarries
    rcases hmem hw with rfl | hw
    · exact (hnot hp).elim
    · rcases hmem hu with rfl | hu
      · rw [hnew.2] at hcarries
        cases hcarries
      · exact hinv.flight w hw finished hp u hu hlookup hshares since hcarries

private theorem FreshInv.step (hinv : FreshInv s) (htag : s.cache.TagInv) (hok : Timely s a)
    (h : step s a = some s') : FreshInv s' := by
  rcases step_cases h with ⟨call, rfl, rfl⟩ | ⟨t, task, c, task', ht, hturn, rfl⟩ |
    ⟨key, rfl, rfl⟩ | ⟨now, rfl, rfl⟩
  · exact hinv.start (start_spec s.cache s.now call)
  · exact hinv.turn htag hok ht hturn
  · exact ⟨fun x hx f hp ↦ Nat.lt_succ_of_lt (hinv.clock x hx f hp), fun w hw f hp k r hl ↦
      hinv.l1 w hw f hp k r (HybridQueryCache.holds_of_invalidate hl).2, hinv.flight⟩
  · exact ⟨fun x hx f hp ↦ Nat.lt_succ_of_lt (hinv.clock x hx f hp), hinv.l1, hinv.flight⟩

/-- In a timely run whatever is on the tables of a write that has returned is fresh. -/
theorem fresh_of_reach {l1MaxSize : Nat} {l1TtlSeconds : Int} {hpos : 0 < l1MaxSize}
    (h : (system l1MaxSize l1TtlSeconds hpos).Reach Timely s) : s.Fresh := by
  have hinv : FreshInv s := by
    refine h.invariant_of (fun s h ↦ tagInv_of_reach h) ⟨?_, ?_, ?_⟩
      fun _ _ _ hinv htag _ hok hs ↦ hinv.step htag hok hs
    · exact fun x hx ↦ by cases hx
    · exact fun x hx ↦ by cases hx
    · exact fun x hx ↦ by cases hx
  have hflight := FlightInv.of_reach h
  intro w hw data finished hp
  have hinvalidated : w.phase.invalidated? = some finished := by rw [hp]; rfl
  refine ⟨hinv.l1 w hw finished hinvalidated, ?_⟩
  intro key f hr leader hleader hl hshares since hcarries
  refine hinv.flight w hw finished hinvalidated leader hleader ?_ hshares since hcarries
  cases hflight.task leader hleader with
  | write _ _ hl' =>
    rw [hl.1] at hl'
    cases hl'
  | hit hk | leader hk | follower hk => rw [hk]; rfl

end Fresh
end SalesData.Cache

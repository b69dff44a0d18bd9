import SalesData.Base.System
import SalesData.Base.Tally
import SalesData.Base.Tasks
import SalesData.Performance.Aggregator

/-!
# The collector scheduler

`CollectorScheduler` (`core/performance/collectors/scheduler.py`): `start` and `stop` from any
coroutines of the event loop, the turns of the sampling loops between them. A caller of `stop` that
is cancelled while it waits goes on as if it was not: `suppress` takes its `CancelledError` too.
-/

namespace SalesData.Performance

open Base

namespace CollectorScheduler

variable {F E : Type}

/-- What a turn of the loop can raise. -/
inductive Trouble (E : Type)
  | collector (e : E)
  | metric (e : Error)
  deriving DecidableEq, Repr

/-- `collect_all` (`scheduler.py:58–63`) with what each collector returns or raises. -/
def collectAll : List (Except E (List (MetricPoint F))) → Except E (List (MetricPoint F))
  | [] => .ok []
  | .error e :: _ => .error e
  | .ok points :: results => (collectAll results).map (points ++ ·)

/-- `collect_once` (`scheduler.py:109–118`): the aggregator after it and what it raises. -/
def collectOnce (fl : Floats F) (agg : MetricsAggregator F)
    (results : List (Except E (List (MetricPoint F)))) :
    MetricsAggregator F × Option (Trouble E) :=
  match collectAll results with
  | .error e => (agg, some (.collector e))
  | .ok points =>
    match agg.ingest fl points with
    | (agg, .ok ()) => (agg, none)
    | (agg, .error e) => (agg, some (.metric e))

/-- A scheduler, its `_task` and the calls of `stop`. It is `idle` from the return of a `stop` to
the next `start` that begins a loop. -/
structure State (F E : Type) where
  aggregator : MetricsAggregator F
  tasks : List (Loop (Trouble E))
  task : Option Nat
  stops : List (Stopping (Trouble E))
  idle : Bool

namespace State

/-- `is_running` (`scheduler.py:89–92`). -/
def isRunning (s : State F E) : Bool :=
  match s.task.bind (s.tasks[·]?) with
  | some t => t.ended.isNone
  | none => false

/-- A call of `stop` gets to where it waits or ends; a return forgets the task. -/
def settle (s : State F E) (stops : List (Stopping (Trouble E))) :
    Stopping (Trouble E) → State F E
  | .returned => { s with stops, task := none, idle := true }
  | .waiting _ | .raised _ => { s with stops }

end State

/-- What the event loop runs. -/
inductive Event (F E : Type)
  | start
  | stop
  | resume (i : Nat)
  | turn (k : Nat) (results : List (Except E (List (MetricPoint F))))
  | unwind (k : Nat)
  | collectOnce (results : List (Except E (List (MetricPoint F))))

/-- One event. -/
def step (fl : Floats F) (s : State F E) : Event F E → Option (State F E)
  | .start =>
    if s.isRunning then some s
    else some
      { s with tasks := s.tasks ++ [.new], task := some s.tasks.length, idle := false }
  | .stop =>
    match s.task with
    | none => some (s.settle (s.stops ++ [.returned]) .returned)
    | some k => s.tasks[k]?.map fun t ↦
        let waits := Stopping.await k t.cancel
        { s with tasks := s.tasks.set k t.cancel }.settle (s.stops ++ [waits]) waits
  | .resume i =>
    match s.stops[i]? with
    | some (.waiting k) => (s.tasks[k]?.bind (·.ended)).map fun how ↦
        s.settle (s.stops.set i (.awaited how)) (.awaited how)
    | _ => none
  | .turn k results => s.tasks[k]?.bind fun t ↦
      (t.turn (CollectorScheduler.collectOnce fl s.aggregator results).2).map fun t ↦
        { s with
          aggregator := (CollectorScheduler.collectOnce fl s.aggregator results).1
          tasks := s.tasks.set k t }
  | .unwind k => s.tasks[k]?.bind fun t ↦
      t.unwind.map fun t ↦ { s with tasks := s.tasks.set k t }
  | .collectOnce results => some
      { s with aggregator := (CollectorScheduler.collectOnce fl s.aggregator results).1 }

/-- A scheduler from its constructor on (`scheduler.py:78–87`). -/
def scheduler (fl : Floats F) : System (State F E) (Event F E) where
  init := ⟨.empty, [], none, [], true⟩
  step := step fl

/-- A loop begins while no call of `stop` is under way. -/
def StartsApart (s : State F E) : Event F E → Prop
  | .start => s.isRunning = true ∨ ∀ call ∈ s.stops, call.awaits = none
  | _ => True

instance (s : State F E) (event : Event F E) : Decidable (StartsApart s event) :=
  match event with
  | .start => inferInstanceAs (Decidable (_ ∨ _))
  | .stop | .resume _ | .turn .. | .unwind _ | .collectOnce _ => instDecidableTrue

/-- What holds in every run: a call of `stop` that waits has asked its loop to end. -/
structure Asked (s : State F E) : Prop where
  named : ∀ k, s.task = some k → k < s.tasks.length
  waits : ∀ k, .waiting k ∈ s.stops → ∃ t, s.tasks[k]? = some t ∧ t.cancelling = true
  sound : ∀ t ∈ s.tasks, t.Sound

/-- Every loop that is not over is the one `_task` names, and nobody waits for another. -/
structure Inv (s : State F E) : Prop where
  own : ∀ k, Loop.Live s.tasks k → s.task = some k
  waits : ∀ k, .waiting k ∈ s.stops → s.task = some k ∨ s.task = none
  idle : s.idle = true → ∀ k, ¬ Loop.Live s.tasks k

variable {fl : Floats F} {s s' : State F E}

/-- A scheduler is running while its task is. -/
theorem isRunning_iff : s.isRunning = true ↔ ∃ k, s.task = some k ∧ Loop.Live s.tasks k := by
  unfold State.isRunning Loop.Live
  constructor
  · intro h
    split at h
    · next t ht =>
      obtain ⟨k, hk, ht⟩ := Option.bind_eq_some_iff.mp ht
      exact ⟨k, hk, t, ht, Option.isNone_iff_eq_none.mp h⟩
    · cases h
  · rintro ⟨k, hk, t, ht, hended⟩
    simp [hk, ht, hended]

/-- A scheduler that owns its loops has none while it is not running. -/
theorem Inv.not_live (h : Inv s) (hrun : s.isRunning = false) (k : Nat) :
    ¬ Loop.Live s.tasks k := by
  intro hk
  rw [isRunning_iff.mpr ⟨k, h.own k hk, hk⟩] at hrun
  cases hrun

section Settle

variable {stops : List (Stopping (Trouble E))} {waits : Stopping (Trouble E)}

/-- A call of `stop` starts no loop. -/
@[simp] theorem tasks_settle : (s.settle stops waits).tasks = s.tasks := by
  cases waits <;> rfl

/-- A call of `stop` is one of the calls. -/
@[simp] theorem stops_settle : (s.settle stops waits).stops = stops := by
  cases waits <;> rfl

/-- A call of `stop` names no new task. -/
theorem task_settle {k : Nat} (h : (s.settle stops waits).task = some k) : s.task = some k := by
  cases waits <;> first | exact h | cases h

/-- A call that gets on, where a return finds no loop. -/
theorem Inv.settle (h : Inv s)
    (hwaits : ∀ k, .waiting k ∈ stops → s.task = some k ∨ s.task = none)
    (hreturn : waits = .returned → ∀ k, ¬ Loop.Live s.tasks k) : Inv (s.settle stops waits) := by
  cases waits with
  | returned =>
    have hnone := hreturn rfl
    exact ⟨fun k hk ↦ absurd hk (hnone k), fun _ _ ↦ .inr rfl, fun _ ↦ hnone⟩
  | waiting k => exact ⟨h.own, hwaits, h.idle⟩
  | raised e => exact ⟨h.own, hwaits, h.idle⟩

/-- The facts of every run, for a call that gets on. -/
theorem Asked.settle (h : Asked s)
    (hwaits : ∀ k, .waiting k ∈ stops → ∃ t, s.tasks[k]? = some t ∧ t.cancelling = true) :
    Asked (s.settle stops waits) where
  named k hk := by
    rw [tasks_settle]
    exact h.named k (task_settle hk)
  waits k hk := by
    rw [stops_settle] at hk
    rw [tasks_settle]
    exact hwaits k hk
  sound t ht := by
    rw [tasks_settle] at ht
    exact h.sound t ht

end Settle

section Tasks

variable {ts : List (Loop (Trouble E))} {agg : MetricsAggregator F} {k : Nat}
  {t t' : Loop (Trouble E)}

/-- A step that revives no loop. -/
theorem Inv.tasks (h : Inv s) (hlive : ∀ j, Loop.Live ts j → Loop.Live s.tasks j) :
    Inv { s with aggregator := agg, tasks := ts } where
  own j hj := h.own j (hlive j hj)
  waits := h.waits
  idle hidle j hj := h.idle hidle j (hlive j hj)

/-- A step of one loop, which is not asked to go on again. -/
theorem Asked.set (h : Asked s) (hk : s.tasks[k]? = some t)
    (hcancelling : t.cancelling = true → t'.cancelling = true) (hsound : t'.Sound) :
    Asked { s with aggregator := agg, tasks := s.tasks.set k t' } where
  named j hj := by
    rw [List.length_set]
    exact h.named j hj
  waits j hj := by
    obtain ⟨u, hu, hasked⟩ := h.waits j hj
    by_cases hkj : k = j
    · subst hkj
      obtain rfl : t = u := Option.some.inj (hk.symm.trans hu)
      exact ⟨t', by simp [(List.getElem?_eq_some_iff.mp hk).1], hcancelling hasked⟩
    · exact ⟨u, by simpa [List.getElem?_set, hkj] using hu, hasked⟩
  sound u hu := by
    rcases List.mem_or_eq_of_mem_set hu with hu | rfl
    · exact h.sound u hu
    · exact hsound

end Tasks

/-- A loop is asked to end by the `stop` that finds it named. -/
theorem Asked.stop (h : Asked s) {k : Nat} {t : Loop (Trouble E)}
    (hk : s.tasks[k]? = some t) :
    Asked (State.settle { s with tasks := s.tasks.set k t.cancel }
      (s.stops ++ [.await k t.cancel]) (.await k t.cancel)) := by
  have hlt := (List.getElem?_eq_some_iff.mp hk).1
  have hset : Asked { s with tasks := s.tasks.set k t.cancel } :=
    h.set hk Loop.cancelling_cancel_of (h.sound t (List.mem_of_getElem? hk)).cancel
  refine hset.settle fun j hj ↦ ?_
  rcases List.mem_append.mp hj with hj | hj
  · exact hset.waits j hj
  · obtain ⟨rfl, hended⟩ := Stopping.of_await_waiting (List.mem_singleton.mp hj).symm
    rw [Loop.ended_cancel] at hended
    exact ⟨t.cancel, by simp [hlt], Loop.cancelling_cancel hended⟩

/-- Every event keeps the facts of every run. -/
theorem Asked.step {event : Event F E} (h : Asked s) (hs : step fl s event = some s') :
    Asked s' := by
  cases event with
  | start =>
    unfold CollectorScheduler.step at hs
    dsimp only at hs
    split at hs
    · obtain rfl := Option.some.inj hs
      exact h
    · obtain rfl := Option.some.inj hs
      refine ⟨fun k hk ↦ ?_, fun k hk ↦ ?_, fun t ht ↦ ?_⟩
      · obtain rfl := Option.some.inj hk
        simp
      · obtain ⟨t, ht, hasked⟩ := h.waits k hk
        exact ⟨t, by rw [List.getElem?_append_left (List.getElem?_eq_some_iff.mp ht).1, ht], hasked⟩
      · rcases List.mem_append.mp ht with ht | ht
        · exact h.sound t ht
        · rw [List.mem_singleton.mp ht]
          exact Loop.sound_new
  | stop =>
    unfold CollectorScheduler.step at hs
    dsimp only at hs
    split at hs
    · obtain rfl := Option.some.inj hs
      exact h.settle fun k hk ↦ h.waits k (by simpa using hk)
    · obtain ⟨t, ht, rfl⟩ := Option.map_eq_some_iff.mp hs
      exact h.stop ht
  | resume i =>
    unfold CollectorScheduler.step at hs
    dsimp only at hs
    split at hs
    · obtain ⟨how, -, rfl⟩ := Option.map_eq_some_iff.mp hs
      refine h.settle fun j hj ↦ ?_
      rcases List.mem_or_eq_of_mem_set hj with hj | hj
      · exact h.waits j hj
      · cases how <;> cases hj
    · cases hs
  | turn k results =>
    obtain ⟨t, ht, hs⟩ := Option.bind_eq_some_iff.mp hs
    obtain ⟨t', hturn, rfl⟩ := Option.map_eq_some_iff.mp hs
    obtain ⟨-, hasked, -⟩ := Loop.of_turn hturn
    exact h.set ht (fun h ↦ by rw [hasked] at h; cases h) (Loop.sound_of_turn hturn)
  | unwind k =>
    obtain ⟨t, ht, hs⟩ := Option.bind_eq_some_iff.mp hs
    obtain ⟨t', hunwind, rfl⟩ := Option.map_eq_some_iff.mp hs
    have hsound := Loop.sound_of_unwind hunwind
    obtain ⟨-, -, rfl⟩ := Loop.of_unwind hunwind
    exact h.set ht (fun _ ↦ rfl) hsound
  | collectOnce results =>
    obtain rfl := Option.some.inj hs
    exact ⟨h.named, h.waits, h.sound⟩

/-- While no call of `stop` is overtaken by a `start`, every loop stays the one `_task` names. -/
theorem Inv.step {event : Event F E} (h : Inv s) (hapart : StartsApart s event)
    (hs : CollectorScheduler.step fl s event = some s') : Inv s' := by
  cases event with
  | start =>
    unfold CollectorScheduler.step at hs
    dsimp only at hs
    split at hs
    · obtain rfl := Option.some.inj hs
      exact h
    · next hrun =>
      obtain rfl := Option.some.inj hs
      have hnone := h.not_live (Bool.eq_false_iff.mpr hrun)
      refine ⟨fun k hk ↦ ?_, fun k hk ↦ ?_, fun hidle ↦ nomatch hidle⟩
      · rcases Loop.live_concat_new.mp hk with hk | rfl
        · exact absurd hk (hnone k)
        · rfl
      · exact nomatch hapart.resolve_left hrun _ hk
  | stop =>
    unfold CollectorScheduler.step at hs
    dsimp only at hs
    split at hs
    · next hnone =>
      obtain rfl := Option.some.inj hs
      refine h.settle (fun k hk ↦ .inr hnone) fun _ k hk ↦ ?_
      have := h.own k hk
      rw [hnone] at this
      cases this
    · next k hk =>
      obtain ⟨t, ht, rfl⟩ := Option.map_eq_some_iff.mp hs
      have hlive : ∀ j, Loop.Live (s.tasks.set k t.cancel) j → Loop.Live s.tasks j :=
        fun j hj ↦ hj.of_set ht fun hended ↦ t.ended_cancel ▸ hended
      refine (h.tasks hlive).settle (fun j hj ↦ ?_) fun hreturned j hj ↦ ?_
      · rcases List.mem_append.mp hj with hj | hj
        · exact h.waits j hj
        · obtain ⟨rfl, -⟩ := Stopping.of_await_waiting (List.mem_singleton.mp hj).symm
          exact .inl hk
      · obtain rfl : j = k := Option.some.inj ((h.own j (hlive j hj)).symm.trans hk)
        obtain ⟨u, hu, hended⟩ := hlive j hj
        obtain rfl : t = u := Option.some.inj (ht.symm.trans hu)
        rw [Stopping.await_of_live (by rwa [Loop.ended_cancel])] at hreturned
        cases hreturned
  | resume i =>
    unfold CollectorScheduler.step at hs
    dsimp only at hs
    split at hs
    · next k hi =>
      obtain ⟨how, hhow, rfl⟩ := Option.map_eq_some_iff.mp hs
      obtain ⟨t, ht, hended⟩ := Option.bind_eq_some_iff.mp hhow
      refine h.settle (fun j hj ↦ ?_) fun _ j hj ↦ ?_
      · rcases List.mem_or_eq_of_mem_set hj with hj | hj
        · exact h.waits j hj
        · cases how <;> cases hj
      · obtain ⟨u, hu, hlive⟩ := hj
        rcases h.waits k (List.mem_of_getElem? hi) with hk | hnone
        · obtain rfl : j = k := Option.some.inj ((h.own j ⟨u, hu, hlive⟩).symm.trans hk)
          obtain rfl : t = u := Option.some.inj (ht.symm.trans hu)
          rw [hlive] at hended
          cases hended
        · have := h.own j ⟨u, hu, hlive⟩
          rw [hnone] at this
          cases this
    · cases hs
  | turn k results =>
    obtain ⟨t, ht, hs⟩ := Option.bind_eq_some_iff.mp hs
    obtain ⟨t', hturn, rfl⟩ := Option.map_eq_some_iff.mp hs
    obtain ⟨hended, -, -⟩ := Loop.of_turn hturn
    exact h.tasks fun j hj ↦ hj.of_set ht fun _ ↦ hended
  | unwind k =>
    obtain ⟨t, ht, hs⟩ := Option.bind_eq_some_iff.mp hs
    obtain ⟨t', hunwind, rfl⟩ := Option.map_eq_some_iff.mp hs
    obtain ⟨hended, -, -⟩ := Loop.of_unwind hunwind
    exact h.tasks fun j hj ↦ hj.of_set ht fun _ ↦ hended
  | collectOnce results =>
    obtain rfl := Option.some.inj hs
    exact h.tasks fun _ hj ↦ hj

/-- Only a `start` begins a loop. -/
theorem live_of_step {event : Event F E} (hs : step fl s event = some s')
    (hevent : event ≠ .start) {j : Nat} (h : Loop.Live s'.tasks j) : Loop.Live s.tasks j := by
  cases event with
  | start => exact absurd rfl hevent
  | stop =>
    unfold step at hs
    dsimp only at hs
    split at hs
    · obtain rfl := Option.some.inj hs
      rwa [tasks_settle] at h
    · obtain ⟨t, ht, rfl⟩ := Option.map_eq_some_iff.mp hs
      rw [tasks_settle] at h
      exact h.of_set ht fun hended ↦ t.ended_cancel ▸ hended
  | resume i =>
    unfold step at hs
    dsimp only at hs
    split at hs
    · obtain ⟨how, -, rfl⟩ := Option.map_eq_some_iff.mp hs
      rwa [tasks_settle] at h
    · cases hs
  | turn k results =>
    obtain ⟨t, ht, hs⟩ := Option.bind_eq_some_iff.mp hs
    obtain ⟨t', hturn, rfl⟩ := Option.map_eq_some_iff.mp hs
    exact h.of_set ht fun _ ↦ (Loop.of_turn hturn).1
  | unwind k =>
    obtain ⟨t, ht, hs⟩ := Option.bind_eq_some_iff.mp hs
    obtain ⟨t', hunwind, rfl⟩ := Option.map_eq_some_iff.mp hs
    exact h.of_set ht fun _ ↦ (Loop.of_unwind hunwind).1
  | collectOnce results =>
    obtain rfl := Option.some.inj hs
    exact h

/-- A new call of `stop`. -/
theorem of_stop (hs : step fl s .stop = some s') :
    ∃ call, s'.stops = s.stops ++ [call] ∧ (call = .returned → s'.idle = true) := by
  unfold step at hs
  dsimp only at hs
  split at hs
  · obtain rfl := Option.some.inj hs
    exact ⟨_, stops_settle, fun _ ↦ rfl⟩
  · obtain ⟨t, -, rfl⟩ := Option.map_eq_some_iff.mp hs
    refine ⟨_, stops_settle, fun hreturned ↦ ?_⟩
    rw [hreturned]
    rfl

/-- A call of `stop` that waited. -/
theorem of_resume {i : Nat} (hs : step fl s (.resume i) = some s') :
    ∃ call, s'.stops[i]? = some call ∧ (call = .returned → s'.idle = true) := by
  unfold step at hs
  dsimp only at hs
  split at hs
  · next hi =>
    obtain ⟨how, -, rfl⟩ := Option.map_eq_some_iff.mp hs
    refine ⟨.awaited how, ?_, fun hreturned ↦ ?_⟩
    · rw [stops_settle, List.getElem?_set_self (List.getElem?_eq_some_iff.mp hi).1]
    · rw [hreturned]
      rfl
  · cases hs

/-- What a loop does by itself. -/
def Event.IsTurn : Event F E → Prop
  | .turn .. | .unwind _ => True
  | _ => False

/-- The turns of the loops leave one that is over as it is, and the name of the task too. -/
theorem ended_of_turn {event : Event F E} (hevent : event.IsTurn)
    (hs : step fl s event = some s') {k : Nat} {t : Loop (Trouble E)}
    (hk : s.tasks[k]? = some t) (hended : t.ended ≠ none) :
    s'.task = s.task ∧ s'.tasks[k]? = some t := by
  have hother : ∀ {j : Nat} {u u' : Loop (Trouble E)}, s.tasks[j]? = some u → u.ended = none →
      (s.tasks.set j u')[k]? = some t := by
    intro j u u' hu hlive
    by_cases hjk : j = k
    · subst hjk
      obtain rfl : t = u := Option.some.inj (hk.symm.trans hu)
      exact absurd hlive hended
    · simpa [List.getElem?_set, hjk] using hk
  cases event with
  | turn j results =>
    obtain ⟨u, hu, hs⟩ := Option.bind_eq_some_iff.mp hs
    obtain ⟨u', hturn, rfl⟩ := Option.map_eq_some_iff.mp hs
    exact ⟨rfl, hother hu (Loop.of_turn hturn).1⟩
  | unwind j =>
    obtain ⟨u, hu, hs⟩ := Option.bind_eq_some_iff.mp hs
    obtain ⟨u', hunwind, rfl⟩ := Option.map_eq_some_iff.mp hs
    exact ⟨rfl, hother hu (Loop.of_unwind hunwind).1⟩
  | start | stop | resume | collectOnce => exact hevent.elim

/-- A loop that its own turn ended is there for every later call of `stop` to raise. -/
theorem stop_of_error (fl : Floats F) {k : Nat} {t : Loop (Trouble E)} {e : Trouble E}
    (hk : s.task = some k) (ht : s.tasks[k]? = some t) (hended : t.ended = some (.error e)) :
    step fl s .stop = some { s with stops := s.stops ++ [.raised e] } := by
  have hset : s.tasks.set k t = s.tasks := by
    rw [(List.getElem?_eq_some_iff.mp ht).2.symm]
    exact List.set_getElem_self _
  simp [step, hk, ht, Loop.cancel_of_ended hended, Stopping.await_of_ended hended,
    Stopping.awaited, State.settle, hset]

/-- The facts of every run. -/
theorem asked_of_reachable (h : (scheduler fl).Reachable s) : Asked (E := E) s :=
  h.invariant ⟨nofun, nofun, nofun⟩ fun _ _ _ h _ hs ↦ h.step hs

/-- Every loop is the one `_task` names, in every run where no `start` overtakes a `stop`. -/
theorem inv_of_reach (h : (scheduler fl).Reach StartsApart s) : Inv (E := E) s := by
  refine h.invariant ⟨?_, nofun, ?_⟩ fun _ _ _ h hapart hs ↦ h.step hapart hs
  · rintro k ⟨t, ht, -⟩
    cases ht
  · rintro - k ⟨t, ht, -⟩
    cases ht

/-- Calls of `stop` may overlap and overtake each other, but no `start` overtakes one: then at most
one loop samples, the one that the next `stop` ends, and none does after a `stop` has returned. -/
theorem one_loop (h : (scheduler fl).Reach StartsApart s) :
    (∀ k, Loop.Live s.tasks k → s.task = some k) ∧
      (∀ j k, Loop.Live s.tasks j → Loop.Live s.tasks k → j = k) ∧
      (s.idle = true → ∀ k, ¬ Loop.Live (E := Trouble E) s.tasks k) := by
  have hinv := inv_of_reach h
  refine ⟨hinv.own, fun j k hj hk ↦ ?_, hinv.idle⟩
  exact Option.some.inj ((hinv.own j hj).symm.trans (hinv.own k hk))

/-- Two calls of `stop` that overlap, and a loop that begins after them. -/
theorem one_loop_again : ∃ s : State Rat Empty, (scheduler Floats.exact).Reach StartsApart s ∧
    (s.task = some 1 ∧ s.stops = [.returned, .returned]) ∧
    (∀ k, Loop.Live s.tasks k → s.task = some k) ∧
    (∀ j k, Loop.Live s.tasks j → Loop.Live s.tasks k → j = k) ∧
    (s.idle = true → ∀ k, ¬ Loop.Live s.tasks k) := by
  obtain ⟨s, hreach, hs⟩ := System.exists_of_exec
    (scheduler (E := Empty) Floats.exact) StartsApart
    [.start, .turn 0 [.ok []], .stop, .stop, .unwind 0, .resume 1, .resume 0, .start]
    (fun s ↦ s.task == some 1 && s.stops == [.returned, .returned]) (by decide +kernel)
  exact ⟨s, hreach, by simpa using hs, one_loop hreach⟩

/-- Loop `k` is one that no call of `stop` can reach. -/
structure Orphan (k : Nat) (s : State F E) : Prop where
  task : s.task ≠ some k
  unawaited : .waiting k ∉ s.stops
  runs : ∃ t, s.tasks[k]? = some t ∧ t.cancelling = false ∧ t.ended ≠ some .cancelledError

section Orphan

variable {i k : Nat}

/-- A step of another loop. -/
theorem Orphan.set {j : Nat} {t : Loop (Trouble E)} {agg : MetricsAggregator F}
    (h : Orphan k s) (hne : j ≠ k) :
    Orphan k { s with aggregator := agg, tasks := s.tasks.set j t } := by
  obtain ⟨u, hu, hruns⟩ := h.runs
  exact ⟨h.task, h.unawaited, u, by simpa [List.getElem?_set, hne] using hu, hruns⟩

/-- A call of `stop` for another loop gets on. -/
theorem Orphan.settle {stops : List (Stopping (Trouble E))} {waits : Stopping (Trouble E)}
    (h : Orphan k s) (hstops : .waiting k ∉ stops) : Orphan k (s.settle stops waits) := by
  refine ⟨fun hk ↦ h.task (task_settle hk), ?_, ?_⟩
  · rwa [stops_settle]
  · rw [tasks_settle]
    exact h.runs

/-- Nothing that happens asks an orphan to end. -/
theorem Orphan.step {event : Event F E} (h : Orphan k s)
    (hs : CollectorScheduler.step fl s event = some s') : Orphan k s' := by
  obtain ⟨u, hu, hfree, hended⟩ := h.runs
  have hlt := (List.getElem?_eq_some_iff.mp hu).1
  cases event with
  | start =>
    unfold CollectorScheduler.step at hs
    dsimp only at hs
    split at hs
    · obtain rfl := Option.some.inj hs
      exact h
    · obtain rfl := Option.some.inj hs
      refine ⟨fun hk ↦ ?_, h.unawaited, u, ?_, hfree, hended⟩
      · exact absurd (Option.some.inj hk) (Nat.ne_of_gt hlt)
      · rw [List.getElem?_append_left hlt, hu]
  | stop =>
    unfold CollectorScheduler.step at hs
    dsimp only at hs
    split at hs
    · obtain rfl := Option.some.inj hs
      exact h.settle (by simpa using h.unawaited)
    · next j hj =>
      have hjk : j ≠ k := fun hjk ↦ h.task (hjk ▸ hj)
      obtain ⟨t, -, rfl⟩ := Option.map_eq_some_iff.mp hs
      refine (h.set hjk).settle fun hk ↦ ?_
      rcases List.mem_append.mp hk with hk | hk
      · exact h.unawaited hk
      · exact hjk (Stopping.of_await_waiting (List.mem_singleton.mp hk).symm).1.symm
  | resume i =>
    unfold CollectorScheduler.step at hs
    dsimp only at hs
    split at hs
    · obtain ⟨how, -, rfl⟩ := Option.map_eq_some_iff.mp hs
      refine h.settle fun hk ↦ ?_
      rcases List.mem_or_eq_of_mem_set hk with hk | hk
      · exact h.unawaited hk
      · cases how <;> cases hk
    · cases hs
  | turn j results =>
    obtain ⟨t, ht, hs⟩ := Option.bind_eq_some_iff.mp hs
    obtain ⟨t', hturn, rfl⟩ := Option.map_eq_some_iff.mp hs
    by_cases hjk : j = k
    · subst hjk
      obtain ⟨-, -, rfl⟩ := Loop.of_turn hturn
      exact ⟨h.task, h.unawaited, _, List.getElem?_set_self hlt, rfl, by simp⟩
    · exact h.set hjk
  | unwind j =>
    obtain ⟨t, ht, hs⟩ := Option.bind_eq_some_iff.mp hs
    obtain ⟨t', hunwind, rfl⟩ := Option.map_eq_some_iff.mp hs
    have hjk : j ≠ k := by
      rintro rfl
      obtain rfl : t = u := Option.some.inj (ht.symm.trans hu)
      rw [(Loop.of_unwind hunwind).2.1] at hfree
      cases hfree
    exact h.set hjk
  | collectOnce results =>
    obtain rfl := Option.some.inj hs
    exact ⟨h.task, h.unawaited, u, hu, hfree, hended⟩

/-- A `start` that overtakes a `stop`, which waits for a loop that is over by then, begins a loop
for good: the `stop` forgets it, and no call of `stop` asks it to end in any continuation. -/
theorem start_overtakes_stop (h : (scheduler fl).Reachable s)
    (hi : s.stops[i]? = some (.waiting k)) (hover : ¬ Loop.Live s.tasks k)
    (hrun : s.isRunning = false) :
    ∃ s₁ s₂ : State F E, step fl s .start = some s₁ ∧ step fl s₁ (.resume i) = some s₂ ∧
      s₂.stops = s.stops.set i .returned ∧ Loop.Live s₂.tasks s.tasks.length ∧
      ∀ s₃, ((scheduler fl).startAt s₂).Reachable s₃ → Orphan s.tasks.length s₃ := by
  obtain ⟨-, hwaits, hsound⟩ := asked_of_reachable h
  obtain ⟨t, ht, hasked⟩ := hwaits k (List.mem_of_getElem? hi)
  have hlt := (List.getElem?_eq_some_iff.mp ht).1
  have hended : t.ended = some .cancelledError := by
    cases hended : t.ended with
    | none => exact absurd ⟨t, ht, hended⟩ hover
    | some how =>
      cases how with
      | cancelledError => rfl
      | error e =>
        rw [hsound t (List.mem_of_getElem? ht) e hended] at hasked
        cases hasked
  have hk : (s.tasks ++ [.new])[k]? = some t := by rw [List.getElem?_append_left hlt, ht]
  have hnew : (s.tasks ++ [.new])[s.tasks.length]? = some .new := by simp
  have hstart : step fl s .start = some
      { s with tasks := s.tasks ++ [.new], task := some s.tasks.length, idle := false } := by
    simp [step, hrun]
  refine ⟨_, ⟨s.aggregator, s.tasks ++ [.new], none, s.stops.set i .returned, true⟩, hstart, ?_,
    rfl, ?_, ?_⟩
  · simp [step, hi, hk, hended, Stopping.awaited, State.settle]
  · exact ⟨_, hnew, rfl⟩
  · intro s₃ hs₃
    refine hs₃.invariant ⟨nofun, fun hwaiting ↦ ?_, _, hnew, rfl, nofun⟩ fun _ _ _ h _ hs ↦
      h.step hs
    rcases List.mem_or_eq_of_mem_set hwaiting with hwaiting | hwaiting
    · obtain ⟨u, hu, -⟩ := hwaits _ hwaiting
      exact absurd (List.getElem?_eq_some_iff.mp hu).1 (Nat.lt_irrefl _)
    · cases hwaiting

/-- A scheduler whose loop has just unwound. -/
theorem start_overtakes_stop_unwound : ∃ s s₁ s₂ : State Rat Empty,
    (scheduler Floats.exact).Reachable s ∧ step Floats.exact s .start = some s₁ ∧
    step Floats.exact s₁ (.resume 0) = some s₂ ∧ s₂.stops = s.stops.set 0 .returned ∧
    Loop.Live s₂.tasks s.tasks.length ∧
    ∀ s₃, ((scheduler Floats.exact).startAt s₂).Reachable s₃ → Orphan s.tasks.length s₃ := by
  obtain ⟨s, hreach, hs⟩ := System.exists_of_exec
    (scheduler (E := Empty) Floats.exact) (fun _ _ ↦ True) [.start, .stop, .unwind 0]
    (fun s ↦ s.stops == [.waiting 0] && s.tasks == [⟨true, some .cancelledError⟩] &&
      !s.isRunning) (by decide +kernel)
  simp only [Bool.and_eq_true, beq_iff_eq, Bool.not_eq_true'] at hs
  obtain ⟨⟨hstops, htasks⟩, hrun⟩ := hs
  have hover : ¬ Loop.Live s.tasks 0 := by
    rintro ⟨t, ht, hended⟩
    rw [htasks] at ht
    cases ht
    cases hended
  obtain ⟨s₁, s₂, h⟩ :=
    start_overtakes_stop (i := 0) hreach (by rw [hstops]; rfl) hover hrun
  exact ⟨s, s₁, s₂, hreach, h⟩

end Orphan

end CollectorScheduler
end SalesData.Performance

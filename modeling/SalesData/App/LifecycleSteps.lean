import SalesData.Base.Dict
import SalesData.Base.Text

/-!
# Startup and shutdown of lifecycle steps

`ApplicationLifespan` over any list of steps (`core/app/lifespan.py:64–116,465–641`): the steps
start in order, the started ones are shut down in reverse, and an exception ends either loop. A
step is what its methods do when they are called, and `calls` is bookkeeping of the model: the
calls that were made, in order, with whether they completed. What the container keeps for the
routes is in `Lifespan`.
-/

namespace SalesData.App.Lifecycle

open Base

/-- `ApplicationLifespan.mode`. -/
inductive Mode where
  | sync
  | async
  deriving DecidableEq, Repr

/-- `LifecycleStep` (`lifespan.py:71–115`): an exception, or what the method returns. -/
structure LifecycleStep (E R : Type) where
  startupSync : Except E (List (Text × R))
  shutdownSync : Except E Unit
  startupAsync : Except E (List (Text × R))
  shutdownAsync : Except E Unit

namespace LifecycleStep

variable {E R : Type}

/-- A step that leaves the asynchronous methods as they are (`lifespan.py:103–115`). -/
def ofSync (startupSync : Except E (List (Text × R))) (shutdownSync : Except E Unit) :
    LifecycleStep E R :=
  ⟨startupSync, shutdownSync, startupSync, shutdownSync⟩

/-- The startup method of a mode. -/
def startup (step : LifecycleStep E R) : Mode → Except E (List (Text × R))
  | .sync => step.startupSync
  | .async => step.startupAsync

/-- The shutdown method of a mode. -/
def shutdown (step : LifecycleStep E R) : Mode → Except E Unit
  | .sync => step.shutdownSync
  | .async => step.shutdownAsync

end LifecycleStep

/-- A call of a method of the step at a position. -/
inductive Call where
  | startup (step : Nat) (completed : Bool)
  | shutdown (step : Nat) (completed : Bool)
  deriving DecidableEq, Repr

/-- `DependencyContainer` (`container.py:25–69`). -/
structure DependencyContainer (R : Type) where
  services : Dict Text R
  dbSession : Option R

namespace DependencyContainer

variable {R : Type}

/-- `register`. -/
def register (container : DependencyContainer R) (name : Text) (service : R) :
    DependencyContainer R :=
  { container with services := container.services.set name service }

/-- `set_database_session`. -/
def setDatabaseSession (container : DependencyContainer R) (session : R) : DependencyContainer R :=
  { container with dbSession := some session }.register "db_session".toList session

/-- `clear`. -/
def clear : DependencyContainer R := ⟨.empty, none⟩

end DependencyContainer

/-- `ApplicationLifespan` (`lifespan.py:465–547`), with its steps at their positions. -/
structure ApplicationLifespan (E R : Type) where
  container : DependencyContainer R
  steps : List (LifecycleStep E R × Nat)
  startedSteps : List (LifecycleStep E R × Nat)
  calls : List Call

namespace ApplicationLifespan

variable {E R : Type}

/-- A lifespan with its steps. -/
def new (steps : List (LifecycleStep E R)) : ApplicationLifespan E R :=
  ⟨.clear, steps.zipIdx, [], []⟩

/-- `_register` (`lifespan.py:645–656`). -/
def register (container : DependencyContainer R) (registrations : List (Text × R)) :
    DependencyContainer R :=
  registrations.foldl (fun container (key, value) ↦
    if key = "db_session".toList then container.setDatabaseSession value
    else container.register key value) container

/-- The loop of `startup_sync` and `startup_async`. -/
def startSteps (mode : Mode) :
    List (LifecycleStep E R × Nat) → ApplicationLifespan E R →
      Except E Unit × ApplicationLifespan E R
  | [], s => (.ok (), s)
  | (step, i) :: rest, s =>
    match step.startup mode with
    | .error e => (.error e, { s with calls := s.calls ++ [.startup i false] })
    | .ok registrations =>
      startSteps mode rest { s with
        container := register s.container registrations
        startedSteps := s.startedSteps ++ [(step, i)]
        calls := s.calls ++ [.startup i true] }

/-- `startup_sync` (`lifespan.py:556–570`). -/
def startupSync (s : ApplicationLifespan E R) : Except E Unit × ApplicationLifespan E R :=
  startSteps .sync s.steps s

/-- `startup_async` (`lifespan.py:586–600`). -/
def startupAsync (s : ApplicationLifespan E R) : Except E Unit × ApplicationLifespan E R :=
  startSteps .async s.steps s

/-- The loop of `shutdown_sync` and `shutdown_async`. -/
def stopSteps (mode : Mode) :
    List (LifecycleStep E R × Nat) → ApplicationLifespan E R →
      Except E Unit × ApplicationLifespan E R
  | [], s => (.ok (), { s with startedSteps := [], container := .clear })
  | (step, i) :: rest, s =>
    match step.shutdown mode with
    | .error e => (.error e, { s with calls := s.calls ++ [.shutdown i false] })
    | .ok () => stopSteps mode rest { s with calls := s.calls ++ [.shutdown i true] }

/-- `shutdown_sync` (`lifespan.py:572–582`). -/
def shutdownSync (s : ApplicationLifespan E R) : Except E Unit × ApplicationLifespan E R :=
  stopSteps .sync s.startedSteps.reverse s

/-- `shutdown_async` (`lifespan.py:602–612`). -/
def shutdownAsync (s : ApplicationLifespan E R) : Except E Unit × ApplicationLifespan E R :=
  stopSteps .async s.startedSteps.reverse s

/-- `lifespan_context` around a body that returns or raises (`lifespan.py:614–641`). -/
def lifespanContext (mode : Mode) (body : Except E Unit) (s : ApplicationLifespan E R) :
    Except E Unit × ApplicationLifespan E R :=
  let (started, s) := match mode with
    | .sync => s.startupSync
    | .async => s.startupAsync
  match started with
  | .error e => (.error e, s)
  | .ok () =>
    match body with
    | .error e => (.error e, s)
    | .ok () =>
      match mode with
      | .sync => s.shutdownSync
      | .async => s.shutdownAsync

end ApplicationLifespan

/-- The steps whose startup completed, in the order of their starts. -/
def startedOf (calls : List Call) : List Nat :=
  calls.filterMap fun call ↦ match call with
    | .startup i true => some i
    | _ => none

/-- The steps whose shutdown was called, in the order of the calls. -/
def shutDownOf (calls : List Call) : List Nat :=
  calls.filterMap fun call ↦ match call with
    | .shutdown i _ => some i
    | _ => none

/-- The steps that started, and no others, were shut down, each once and in reverse order. -/
def ShutDownOnce (calls : List Call) : Prop := shutDownOf calls = (startedOf calls).reverse

instance (calls : List Call) : Decidable (ShutDownOnce calls) :=
  inferInstanceAs (Decidable (_ = _))

variable {E R : Type}

private theorem startedOf_startups (L : List (LifecycleStep E R × Nat)) :
    startedOf (L.map fun x ↦ .startup x.2 true) = L.map Prod.snd := by
  simp [startedOf, List.filterMap_map]

private theorem shutDownOf_startups (L : List (LifecycleStep E R × Nat)) :
    shutDownOf (L.map fun x ↦ .startup x.2 true) = [] := by
  simp [shutDownOf]

private theorem startedOf_shutdowns (L : List (LifecycleStep E R × Nat)) :
    startedOf (L.map fun x ↦ .shutdown x.2 true) = [] := by
  simp [startedOf]

private theorem shutDownOf_shutdowns (L : List (LifecycleStep E R × Nat)) :
    shutDownOf (L.map fun x ↦ .shutdown x.2 true) = L.map Prod.snd := by
  simp [shutDownOf, List.filterMap_map]

private theorem startedOf_append (cs ds : List Call) :
    startedOf (cs ++ ds) = startedOf cs ++ startedOf ds :=
  List.filterMap_append

private theorem shutDownOf_append (cs ds : List Call) :
    shutDownOf (cs ++ ds) = shutDownOf cs ++ shutDownOf ds :=
  List.filterMap_append

namespace ApplicationLifespan

/-- The startup loop starts all steps, or those before the first that raises. -/
theorem startSteps_cases (mode : Mode) (L : List (LifecycleStep E R × Nat))
    (s : ApplicationLifespan E R) :
    ((∀ x ∈ L, ∃ registrations, x.1.startup mode = .ok registrations) ∧
      ∃ s', startSteps mode L s = (.ok (), s') ∧ s'.startedSteps = s.startedSteps ++ L ∧
        s'.calls = s.calls ++ L.map fun x ↦ .startup x.2 true) ∨
    ∃ pre x post e, L = pre ++ x :: post ∧
      (∀ y ∈ pre, ∃ registrations, y.1.startup mode = .ok registrations) ∧
      x.1.startup mode = .error e ∧ ∃ s', startSteps mode L s = (.error e, s') ∧
        s'.calls = s.calls ++ (pre.map fun y ↦ .startup y.2 true) ++ [.startup x.2 false] := by
  induction L generalizing s with
  | nil =>
    left
    simp [startSteps]
  | cons x rest ih =>
    obtain ⟨step, i⟩ := x
    cases hstart : step.startup mode with
    | error e =>
      right
      refine ⟨[], (step, i), rest, e, rfl, by simp, hstart, ?_⟩
      simp [startSteps, hstart]
    | ok registrations =>
      simp only [startSteps, hstart]
      rcases ih { s with
        container := register s.container registrations
        startedSteps := s.startedSteps ++ [(step, i)]
        calls := s.calls ++ [.startup i true] } with
        ⟨hall, s', hs', hstarted, hcalls⟩ | ⟨pre, x, post, e, rfl, hpre, hx, s', hs', hcalls⟩
      · left
        refine ⟨?_, s', hs', ?_, ?_⟩
        · intro y hy
          rcases List.mem_cons.mp hy with rfl | hy
          · exact ⟨registrations, hstart⟩
          · exact hall y hy
        · rw [hstarted]
          simp
        · rw [hcalls]
          simp
      · right
        refine ⟨(step, i) :: pre, x, post, e, rfl, ?_, hx, s', hs', ?_⟩
        · intro y hy
          rcases List.mem_cons.mp hy with rfl | hy
          · exact ⟨registrations, hstart⟩
          · exact hpre y hy
        · rw [hcalls]
          simp

/-- The shutdown loop goes through all steps, or ends at the first that raises. -/
theorem stopSteps_cases (mode : Mode) (L : List (LifecycleStep E R × Nat))
    (s : ApplicationLifespan E R) :
    ((∀ x ∈ L, x.1.shutdown mode = .ok ()) ∧
      (stopSteps mode L s).2.calls = s.calls ++ L.map fun x ↦ .shutdown x.2 true) ∨
    ∃ pre x post e, L = pre ++ x :: post ∧ (∀ y ∈ pre, y.1.shutdown mode = .ok ()) ∧
      x.1.shutdown mode = .error e ∧
      (stopSteps mode L s).2.calls =
        s.calls ++ (pre.map fun y ↦ .shutdown y.2 true) ++ [.shutdown x.2 false] := by
  induction L generalizing s with
  | nil =>
    left
    simp [stopSteps]
  | cons x rest ih =>
    obtain ⟨step, i⟩ := x
    cases hstop : step.shutdown mode with
    | error e =>
      right
      refine ⟨[], (step, i), rest, e, rfl, by simp, hstop, ?_⟩
      simp [stopSteps, hstop]
    | ok _ =>
      simp only [stopSteps, hstop]
      rcases ih { s with calls := s.calls ++ [.shutdown i true] } with
        ⟨hall, hcalls⟩ | ⟨pre, x, post, e, rfl, hpre, hx, hcalls⟩
      · left
        constructor
        · intro y hy
          rcases List.mem_cons.mp hy with rfl | hy
          · exact hstop
          · exact hall y hy
        · rw [hcalls]
          simp
      · right
        refine ⟨(step, i) :: pre, x, post, e, rfl, ?_, hx, ?_⟩
        · intro y hy
          rcases List.mem_cons.mp hy with rfl | hy
          · exact hstop
          · exact hpre y hy
        · rw [hcalls]
          simp

variable {mode : Mode} {s s' : ApplicationLifespan E R}

/-- A startup that raises is all of the run. -/
theorem lifespanContext_of_error {body : Except E Unit} {e : E}
    (h : startSteps mode s.steps s = (.error e, s')) :
    s.lifespanContext mode body = (.error e, s') := by
  cases mode with
  | sync => simp [lifespanContext, startupSync, h]
  | async => simp [lifespanContext, startupAsync, h]

/-- A body that raises ends the run. -/
theorem lifespanContext_of_raise {e : E} (h : startSteps mode s.steps s = (.ok (), s')) :
    s.lifespanContext mode (.error e) = (.error e, s') := by
  cases mode with
  | sync => simp [lifespanContext, startupSync, h]
  | async => simp [lifespanContext, startupAsync, h]

/-- A body that returns is followed by the shutdown. -/
theorem lifespanContext_of_return (h : startSteps mode s.steps s = (.ok (), s')) :
    s.lifespanContext mode (.ok ()) = stopSteps mode s'.startedSteps.reverse s' := by
  cases mode with
  | sync => simp [lifespanContext, startupSync, shutdownSync, h]
  | async => simp [lifespanContext, startupAsync, shutdownAsync, h]

end ApplicationLifespan

/-- There is no step, or the first one does not start. -/
def NothingStarts (mode : Mode) (steps : List (LifecycleStep E R)) : Prop :=
  ∀ step ∈ steps.head?, ∃ e, step.startup mode = .error e

/-- The body returns, every step starts, and all but the first shut down. -/
def RunsClean (mode : Mode) (steps : List (LifecycleStep E R)) (body : Except E Unit) : Prop :=
  body = .ok () ∧ (∀ step ∈ steps, ∃ registrations, step.startup mode = .ok registrations) ∧
    ∀ step ∈ steps.tail, step.shutdown mode = .ok ()

private theorem shutDownOnce_of_failedStart {pre : List (LifecycleStep E R × Nat)} {i : Nat} :
    ShutDownOnce ((pre.map fun y ↦ .startup y.2 true) ++ [.startup i false]) ↔ pre = [] := by
  rw [ShutDownOnce, shutDownOf_append, startedOf_append, shutDownOf_startups, startedOf_startups]
  constructor
  · intro h
    simpa [shutDownOf, startedOf] using h.symm
  · rintro rfl
    rfl

private theorem shutDownOnce_of_noStop {L : List (LifecycleStep E R × Nat)} :
    ShutDownOnce (L.map fun y ↦ .startup y.2 true) ↔ L = [] := by
  rw [ShutDownOnce, shutDownOf_startups, startedOf_startups]
  constructor
  · intro h
    simpa using h.symm
  · rintro rfl
    rfl

private theorem shutDownOnce_of_stop {L : List (LifecycleStep E R × Nat)} :
    ShutDownOnce ((L.map fun y ↦ .startup y.2 true) ++
      L.reverse.map fun y ↦ .shutdown y.2 true) := by
  rw [ShutDownOnce, shutDownOf_append, startedOf_append, shutDownOf_startups,
    shutDownOf_shutdowns, startedOf_startups, startedOf_shutdowns]
  simp

private theorem shutDownOnce_of_failedStop {L pre post : List (LifecycleStep E R × Nat)}
    {x : LifecycleStep E R × Nat} (h : L.reverse = pre ++ x :: post) :
    ShutDownOnce ((L.map fun y ↦ .startup y.2 true) ++ (pre.map fun y ↦ .shutdown y.2 true) ++
      [.shutdown x.2 false]) ↔ post = [] := by
  rw [ShutDownOnce, shutDownOf_append, shutDownOf_append, startedOf_append, startedOf_append,
    shutDownOf_startups, shutDownOf_shutdowns, startedOf_startups, startedOf_shutdowns]
  have hrev : (L.map Prod.snd).reverse = pre.map Prod.snd ++ x.2 :: post.map Prod.snd := by
    rw [← List.map_reverse, h, List.map_append, List.map_cons]
  constructor
  · intro heq
    simpa [shutDownOf, startedOf, hrev] using heq.symm
  · rintro rfl
    simp [shutDownOf, startedOf, hrev]

private theorem nothingStarts_of_starts {mode : Mode} {steps : List (LifecycleStep E R)}
    (h : ∀ step ∈ steps, ∃ registrations, step.startup mode = .ok registrations) :
    NothingStarts mode steps ↔ steps = [] := by
  constructor
  · intro hnone
    cases steps with
    | nil => rfl
    | cons step rest =>
      obtain ⟨registrations, hok⟩ := h step List.mem_cons_self
      obtain ⟨e, he⟩ := hnone step rfl
      rw [hok] at he
      cases he
  · rintro rfl step hstep
    cases hstep

private theorem condition_of_failedStart {mode : Mode} {steps : List (LifecycleStep E R)}
    {body : Except E Unit} {pre post : List (LifecycleStep E R × Nat)}
    {x : LifecycleStep E R × Nat} {e : E}
    (hsteps : steps = (pre ++ x :: post).map Prod.fst)
    (hpre : ∀ y ∈ pre, ∃ registrations, y.1.startup mode = .ok registrations)
    (hx : x.1.startup mode = .error e) :
    NothingStarts mode steps ∨ RunsClean mode steps body ↔ pre = [] := by
  constructor
  · rintro (hnone | ⟨-, hclean, -⟩)
    · cases pre with
      | nil => rfl
      | cons y pre =>
        obtain ⟨registrations, hy⟩ := hpre y List.mem_cons_self
        obtain ⟨e', hy'⟩ := hnone y.1 (by rw [hsteps]; rfl)
        rw [hy] at hy'
        cases hy'
    · obtain ⟨registrations, hok⟩ := hclean x.1 (by rw [hsteps]; simp)
      rw [hx] at hok
      cases hok
  · rintro rfl
    left
    intro step hstep
    rw [hsteps, List.nil_append, List.map_cons, List.head?_cons] at hstep
    rw [← Option.some.inj hstep]
    exact ⟨e, hx⟩

private theorem condition_of_failedStop {mode : Mode} {steps : List (LifecycleStep E R)}
    {pre post : List (LifecycleStep E R × Nat)} {x : LifecycleStep E R × Nat} {e : E}
    (hstarts : ∀ step ∈ steps, ∃ registrations, step.startup mode = .ok registrations)
    (hsteps : steps = (post.reverse ++ x :: pre.reverse).map Prod.fst)
    (hpre : ∀ y ∈ pre, y.1.shutdown mode = .ok ()) (hx : x.1.shutdown mode = .error e) :
    NothingStarts mode steps ∨ RunsClean mode steps (.ok ()) ↔ post = [] := by
  rw [nothingStarts_of_starts hstarts]
  constructor
  · rintro (hnil | ⟨-, -, hclean⟩)
    · rw [hnil] at hsteps
      simp at hsteps
    · cases hpost : post.reverse with
      | nil => exact List.reverse_eq_nil_iff.mp hpost
      | cons y rest =>
        have hlater : x.1 ∈ steps.tail := by
          rw [hsteps, hpost]
          simp
        rw [hclean x.1 hlater] at hx
        cases hx
  · rintro rfl
    refine .inr ⟨rfl, hstarts, fun step hstep ↦ ?_⟩
    rw [hsteps] at hstep
    obtain ⟨y, hy, rfl⟩ := List.mem_map.mp hstep
    exact hpre y (List.mem_reverse.mp hy)

/-- Every started step is shut down exactly once and in reverse order, and no other one is,
exactly when nothing starts or nothing but the shutdown of the first step raises. -/
theorem shutDownOnce_iff (mode : Mode) (steps : List (LifecycleStep E R)) (body : Except E Unit) :
    ShutDownOnce ((ApplicationLifespan.new steps).lifespanContext mode body).2.calls ↔
      NothingStarts mode steps ∨ RunsClean mode steps body := by
  have hfst : steps = steps.zipIdx.map Prod.fst := (List.zipIdx_map_fst 0 steps).symm
  rcases ApplicationLifespan.startSteps_cases mode steps.zipIdx (.new steps) with
    ⟨hall, s, hs, hstarted, hcalls⟩ | ⟨pre, x, post, e, hsteps, hpre, hx, s, hs, hcalls⟩
  · replace hcalls : s.calls = steps.zipIdx.map fun y ↦ .startup y.2 true := hcalls
    replace hstarted : s.startedSteps = steps.zipIdx := hstarted
    have hstarts : ∀ step ∈ steps, ∃ registrations, step.startup mode = .ok registrations := by
      intro step hstep
      rw [hfst] at hstep
      obtain ⟨x, hx, rfl⟩ := List.mem_map.mp hstep
      exact hall x hx
    cases body with
    | error e =>
      rw [ApplicationLifespan.lifespanContext_of_raise hs, hcalls, shutDownOnce_of_noStop,
        nothingStarts_of_starts hstarts, List.zipIdx_eq_nil_iff]
      constructor
      · exact .inl
      · rintro (hnil | ⟨hbody, -⟩)
        · exact hnil
        · cases hbody
    | ok _ =>
      rw [ApplicationLifespan.lifespanContext_of_return hs, hstarted]
      rcases ApplicationLifespan.stopSteps_cases mode steps.zipIdx.reverse s with
        ⟨hstop, hstops⟩ | ⟨pre, x, post, e, hrev, hpre, hx, hstops⟩
      · rw [hstops, hcalls]
        refine iff_of_true shutDownOnce_of_stop (.inr ⟨rfl, hstarts, fun step hstep ↦ ?_⟩)
        rw [hfst] at hstep
        obtain ⟨y, hy, rfl⟩ := List.mem_map.mp (List.mem_of_mem_tail hstep)
        exact hstop y (List.mem_reverse.mpr hy)
      · have hsplit : steps = (post.reverse ++ x :: pre.reverse).map Prod.fst := by
          rw [hfst, ← List.reverse_reverse steps.zipIdx, hrev]
          simp
        rw [hstops, hcalls, shutDownOnce_of_failedStop hrev]
        exact (condition_of_failedStop hstarts hsplit hpre hx).symm
  · rw [hsteps] at hfst
    rw [ApplicationLifespan.lifespanContext_of_error hs, hcalls]
    exact shutDownOnce_of_failedStart.trans (condition_of_failedStart hfst hpre hx).symm

/-- Two steps, of which the second does not start: the first stays up. -/
theorem failedStartup_leavesStarted :
    ¬ ∀ (mode : Mode) (steps : List (LifecycleStep Unit Unit)) (body : Except Unit Unit),
      ShutDownOnce ((ApplicationLifespan.new steps).lifespanContext mode body).2.calls := by
  intro h
  have hrun := h .async [.ofSync (.ok []) (.ok ()), .ofSync (.error ()) (.ok ())] (.ok ())
  revert hrun
  decide

end SalesData.App.Lifecycle

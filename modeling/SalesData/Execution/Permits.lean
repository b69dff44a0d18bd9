import SalesData.Execution.Exclusive
import SalesData.Execution.Invalidated

/-!
# Statements by cost class

"Use separate semaphores" for fast, normal and expensive queries
(`docs/API_PERFORMANCE_LATENCY_REFACTOR_ROADMAP.md`, phase 14). `_execute_gated` holds a permit for
as long as its coroutine is inside (`core/services/query_service.py:149–168`); a thread of the db
executor goes on with the statement of a coroutine that has been cancelled
(`core/concurrency/executors.py:78–100`).
-/

namespace SalesData.Execution

open Base Sql
open Cache (QueryCacheCoordinator)
open Pool (Addr)
open Pool.Async (Choice)
open Service (Run)

variable {K P D E : Type}

/-- The request is inside the semaphore of class `c`. -/
def Request.inside (u : Unicode) (req : Request P) (c : Cost) : Nat :=
  if req.stage.timed = true ∧ classifyCost u req.run.sql = c then 1 else 0

/-- Job `job` is a statement of class `c` that a thread executes. -/
def State.executes (u : Unicode) (s : State K P D E) (c : Cost) (job : Job) : Bool :=
  job.state == .running && job.kind == .fetchAll &&
    (s.requests[job.owner]?).any fun req ↦ classifyCost u req.run.sql == c

/-- The statements of class `c` that threads execute. -/
def State.executing (u : Unicode) (s : State K P D E) (c : Cost) : Nat :=
  s.jobs.countP (s.executes u c)

/-- No more statements of a class are executed at a time than its semaphore has permits. -/
def State.Bounded (u : Unicode) (permits : Cost → Nat) (s : State K P D E) : Prop :=
  ∀ c, s.executing u c ≤ permits c

/-- No strike takes effect in a request while a thread executes the statement that the request
awaits. -/
def SparesStatement (s : State K P D E) : Act K P D E → Prop
  | .resume r _ => ∀ req ∈ s.requests[r]?, req.struck = true →
    ∀ j ∈ req.stage.fetch?, s.jobState? j ≠ some .running
  | _ => True

variable {u : Unicode} {s s' : State K P D E}

section Permits

/-- Request `r` has gone on, and its permit with it: before, it held `held c` of class `c`. -/
def Accounts (u : Unicode) (held : Cost → Nat) (s : State K P D E) (r : Nat) (req : Request P)
    (s' : State K P D E) : Prop :=
  ∃ req', s'.requests = s.requests.set r req' ∧ req'.run = req.run ∧
    ∀ c, s'.permits c + req'.inside u c = s.permits c + held c

/-- One permit of the request's class. -/
def Request.permit (u : Unicode) (req : Request P) (c : Cost) : Nat :=
  if classifyCost u req.run.sql = c then 1 else 0

/-- A request that stays inside keeps its permit. -/
theorem accounts_stay {s' : State K P D E} {r : Nat} {req : Request P} (stage : Stage)
    (hstage : stage.timed = true) (hpermits : s'.permits = s.permits)
    (hreqs : s'.requests = s.requests.set r { req with stage := stage, struck := false }) :
    Accounts u (req.permit u) s r req s' := by
  refine ⟨_, hreqs, rfl, fun c ↦ ?_⟩
  rw [hpermits, Request.inside, Request.permit]
  simp only [hstage, true_and]

variable [DecidableEq K]

/-- A request that leaves gives its permit back. -/
theorem accounts_leave (s : State K P D E) (r : Nat) (req : Request P)
    (outcome : Option Failure) :
    Accounts u (req.permit u) s r req (s.leave u r req outcome) := by
  have hpermits (c : Cost) :
      (s.leave u r req outcome).permits c = s.permits c + req.permit u c := by
    unfold Request.permit
    by_cases hc : classifyCost u req.run.sql = c
    · rw [if_pos hc]
      subst hc
      unfold State.leave State.invalidateAfterWrite State.put
      dsimp only
      split
      · exact Function.update_self ..
      · split
        · exact Function.update_self ..
        · exact Function.update_self ..
    · rw [if_neg hc]
      unfold State.leave State.invalidateAfterWrite State.put
      dsimp only
      split
      · exact Function.update_of_ne (Ne.symm hc) ..
      · split
        · exact Function.update_of_ne (Ne.symm hc) ..
        · exact Function.update_of_ne (Ne.symm hc) ..
  obtain ⟨stage, htask, -, -, hreqs⟩ := s.leave_spec (u := u) r req outcome
  refine ⟨_, hreqs, rfl, fun c ↦ ?_⟩
  rw [hpermits, Request.inside, if_neg (by simp [Stage.timed, htask]), Nat.add_zero]

/-- Behind `acquire` a request has its permit still, or has left. -/
theorem accounts_acquired (s : State K P D E) (r : Nat) (req : Request P) (t : Nat) :
    Accounts u (req.permit u) s r req (s.acquired u r req t) := by
  rcases s.acquired_cases (u := u) r req t with ⟨c, -, heq⟩ | ⟨failure, heq⟩ | heq
  · rw [heq]
    exact accounts_stay (.fetching t c s.jobs.length) rfl rfl rfl
  · rw [heq]
    exact accounts_leave s r req _
  · rw [heq]
    exact accounts_stay (.acquiring t) rfl rfl rfl

/-- Behind `release` a request has its permit still, or has left. -/
theorem accounts_released (s : State K P D E) (r : Nat) (req : Request P) (t : Nat) (c : Addr)
    (outcome : Option Failure) :
    Accounts u (req.permit u) s r req (s.released u r req t c outcome) := by
  rcases s.released_cases (u := u) r req t c outcome with ⟨o, -, heq⟩ | ⟨d, -, heq⟩ | heq
  · rw [heq]
    exact accounts_leave s r req o
  · rw [heq]
    exact accounts_stay (.releasing t c (some s.jobs.length) outcome) rfl rfl rfl
  · rw [heq]
    exact accounts_stay (.releasing t c none outcome) rfl rfl rfl

/-- A request at the semaphore takes a permit of its class. -/
theorem accounts_enter {r : Nat} {req : Request P} {ch : Choice} (hg : req.stage = .gate)
    (h : s.enter u r req ch = some s') : Accounts u (req.inside u) s r req s' := by
  unfold State.enter at h
  dsimp only at h
  split at h
  · next hfree =>
    obtain ⟨p, hcall, h⟩ := Option.bind_eq_some_iff.mp h
    obtain ⟨s₁, h₁, rfl⟩ := Option.map_eq_some_iff.mp h
    obtain ⟨p', hp, rfl⟩ := Option.map_eq_some_iff.mp h₁
    obtain ⟨req', hreqs, hrun, hpermits⟩ := accounts_acquired (u := u) { s with
      pool := p'
      permits := Function.update s.permits (classifyCost u req.run.sql)
        (s.permits (classifyCost u req.run.sql) - 1) } r req s.pool.tasks.length
    refine ⟨req', hreqs, hrun, fun c ↦ ?_⟩
    rw [hpermits c, Request.inside, hg, if_neg (by simp [Stage.timed, Stage.task?])]
    unfold Request.permit
    dsimp only
    by_cases hc : classifyCost u req.run.sql = c
    · subst hc
      rw [if_pos rfl, Function.update_self]
      omega
    · rw [if_neg hc, Function.update_of_ne (Ne.symm hc)]
  · cases h

private theorem resume_eq_of_step {r : Nat} {ch : Choice}
    (h : Execution.step u s (.resume r ch) = some s') :
    ∃ req s₁, s.requests[r]? = some req ∧ s.resume u r req ch = some s₁ ∧
      s' = { s₁ with clock := s.clock + 1 } := by
  obtain ⟨s₁, h₁, rfl⟩ := Option.map_eq_some_iff.mp h
  simp only [State.act] at h₁
  split at h₁
  · cases h₁
  · obtain ⟨req, hreq, hres⟩ := Option.bind_eq_some_iff.mp h₁
    exact ⟨req, s₁, hreq, hres, rfl⟩

/-- A request that goes on takes its permit along. -/
theorem accounts_resume {r : Nat} {req : Request P} {ch : Choice}
    (h : s.resume u r req ch = some s') : Accounts u (req.inside u) s r req s' := by
  have hout (hstage : req.stage.timed = false) (stage : Stage) (hstage' : stage.timed = false)
      (invalidated : Option (Nat × List Cache.Purge)) {s' : State K P D E}
      (hpermits : s'.permits = s.permits) (hreqs : s'.requests = s.requests.set r
        { req with stage := stage, struck := false, invalidated := invalidated }) :
      Accounts u (req.inside u) s r req s' := by
    refine ⟨_, hreqs, rfl, fun c ↦ ?_⟩
    simp only [hpermits, Request.inside, hstage, hstage', Bool.false_eq_true, false_and, if_false]
  have hin {t : Nat} (ht : req.stage.task? = some t) : req.inside u = req.permit u := by
    ext c
    simp only [Request.inside, Request.permit, Stage.timed, ht, Option.isSome_some, true_and]
  cases turn_of_resume h with
  | refused hg => exact hout (by rw [hg]; rfl) (.ended _) rfl _ rfl rfl
  | interrupt hg => exact hout (by rw [hg]; rfl) (.ended _) rfl _ rfl rfl
  | flush hg => exact hout (by rw [hg]; rfl) (.flushing ..) rfl _ rfl rfl
  | flushed hg => exact hout (by rw [hg]; rfl) (.ended _) rfl _ rfl rfl
  | enter hg hk =>
    simp only [State.resume, hg, hk, Bool.false_eq_true, if_false] at h
    exact accounts_enter hg h
  | acquire hg =>
    rw [hin (by rw [hg]; rfl)]
    exact accounts_acquired _ r req _
  | drop ht =>
    rw [hin ht]
    exact accounts_released _ r req _ _ _
  | release ht =>
    rw [hin ht]
    exact accounts_released _ r req _ _ _
  | retry hg =>
    rw [hin (by rw [hg]; rfl)]
    exact accounts_stay (.rollingBack _ _ _ _) rfl rfl rfl
  | close hg hs =>
    rw [hin (by rw [hg]; rfl)]
    rcases hs with rfl | ⟨j, -, rfl⟩
    · exact accounts_released _ r req _ _ _
    · exact accounts_released _ r req _ _ _

/-- The free permits of a class and those of the requests inside. -/
def State.total (u : Unicode) (s : State K P D E) (c : Cost) : Nat :=
  s.permits c + tally (fun req ↦ req.inside u c) s.requests

/-- No permit is lost or made up. -/
theorem total_of_step {a : Act K P D E} (h : step u s a = some s') (c : Cost) :
    s'.total u c = s.total u c := by
  rcases step_cases h with ⟨run, rfl, -, rfl⟩ | ⟨r, ch, req, s₁, rfl, hreq, -, -, -⟩ |
    ⟨r, how, req, s₁, rfl, hreq, hstrike, rfl⟩ | ⟨j, job, job', -, -, -, rfl⟩ |
    ⟨pool, -, rfl⟩ | ⟨cache, rfl, rfl⟩
  · simp [State.total, Request.inside, Stage.timed, Stage.task?]
  · obtain ⟨req', s₂, hreq', hres, rfl⟩ := resume_eq_of_step h
    obtain rfl := Option.some.inj (hreq.symm.trans hreq')
    obtain ⟨new, hreqs, -, hpermits⟩ := accounts_resume hres
    have hsum := tally_set (w := fun req ↦ req.inside u c) hreq new
    have hheld := hpermits c
    simp only [State.total, hreqs]
    omega
  · obtain ⟨struck, pool, rfl, -⟩ := strike_spec hstrike
    have hsum : tally (fun req ↦ req.inside u c)
        (s.requests.set r { req.hit how with struck := struck }) + req.inside u c =
        tally (fun req ↦ req.inside u c) s.requests + req.inside u c := tally_set hreq _
    exact congrArg (s.permits c + ·) (Nat.add_right_cancel hsum)
  · rfl
  · rfl
  · rfl

end Permits

section Statements

/-- Every statement that a thread executes or may still take is awaited by its request. -/
def FetchInv (s : State K P D E) : Prop :=
  ∀ (j : Nat) (job : Job), s.jobs[j]? = some job → job.active = true → job.kind = .fetchAll →
    ∃ req, s.requests[job.owner]? = some req ∧ req.stage.fetch? = some j

/-- The invariant while request `r` is set aside, which awaits none of these statements. -/
def FetchInv.Rest (s : State K P D E) (r : Nat) : Prop :=
  ∀ (j : Nat) (job : Job), s.jobs[j]? = some job → job.active = true → job.kind = .fetchAll →
    job.owner ≠ r ∧ ∃ req, s.requests[job.owner]? = some req ∧ req.stage.fetch? = some j

namespace FetchInv

/-- A request that awaits no statement in the executor is set aside. -/
theorem rest (h : FetchInv s) {r : Nat} {req : Request P} (hreq : s.requests[r]? = some req)
    (hover : ∀ j ∈ req.stage.fetch?, ∀ job ∈ s.jobs[j]?, job.active = false) : Rest s r := by
  intro j job hj hactive hkind
  obtain ⟨req', hreq', hfetch⟩ := h j job hj hactive hkind
  refine ⟨?_, req', hreq', hfetch⟩
  intro hr
  rw [hr, hreq] at hreq'
  obtain rfl := Option.some.inj hreq'
  rw [hover j hfetch job hj] at hactive
  cases hactive

/-- The invariant is about the jobs and the requests. -/
theorem congr (h : FetchInv s) (hjobs : s'.jobs = s.jobs) (hreqs : s'.requests = s.requests) :
    FetchInv s' := by
  unfold FetchInv
  rw [hjobs, hreqs]
  exact h

/-- The invariant with a request set aside is about the jobs and the requests. -/
theorem Rest.congr {r : Nat} (h : Rest s r) (hjobs : s'.jobs = s.jobs)
    (hreqs : s'.requests = s.requests) : Rest s' r := by
  unfold Rest
  rw [hjobs, hreqs]
  exact h

/-- The request comes back without a new statement. -/
theorem Rest.back {r : Nat} {req' : Request P} (h : Rest s r)
    (hreqs : s'.requests = s.requests.set r req')
    (hjobs : s'.jobs = s.jobs ∨ ∃ kind c, kind ≠ .fetchAll ∧
      s'.jobs = s.jobs ++ [⟨r, kind, c, .queued, none⟩]) : FetchInv s' := by
  have hold (j : Nat) (job : Job) (hj : s.jobs[j]? = some job) (hactive : job.active = true)
      (hkind : job.kind = .fetchAll) :
      ∃ req, s'.requests[job.owner]? = some req ∧ req.stage.fetch? = some j := by
    obtain ⟨hne, req, hreq, hfetch⟩ := h j job hj hactive hkind
    refine ⟨req, ?_, hfetch⟩
    rw [hreqs, List.getElem?_set_ne (Ne.symm hne)]
    exact hreq
  intro j job hj hactive hkind
  rcases hjobs with hjobs | ⟨kind, c, hne, hjobs⟩
  · rw [hjobs] at hj
    exact hold j job hj hactive hkind
  · rw [hjobs] at hj
    rcases getElem?_append_singleton hj with hj | ⟨-, rfl⟩
    · exact hold j job hj hactive hkind
    · exact absurd hkind hne

/-- The request comes back with a statement of its own. -/
theorem Rest.fetch {r t : Nat} {req : Request P} {c : Addr} (h : Rest s r)
    (hr : r < s.requests.length) :
    FetchInv ((s.submit r .fetchAll c).put r req (.fetching t c s.jobs.length)) := by
  intro j job hj hactive hkind
  rcases getElem?_append_singleton hj with hj | ⟨rfl, rfl⟩
  · obtain ⟨hne, req', hreq', hfetch⟩ := h j job hj hactive hkind
    exact ⟨req', (List.getElem?_set_ne (Ne.symm hne)).trans hreq', hfetch⟩
  · exact ⟨_, List.getElem?_set_self hr, rfl⟩

/-- Jobs that change their state, and do not become active again, stay awaited. -/
theorem of_jobs (h : FetchInv s) {jobs : List Job}
    (hjobs : ∀ (j : Nat) (job' : Job), jobs[j]? = some job' → ∃ job, s.jobs[j]? = some job ∧
      job'.owner = job.owner ∧ job'.kind = job.kind ∧
      (job'.active = true → job.active = true)) : FetchInv { s with jobs := jobs } := by
  intro j job' hj hactive hkind
  obtain ⟨job, hjob, howner, hsame, hact⟩ := hjobs j job' hj
  rw [howner]
  exact h j job hjob (hact hactive) (hsame ▸ hkind)

/-- Dropping a job cancels it at most. -/
theorem dropJob (h : FetchInv s) (j : Nat) : FetchInv (s.dropJob j) := by
  refine h.of_jobs fun i job' hi ↦ ?_
  obtain ⟨job, hjob, rfl | ⟨-, rfl⟩⟩ := getElem?_dropJob hi
  · exact ⟨job', hjob, rfl, rfl, id⟩
  · exact ⟨job, hjob, rfl, rfl, by simp [Job.active]⟩

variable [DecidableEq K]

/-- The request leaves. -/
theorem Rest.leave {r : Nat} (h : Rest s r) (req : Request P) (outcome : Option Failure) :
    FetchInv (s.leave u r req outcome) := by
  obtain ⟨stage, -, -, hjobs, hreqs⟩ := s.leave_spec (u := u) r req outcome
  exact h.back hreqs (.inl hjobs)

/-- The request goes on behind `acquire`. -/
theorem Rest.acquired {r : Nat} (h : Rest s r) (req : Request P) (t : Nat)
    (hr : r < s.requests.length) : FetchInv (s.acquired u r req t) := by
  rcases s.acquired_cases (u := u) r req t with ⟨c, -, heq⟩ | ⟨failure, heq⟩ | heq
  · rw [heq]
    exact h.fetch hr
  · rw [heq]
    exact h.leave req _
  · rw [heq]
    exact h.back rfl (.inl rfl)

/-- The request goes on behind `release`. -/
theorem Rest.released {r : Nat} (h : Rest s r) (req : Request P) (t : Nat) (c : Addr)
    (outcome : Option Failure) : FetchInv (s.released u r req t c outcome) := by
  rcases s.released_cases (u := u) r req t c outcome with ⟨o, -, heq⟩ | ⟨d, -, heq⟩ | heq
  · rw [heq]
    exact h.leave req o
  · rw [heq]
    exact h.back rfl (.inr ⟨.disconnect, d, by simp, rfl⟩)
  · rw [heq]
    exact h.back rfl (.inl rfl)

/-- A turn of a request keeps the invariant, if no statement is dropped that a thread executes. -/
theorem turn (h : FetchInv s) {r : Nat} {req : Request P} {ch : Choice}
    (ht : Turn u s r req ch s') (hreq : s.requests[r]? = some req)
    (hok : SparesStatement s (.resume r ch : Act K P D E)) : FetchInv s' := by
  have hr : r < s.requests.length := (List.getElem?_eq_some_iff.mp hreq).1
  have hnone (hstage : req.stage.fetch? = none) : Rest s r := by
    apply h.rest hreq
    intro j hj
    rw [hstage] at hj
    cases hj
  have hover {j : Nat} (hj : ∀ i ∈ req.stage.fetch?, i = j)
      (hstate : s.jobState? j = some .returned ∨ ∃ exc, s.jobState? j = some (.raised exc)) :
      Rest s r := by
    apply h.rest hreq
    intro i hi job hjob
    obtain rfl := hj i hi
    simp only [State.jobState?, Option.mem_def.mp hjob, Option.map_some,
      Option.some.injEq] at hstate
    rcases hstate with hstate | ⟨exc, hstate⟩
    · simp [Job.active, hstate]
    · simp [Job.active, hstate]
  have hawaited {j : Nat} {c : Addr} (hj : req.stage.Awaits j c) :
      ∀ i ∈ req.stage.fetch?, i = j := by
    intro i hi
    obtain ⟨hj, -⟩ := hj
    cases hg : req.stage with
    | fetching t d k =>
      rw [hg] at hi hj
      exact (Option.some.inj hi).symm.trans (Option.some.inj hj)
    | _ =>
      rw [hg] at hi
      cases hi
  cases ht with
  | refused hg | interrupt hg | flush hg | flushed hg =>
    exact (hnone (by rw [hg]; rfl)).back rfl (.inl rfl)
  | enter hg | acquire hg =>
    have hrest := hnone (by rw [hg]; rfl)
    apply Rest.acquired
    · exact hrest.congr rfl rfl
    · exact hr
  | @drop t j c p' ch' ht hj hk =>
    have hrest : Rest (s.dropJob j) r := by
      apply (h.dropJob j).rest hreq
      intro i hi job hjob
      obtain rfl := hawaited hj i hi
      have hspared := hok req (by rw [hreq]; rfl) hk i hi
      simp only [State.dropJob, List.getElem?_modify, if_pos, Option.map_eq_map,
        Option.mem_def, Option.map_eq_some_iff] at hjob
      obtain ⟨job₀, hjob₀, rfl⟩ := hjob
      rw [State.jobState?, hjob₀, Option.map_some, ne_eq, Option.some.injEq] at hspared
      split
      · rfl
      · next hq => simp [Job.active, hq, hspared]
    apply Rest.released
    exact hrest.congr rfl rfl
  | @retry t j c exc hg hk hj =>
    have hrest := hover (hawaited (c := c) (by rw [hg]; exact ⟨rfl, rfl⟩)) (.inr ⟨exc, hj⟩)
    exact hrest.back rfl (.inr ⟨.rollback, c, by simp, rfl⟩)
  | @release t j c outcome p' ch' ht hj hk hstate =>
    have hrest := hover (hawaited hj) hstate
    apply Rest.released
    exact hrest.congr rfl rfl
  | @close s₁ t c close outcome p' ch' hg hs =>
    have hrest := hnone (by rw [hg]; rfl)
    rcases hs with rfl | ⟨j, -, rfl⟩
    · apply Rest.released
      exact hrest.congr rfl rfl
    · have hdrop : Rest (s.dropJob j) r := by
        apply (h.dropJob j).rest hreq
        intro i hi
        rw [hg] at hi
        cases hi
      apply Rest.released
      exact hdrop.congr rfl rfl

/-- No step breaks the invariant, if no statement is dropped that a thread executes. -/
theorem step (h : FetchInv s) {a : Act K P D E} (hok : SparesStatement s a)
    (hstep : Execution.step u s a = some s') : FetchInv s' := by
  rcases step_cases hstep with ⟨run, rfl, -, rfl⟩ | ⟨r, ch, req, s₁, rfl, hreq, -, ht, rfl⟩ |
    ⟨r, how, req, s₁, rfl, hreq, hstrike, rfl⟩ | ⟨j, job, job', -, hj, hadv, rfl⟩ |
    ⟨pool, -, rfl⟩ | ⟨cache, rfl, rfl⟩
  · intro j job hj hactive hkind
    obtain ⟨req, hreq, hfetch⟩ := h j job hj hactive hkind
    have hlt := (List.getElem?_eq_some_iff.mp hreq).1
    exact ⟨req, (List.getElem?_append_left hlt).trans hreq, hfetch⟩
  · exact (h.turn ht hreq hok).congr rfl rfl
  · obtain ⟨struck, pool, rfl, -⟩ := strike_spec hstrike
    intro j job hj hactive hkind
    obtain ⟨req', hreq', hfetch⟩ := h j job hj hactive hkind
    by_cases hr : r = job.owner
    · subst hr
      obtain rfl := Option.some.inj (hreq.symm.trans hreq')
      exact ⟨_, getElem?_set_of_some hreq _, hfetch⟩
    · exact ⟨req', (List.getElem?_set_ne hr).trans hreq', hfetch⟩
  · refine h.of_jobs fun i job'' hi ↦ ?_
    rcases getElem?_set_cases hi with ⟨rfl, rfl⟩ | ⟨-, hi⟩
    · obtain ⟨howner, hkind, -, hactive⟩ := JobInv.advance_frame hadv
      exact ⟨job, hj, howner, hkind, hactive⟩
    · exact ⟨job'', hi, rfl, rfl, id⟩
  · exact h
  · exact h

end FetchInv

end Statements

section Main

/-- Statements that are awaited are no more than the requests inside. -/
theorem FetchInv.executing_le (h : FetchInv s) (c : Cost) :
    s.executing u c ≤ tally (fun req ↦ req.inside u c) s.requests := by
  have hstatement {job : Job} (hpos : 0 < if s.executes u c job = true then 1 else 0) :
      job.active = true ∧ job.kind = .fetchAll ∧
        ∃ req, s.requests[job.owner]? = some req ∧ classifyCost u req.run.sql = c := by
    split at hpos
    · next hexecutes =>
      simp only [State.executes, Bool.and_eq_true, beq_iff_eq, Option.any_eq_true] at hexecutes
      obtain ⟨⟨hstate, hkind⟩, req, hreq, hcost⟩ := hexecutes
      exact ⟨by simp [Job.active, hstate], hkind, req, hreq, hcost⟩
    · cases hpos
  rw [State.executing, countP_eq_tally]
  apply tally_le_of_injective fun j ↦ ((s.jobs[j]?).map Job.owner).getD 0
  · intro j job hj hpos
    obtain ⟨hactive, hkind, req, hreq, hcost⟩ := hstatement hpos
    obtain ⟨req', hreq', hfetch⟩ := h j job hj hactive hkind
    obtain rfl := Option.some.inj (hreq.symm.trans hreq')
    refine ⟨req, ?_, ?_⟩
    · rw [hj]
      exact hreq
    · have htimed : req.stage.timed = true := by
        cases hg : req.stage with
        | fetching => rfl
        | _ =>
          rw [hg] at hfetch
          cases hfetch
      have hin : req.inside u c = 1 := if_pos ⟨htimed, hcost⟩
      rw [hin]
      split
      · exact Nat.le_refl _
      · exact Nat.zero_le _
  · intro i j a b hi hj ha hb howner
    obtain ⟨hactive, hkind, -⟩ := hstatement ha
    obtain ⟨hactive', hkind', -⟩ := hstatement hb
    obtain ⟨req, hreq, hfetch⟩ := h i a hi hactive hkind
    obtain ⟨req', hreq', hfetch'⟩ := h j b hj hactive' hkind'
    simp only [hi, hj, Option.map_some, Option.getD_some] at howner
    rw [howner] at hreq
    obtain rfl := Option.some.inj (hreq.symm.trans hreq')
    exact Option.some.inj (hfetch.symm.trans hfetch')

variable [DecidableEq K] {minConn maxConn : Nat} {permits : Cost → Nat}
  {cache : QueryCacheCoordinator K Text D E}

/-- As long as no strike takes effect in a request while a thread executes its statement, every
class keeps to its permits. -/
theorem statements_bounded
    (h : (system u minConn maxConn permits cache).Reach SparesStatement s) :
    s.Bounded u permits := by
  have hfetch : FetchInv s := by
    refine h.invariant ?_ fun s a s' hs hok hstep ↦ hs.step hok hstep
    intro j job hj
    cases hj
  have htotal : ∀ c, s.total u c = permits c := by
    refine h.invariant (P := fun s ↦ ∀ c, s.total u c = permits c) (fun c ↦ rfl) ?_
    intro s a s' hs _ hstep c
    rw [total_of_step hstep c]
    exact hs c
  intro c
  have hle := hfetch.executing_le (u := u) c
  have hsum := htotal c
  unfold State.total at hsum
  omega

end Main

instance (s : State K P D E) (a : Act K P D E) : Decidable (SparesStatement s a) :=
  match a with
  | .resume r _ => inferInstanceAs (Decidable (∀ req ∈ s.requests[r]?, req.struck = true →
      ∀ j ∈ req.stage.fetch?, s.jobState? j ≠ some .running))
  | .call _ | .strike _ _ | .timer _ | .start _ | .commit _ | .finish _ _ | .metrics
  | .others _ => isTrue trivial

private def selectTwo : Run Nat := ⟨⟨true, true⟩, "SELECT 2".toList, 0, "read".toList⟩

private def oneAtATime : System (State Nat Nat Nat Nat) (Act Nat Nat Nat Nat) :=
  system .basic 2 2 (fun _ ↦ 1) (.new 1 3600 Nat.one_pos)

/-- A query that times out gives its permit back although a thread goes on with its statement, and
the next query of its class is executed beside it. -/
theorem timedOutStatement_exceeds : ∃ s, oneAtATime.Reachable s ∧
    s.executing .basic (classifyCost .basic selectTwo.sql) = 2 ∧
    ¬ s.Bounded .basic fun _ ↦ 1 := by
  obtain ⟨s, hreach, hs⟩ := System.exists_of_exec oneAtATime (fun _ _ ↦ True)
    [.call selectTwo, .resume 0 { addr := 10 }, .resume 0 { addr := 11 }, .start 0,
      .strike 0 .timeout, .resume 0 { addr := 12 }, .call selectTwo, .resume 1 { addr := 13 },
      .start 1]
    (fun s ↦ s.executing .basic (classifyCost .basic selectTwo.sql) == 2) (by decide +kernel)
  rw [beq_iff_eq] at hs
  refine ⟨s, hreach, hs, fun hbounded ↦ ?_⟩
  have hle : s.executing .basic (classifyCost .basic selectTwo.sql) ≤ 1 := hbounded _
  omega

/-- A query that times out before a thread has taken its statement makes room for the next. -/
theorem statements_bounded_queued : ∃ s, oneAtATime.Reach SparesStatement s ∧
    s.executing .basic (classifyCost .basic selectTwo.sql) = 1 ∧ s.Bounded .basic fun _ ↦ 1 := by
  obtain ⟨s, hreach, hs⟩ := System.exists_of_exec oneAtATime SparesStatement
    [.call selectTwo, .resume 0 { addr := 10 }, .resume 0 { addr := 11 },
      .strike 0 .timeout, .resume 0 { addr := 12 }, .call selectTwo, .resume 1 { addr := 13 },
      .start 1]
    (fun s ↦ s.executing .basic (classifyCost .basic selectTwo.sql) == 1) (by decide +kernel)
  rw [beq_iff_eq] at hs
  exact ⟨s, hreach, hs, statements_bounded hreach⟩

end SalesData.Execution

import SalesData.Execution.Session
import SalesData.Pool.Guarantees

/-!
# Requests and their tasks in the pool

Wherever a request is suspended, the pool has done for it what its stage says: it holds its
connection while it works on it, and is on its way back once it has begun to release it
(`core/db/session.py:412–474`).
-/

namespace SalesData.Execution

open Base Sql
open Pool (Addr)
open Pool.Async (Choice PC)
open Service (Run)

/-- What the pool has done for a request at this stage. -/
def Stage.Fits : Stage → PC → Prop
  | fetching _ c _, pc | rollingBack _ c _ _, pc => pc = .holding c
  | releasing _ _ _ _, pc => pc.returning = true
  | _, _ => True

/-- Every request inside the session has a task of its own in the pool, which fits its stage. -/
structure Seated {K P D E : Type} (s : State K P D E) : Prop where
  unique : ∀ (r r' : Nat) (req req' : Request P) (t : Nat), s.requests[r]? = some req →
    s.requests[r']? = some req' → req.stage.task? = some t → req'.stage.task? = some t → r = r'
  seat : ∀ (r : Nat) (req : Request P) (t : Nat), s.requests[r]? = some req →
    req.stage.task? = some t → ∃ task, s.pool.tasks[t]? = some task ∧ req.stage.Fits task.pc

variable {K P D E : Type} {u : Unicode} {s s' : State K P D E}

section Fits

variable [DecidableEq K]

/-- Behind `acquire` the request's stage fits the state of its task. -/
theorem acquired_fits (s : State K P D E) (r : Nat) (req : Request P) (t : Nat) :
    ∃ req', (s.acquired u r req t).requests = s.requests.set r req' ∧
      ∀ v, req'.stage.task? = some v → v = t ∧ ∀ pc, s.pc? t = some pc → req'.stage.Fits pc := by
  rcases s.acquired_cases (u := u) r req t with ⟨c, hc, heq⟩ | ⟨failure, heq⟩ | heq
  · refine ⟨{ req with stage := .fetching t c s.jobs.length, struck := false }, ?_, fun v hv ↦ ?_⟩
    · rw [heq]
      rfl
    · exact ⟨(Option.some.inj hv).symm, fun pc hpc ↦ Option.some.inj (hpc.symm.trans hc)⟩
  · obtain ⟨stage, hstage, -, -, hreqs⟩ := s.leave_spec (u := u) r req (some failure)
    refine ⟨_, by rw [heq]; exact hreqs, fun v hv ↦ ?_⟩
    rw [show stage.task? = some v from hv] at hstage
    cases hstage
  · refine ⟨{ req with stage := .acquiring t, struck := false }, ?_, fun v hv ↦ ?_⟩
    · rw [heq]
      rfl
    · exact ⟨(Option.some.inj hv).symm, fun pc _ ↦ trivial⟩

/-- Behind `release` the request's stage fits the state of its task, which was on its way. -/
theorem released_fits (s : State K P D E) (r : Nat) (req : Request P) (t : Nat) (c : Addr)
    (outcome : Option Failure)
    (hpc : ∀ pc, s.pc? t = some pc → pc.returning = true ∨ ∃ o, pc = .ended o) :
    ∃ req', (s.released u r req t c outcome).requests = s.requests.set r req' ∧
      ∀ v, req'.stage.task? = some v → v = t ∧ ∀ pc, s.pc? t = some pc → req'.stage.Fits pc := by
  have hleave (o : Option Failure) : ∃ req',
      (s.leave u r req o).requests = s.requests.set r req' ∧ req'.stage.task? = none := by
    obtain ⟨stage, hstage, -, -, hreqs⟩ := s.leave_spec (u := u) r req o
    exact ⟨_, hreqs, hstage⟩
  have hgone {req' : Request P} (h : req'.stage.task? = none) (v : Nat)
      (hv : req'.stage.task? = some v) : v = t ∧ ∀ pc, s.pc? t = some pc → req'.stage.Fits pc := by
    rw [h] at hv
    cases hv
  unfold State.released
  split
  · obtain ⟨req', hreqs, hnone⟩ := hleave outcome
    exact ⟨req', hreqs, hgone hnone⟩
  · next failure _ =>
    obtain ⟨req', hreqs, hnone⟩ := hleave (some (.ofPool failure))
    exact ⟨req', hreqs, hgone hnone⟩
  · next d hd =>
    refine ⟨_, rfl, fun v hv ↦ ⟨(Option.some.inj hv).symm, fun pc h ↦ ?_⟩⟩
    obtain rfl := Option.some.inj (h.symm.trans hd)
    rfl
  · next hnone hsome hclosing =>
    refine ⟨_, rfl, fun v hv ↦ ⟨(Option.some.inj hv).symm, fun pc h ↦ ?_⟩⟩
    rcases hpc pc h with hret | ⟨o, rfl⟩
    · exact hret
    · cases o with
      | none => exact absurd h hnone
      | some failure => exact absurd h (hsome failure)

end Fits

namespace Seated

/-- The invariant is about the pool's tasks and the requests. -/
theorem congr (h : Seated s) (hpool : s'.pool.tasks = s.pool.tasks)
    (hreqs : s'.requests = s.requests) : Seated s' := by
  constructor
  · rw [hreqs]
    exact h.unique
  · rw [hpool, hreqs]
    exact h.seat

/-- Only request `r` and its task change, which may be a new one. -/
theorem move (h : Seated s) {r : Nat} {req req' : Request P} (hreq : s.requests[r]? = some req)
    (hreqs : s'.requests = s.requests.set r req')
    (hrest : ∀ v, req.stage.task? ≠ some v → v < s.pool.tasks.length →
      s'.pool.tasks[v]? = s.pool.tasks[v]?)
    (hown : ∀ v, req'.stage.task? = some v →
      (req.stage.task? = some v ∨ s.pool.tasks.length ≤ v) ∧
        ∃ task, s'.pool.tasks[v]? = some task ∧ req'.stage.Fits task.pc) : Seated s' := by
  -- A task of another request is an old one, and not that of `r`.
  have hother {i v : Nat} {q : Request P} (hi : i ≠ r) (hq : s.requests[i]? = some q)
      (hv : q.stage.task? = some v) : req.stage.task? ≠ some v ∧ v < s.pool.tasks.length := by
    refine ⟨fun ht ↦ hi (h.unique i r q req v hq hreq hv ht), ?_⟩
    obtain ⟨task, htask, -⟩ := h.seat i q v hq hv
    exact (List.getElem?_eq_some_iff.mp htask).1
  have happart {i v : Nat} {q : Request P} (hi : i ≠ r) (hq : s.requests[i]? = some q)
      (hv : q.stage.task? = some v) (hv' : req'.stage.task? = some v) : False := by
    obtain ⟨hne, hlt⟩ := hother hi hq hv
    rcases (hown v hv').1 with hsame | hnew
    · exact hne hsame
    · omega
  constructor
  · intro i i' q q' v hi hi' hv hv'
    rw [hreqs] at hi hi'
    rcases getElem?_set_cases hi with ⟨rfl, rfl⟩ | ⟨hir, hold⟩
    · rcases getElem?_set_cases hi' with ⟨rfl, rfl⟩ | ⟨hir', hold'⟩
      · rfl
      · exact (happart hir' hold' hv' hv).elim
    · rcases getElem?_set_cases hi' with ⟨rfl, rfl⟩ | ⟨-, hold'⟩
      · exact (happart hir hold hv hv').elim
      · exact h.unique i i' q q' v hold hold' hv hv'
  · intro i q v hi hv
    rw [hreqs] at hi
    rcases getElem?_set_cases hi with ⟨rfl, rfl⟩ | ⟨hir, hi⟩
    · exact (hown v hv).2
    · obtain ⟨hne, hlt⟩ := hother hir hi hv
      rw [hrest v hne hlt]
      exact h.seat i q v hi hv

/-- The request leaves the session, or stays outside. -/
theorem out (h : Seated s) {r : Nat} {req : Request P} (hreq : s.requests[r]? = some req)
    {req' : Request P} (hout : req'.stage.task? = none) :
    Seated { s with requests := s.requests.set r req' } := by
  refine h.move hreq rfl (fun _ _ _ ↦ rfl) fun v hv ↦ ?_
  rw [hout] at hv
  cases hv

/-- The request's task takes a turn, and the request goes on according to it. -/
theorem turn (h : Seated s) {r t : Nat} {req req' : Request P} {ch : Choice}
    {p' : Pool.Async.State} (hreq : s.requests[r]? = some req) (ht : req.stage.task? = some t)
    (hp : Pool.Async.step s.pool (.resume t ch) = some p') (hpool : s'.pool = p')
    (hreqs : s'.requests = s.requests.set r req')
    (hfits : ∀ v, req'.stage.task? = some v → v = t ∧
      ∀ pc, (p'.tasks[t]?).map (·.pc) = some pc → req'.stage.Fits pc) : Seated s' := by
  obtain ⟨task, p, pc', htask, -, -, rfl⟩ := Pool.Async.step_resume hp
  refine h.move hreq hreqs (fun v hv _ ↦ ?_) fun v hv ↦ ?_
  · rw [hpool]
    refine List.getElem?_set_ne fun he ↦ hv ?_
    rw [ht, he]
  · obtain ⟨rfl, hfit⟩ := hfits v hv
    have hself := getElem?_set_of_some htask ⟨pc', false, false⟩
    rw [hpool]
    exact ⟨.inl ht, _, hself, hfit pc' (by rw [hself]; rfl)⟩

end Seated

variable [DecidableEq K]

/-- A task that was on its way back is so after its turn, or has ended. -/
theorem returning_of_resume {p p' : Pool.Async.State} {t : Nat} {ch : Choice}
    {task : Pool.Async.Task} {pc : PC} (hp : Pool.Async.step p (.resume t ch) = some p')
    (ht : p.tasks[t]? = some task) (hret : task.pc.returning = true)
    (hpc : (p'.tasks[t]?).map (·.pc) = some pc) :
    pc.returning = true ∨ ∃ o, pc = .ended o ∧ (task.cancelled = false → o = none) := by
  obtain ⟨task', p'', pc', ht', -, hrun, rfl⟩ := Pool.Async.step_resume hp
  obtain rfl := Option.some.inj (ht.symm.trans ht')
  rw [getElem?_set_of_some ht] at hpc
  obtain rfl := Option.some.inj hpc
  exact Pool.Async.AsyncPool.run_returning hrun hret

/-- A request in the session is at a stage whose task is on its way back, or becomes so. -/
theorem Stage.Fits.returning {stage : Stage} {pc : PC} (h : stage.Fits pc)
    (hs : stage.session? ≠ none) : pc.returning = true := by
  cases stage with
  | fetching t c j | rollingBack t c j exc =>
    rw [show pc = .holding c from h]
    rfl
  | releasing t c close outcome => exact h
  | _ => exact absurd rfl hs

namespace Seated

/-- A request gives its connection back, or goes on doing so. -/
theorem released (h : Seated s) {r t : Nat} {req : Request P} {c : Addr} {ch : Choice}
    {outcome : Option Failure} {p' : Pool.Async.State} (hreq : s.requests[r]? = some req)
    (ht : req.stage.task? = some t) (hs : req.stage.session? ≠ none)
    (hp : Pool.Async.step s.pool (.resume t ch) = some p') :
    Seated (State.released u { s with pool := p' } r req t c outcome) := by
  obtain ⟨task, htask, hfit⟩ := h.seat r req t hreq ht
  have hret := hfit.returning hs
  obtain ⟨req', hreqs, hfits⟩ := released_fits (u := u) { s with pool := p' } r req t c outcome
    fun pc hpc ↦ (returning_of_resume hp htask hret hpc).imp id fun hended ↦
      hended.imp fun _ ho ↦ ho.1
  exact h.turn hreq ht hp (State.released_pool _ _ _ _ _ _) hreqs hfits

/-- A turn of a request keeps every request in its seat. -/
theorem resume (h : Seated s) {r : Nat} {req : Request P} {ch : Choice}
    (ht : Turn u s r req ch s') (hreq : s.requests[r]? = some req) : Seated s' := by
  cases ht with
  | refused hg hk | interrupt hg hk | flush hg hk hlt | flushed hg hk hle => exact h.out hreq rfl
  | @enter p p' ch' hg hk hcall hp hch' permits =>
    obtain ⟨-, rfl⟩ := Pool.Async.step_call hcall
    obtain ⟨task, p, pc', htask, -, -, rfl⟩ := Pool.Async.step_resume hp
    obtain ⟨req', hreqs, hfits⟩ := acquired_fits (u := u)
      { s with
        pool := ⟨p, List.set _ s.pool.tasks.length ⟨pc', false, false⟩⟩
        permits := permits } r req s.pool.tasks.length
    have hself := getElem?_set_of_some htask ⟨pc', false, false⟩
    refine h.move hreq hreqs (fun v _ hlt ↦ ?_) fun v hv ↦ ?_
    · rw [State.acquired_pool]
      exact (List.getElem?_set_ne (Nat.ne_of_gt hlt)).trans (List.getElem?_append_left hlt)
    · obtain ⟨rfl, hfit⟩ := hfits v hv
      rw [State.acquired_pool]
      refine ⟨.inr (Nat.le_refl _), _, hself, hfit pc' ?_⟩
      exact congrArg (Option.map fun task ↦ Pool.Async.Task.pc task) hself
  | @acquire t p' ch' hg hp hch' =>
    obtain ⟨req', hreqs, hfits⟩ := acquired_fits (u := u) { s with pool := p' } r req t
    exact h.turn hreq (by rw [hg]; rfl) hp (State.acquired_pool _ _ _ _) hreqs hfits
  | @drop t j c p' ch' ht hj hk hp hch' =>
    have hdrop : Seated (s.dropJob j) := h.congr rfl rfl
    exact hdrop.released hreq ht (by rw [hj.2]; simp) hp
  | @retry t j c exc hg hk hj =>
    refine h.move hreq rfl (fun _ _ _ ↦ rfl) fun v hv ↦ ?_
    obtain rfl := Option.some.inj hv
    have htask : req.stage.task? = some t := by rw [hg]; rfl
    obtain ⟨task, hseat, hfit⟩ := h.seat r req t hreq htask
    rw [hg] at hfit
    exact ⟨.inl htask, task, hseat, hfit⟩
  | @release t j c outcome p' ch' ht hj hk hover ho hp hch' =>
    exact h.released hreq ht (by rw [hj.2]; simp) hp
  | @close s₁ t c close outcome p' ch' hg hs hp hch' =>
    have htask : req.stage.task? = some t := by rw [hg]; rfl
    have hsession : req.stage.session? ≠ none := by simp [hg, Stage.session?]
    rcases hs with rfl | ⟨j, -, rfl⟩
    · exact h.released hreq htask hsession hp
    · have hdrop : Seated (s.dropJob j) := h.congr rfl rfl
      exact hdrop.released hreq htask hsession hp

/-- No step takes a request out of its seat. -/
theorem step (h : Seated s) {a : Act K P D E} (hstep : Execution.step u s a = some s') :
    Seated s' := by
  rcases step_cases hstep with ⟨run, rfl, -, rfl⟩ | ⟨r, ch, req, s₁, rfl, hreq, hch, ht, rfl⟩ |
    ⟨r, how, req, s₁, rfl, hreq, hstrike, rfl⟩ | ⟨j, job, job', -, hj, hadv, rfl⟩ |
    ⟨pool, hpool, rfl⟩ | ⟨cache, rfl, rfl⟩
  · have hold {i t : Nat} {req : Request P}
        (hi : (s.requests ++ [⟨run, .gate, false, false, false, none⟩])[i]? = some req)
        (ht : req.stage.task? = some t) : s.requests[i]? = some req := by
      rcases getElem?_append_singleton hi with hi | ⟨-, rfl⟩
      · exact hi
      · cases ht
    constructor
    · intro i i' q q' t hi hi' ht ht'
      exact h.unique i i' q q' t (hold hi ht) (hold hi' ht') ht ht'
    · intro i q t hi ht
      exact h.seat i q t (hold hi ht) ht
  · exact (h.resume ht hreq).congr rfl rfl
  · obtain ⟨struck, pool, rfl, hpool⟩ := strike_spec hstrike
    -- A cancellation changes neither the stage nor where the task is suspended.
    have htasks : ∀ (v : Nat) (task : Pool.Async.Task), s.pool.tasks[v]? = some task →
        ∃ task', pool.tasks[v]? = some task' ∧ task'.pc = task.pc := by
      intro v task hv
      rcases hpool with rfl | ⟨t, -, hp⟩
      · exact ⟨task, hv, rfl⟩
      · obtain ⟨task', ht, -, rfl⟩ := Pool.Async.step_cancel hp
        by_cases hvt : t = v
        · subst hvt
          obtain rfl := Option.some.inj (hv.symm.trans ht)
          exact ⟨_, getElem?_set_of_some ht _, rfl⟩
        · exact ⟨task, (List.getElem?_set_ne hvt).trans hv, rfl⟩
    have hold {i : Nat} {q : Request P}
        (hi : (s.requests.set r { req.hit how with struck := struck })[i]? = some q) :
        ∃ q', s.requests[i]? = some q' ∧ q'.stage = q.stage := by
      rcases getElem?_set_cases hi with ⟨rfl, rfl⟩ | ⟨-, hi⟩
      · exact ⟨req, hreq, rfl⟩
      · exact ⟨q, hi, rfl⟩
    constructor
    · intro i i' q q' t hi hi' ht ht'
      obtain ⟨q₁, hq₁, hst₁⟩ := hold hi
      obtain ⟨q₂, hq₂, hst₂⟩ := hold hi'
      exact h.unique i i' q₁ q₂ t hq₁ hq₂ (hst₁ ▸ ht) (hst₂ ▸ ht')
    · intro i q t hi ht
      obtain ⟨q', hq', hst⟩ := hold hi
      obtain ⟨task, htask, hfit⟩ := h.seat i q' t hq' (hst ▸ ht)
      obtain ⟨task', htask', hpc⟩ := htasks t task htask
      refine ⟨task', htask', ?_⟩
      rw [← hst, hpc]
      exact hfit
  · exact h.congr rfl rfl
  · rcases hpool with ⟨t, hp⟩ | hp
    · obtain ⟨start, w, cancelled, timedOut, ht, rfl⟩ := Pool.Async.step_timer hp
      constructor
      · exact h.unique
      · intro i q v hi hv
        obtain ⟨task, htask, hfit⟩ := h.seat i q v hi hv
        by_cases hvt : t = v
        · subst hvt
          obtain rfl := Option.some.inj (htask.symm.trans ht)
          exact ⟨_, getElem?_set_of_some ht _, hfit⟩
        · exact ⟨task, (List.getElem?_set_ne hvt).trans htask, hfit⟩
    · obtain rfl := Option.some.inj hp
      exact h.congr rfl rfl
  · exact h.congr rfl rfl

end Seated

/-- In every run each request is in its seat. -/
theorem seated_of_reach {minConn maxConn : Nat} {permits : Cost → Nat}
    {cache : Cache.QueryCacheCoordinator K Text D E} {ok : State K P D E → Act K P D E → Prop}
    (h : (system u minConn maxConn permits cache).Reach ok s) : Seated s :=
  h.invariant (P := Seated) ⟨by simp [system], by simp [system]⟩ fun _ _ _ hs _ hstep ↦
    hs.step hstep

end SalesData.Execution

import SalesData.Execution.Exclusive
import SalesData.Execution.Invalidated
import SalesData.Pool.Broken

/-!
# What stands behind a request's stage

A request that awaits a job has handed it to the executor itself, and one that leaves the session
without an exception does so because its statement has run (`core/db/session.py:412–474`,
`core/services/query_service.py:149–168`). A connection that was given back as a broken one does
not come back through any request.
-/

namespace SalesData.Execution

open Base Sql
open Cache (QueryCacheCoordinator Purge)
open Pool (Addr)
open Pool.Async (Choice PC OwnReleases)

variable {K P D E : Type} {u : Unicode} {s s' : State K P D E}

/-- Jobs are only added; what an old one is about stays, and what it has committed. -/
def Grows (jobs jobs' : List Job) : Prop :=
  ∀ (i : Nat) (job : Job), jobs[i]? = some job → ∃ job', jobs'[i]? = some job' ∧
    job'.owner = job.owner ∧ job'.kind = job.kind ∧ job'.conn = job.conn ∧
    (job.committed ≠ none → job'.committed ≠ none)

namespace Grows

variable {jobs jobs' jobs'' : List Job}

/-- Every list of jobs grows into itself. -/
theorem refl (jobs : List Job) : Grows jobs jobs :=
  fun _ job h ↦ ⟨job, h, rfl, rfl, rfl, id⟩

/-- Growth is transitive. -/
theorem trans (h : Grows jobs jobs') (h' : Grows jobs' jobs'') : Grows jobs jobs'' := by
  intro i job hi
  obtain ⟨job₁, hi₁, ho₁, hk₁, hc₁, hm₁⟩ := h i job hi
  obtain ⟨job₂, hi₂, ho₂, hk₂, hc₂, hm₂⟩ := h' i job₁ hi₁
  exact ⟨job₂, hi₂, ho₂.trans ho₁, hk₂.trans hk₁, hc₂.trans hc₁, fun hm ↦ hm₂ (hm₁ hm)⟩

/-- A job is added. -/
theorem append (jobs : List Job) (job : Job) : Grows jobs (jobs ++ [job]) := by
  intro i old hi
  have hlt := (List.getElem?_eq_some_iff.mp hi).1
  exact ⟨old, (List.getElem?_append_left hlt).trans hi, rfl, rfl, rfl, id⟩

/-- One job goes on. -/
theorem set {j : Nat} {job job' : Job} (hj : jobs[j]? = some job) (ho : job'.owner = job.owner)
    (hk : job'.kind = job.kind) (hc : job'.conn = job.conn)
    (hm : job.committed ≠ none → job'.committed ≠ none) : Grows jobs (jobs.set j job') := by
  intro i old hi
  by_cases hij : j = i
  · subst hij
    obtain rfl := Option.some.inj (hi.symm.trans hj)
    exact ⟨job', getElem?_set_of_some hj _, ho, hk, hc, hm⟩
  · exact ⟨old, (List.getElem?_set_ne hij).trans hi, rfl, rfl, rfl, id⟩

/-- A queued job is cancelled. -/
theorem dropJob (s : State K P D E) (j : Nat) : Grows s.jobs (s.dropJob j).jobs := by
  intro i job hi
  by_cases hij : j = i
  · subst hij
    by_cases hq : job.state = .queued
    · exact ⟨{ job with state := .cancelled }, by simp [State.dropJob, hi, hq], rfl, rfl, rfl, id⟩
    · exact ⟨job, by simp [State.dropJob, hi, hq], rfl, rfl, rfl, id⟩
  · exact ⟨job, by simp [State.dropJob, hij, hi], rfl, rfl, rfl, id⟩

/-- What is committed stays so. -/
theorem committed (h : Grows s.jobs s'.jobs) {r : Nat} (hc : s.Committed r) : s'.Committed r := by
  obtain ⟨job, hmem, ho, hm⟩ := hc
  obtain ⟨i, hi⟩ := List.getElem?_of_mem hmem
  obtain ⟨job', hi', ho', -, -, hm'⟩ := h i job hi
  exact ⟨job', List.mem_of_getElem? hi', ho'.trans ho, hm' hm⟩

end Grows

/-- Job `j` is a call of this kind on the connection `c` that request `r` has made. -/
def State.Submitted (s : State K P D E) (j : Nat) (r : Nat) (kind : JobKind) (c : Addr) : Prop :=
  ∃ job, s.jobs[j]? = some job ∧ job.owner = r ∧ job.kind = kind ∧ job.conn = c

/-- The job that request `r` awaits is its own, and if it leaves the session without an exception
its statement is committed. -/
def Request.Backed (s : State K P D E) (r : Nat) (req : Request P) : Prop :=
  match req.stage with
  | .fetching _ c j => s.Submitted j r .fetchAll c
  | .rollingBack _ c j _ => s.Submitted j r .rollback c
  | .releasing _ _ _ outcome => outcome = none → s.Committed r
  | .flushing _ _ _ => s.Committed r
  | .ended outcome => outcome = none → s.Committed r
  | .gate | .acquiring _ => True

/-- A job stays the call that it is. -/
theorem State.Submitted.grows {j r : Nat} {kind : JobKind} {c : Addr}
    (h : s.Submitted j r kind c) (hg : Grows s.jobs s'.jobs) : s'.Submitted j r kind c := by
  obtain ⟨job, hj, ho, hk, hc⟩ := h
  obtain ⟨job', hj', ho', hk', hc', -⟩ := hg j job hj
  exact ⟨job', hj', ho'.trans ho, hk'.trans hk, hc'.trans hc⟩

namespace Request.Backed

variable {r : Nat} {req req' : Request P}

/-- What stands behind a request stays there. -/
theorem grows (h : req.Backed s r) (hstage : req'.stage = req.stage) (hg : Grows s.jobs s'.jobs) :
    req'.Backed s' r := by
  unfold Request.Backed at h ⊢
  rw [hstage]
  cases hs : req.stage with
  | fetching t c j | rollingBack t c j exc =>
    rw [hs] at h
    exact State.Submitted.grows h hg
  | releasing t c close outcome | ended outcome =>
    rw [hs] at h
    exact fun ho ↦ hg.committed (h ho)
  | flushing since purges k =>
    rw [hs] at h
    exact hg.committed h
  | gate | acquiring t => trivial

variable [DecidableEq K]

/-- The request leaves the session. -/
theorem leave (hreq : s.requests[r]? = some req) {outcome : Option Failure}
    (h : outcome = none → s.Committed r)
    (hreq' : (s.leave u r req outcome).requests[r]? = some req') :
    req'.Backed (s.leave u r req outcome) r := by
  have hgated : req.gated outcome = none → s.Committed r := by
    intro hg
    apply h
    unfold Request.gated at hg
    split at hg
    · split at hg <;> cases hg
    · split at hg <;> cases hg
    · exact hg
  unfold State.leave at hreq' ⊢
  dsimp only at hreq' ⊢
  split at hreq'
  · next failure hf =>
    rw [State.put, getElem?_set_of_some hreq] at hreq'
    obtain rfl := Option.some.inj hreq'
    exact fun ho ↦ by cases ho
  · next hf =>
    split at hreq'
    · next hw =>
      rw [State.invalidateAfterWrite, State.put, getElem?_set_of_some hreq] at hreq'
      obtain rfl := Option.some.inj hreq'
      rw [if_pos hw]
      exact hgated hf
    · next hw =>
      rw [State.put, getElem?_set_of_some hreq] at hreq'
      obtain rfl := Option.some.inj hreq'
      rw [if_neg hw]
      exact fun _ ↦ hgated hf

/-- The request goes on behind `acquire`. -/
theorem acquired (hreq : s.requests[r]? = some req) {t : Nat}
    (hreq' : (s.acquired u r req t).requests[r]? = some req') :
    req'.Backed (s.acquired u r req t) r := by
  rcases s.acquired_cases (u := u) r req t with ⟨c, -, heq⟩ | ⟨failure, heq⟩ | heq
  · rw [heq] at hreq' ⊢
    rw [State.put, State.submit, getElem?_set_of_some hreq] at hreq'
    obtain rfl := Option.some.inj hreq'
    exact ⟨_, List.getElem?_concat_length, rfl, rfl, rfl⟩
  · rw [heq] at hreq' ⊢
    exact leave hreq (fun ho ↦ by cases ho) hreq'
  · rw [heq, State.put, getElem?_set_of_some hreq] at hreq'
    obtain rfl := Option.some.inj hreq'
    trivial

/-- The request goes on behind `release`. -/
theorem released (hreq : s.requests[r]? = some req) {t : Nat} {c : Addr}
    {outcome : Option Failure} (h : outcome = none → s.Committed r)
    (hreq' : (s.released u r req t c outcome).requests[r]? = some req') :
    req'.Backed (s.released u r req t c outcome) r := by
  rcases s.released_cases (u := u) r req t c outcome with ⟨o, ho, heq⟩ | ⟨d, -, heq⟩ | heq
  · rw [heq] at hreq' ⊢
    refine leave hreq (fun hnone ↦ ?_) hreq'
    rcases ho with rfl | hne
    · exact h hnone
    · exact absurd hnone hne
  · rw [heq] at hreq' ⊢
    rw [State.put, State.submit, getElem?_set_of_some hreq] at hreq'
    obtain rfl := Option.some.inj hreq'
    intro hnone
    exact Grows.committed (s := s) (Grows.append s.jobs _) (h hnone)
  · rw [heq] at hreq' ⊢
    rw [State.put, getElem?_set_of_some hreq] at hreq'
    obtain rfl := Option.some.inj hreq'
    exact h

end Request.Backed

variable [DecidableEq K]

/-- A turn of a request leaves it backed, if its statement is committed once its fetch has
returned. -/
theorem Turn.backed {r : Nat} {req req' : Request P} {ch : Choice} (ht : Turn u s r req ch s')
    (hreq : s.requests[r]? = some req) (hb : req.Backed s r)
    (hdone : ∀ t c j, req.stage = .fetching t c j → s.jobState? j = some .returned →
      s.Committed r)
    (hreq' : s'.requests[r]? = some req') : req'.Backed s' r := by
  cases ht with
  | refused hg hk | interrupt hg hk =>
    rw [State.put, getElem?_set_of_some hreq] at hreq'
    obtain rfl := Option.some.inj hreq'
    exact fun ho ↦ by cases ho
  | @enter p p' ch' hg hk hcall hp hch permits =>
    exact .acquired (s := { s with pool := p', permits := permits }) hreq hreq'
  | @acquire t p' ch' hg hp hch => exact .acquired (s := { s with pool := p' }) hreq hreq'
  | @drop t j c p' ch' htask hj hk hp hch =>
    exact .released (s := { s.dropJob j with pool := p' }) hreq (fun ho ↦ by cases ho) hreq'
  | retry hg hk hj =>
    rw [State.put, State.submit, getElem?_set_of_some hreq] at hreq'
    obtain rfl := Option.some.inj hreq'
    exact ⟨_, List.getElem?_concat_length, rfl, rfl, rfl⟩
  | @release t j c outcome p' ch' htask hj hk hover ho hp hch =>
    refine .released (s := { s with pool := p' }) hreq (fun hnone ↦ ?_) hreq'
    obtain ⟨hg, hret⟩ := ho.mp hnone
    exact hdone t c j hg hret
  | @close s₁ t c close outcome p' ch' hg hs hp hch =>
    rw [Request.Backed, hg] at hb
    rcases hs with rfl | ⟨j, -, rfl⟩
    · exact .released (s := { s₁ with pool := p' }) hreq hb hreq'
    · refine .released (s := { s.dropJob j with pool := p' }) hreq (fun hnone ↦ ?_) hreq'
      exact Grows.committed (s := s) (Grows.dropJob s j) (hb hnone)
  | flush hg hk hlt =>
    rw [State.put, getElem?_set_of_some hreq] at hreq'
    obtain rfl := Option.some.inj hreq'
    rw [Request.Backed, hg] at hb
    exact hb
  | flushed hg hk hle =>
    rw [State.put, getElem?_set_of_some hreq] at hreq'
    obtain rfl := Option.some.inj hreq'
    rw [Request.Backed, hg] at hb
    exact fun _ ↦ hb

/-- Of the jobs, a turn cancels a queued one at most, and it may add one. -/
theorem Turn.jobs_cases {r : Nat} {req : Request P} {ch : Choice} (h : Turn u s r req ch s') :
    ∃ jobs, (jobs = s.jobs ∨ ∃ j, jobs = (s.dropJob j).jobs) ∧
      (s'.jobs = jobs ∨ ∃ kind c, s'.jobs = jobs ++ [⟨r, kind, c, .queued, none⟩]) := by
  have hacquired (s : State K P D E) (t : Nat) : (s.acquired u r req t).jobs = s.jobs ∨
      ∃ kind c, (s.acquired u r req t).jobs = s.jobs ++ [⟨r, kind, c, .queued, none⟩] := by
    rcases s.acquired_cases (u := u) r req t with ⟨c, -, heq⟩ | ⟨failure, heq⟩ | heq
    · rw [heq]
      exact .inr ⟨_, c, rfl⟩
    · obtain ⟨-, -, -, hjobs, -⟩ := s.leave_spec (u := u) r req (some failure)
      rw [heq]
      exact .inl hjobs
    · rw [heq]
      exact .inl rfl
  have hreleased (s : State K P D E) (t : Nat) (c : Addr) (outcome : Option Failure) :
      (s.released u r req t c outcome).jobs = s.jobs ∨
        ∃ kind c', (s.released u r req t c outcome).jobs =
          s.jobs ++ [⟨r, kind, c', .queued, none⟩] := by
    rcases s.released_cases (u := u) r req t c outcome with ⟨o, -, heq⟩ | ⟨d, -, heq⟩ | heq
    · obtain ⟨-, -, -, hjobs, -⟩ := s.leave_spec (u := u) r req o
      rw [heq]
      exact .inl hjobs
    · rw [heq]
      exact .inr ⟨_, d, rfl⟩
    · rw [heq]
      exact .inl rfl
  cases h with
  | refused | interrupt | flush | flushed => exact ⟨s.jobs, .inl rfl, .inl rfl⟩
  | enter => exact ⟨s.jobs, .inl rfl, hacquired _ _⟩
  | acquire => exact ⟨s.jobs, .inl rfl, hacquired _ _⟩
  | @drop t j c => exact ⟨_, .inr ⟨j, rfl⟩, hreleased _ t c _⟩
  | @retry t j c => exact ⟨s.jobs, .inl rfl, .inr ⟨_, c, rfl⟩⟩
  | release => exact ⟨s.jobs, .inl rfl, hreleased _ _ _ _⟩
  | close hg hs =>
    rcases hs with rfl | ⟨j, -, rfl⟩
    · exact ⟨_, .inl rfl, hreleased _ _ _ _⟩
    · exact ⟨_, .inr ⟨j, rfl⟩, hreleased _ _ _ _⟩

/-- A turn lets the jobs grow. -/
theorem Turn.grows {r : Nat} {req : Request P} {ch : Choice} (h : Turn u s r req ch s') :
    Grows s.jobs s'.jobs := by
  obtain ⟨jobs, hbase, hjobs⟩ := h.jobs_cases
  have hstart : Grows s.jobs jobs := by
    rcases hbase with rfl | ⟨j, rfl⟩
    · exact .refl _
    · exact .dropJob s j
  rcases hjobs with hjobs | ⟨kind, c, hjobs⟩
  · rw [hjobs]
    exact hstart
  · rw [hjobs]
    exact hstart.trans (.append _ _)

/-- A connection that was let go of stays so, unless an object is created at its address. -/
theorem letGo_of_step {minConn maxConn : Nat}
    (hr : (Pool.Async.system minConn maxConn).Reach OwnReleases s.pool) {a : Act K P D E}
    (h : step u s a = some s') {c : Addr} (hc : ∀ r ch, a = .resume r ch → c ≠ ch.addr)
    (hgone : s.pool.LetGo c) : s'.pool.LetGo c := by
  rcases step_cases h with ⟨run, rfl, -, rfl⟩ | ⟨r, ch, req, s₁, rfl, -, -, ht, rfl⟩ |
    ⟨r, how, req, s₁, rfl, -, hstrike, rfl⟩ | ⟨j, job, job', -, -, -, rfl⟩ |
    ⟨pool, hpool, rfl⟩ | ⟨cache, rfl, rfl⟩
  · exact hgone
  · show s₁.pool.LetGo c
    rcases ht.pool_cases with hsame | ⟨t, p, ch', hp, hturn, hch⟩
    · rw [hsame]
      exact hgone
    · have hne : c ≠ ch'.addr := hch ▸ hc r ch rfl
      rcases hp with rfl | hcall
      · exact hgone.resume hr hturn hne
      · exact (hgone.call hcall).resume (reach_call hr hcall) hturn hne
  · obtain ⟨struck, pool, rfl, rfl | ⟨t, -, hp⟩⟩ := strike_spec hstrike
    · exact hgone
    · exact hgone.cancel hp
  · exact hgone
  · rcases hpool with ⟨t, hp⟩ | hp
    · exact hgone.timer hp
    · obtain rfl := Option.some.inj hp
      exact hgone
  · exact hgone

end SalesData.Execution

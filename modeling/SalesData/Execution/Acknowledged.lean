import SalesData.Execution.Backed
import SalesData.Execution.Warehouse

/-!
# Acknowledged writes are committed

`SQLiteAdapter.insert`, `update`, `delete` and `execute_many` commit behind their statement
(`core/db/adapters/sqlite.py:89–180`); `fetch_all`, by which `QueryService` runs every statement,
does not. So a write that the driver has opened a transaction for is acknowledged uncommitted, and
its connection goes back to the pool inside the transaction. What a statement that fails leaves
open is rolled back by the session, if the request is still there (`core/db/session.py:444–461`).
-/

namespace SalesData.Execution.Warehouse

open Base Sql
open Cache (QueryCacheCoordinator)
open Pool (Addr)
open Pool.Async (Choice PC OwnReleases)
open Service (Run)

variable {K P D E : Type} {u : Unicode} {explicit : Text → Bool}
  {config : DatabaseConfig} {s s' : State K P D E}

/-- The connections of the pool, idle or in use. -/
def State.pooled (s : State K P D E) : List Addr :=
  s.core.pool.pool.store.idle ++ s.core.pool.pool.store.used

/-- Every write that `run` has returned from is committed, on a database that every other pooled
connection works on. -/
def State.Acknowledged (u : Unicode) (config : DatabaseConfig) (s : State K P D E) : Prop :=
  ∀ (r : Nat) (req : Request P), s.core.requests[r]? = some req → req.IsWrite u →
    req.stage = .ended none → ∃ job ∈ s.core.jobs, job.owner = r ∧ job.committed ≠ none ∧
      ∀ c ∈ s.pooled, c = job.conn ∨ config.shared = true

/-- No connection in the pool's `_available` is inside a transaction. -/
def State.Clean (s : State K P D E) : Prop :=
  ∀ c ∈ s.core.pool.pool.store.idle, c ∉ s.inTransaction

/-- No statement leaves a transaction open, unless it fails while its request awaits it; no request
is struck while its connection is in a transaction, and no rollback of one raises. -/
def Closes (s : State K P D E) : Act K P D E → Prop
  | .core (.resume r _) => ∀ req ∈ s.core.requests[r]?, req.struck = true →
      ∀ c ∈ req.stage.session?, c ∉ s.inTransaction
  | .execute j result true => result ≠ .done ∧ ∀ job ∈ s.core.jobs[j]?,
      ∀ req ∈ s.core.requests[job.owner]?, req.stage.fetch? = some j
  | .rollback j true => ∀ job ∈ s.core.jobs[j]?, job.conn ∉ s.inTransaction
  | _ => True

/-- What is known of a job from the result of the driver's call in it. -/
structure Ran (job : Job) (result : Option Sqlite.Result) : Prop where
  returned : job.kind = .fetchAll → job.state = .returned → result = some .done
  committed : job.kind = .fetchAll → result = some .done → job.committed ≠ none
  rolledBack : job.kind = .rollback → job.state = .returned → result ≠ none
  notRaised : job.kind = .rollback → ∀ exc, job.state ≠ .raised exc

/-- Of a job that is not over, only a commit is known. -/
theorem Ran.of_unfinished {job : Job} {result : Option Sqlite.Result}
    (hret : job.state ≠ .returned) (hexc : ∀ exc, job.state ≠ .raised exc)
    (hcommitted : job.kind = .fetchAll → result = some .done → job.committed ≠ none) :
    Ran job result :=
  ⟨fun _ hs ↦ absurd hs hret, hcommitted, fun _ hs ↦ absurd hs hret, fun _ ↦ hexc⟩

/-- The request that has the connection has seen its statement fail or is about to, and its rollback
has not run yet. -/
def State.Pending (s : State K P D E) (c : Addr) : Prop :=
  ∃ (r : Nat) (req : Request P), s.core.requests[r]? = some req ∧
    ((∃ t j result, req.stage = .fetching t c j ∧ s.results j = some result ∧ result ≠ .done) ∨
      ∃ t j exc, req.stage = .rollingBack t c j exc ∧ s.results j = none)

/-- The driver's calls are known, each request is backed, and every connection in a transaction is
about to be rolled back or will not come back. -/
structure AckInv (s : State K P D E) : Prop where
  listed : ∀ (j : Nat) (result : Sqlite.Result), s.results j = some result →
    j < s.core.jobs.length
  ran : ∀ (j : Nat) (job : Job), s.core.jobs[j]? = some job → Ran job (s.results j)
  backed : ∀ (r : Nat) (req : Request P), s.core.requests[r]? = some req → req.Backed s.core r
  tracked : ∀ c ∈ s.inTransaction, s.Pending c ∨ s.core.pool.LetGo c

private theorem pending_of_requests {c : Addr} (h : s.Pending c)
    (hreqs : ∀ (r : Nat) (req : Request P), s.core.requests[r]? = some req →
      ∃ req', s'.core.requests[r]? = some req' ∧ req'.stage = req.stage)
    (hresults : s'.results = s.results) : s'.Pending c := by
  obtain ⟨r, req, hreq, hstage⟩ := h
  obtain ⟨req', hreq', hsame⟩ := hreqs r req hreq
  refine ⟨r, req', hreq', ?_⟩
  rw [hsame, hresults]
  exact hstage

section Turns

variable [DecidableEq K]

private theorem resume_of_step {s s' : Execution.State K P D E} {r : Nat} {ch : Choice}
    (h : Execution.step u s (.resume r ch) = some s') : ∃ req s₁, s.requests[r]? = some req ∧
      s.resume u r req ch = some s₁ ∧ s' = { s₁ with clock := s.clock + 1 } := by
  obtain ⟨s₁, h₁, rfl⟩ := Option.map_eq_some_iff.mp h
  simp only [Execution.State.act] at h₁
  split at h₁
  · cases h₁
  · obtain ⟨req, hreq, hres⟩ := Option.bind_eq_some_iff.mp h₁
    exact ⟨req, s₁, hreq, hres, rfl⟩

private theorem resume_fetching {s s' : Execution.State K P D E} {r t j : Nat} {req : Request P}
    {ch : Choice} {c : Addr} (h : s.resume u r req ch = some s') (hg : req.stage = .fetching t c j)
    (hk : req.struck = false) (hnot : s.jobState? j ≠ some .returned) :
    (∃ exc, s' = (s.submit r .rollback c).put r req (.rollingBack t c s.jobs.length exc)) ∨
      ∃ ch', Pool.Async.step s.pool (.resume t ch') = some s'.pool ∧ ch'.broken = true := by
  simp only [Execution.State.resume, hg, hk, Bool.false_eq_true, if_false] at h
  split at h
  · next hret => exact absurd hret hnot
  · next exc hexc =>
    split at h
    · right
      obtain ⟨s₁, h₁, rfl⟩ := Option.map_eq_some_iff.mp h
      obtain ⟨pool, hpool, rfl⟩ := Option.map_eq_some_iff.mp h₁
      rw [State.released_pool]
      exact ⟨_, hpool, rfl⟩
    · exact .inl ⟨exc, (Option.some.inj h).symm⟩
  · cases h

private theorem resume_rollingBack {s s' : Execution.State K P D E} {r t j : Nat}
    {req : Request P} {ch : Choice} {c : Addr} {exc : Exc} (h : s.resume u r req ch = some s')
    (hg : req.stage = .rollingBack t c j exc) (hk : req.struck = false) :
    s.jobState? j = some .returned ∨ ∃ exc, s.jobState? j = some (.raised exc) := by
  simp only [Execution.State.resume, hg, hk, Bool.false_eq_true, if_false] at h
  split at h
  · next hret => exact .inl hret
  · next exc' hexc => exact .inr ⟨exc', hexc⟩
  · cases h

private theorem commit_of_step {s s' : Execution.State K P D E} {j : Nat} {job : Job}
    (h : Execution.step u s (.commit j) = some s') (hj : s.jobs[j]? = some job) :
    s' = { s with
      jobs := s.jobs.set j { job with committed := some s.clock }, clock := s.clock + 1 } := by
  obtain ⟨s₁, h₁, rfl⟩ := Option.map_eq_some_iff.mp h
  obtain ⟨job₀, hj₀, h₁⟩ := Option.bind_eq_some_iff.mp h₁
  obtain rfl := Option.some.inj (hj.symm.trans hj₀)
  obtain ⟨job', hadv, rfl⟩ := Option.map_eq_some_iff.mp h₁
  simp only [Job.advance] at hadv
  split at hadv
  · obtain rfl := Option.some.inj hadv
    rfl
  · cases hadv

end Turns

namespace AckInv

/-- A step that leaves the jobs alone, and each request where it is, keeps the invariant. -/
theorem of_requests (h : AckInv s) {core : Execution.State K P D E}
    (hjobs : core.jobs = s.core.jobs)
    (hold : ∀ (r : Nat) (req : Request P), s.core.requests[r]? = some req →
      ∃ req', core.requests[r]? = some req' ∧ req'.stage = req.stage)
    (hnew : ∀ (r : Nat) (req : Request P), core.requests[r]? = some req →
      req.stage = .gate ∨ ∃ req', s.core.requests[r]? = some req' ∧ req'.stage = req.stage)
    (hletGo : ∀ c, s.core.pool.LetGo c → core.pool.LetGo c) : AckInv { s with core } where
  listed := by
    intro j result hj
    show j < core.jobs.length
    rw [hjobs]
    exact h.listed j result hj
  ran := by
    intro j job hj
    exact h.ran j job (hjobs ▸ hj)
  backed := by
    intro r req hreq
    rcases hnew r req hreq with hgate | ⟨req', hreq', hstage⟩
    · rw [Request.Backed, hgate]
      trivial
    · refine (h.backed r req' hreq').grows hstage.symm ?_
      rw [show core.jobs = s.core.jobs from hjobs]
      exact .refl _
  tracked := by
    intro c hc
    rcases h.tracked c hc with hp | hgone
    · exact .inl (pending_of_requests hp hold rfl)
    · exact .inr (hletGo c hgone)

/-- A job of the executor goes on. -/
theorem set (h : AckInv s) {j : Nat} {job job' : Job} {clock : Nat}
    (hj : s.core.jobs[j]? = some job) (ho : job'.owner = job.owner) (hk : job'.kind = job.kind)
    (hc : job'.conn = job.conn) (hm : job.committed ≠ none → job'.committed ≠ none)
    (hran : Ran job' (s.results j)) :
    AckInv { s with core := { s.core with jobs := s.core.jobs.set j job', clock := clock } } where
  listed := by
    intro i result hi
    show i < (s.core.jobs.set j job').length
    rw [List.length_set]
    exact h.listed i result hi
  ran := by
    intro i other hi
    rcases getElem?_set_cases hi with ⟨rfl, rfl⟩ | ⟨-, hi⟩
    · exact hran
    · exact h.ran i other hi
  backed := by
    intro r req hreq
    exact (h.backed r req hreq).grows rfl (.set hj ho hk hc hm)
  tracked := by
    intro c hmem
    rcases h.tracked c hmem with hp | hgone
    · exact .inl (pending_of_requests hp (fun r req hreq ↦ ⟨req, hreq, rfl⟩) rfl)
    · exact .inr hgone

private theorem pending_drive (h : AckInv s) {j : Nat} {job : Job} {result : Sqlite.Result}
    {after : Bool} {c : Addr} (hj : s.core.jobs[j]? = some job) (hnone : s.results j = none)
    (hother : c ≠ job.conn ∨ job.kind = .fetchAll) (hp : s.Pending c) :
    (s.drive j result job.conn after).Pending c := by
  obtain ⟨r, req, hreq, hstage⟩ := hp
  have hback := h.backed r req hreq
  refine ⟨r, req, hreq, ?_⟩
  rcases hstage with ⟨t, i, old, hg, hold, hne⟩ | ⟨t, i, exc, hg, hi⟩
  · refine .inl ⟨t, i, old, hg, ?_, hne⟩
    have hij : i ≠ j := by
      rintro rfl
      rw [hnone] at hold
      cases hold
    exact (Function.update_of_ne hij _ _).trans hold
  · refine .inr ⟨t, i, exc, hg, ?_⟩
    have hij : i ≠ j := by
      rintro rfl
      rw [Request.Backed, hg] at hback
      obtain ⟨job', hj', -, hkind, hconn⟩ := hback
      obtain rfl := Option.some.inj (hj.symm.trans hj')
      rcases hother with hother | hother
      · exact hother hconn.symm
      · rw [hkind] at hother
        cases hother
    exact (Function.update_of_ne hij _ _).trans hi

/-- The driver comes back from its call in job `j`. -/
theorem drive (h : AckInv s) {j : Nat} {job : Job} {result : Sqlite.Result} {after : Bool}
    (hj : s.core.jobs[j]? = some job) (hnone : s.results j = none) (hran : Ran job (some result))
    (hopen : after = true → job.kind = .fetchAll ∧ result ≠ .done ∧
      ∃ req, s.core.requests[job.owner]? = some req ∧ req.stage.fetch? = some j) :
    AckInv (s.drive j result job.conn after) where
  listed := by
    intro i result' hi
    by_cases hij : i = j
    · subst hij
      exact (List.getElem?_eq_some_iff.mp hj).1
    · exact h.listed i result' ((Function.update_of_ne hij _ _).symm.trans hi)
  ran := by
    intro i other hi
    show Ran other (Function.update s.results j (some result) i)
    by_cases hij : i = j
    · subst hij
      obtain rfl := Option.some.inj (hi.symm.trans hj)
      rw [Function.update_self]
      exact hran
    · rw [Function.update_of_ne hij]
      exact h.ran i other hi
  backed := h.backed
  tracked := by
    intro c hc
    cases after with
    | false =>
      obtain ⟨hc, hne⟩ := List.mem_filter.mp hc
      rcases h.tracked c hc with hp | hgone
      · exact .inl (h.pending_drive hj hnone (.inl (by simpa using hne)) hp)
      · exact .inr hgone
    | true =>
      obtain ⟨hkind, hne, req, hreq, hfetch⟩ := hopen rfl
      rcases List.mem_cons.mp hc with rfl | hc
      · left
        have hback := h.backed job.owner req hreq
        cases hg : req.stage with
        | fetching t c i =>
          rw [hg] at hfetch
          obtain rfl : i = j := Option.some.inj hfetch
          rw [Request.Backed, hg] at hback
          obtain ⟨job', hj', -, -, hconn⟩ := hback
          obtain rfl := Option.some.inj (hj.symm.trans hj')
          refine ⟨job.owner, req, hreq, .inl ⟨t, i, result, ?_, Function.update_self .., hne⟩⟩
          rw [hg, hconn]
        | _ =>
          rw [hg] at hfetch
          cases hfetch
      · rcases h.tracked c hc with hp | hgone
        · exact .inl (h.pending_drive hj hnone (.inr hkind) hp)
        · exact .inr hgone

/-- A write that `run` has returned from is committed. -/
theorem acknowledged (h : AckInv s) (hshared : config.shared = true) :
    s.Acknowledged u config := by
  intro r req hreq _ hstage
  have hback := h.backed r req hreq
  rw [Request.Backed, hstage] at hback
  obtain ⟨job, hmem, howner, hcommitted⟩ := hback rfl
  exact ⟨job, hmem, howner, hcommitted, fun _ _ ↦ .inr hshared⟩

/-- A connection in a transaction is in a request's hand, or does not come back. -/
theorem clean (h : AckInv s) {minConn maxConn : Nat}
    (hreach : (Pool.Async.system minConn maxConn).Reach OwnReleases s.core.pool)
    (hseated : Seated s.core) : s.Clean := by
  intro c hidle hc
  rcases h.tracked c hc with ⟨r, req, hreq, hstage⟩ | hgone
  · have hawaits : ∃ j, req.stage.Awaits j c := by
      rcases hstage with ⟨t, j, result, hg, -⟩ | ⟨t, j, exc, hg, -⟩
      · exact ⟨j, by rw [hg]; exact ⟨rfl, rfl⟩⟩
      · exact ⟨j, by rw [hg]; exact ⟨rfl, rfl⟩⟩
    obtain ⟨j, hawaits⟩ := hawaits
    obtain ⟨t, -, hin⟩ := hseated.inHand hreq hawaits
    have hown := Pool.Ledger.OwnershipInv.of_reach (Pool.Async.ledger_ownReleases hreach)
    exact hown.not_idle_of_holding (Pool.Async.State.inHand_iff.mp hin) hidle
  · exact hgone.not_idle hreach hidle

variable [DecidableEq K]

/-- A pending connection whose request takes a turn is still pending, or is let go of. -/
theorem pending_resume (h : AckInv s) {minConn maxConn : Nat}
    (hreach : (Pool.Async.system minConn maxConn).Reach OwnReleases s.core.pool)
    (hseated : Seated s.core) {r : Nat} {ch : Choice} {core : Execution.State K P D E}
    (hok : Closes s (.core (.resume r ch) : Act K P D E))
    (hstep : Execution.step u s.core (.resume r ch) = some core) {c : Addr}
    (hc : c ∈ s.inTransaction) (hp : s.Pending c) :
    State.Pending { s with core } c ∨ core.pool.LetGo c := by
  obtain ⟨req, s₁, hreq, hres, rfl⟩ := resume_of_step hstep
  obtain ⟨r₀, req₀, hreq₀, hstage⟩ := hp
  by_cases hr : r₀ = r
  · subst hr
    obtain rfl := Option.some.inj (hreq.symm.trans hreq₀)
    have hstruck (hs : req.stage.session? = some c) : req.struck = false := by
      by_contra hk
      exact hok req (by rw [hreq]; rfl) (by simpa using hk) c (by rw [hs]; rfl) hc
    rcases hstage with ⟨t, j, result, hg, hresult, hne⟩ | ⟨t, j, exc, hg, hnone⟩
    · have hback := h.backed r₀ req hreq
      rw [Request.Backed, hg] at hback
      obtain ⟨job, hj, -, hkind, -⟩ := hback
      have hnot : s.core.jobState? j ≠ some .returned := by
        intro hret
        rw [Execution.State.jobState?, hj, Option.map_some, Option.some.injEq] at hret
        have hdone := (h.ran j job hj).returned hkind hret
        rw [hresult] at hdone
        exact hne (Option.some.inj hdone)
      rcases resume_fetching hres hg (hstruck (by rw [hg]; rfl)) hnot with ⟨exc, rfl⟩ |
        ⟨ch', hturn, hbroken⟩
      · refine .inl ⟨r₀, _, getElem?_set_of_some hreq _, .inr ⟨t, _, exc, rfl, ?_⟩⟩
        -- The rollback is a new job.
        cases hres' : s.results s.core.jobs.length with
        | none => rfl
        | some result' => exact absurd (h.listed _ _ hres') (Nat.lt_irrefl _)
      · right
        obtain ⟨task, htask, hfit⟩ := hseated.seat r₀ req t hreq (by rw [hg]; rfl)
        rw [hg] at hfit
        exact .of_broken hreach hturn htask hfit hbroken
    · exfalso
      have hback := h.backed r₀ req hreq
      rw [Request.Backed, hg] at hback
      obtain ⟨job, hj, -, hkind, -⟩ := hback
      have hran := h.ran j job hj
      have hover := resume_rollingBack hres hg (hstruck (by rw [hg]; rfl))
      simp only [Execution.State.jobState?, hj, Option.map_some, Option.some.injEq] at hover
      rcases hover with hret | ⟨exc', hexc⟩
      · exact hran.rolledBack hkind hret hnone
      · exact hran.notRaised hkind exc' hexc
  · left
    obtain ⟨-, ⟨req', hreqs, -⟩, -⟩ := (turn_of_resume hres).frame
    refine ⟨r₀, req₀, ?_, hstage⟩
    show s₁.requests[r₀]? = some req₀
    rw [hreqs, List.getElem?_set_ne (Ne.symm hr)]
    exact hreq₀

/-- A turn of a request keeps the invariant. -/
theorem resume (h : AckInv s) {minConn maxConn : Nat}
    (hreach : (Pool.Async.system minConn maxConn).Reach OwnReleases s.core.pool)
    (hseated : Seated s.core) {r : Nat} {ch : Choice} {core : Execution.State K P D E}
    (hok : Closes s (.core (.resume r ch) : Act K P D E))
    (hstep : Execution.step u s.core (.resume r ch) = some core) :
    AckInv { s with core, inTransaction := s.inTransaction.filter (· != ch.addr) } := by
  have hpending {c : Addr} := h.pending_resume (c := c) hreach hseated hok hstep
  have hletGo {c : Addr} (hne : c ≠ ch.addr) := letGo_of_step (c := c) hreach hstep
    fun r' ch' heq ↦ by
      obtain ⟨rfl, rfl⟩ := Execution.Act.resume.inj heq
      exact hne
  obtain ⟨req, s₁, hreq, hres, rfl⟩ := resume_of_step hstep
  have ht := turn_of_resume hres
  obtain ⟨jobs, hbase, hjobs⟩ := ht.jobs_cases
  have hlength : jobs.length = s.core.jobs.length := by
    rcases hbase with rfl | ⟨j, rfl⟩
    · rfl
    · exact List.length_modify ..
  have hold (j : Nat) (job : Job) (hj : jobs[j]? = some job) : Ran job (s.results j) := by
    rcases hbase with rfl | ⟨i, rfl⟩
    · exact h.ran j job hj
    · obtain ⟨job₀, hjob₀, rfl | ⟨-, rfl⟩⟩ := getElem?_dropJob hj
      · exact h.ran j job hjob₀
      · exact .of_unfinished (by simp) (by simp) (h.ran j job₀ hjob₀).committed
  constructor
  · intro j result hj
    have hlt := h.listed j result hj
    show j < s₁.jobs.length
    rcases hjobs with hjobs | ⟨kind, c, hjobs⟩
    · rw [hjobs]
      omega
    · rw [hjobs, List.length_append]
      omega
  · intro j job hj
    rcases hjobs with hjobs | ⟨kind, c, hjobs⟩
    · exact hold j job (hjobs ▸ hj)
    · rcases getElem?_append_singleton (hjobs ▸ hj) with hj | ⟨rfl, rfl⟩
      · exact hold j job hj
      · cases hresult : s.results jobs.length with
        | none =>
          exact .of_unfinished (by simp) (by simp) (by simp)
        | some result =>
          have hlt := h.listed _ result hresult
          omega
  · intro i q hi
    obtain ⟨-, ⟨req', hreqs, -⟩, -⟩ := ht.frame
    have hgrows := ht.grows
    have hi' : s₁.requests[i]? = some q := hi
    by_cases hir : r = i
    · subst hir
      refine (ht.backed hreq (h.backed r req hreq) ?_ hi').grows rfl (.refl _)
      intro t c j hg hret
      have hback := h.backed r req hreq
      rw [Request.Backed, hg] at hback
      obtain ⟨job, hj, howner, hkind, -⟩ := hback
      rw [Execution.State.jobState?, hj, Option.map_some, Option.some.injEq] at hret
      have hran := h.ran j job hj
      exact ⟨job, List.mem_of_getElem? hj, howner, hran.committed hkind (hran.returned hkind hret)⟩
    · rw [hreqs, List.getElem?_set_ne hir] at hi'
      exact (h.backed i q hi').grows rfl hgrows
  · intro c hc
    obtain ⟨hc, hne⟩ := List.mem_filter.mp hc
    rcases h.tracked c hc with hp | hgone
    · exact hpending hc hp
    · exact .inr (hletGo (by simpa using hne) hgone)

/-- A step of the requests and their jobs keeps the invariant. -/
theorem core (h : AckInv s) {minConn maxConn : Nat}
    (hreach : (Pool.Async.system minConn maxConn).Reach OwnReleases s.core.pool)
    {a : Execution.Act K P D E} {core : Execution.State K P D E}
    (hresume : ∀ r ch, a ≠ .resume r ch) (hcommit : ∀ j, a ≠ .commit j)
    (hfinish : ∀ j exc, a = .finish j exc →
      ∃ job, s.core.jobs[j]? = some job ∧ endsAs job (s.results j) exc = true)
    (hstep : Execution.step u s.core a = some core) : AckInv { s with core } := by
  have hletGo (c : Addr) := letGo_of_step (c := c) hreach hstep fun r ch heq ↦
    absurd heq (hresume r ch)
  rcases Execution.step_cases hstep with ⟨run, rfl, -, rfl⟩ | ⟨r, ch, req, s₁, rfl, -⟩ |
    ⟨r, how, req, s₁, rfl, hreq, hstrike, rfl⟩ | ⟨j, job, job', ha, hj, hadv, rfl⟩ |
    ⟨pool, hpool, rfl⟩ | ⟨cache, rfl, rfl⟩
  · refine h.of_requests rfl (fun r req hreq ↦ ?_) (fun r req hreq ↦ ?_) hletGo
    · have hlt := (List.getElem?_eq_some_iff.mp hreq).1
      exact ⟨req, (List.getElem?_append_left hlt).trans hreq, rfl⟩
    · rcases getElem?_append_singleton hreq with hold | ⟨-, rfl⟩
      · exact .inr ⟨req, hold, rfl⟩
      · exact .inl rfl
  · exact absurd rfl (hresume r ch)
  · obtain ⟨struck, pool, rfl, -⟩ := strike_spec hstrike
    refine h.of_requests rfl (fun i q hq ↦ ?_) (fun i q hq ↦ .inr ?_) hletGo
    · by_cases hir : r = i
      · subst hir
        obtain rfl := Option.some.inj (hq.symm.trans hreq)
        exact ⟨_, getElem?_set_of_some hreq _, rfl⟩
      · exact ⟨q, (List.getElem?_set_ne hir).trans hq, rfl⟩
    · rcases getElem?_set_cases hq with ⟨rfl, rfl⟩ | ⟨-, hold⟩
      · exact ⟨req, hreq, rfl⟩
      · exact ⟨q, hold, rfl⟩
  · have hran := h.ran j job hj
    cases a with
    | start i =>
      obtain rfl : i = j := Option.some.inj ha
      simp only [Job.advance] at hadv
      split at hadv
      · obtain rfl := Option.some.inj hadv
        exact h.set hj rfl rfl rfl id (.of_unfinished (by simp) (by simp) hran.committed)
      · cases hadv
    | finish i exc =>
      obtain rfl : i = j := Option.some.inj ha
      obtain ⟨job₀, hj₀, hends⟩ := hfinish i exc rfl
      obtain rfl := Option.some.inj (hj.symm.trans hj₀)
      simp only [Job.advance] at hadv
      split at hadv
      · next hrun =>
        obtain rfl := Option.some.inj hadv
        refine h.set hj rfl rfl rfl id ⟨fun hkind hret ↦ ?_, hran.committed, fun hkind hret ↦ ?_,
          fun hkind exc' hexc ↦ ?_⟩
        · cases exc with
          | none =>
            rw [endsAs, show job.kind = .fetchAll from hkind] at hends
            cases hresult : s.results i with
            | none => simp [hresult] at hends
            | some result => simpa [hresult] using hends
          | some exc => cases hret
        · rw [endsAs, show job.kind = .rollback from hkind] at hends
          exact Option.isSome_iff_ne_none.mp hends
        · rw [hrun.2 hkind] at hexc
          cases hexc
      · cases hadv
    | commit i => exact absurd rfl (hcommit i)
    | _ => cases ha
  · exact h.of_requests rfl (fun r req hreq ↦ ⟨req, hreq, rfl⟩)
      (fun r req hreq ↦ .inr ⟨req, hreq, rfl⟩) hletGo
  · exact h.of_requests rfl (fun r req hreq ↦ ⟨req, hreq, rfl⟩)
      (fun r req hreq ↦ .inr ⟨req, hreq, rfl⟩) hletGo

/-- No step that closes breaks the invariant. -/
theorem step (h : AckInv s) {minConn maxConn : Nat}
    (hreach : (Pool.Async.system minConn maxConn).Reach OwnReleases s.core.pool)
    (hseated : Seated s.core) {a : Act K P D E} (hok : Closes s a)
    (hstep : Warehouse.step u explicit config s a = some s') : AckInv s' := by
  rcases step_cases hstep with ⟨b, core, rfl, hresume, hcommit, hfinish, hcore, rfl⟩ |
    ⟨r, ch, core, rfl, hcore, rfl⟩ |
    ⟨j, result, after, job, req, core, rfl, hj, hreq, hkind, hrun, hnone, -, hcore, rfl⟩ |
    ⟨j, raises, job, rfl, hj, hkind, hrun, hnone, rfl⟩
  · exact h.core hreach hresume hcommit hfinish hcore
  · exact h.resume hreach hseated hok hcore
  · have hopen : after = true → job.kind = .fetchAll ∧ result ≠ .done ∧
        ∃ req, s.core.requests[job.owner]? = some req ∧ req.stage.fetch? = some j := by
      rintro rfl
      obtain ⟨hne, hfetch⟩ := hok
      exact ⟨hkind, hne, req, hreq, hfetch job (by rw [hj]; rfl) req (by rw [hreq]; rfl)⟩
    rcases hcore with ⟨rfl, rfl, hcore⟩ | ⟨hnot, rfl⟩
    · obtain rfl := commit_of_step hcore hj
      have hset : AckInv { s with core := { s.core with
          jobs := s.core.jobs.set j { job with committed := some s.core.clock }
          clock := s.core.clock + 1 } } :=
        h.set hj rfl rfl rfl (by simp) (.of_unfinished (by simp [hrun]) (by simp [hrun]) (by simp))
      have hran : Ran { job with committed := some s.core.clock } (some .done) :=
        .of_unfinished (by simp [hrun]) (by simp [hrun]) (by simp)
      have hdrive := hset.drive (getElem?_set_of_some hj _) hnone hran
        fun hafter : false = true ↦ by cases hafter
      exact hdrive
    · refine h.drive hj hnone (.of_unfinished (by simp [hrun]) (by simp [hrun]) ?_) hopen
      intro _ hdone
      have hclosed : after ≠ true := fun hafter ↦ (hopen hafter).2.1 (Option.some.inj hdone)
      exact absurd ⟨Option.some.inj hdone, by simpa using hclosed⟩ hnot
  · refine h.drive hj hnone (.of_unfinished (by simp [hrun]) (by simp [hrun]) ?_) ?_
    · intro hfetch
      rw [hkind] at hfetch
      cases hfetch
    · intro hafter
      obtain ⟨rfl, hin⟩ := Bool.and_eq_true_iff.mp hafter
      exact absurd (by simpa using hin) (hok job (by rw [hj]; rfl))

end AckInv

section Runs

variable [DecidableEq K] {minConn maxConn : Nat} {permits : Cost → Nat}
  {cache : QueryCacheCoordinator K Text D E}

/-- In every run in which no statement leaves a transaction open except by failing, and the session
rolls that one back, on a database that the pooled connections share, every acknowledged write is
committed and no connection in `_available` is inside a transaction. -/
theorem writes_acknowledged (hshared : config.shared = true)
    (h : (system u explicit config minConn maxConn permits cache).Reach Closes s) :
    s.Acknowledged u config ∧ s.Clean := by
  have hinv : AckInv s := by
    refine h.invariant_of (P := AckInv) (Q := fun s ↦ (Execution.system u minConn maxConn permits
      cache).Reachable s.core) (fun _ hs ↦ core_reach hs) ?_ ?_
    · constructor <;> simp [system, Execution.system]
    · intro s a s' hs hcore _ hok hstep
      exact hs.step (pool_reach hcore) (seated_of_reach hcore) hok hstep
  have hcore := core_reach h
  exact ⟨hinv.acknowledged hshared, hinv.clean (pool_reach hcore) (seated_of_reach hcore)⟩

/-- No statement opens or ends a transaction by its text. -/
def Implicit (explicit : Text → Bool) (s : State K P D E) : Act K P D E → Prop
  | .execute j _ _ => ∀ job ∈ s.core.jobs[j]?, ∀ req ∈ s.core.requests[job.owner]?,
      explicit req.run.sql = false
  | _ => True

/-- DuckDB leaves no transaction open unless a statement asks for it. -/
theorem closes_of_duckdb (hdb : config.dbType = .duckdb)
    (h : (system u explicit config minConn maxConn permits cache).Reach (Implicit explicit) s) :
    (system u explicit config minConn maxConn permits cache).Reach Closes s ∧
      s.inTransaction = [] := by
  refine h.invariant (P := fun s ↦ (system u explicit config minConn maxConn permits cache).Reach
    Closes s ∧ s.inTransaction = []) ⟨.init, rfl⟩ ?_
  rintro s a s' ⟨hs, hnone⟩ hok hstep
  rcases step_cases hstep with ⟨b, core, rfl, hresume, -, -, hcore, rfl⟩ |
    ⟨r, ch, core, rfl, hcore, rfl⟩ |
    ⟨j, result, after, job, req, core, rfl, hj, hreq, hkind, hrun, hres, hallows, hcore, rfl⟩ |
    ⟨j, raises, job, rfl, hj, hkind, hrun, hres, rfl⟩
  · refine ⟨hs.step ?_ hstep, hnone⟩
    cases b with
    | resume r ch => exact absurd rfl (hresume r ch)
    | _ => trivial
  · refine ⟨hs.step (a := .core (.resume r ch)) (fun req _ _ c _ ↦ ?_) hstep, ?_⟩
    · rw [hnone]
      exact List.not_mem_nil
    · rw [hnone]
      rfl
  · have hafter : after = false := by
      have hexplicit := hok job (by rw [hj]; rfl) req (by rw [hreq]; rfl)
      simpa [DatabaseConfig.allows, hdb, hexplicit, hnone] using hallows
    subst hafter
    refine ⟨hs.step (a := .execute j result false) trivial hstep, ?_⟩
    show s.inTransaction.filter _ = []
    rw [hnone]
    rfl
  · refine ⟨hs.step (a := .rollback j raises) ?_ hstep, ?_⟩
    · cases raises with
      | false => trivial
      | true =>
        intro job' _
        rw [hnone]
        exact List.not_mem_nil
    · simp [State.drive, hnone]

end Runs

instance (s : State K P D E) (a : Act K P D E) : Decidable (Closes s a) :=
  match a with
  | .core (.resume r _) => inferInstanceAs (Decidable (∀ req ∈ s.core.requests[r]?,
      req.struck = true → ∀ c ∈ req.stage.session?, c ∉ s.inTransaction))
  | .execute j result true => inferInstanceAs (Decidable (result ≠ .done ∧
      ∀ job ∈ s.core.jobs[j]?, ∀ req ∈ s.core.requests[job.owner]?, req.stage.fetch? = some j))
  | .rollback j true => inferInstanceAs (Decidable
      (∀ job ∈ s.core.jobs[j]?, job.conn ∉ s.inTransaction))
  | .execute _ _ false | .rollback _ false => isTrue trivial
  | .core (.call _) | .core (.strike _ _) | .core (.timer _) | .core (.start _)
  | .core (.commit _) | .core (.finish _ _) | .core .metrics | .core (.others _) => isTrue trivial

private def insertOrder : Run Nat :=
  ⟨⟨true, true⟩, "INSERT INTO orders VALUES (1)".toList, 0, "write".toList⟩

private def salesFile : System (State Nat Nat Nat Nat) (Act Nat Nat Nat Nat) :=
  system .basic (fun _ ↦ false) (.fromSqlite "sales.db".toList) 1 1 (fun _ ↦ 4)
    (.new 1 3600 Nat.one_pos)

/-- On SQLite an `INSERT` is acknowledged although nothing is committed, and its connection goes
back to `_available` inside the transaction. -/
theorem insert_acknowledged_uncommitted : ∃ s, salesFile.Reachable s ∧
    ¬ s.Acknowledged .basic (.fromSqlite "sales.db".toList) ∧ ¬ s.Clean := by
  obtain ⟨s, hreach, hs⟩ := System.exists_of_exec salesFile (fun _ _ ↦ True)
    [.core (.call insertOrder), .core (.resume 0 { addr := 10 }),
      .core (.resume 0 { addr := 11 }), .core (.start 0), .execute 0 .done true,
      .core (.finish 0 none), .core (.resume 0 { addr := 12 }), .core (.resume 0 { addr := 13 })]
    (fun s ↦ s.core.jobs == [⟨0, .fetchAll, 11, .returned, none⟩] &&
      (s.core.requests.map fun req ↦ (req.run, req.stage)) == [(insertOrder, .ended none)] &&
      s.inTransaction == [11] && s.core.pool.pool.store.idle == [11])
    (by decide +kernel)
  simp only [Bool.and_eq_true, beq_iff_eq] at hs
  obtain ⟨⟨⟨hjobs, hreqs⟩, hopen⟩, hidle⟩ := hs
  refine ⟨s, hreach, fun hack ↦ ?_, fun hclean ↦ ?_⟩
  · obtain ⟨req, hreq, hrun⟩ := List.map_eq_singleton_iff.mp hreqs
    obtain ⟨hsql, hstage⟩ := Prod.mk.inj hrun
    have hwrite : req.IsWrite .basic := by
      rw [Request.IsWrite, hsql]
      decide +kernel
    obtain ⟨job, hmem, -, hcommitted, -⟩ := hack 0 req (by rw [hreq]; rfl) hwrite hstage
    rw [hjobs] at hmem
    obtain rfl := List.mem_singleton.mp hmem
    exact hcommitted rfl
  · exact hclean 11 (by simp [hidle]) (by simp [hopen])

/-- A statement that the driver takes for no modification is committed at once; one that fails is
rolled back. -/
theorem writes_acknowledged_create : ∃ s, salesFile.Reach Closes s ∧
    s.core.requests.map (·.stage) = [.ended none, .ended (some (.driver ⟨[], [], false⟩))] ∧
    s.Acknowledged .basic (.fromSqlite "sales.db".toList) ∧ s.Clean := by
  obtain ⟨s, hreach, hs⟩ := System.exists_of_exec salesFile Closes
    [.core (.call { insertOrder with sql := "CREATE TABLE orders (n)".toList }),
      .core (.resume 0 { addr := 10 }), .core (.resume 0 { addr := 11 }), .core (.start 0),
      .execute 0 .done false, .core (.finish 0 none), .core (.resume 0 { addr := 12 }),
      .core (.resume 0 { addr := 13 }), .core (.call insertOrder),
      .core (.resume 1 { addr := 14 }), .core (.start 1), .execute 1 .failed true,
      .core (.finish 1 (some ⟨[], [], false⟩)), .core (.resume 1 { addr := 15 }),
      .core (.start 2), .rollback 2 false, .core (.finish 2 none),
      .core (.resume 1 { addr := 16 })]
    (fun s ↦ s.core.requests.map (·.stage) ==
      [.ended none, .ended (some (.driver ⟨[], [], false⟩))])
    (by decide +kernel)
  rw [beq_iff_eq] at hs
  exact ⟨s, hreach, hs, writes_acknowledged (by decide +kernel) hreach⟩

end SalesData.Execution.Warehouse

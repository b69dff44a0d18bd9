import SalesData.Execution.Seats

/-!
# Exclusive use of a connection

`core/db/session.py:400–474` hands a connection back when its request is done with it. A request
that is struck while a thread is still inside the driver call hands it back as a good one,
although the call goes on; in every other case a running job has its connection to itself.
-/

namespace SalesData.Execution

open Base Sql
open Cache (QueryCacheCoordinator)
open Pool (Addr)
open Pool.Async (Choice PC OwnReleases)
open Service (Run)

variable {K P D E : Type} {u : Unicode} {s s' : State K P D E}

/-- Request `r` has the connection `c` from the pool. -/
def State.Handed (s : State K P D E) (r : Nat) (c : Addr) : Prop :=
  ∃ req t, s.requests[r]? = some req ∧ req.stage.task? = some t ∧ s.pool.InHand t c

/-- No two jobs run on one connection, and a connection on which a job runs is neither in
`_available` nor in the hand of another request than the job's. -/
structure State.Exclusive (s : State K P D E) : Prop where
  apart : ∀ (i j : Nat) (a b : Job), s.jobs[i]? = some a → s.jobs[j]? = some b →
    a.state = .running → b.state = .running → a.conn = b.conn → i = j
  not_available : ∀ job ∈ s.jobs, job.state = .running → job.conn ∉ s.pool.pool.store.idle
  not_handed : ∀ job ∈ s.jobs, job.state = .running →
    ∀ r, r ≠ job.owner → ¬ s.Handed r job.conn

/-- No strike takes effect in a request while a thread is inside the driver call that the
request awaits. -/
def SparesRunning (s : State K P D E) : Act K P D E → Prop
  | .resume r _ => ∀ req ∈ s.requests[r]?, req.struck = true →
    ∀ j ∈ req.stage.job?, s.jobState? j ≠ some .running
  | _ => True

section Reach

variable [DecidableEq K] {minConn maxConn : Nat} {permits : Cost → Nat}
  {cache : QueryCacheCoordinator K Text D E}

/-- The pool's run goes on with a call of `acquire`. -/
theorem reach_call {p p' : Pool.Async.State}
    (hp : (Pool.Async.system minConn maxConn).Reach OwnReleases p)
    (h : Pool.Async.step p (.call .acquire) = some p') :
    (Pool.Async.system minConn maxConn).Reach OwnReleases p' :=
  hp.step (a := .call .acquire) trivial h

private theorem reach_resume {t : Nat} {ch : Choice} {p p' : Pool.Async.State}
    (hp : (Pool.Async.system minConn maxConn).Reach OwnReleases p)
    (h : Pool.Async.step p (.resume t ch) = some p') :
    (Pool.Async.system minConn maxConn).Reach OwnReleases p' :=
  hp.step (a := .resume t ch) trivial h

/-- The pool inside runs as the pool does, and every connection goes back through the request
that acquired it. -/
theorem pool_reach {ok : State K P D E → Act K P D E → Prop}
    (h : (system u minConn maxConn permits cache).Reach ok s) :
    (Pool.Async.system minConn maxConn).Reach OwnReleases s.pool := by
  refine h.invariant (P := fun s ↦ (Pool.Async.system minConn maxConn).Reach OwnReleases s.pool)
    .init ?_
  intro s a s' hs _ hstep
  rcases step_cases hstep with ⟨run, rfl, -, rfl⟩ | ⟨r, ch, req, s₁, rfl, -, -, ht, rfl⟩ |
    ⟨r, how, req, s₁, rfl, -, hstrike, rfl⟩ | ⟨j, job, job', -, -, -, rfl⟩ |
    ⟨pool, hpool, rfl⟩ | ⟨cache, rfl, rfl⟩
  · exact hs
  · show (Pool.Async.system minConn maxConn).Reach OwnReleases s₁.pool
    rcases ht.pool_cases with hsame | ⟨t, p, ch', hp, hturn, -⟩
    · rw [hsame]
      exact hs
    · rcases hp with rfl | hcall
      · exact reach_resume hs hturn
      · exact reach_resume (reach_call hs hcall) hturn
  · obtain ⟨struck, pool, rfl, rfl | ⟨t, -, hp⟩⟩ := strike_spec hstrike
    · exact hs
    · exact hs.step (a := .cancel t) trivial hp
  · exact hs
  · rcases hpool with ⟨t, hp⟩ | hp
    · exact hs.step (a := .timer t) trivial hp
    · exact hs.step (a := .metrics) trivial hp
  · exact hs

end Reach

private theorem inHand_of_pc? {t : Nat} {c : Addr} (h : s.pc? t = some (.holding c)) :
    s.pool.InHand t c := by
  obtain ⟨task, htask, hpc⟩ := Option.map_eq_some_iff.mp h
  exact ⟨task, htask, by rw [hpc]; rfl⟩

/-- Every job that a thread may have is either awaited by its owner or closes a connection that
is nobody's any more, and no two of them are on one connection. -/
structure JobInv (s : State K P D E) : Prop where
  awaited : ∀ (j : Nat) (job : Job), s.jobs[j]? = some job → job.active = true →
    job.kind ≠ .disconnect →
    ∃ req, s.requests[job.owner]? = some req ∧ req.stage.Awaits j job.conn
  evicted : ∀ job ∈ s.jobs, job.active = true → job.kind = .disconnect →
    s.pool.ledger.ownerCount job.conn = 0
  apart : ∀ (i j : Nat) (a b : Job), s.jobs[i]? = some a → s.jobs[j]? = some b →
    a.active = true → b.active = true → a.conn = b.conn → i = j

/-- The invariant while request `r`, whose call of the pool is `t`, is set aside: the jobs that are
awaited belong to others, who hold their connections. -/
structure JobInv.Rest (s : State K P D E) (r : Nat) (t : Option Nat) : Prop where
  awaited : ∀ (j : Nat) (job : Job), s.jobs[j]? = some job → job.active = true →
    job.kind ≠ .disconnect → job.owner ≠ r ∧
    (∃ req, s.requests[job.owner]? = some req ∧ req.stage.Awaits j job.conn) ∧
    ∃ v, t ≠ some v ∧ s.pool.InHand v job.conn
  evicted : ∀ job ∈ s.jobs, job.active = true → job.kind = .disconnect →
    s.pool.ledger.ownerCount job.conn = 0
  apart : ∀ (i j : Nat) (a b : Job), s.jobs[i]? = some a → s.jobs[j]? = some b →
    a.active = true → b.active = true → a.conn = b.conn → i = j

/-- A request that awaits a job holds the job's connection. -/
theorem Seated.inHand (h : Seated s) {r j : Nat} {req : Request P} {c : Addr}
    (hreq : s.requests[r]? = some req) (ha : req.stage.Awaits j c) :
    ∃ t, req.stage.task? = some t ∧ s.pool.InHand t c := by
  obtain ⟨hj, hc⟩ := ha
  have hholds {t : Nat} (ht : req.stage.task? = some t)
      (hfit : ∀ pc, req.stage.Fits pc → pc = .holding c) :
      ∃ t, req.stage.task? = some t ∧ s.pool.InHand t c := by
    obtain ⟨task, htask, hpc⟩ := h.seat r req t hreq ht
    refine ⟨t, ht, task, htask, ?_⟩
    rw [hfit task.pc hpc]
    rfl
  cases hs : req.stage with
  | fetching t d i | rollingBack t d i exc =>
    rw [hs] at hc
    obtain rfl := Option.some.inj hc
    have hthis := hholds (t := t) (by rw [hs]; rfl) fun pc hpc ↦ by rwa [hs] at hpc
    rwa [hs] at hthis
  | _ =>
    rw [hs] at hj
    cases hj

namespace JobInv

/-- The invariant is about the pool, the requests and the jobs. -/
theorem congr (h : JobInv s) (hpool : s'.pool = s.pool) (hjobs : s'.jobs = s.jobs)
    (hreqs : s'.requests = s.requests) : JobInv s' := by
  constructor
  · rw [hjobs, hreqs]
    exact h.awaited
  · rw [hjobs, hpool]
    exact h.evicted
  · rw [hjobs]
    exact h.apart

/-- Jobs only change their state, and none becomes active again. -/
theorem of_jobs (h : JobInv s) {jobs : List Job}
    (hjobs : ∀ (j : Nat) (job' : Job), jobs[j]? = some job' → ∃ job, s.jobs[j]? = some job ∧
      job'.owner = job.owner ∧ job'.kind = job.kind ∧ job'.conn = job.conn ∧
      (job'.active = true → job.active = true)) : JobInv { s with jobs := jobs } where
  awaited := by
    intro j job' hj ha hk
    obtain ⟨job, hjob, ho, hkind, hc, hact⟩ := hjobs j job' hj
    rw [ho, hc]
    exact h.awaited j job hjob (hact ha) (hkind ▸ hk)
  evicted := by
    intro job' hmem ha hk
    obtain ⟨j, hj⟩ := List.getElem?_of_mem hmem
    obtain ⟨job, hjob, -, hkind, hc, hact⟩ := hjobs j job' hj
    rw [hc]
    exact h.evicted job (List.mem_of_getElem? hjob) (hact ha) (hkind ▸ hk)
  apart := by
    intro i j a b hi hj ha hb hab
    obtain ⟨a', ha', -, -, hca, hacta⟩ := hjobs i a hi
    obtain ⟨b', hb', -, -, hcb, hactb⟩ := hjobs j b hj
    exact h.apart i j a' b' ha' hb' (hacta ha) (hactb hb) (by rw [← hca, ← hcb, hab])

/-- The pool changes without any owner changing. -/
theorem of_pool (h : JobInv s) {pool : Pool.Async.State}
    (howner : ∀ a, pool.ledger.ownerCount a = s.pool.ledger.ownerCount a) :
    JobInv { s with pool := pool } where
  awaited := h.awaited
  evicted := by
    intro job hmem ha hk
    show pool.ledger.ownerCount job.conn = 0
    rw [howner]
    exact h.evicted job hmem ha hk
  apart := h.apart

/-- A request that awaits no active job is set aside. -/
theorem rest (h : JobInv s) (hs : Seated s) {r : Nat} {req : Request P}
    (hreq : s.requests[r]? = some req)
    (hover : ∀ j c, req.stage.Awaits j c → ∀ job, s.jobs[j]? = some job → job.active = false) :
    Rest s r req.stage.task? where
  awaited := by
    intro j job hj ha hk
    obtain ⟨req', hreq', haw⟩ := h.awaited j job hj ha hk
    have hne : job.owner ≠ r := by
      rintro hr
      rw [hr, hreq] at hreq'
      obtain rfl := Option.some.inj hreq'
      rw [hover j job.conn haw job hj] at ha
      cases ha
    obtain ⟨t, ht, hin⟩ := hs.inHand hreq' haw
    refine ⟨hne, ⟨req', hreq', haw⟩, t, fun hsame ↦ hne ?_, hin⟩
    exact hs.unique job.owner r req' req t hreq' hreq ht hsame
  evicted := h.evicted
  apart := h.apart

namespace Rest

variable {r : Nat} {t : Option Nat} {req' : Request P}

/-- The request that was set aside comes back. -/
theorem set (h : Rest s r t) : JobInv { s with requests := s.requests.set r req' } where
  awaited := by
    intro j job hjob ha hk
    obtain ⟨hr, ⟨req, hreq, haw⟩, -⟩ := h.awaited j job hjob ha hk
    refine ⟨req, ?_, haw⟩
    rw [List.getElem?_set_ne (Ne.symm hr)]
    exact hreq
  evicted := h.evicted
  apart := h.apart

/-- The request comes back with a new job. -/
theorem submit (h : Rest s r t) {c : Addr} {kind : JobKind} {stage : Stage}
    {req : Request P} (hr : r < s.requests.length)
    (hfree : ∀ job ∈ s.jobs, job.active = true → job.conn ≠ c)
    (hkind : kind ≠ .disconnect → stage.Awaits s.jobs.length c)
    (hclose : kind = .disconnect → s.pool.ledger.ownerCount c = 0) :
    JobInv ((s.submit r kind c).put r req stage) := by
  have hnew {i : Nat} {job : Job} (hi : (s.jobs ++ [⟨r, kind, c, .queued, none⟩])[i]? = some job) :
      s.jobs[i]? = some job ∨ i = s.jobs.length ∧ job = ⟨r, kind, c, .queued, none⟩ :=
    getElem?_append_singleton hi
  constructor
  · intro j job hj ha hk
    rcases hnew hj with hj | ⟨rfl, rfl⟩
    · obtain ⟨hne, ⟨req', hreq', haw⟩, -⟩ := h.awaited j job hj ha hk
      refine ⟨req', ?_, haw⟩
      show (s.requests.set r _)[job.owner]? = some req'
      rw [List.getElem?_set_ne (Ne.symm hne)]
      exact hreq'
    · refine ⟨{ req with stage := stage, struck := false }, ?_, hkind hk⟩
      show (s.requests.set r _)[r]? = _
      rw [List.getElem?_set_self hr]
  · intro job hmem ha hk
    rcases List.mem_append.mp hmem with hmem | hmem
    · exact h.evicted job hmem ha hk
    · obtain rfl := List.mem_singleton.mp hmem
      exact hclose hk
  · intro i j a b hi hj ha hb hab
    rcases hnew hi with hi | ⟨rfl, rfl⟩
    · rcases hnew hj with hj | ⟨rfl, rfl⟩
      · exact h.apart i j a b hi hj ha hb hab
      · exact absurd hab (hfree a (List.mem_of_getElem? hi) ha)
    · rcases hnew hj with hj | ⟨rfl, rfl⟩
      · exact absurd hab.symm (hfree b (List.mem_of_getElem? hj) hb)
      · rfl

/-- The task in the pool takes a turn. -/
theorem turn {v : Nat} (h : Rest s r (some v)) {minConn maxConn : Nat}
    (hreach : (Pool.Async.system minConn maxConn).Reach OwnReleases s.pool)
    {pool : Pool.Async.State} {ch : Choice}
    (hp : Pool.Async.step s.pool (.resume v ch) = some pool) (hch : ch.addr ∉ s.sessions) :
    Rest { s with pool := pool } r (some v) where
  awaited := by
    intro j job hj ha hk
    obtain ⟨hne, hreq, w, hw, task, htask, hin⟩ := h.awaited j job hj ha hk
    refine ⟨hne, hreq, w, hw, task, ?_, hin⟩
    obtain ⟨before, p', pc', -, -, -, rfl⟩ := Pool.Async.step_resume hp
    exact (List.getElem?_set_ne fun he ↦ hw (congrArg some he)).trans htask
  evicted := by
    intro job hmem ha hk
    refine Pool.Async.unowned_of_resume hreach hp ?_ (h.evicted job hmem ha hk)
    intro he
    apply hch
    rw [← he]
    refine List.mem_append_left _ (List.mem_map.mpr ⟨job, ?_, rfl⟩)
    exact List.mem_filter.mpr ⟨hmem, ha⟩
  apart := h.apart

/-- No job is on a connection that the request's task has in hand. -/
theorem conn_ne {v : Nat} {c : Addr} (h : Rest s r (some v))
    (hown : Pool.Ledger.OwnershipInv s.pool.ledger) (hin : s.pool.InHand v c) :
    ∀ job ∈ s.jobs, job.active = true → job.conn ≠ c := by
  rintro job hmem ha rfl
  have hrole := Pool.Async.State.inHand_iff.mp hin
  by_cases hk : job.kind = .disconnect
  · have hz := h.evicted job hmem ha hk
    exact Pool.Ledger.not_holding hz v hrole
  · obtain ⟨j, hj⟩ := List.getElem?_of_mem hmem
    obtain ⟨-, -, w, hw, hin'⟩ := h.awaited j job hj ha hk
    have hvw := hown.holder_unique hrole (Pool.Async.State.inHand_iff.mp hin')
    exact hw (congrArg some hvw)

/-- The request's task in the pool is new. -/
theorem call (h : Rest s r none) {pool : Pool.Async.State}
    (hcall : Pool.Async.step s.pool (.call .acquire) = some pool) :
    Rest { s with pool := pool } r (some s.pool.tasks.length) := by
  obtain ⟨-, rfl⟩ := Pool.Async.step_call hcall
  constructor
  · intro j job hj ha hk
    obtain ⟨hne, hreq, w, -, task, htask, hin⟩ := h.awaited j job hj ha hk
    obtain ⟨hlt, -⟩ := List.getElem?_eq_some_iff.mp htask
    refine ⟨hne, hreq, w, ?_, task, ?_, hin⟩
    · rw [ne_eq, Option.some.injEq]
      omega
    · rw [List.getElem?_append_left hlt]
      exact htask
  · intro job hmem ha hk
    have hz := h.evicted job hmem ha hk
    simpa [Pool.Ledger.ownerCount, Pool.Async.State.ledger, Pool.Async.PC.role,
      Pool.Role.owns] using hz
  · exact h.apart

variable [DecidableEq K]

/-- The request has left its call of the pool. -/
theorem leave (h : Rest s r t) (req : Request P) (outcome : Option Failure) :
    JobInv (s.leave u r req outcome) := by
  obtain ⟨stage, -, hpool, hjobs, hreqs⟩ := s.leave_spec (u := u) r req outcome
  have hset : JobInv { s with
      requests := s.requests.set r { req with stage := stage, struck := false } } := h.set
  exact hset.congr hpool hjobs hreqs

/-- The request goes on behind `acquire`. -/
theorem acquired {v : Nat} (h : Rest s r (some v)) (req : Request P)
    (hown : Pool.Ledger.OwnershipInv s.pool.ledger) (hr : r < s.requests.length) :
    JobInv (s.acquired u r req v) := by
  rcases s.acquired_cases (u := u) r req v with ⟨c, hc, heq⟩ | ⟨failure, heq⟩ | heq
  · rw [heq]
    exact h.submit hr (h.conn_ne hown (inHand_of_pc? hc)) (fun _ ↦ ⟨rfl, rfl⟩) (by simp)
  · rw [heq]
    exact h.leave req _
  · rw [heq]
    exact h.set

/-- The request goes on behind `release`. -/
theorem released {v : Nat} (h : Rest s r (some v)) (req : Request P) (c : Addr)
    (outcome : Option Failure) (hr : r < s.requests.length)
    (hclosing : ∀ d, s.pc? v = some (.closing d) → s.pool.ledger.ownerCount d = 0 ∧
      ∀ job ∈ s.jobs, job.active = true → job.conn ≠ d) :
    JobInv (s.released u r req v c outcome) := by
  rcases s.released_cases (u := u) r req v c outcome with ⟨o, -, heq⟩ | ⟨d, hd, heq⟩ | heq
  · rw [heq]
    exact h.leave req o
  · rw [heq]
    obtain ⟨hz, hfree⟩ := hclosing d hd
    exact h.submit hr hfree (by simp) fun _ ↦ hz
  · rw [heq]
    exact h.set

end Rest

private theorem mem_sessions_of_dropJob {j : Nat} {a : Addr} (h : a ∈ (s.dropJob j).sessions) :
    a ∈ s.sessions := by
  rcases List.mem_append.mp h with h | h
  · obtain ⟨job', hmem, rfl⟩ := List.mem_map.mp h
    obtain ⟨hmem, ha⟩ := List.mem_filter.mp hmem
    obtain ⟨i, hi⟩ := List.getElem?_of_mem hmem
    apply List.mem_append_left
    obtain ⟨job, hjob, rfl | ⟨-, rfl⟩⟩ := getElem?_dropJob hi
    · exact List.mem_map.mpr ⟨job', List.mem_filter.mpr ⟨List.mem_of_getElem? hjob, ha⟩, rfl⟩
    · cases ha
  · exact List.mem_append_right _ h

private theorem inactive_of_over {j : Nat} {job : Job}
    (hover : s.jobState? j = some .returned ∨ ∃ exc, s.jobState? j = some (.raised exc))
    (hj : s.jobs[j]? = some job) : job.active = false := by
  simp only [State.jobState?, hj, Option.map_some, Option.some.injEq] at hover
  rcases hover with hs | ⟨exc, hs⟩ <;> simp [Job.active, hs]

/-- A job that is dropped is not active, unless a thread has it. -/
theorem dropJob (h : JobInv s) (j : Nat) : JobInv (s.dropJob j) := by
  refine h.of_jobs fun i job' hi ↦ ?_
  obtain ⟨job, hjob, rfl | ⟨-, rfl⟩⟩ := getElem?_dropJob hi
  · exact ⟨job', hjob, rfl, rfl, rfl, id⟩
  · exact ⟨job, hjob, rfl, rfl, rfl, by simp [Job.active]⟩

/-- A new request has no connection yet. -/
theorem call (h : JobInv s) (run : Run P) :
    JobInv { s with requests := s.requests ++ [⟨run, .gate, false, false, false, none⟩] } where
  awaited := by
    intro j job hj ha hk
    obtain ⟨req, hreq, haw⟩ := h.awaited j job hj ha hk
    refine ⟨req, ?_, haw⟩
    rw [List.getElem?_append_left (List.getElem?_eq_some_iff.mp hreq).1]
    exact hreq
  evicted := h.evicted
  apart := h.apart

/-- A request that is struck stays where it is. -/
theorem hit (h : JobInv s) {r : Nat} {req req' : Request P} (hreq : s.requests[r]? = some req)
    (hstage : req'.stage = req.stage) :
    JobInv { s with requests := s.requests.set r req' } where
  awaited := by
    intro j job hj ha hk
    obtain ⟨q, hq, haw⟩ := h.awaited j job hj ha hk
    by_cases hr : r = job.owner
    · subst hr
      obtain rfl := Option.some.inj (hreq.symm.trans hq)
      exact ⟨req', getElem?_set_of_some hreq _, by rw [hstage]; exact haw⟩
    · exact ⟨q, (List.getElem?_set_ne hr).trans hq, haw⟩
  evicted := h.evicted
  apart := h.apart

/-- Nothing but its state changes in a job, and it does not become active again. -/
theorem advance_frame {job job' : Job} {clock : Nat} {a : Act K P D E}
    (h : job.advance clock a = some job') : job'.owner = job.owner ∧ job'.kind = job.kind ∧
      job'.conn = job.conn ∧ (job'.active = true → job.active = true) := by
  cases a with
  | start j | commit j | finish j exc =>
    simp only [Job.advance] at h
    split at h
    · next hs =>
      obtain rfl := Option.some.inj h
      refine ⟨rfl, rfl, rfl, fun _ ↦ ?_⟩
      simp [Job.active, hs]
    · cases h
  | _ => cases h

variable {minConn maxConn : Nat}

private theorem closing_free {r t : Nat} {ch : Choice} {pool : Pool.Async.State}
    (h : Rest s r (some t)) (hreach : (Pool.Async.system minConn maxConn).Reach OwnReleases s.pool)
    (hp : Pool.Async.step s.pool (.resume t ch) = some pool) (d : Addr)
    (hd : State.pc? { s with pool := pool } t = some (.closing d)) :
    pool.ledger.ownerCount d = 0 ∧ ∀ job ∈ s.jobs, job.active = true → job.conn ≠ d := by
  obtain ⟨task, htask, hpc⟩ := Option.map_eq_some_iff.mp hd
  obtain ⟨hin, hz⟩ := Pool.Async.unowned_of_closing hreach hp htask hpc
  have hown := Pool.Ledger.OwnershipInv.of_reach (Pool.Async.ledger_ownReleases hreach)
  exact ⟨hz, h.conn_ne hown hin⟩

variable [DecidableEq K]

/-- The request's task in the pool goes on with its release. -/
theorem Rest.released_turn {r t : Nat} {req : Request P} {c : Addr} {outcome : Option Failure}
    {ch : Choice} {pool : Pool.Async.State} (h : Rest s r (some t))
    (hreach : (Pool.Async.system minConn maxConn).Reach OwnReleases s.pool)
    (hr : r < s.requests.length) (hp : Pool.Async.step s.pool (.resume t ch) = some pool)
    (hch : ch.addr ∉ s.sessions) :
    JobInv (State.released u { s with pool := pool } r req t c outcome) :=
  (h.turn hreach hp hch).released req c _ hr (closing_free h hreach hp)

/-- A turn of a request keeps the invariant, if no running job is dropped. -/
theorem turn (h : JobInv s) (hs : Seated s)
    (hreach : (Pool.Async.system minConn maxConn).Reach OwnReleases s.pool)
    {r : Nat} {req : Request P} {ch : Choice} (ht : Turn u s r req ch s')
    (hreq : s.requests[r]? = some req) (hch : ch.addr ∉ s.sessions)
    (hok : SparesRunning s (.resume r ch : Act K P D E)) : JobInv s' := by
  have hr : r < s.requests.length := (List.getElem?_eq_some_iff.mp hreq).1
  have hidle (hj : req.stage.job? = none) (j : Nat) (c : Addr) (ha : req.stage.Awaits j c) :
      ∀ job, s.jobs[j]? = some job → job.active = false := by
    rw [Stage.Awaits, hj] at ha
    exact absurd ha.1 (by simp)
  cases ht with
  | refused hg hk | interrupt hg hk | flush hg hk | flushed hg hk =>
    exact (h.rest hs hreq (hidle (by rw [hg]; rfl))).set
  | @enter p p' ch' hg hk hcall hp hch' permits =>
    have hrest := h.rest hs hreq (hidle (by rw [hg]; rfl))
    rw [hg] at hrest
    have hreach' := reach_call hreach hcall
    have hturn := (hrest.call hcall).turn hreach' hp (by rw [hch']; exact hch)
    have hreach'' := reach_resume hreach' hp
    have hown := Pool.Ledger.OwnershipInv.of_reach (Pool.Async.ledger_ownReleases hreach'')
    have hpermits : Rest { s with pool := p', permits := permits } r (some s.pool.tasks.length) :=
      ⟨hturn.awaited, hturn.evicted, hturn.apart⟩
    exact hpermits.acquired req hown hr
  | @acquire t p' ch' hg hp hch' =>
    have hrest := h.rest hs hreq (hidle (by rw [hg]; rfl))
    rw [hg] at hrest
    have hturn := hrest.turn hreach hp (by rw [hch']; exact hch)
    have hreach' := reach_resume hreach hp
    have hown := Pool.Ledger.OwnershipInv.of_reach (Pool.Async.ledger_ownReleases hreach')
    exact hturn.acquired req hown hr
  | @drop t j c p' ch' ht hj hk hp hch' =>
    have hseated : Seated (s.dropJob j) := hs.congr rfl rfl
    have hrest : Rest (s.dropJob j) r (some t) := by
      rw [← ht]
      refine (h.dropJob j).rest hseated hreq fun i c' ha job hi ↦ ?_
      obtain rfl : i = j := Option.some.inj (ha.1.symm.trans hj.1)
      have hspared := hok req (by rw [hreq]; rfl) hk i (by rw [hj.1]; rfl)
      simp only [State.dropJob, List.getElem?_modify, if_pos, Option.map_eq_map,
        Option.map_eq_some_iff] at hi
      obtain ⟨job₀, hjob₀, rfl⟩ := hi
      rw [State.jobState?, hjob₀, Option.map_some, ne_eq, Option.some.injEq] at hspared
      split
      · rfl
      · next hq => simp [Job.active, hq, hspared]
    exact hrest.released_turn hreach hr hp fun ha ↦ hch (hch' ▸ mem_sessions_of_dropJob ha)
  | @retry t j c exc hg hk hj =>
    have hawaits : req.stage.Awaits j c := by rw [hg]; exact ⟨rfl, rfl⟩
    have hrest := h.rest hs hreq fun i c' ha job hi ↦ by
      obtain rfl := Option.some.inj (ha.1.symm.trans hawaits.1)
      exact inactive_of_over (.inr ⟨exc, hj⟩) hi
    obtain ⟨v, hv, hin⟩ := hs.inHand hreq hawaits
    rw [hv] at hrest
    have hown := Pool.Ledger.OwnershipInv.of_reach (Pool.Async.ledger_ownReleases hreach)
    exact hrest.submit hr (hrest.conn_ne hown hin) (fun _ ↦ ⟨rfl, rfl⟩) (by simp)
  | @release t j c outcome p' ch' ht hj hk hover ho hp hch' =>
    have hrest := h.rest hs hreq fun i c' ha job hi ↦ by
      obtain rfl : i = j := Option.some.inj (ha.1.symm.trans hj.1)
      exact inactive_of_over hover hi
    rw [ht] at hrest
    exact hrest.released_turn hreach hr hp (by rw [hch']; exact hch)
  | @close s₁ t c close outcome p' ch' hg hs₁ hp hch' =>
    rcases hs₁ with rfl | ⟨j, -, rfl⟩
    · have hrest := h.rest hs hreq (hidle (by rw [hg]; rfl))
      rw [hg] at hrest
      exact hrest.released_turn hreach hr hp (by rw [hch']; exact hch)
    · have hseated : Seated (s.dropJob j) := hs.congr rfl rfl
      have hrest := (h.dropJob j).rest hseated hreq fun i c ha ↦ by
        rw [Stage.Awaits, hg] at ha
        exact absurd ha.1 (by simp [Stage.job?])
      rw [hg] at hrest
      exact hrest.released_turn hreach hr hp fun ha ↦ hch (hch' ▸ mem_sessions_of_dropJob ha)

/-- No step breaks the invariant, if no running job is dropped. -/
theorem step (h : JobInv s) (hs : Seated s)
    (hreach : (Pool.Async.system minConn maxConn).Reach OwnReleases s.pool)
    {a : Act K P D E} (hok : SparesRunning s a) (hstep : Execution.step u s a = some s') :
    JobInv s' := by
  rcases step_cases hstep with ⟨run, rfl, -, rfl⟩ | ⟨r, ch, req, s₁, rfl, hreq, hch, ht, rfl⟩ |
    ⟨r, how, req, s₁, rfl, hreq, hstrike, rfl⟩ | ⟨j, job, job', -, hj, hadv, rfl⟩ |
    ⟨pool, hpool, rfl⟩ | ⟨cache, rfl, rfl⟩
  · exact (h.call run).congr rfl rfl rfl
  · exact (h.turn hs hreach ht hreq hch hok).congr rfl rfl rfl
  · obtain ⟨struck, pool, rfl, hpool⟩ := strike_spec hstrike
    have hset : JobInv { s with
        requests := s.requests.set r { req.hit how with struck := struck } } := h.hit hreq rfl
    rcases hpool with rfl | ⟨t, -, hp⟩
    · exact hset.congr rfl rfl rfl
    · obtain ⟨task, ht, -, rfl⟩ := Pool.Async.step_cancel hp
      refine (hset.of_pool fun a ↦ ?_).congr rfl rfl rfl
      simp only [Pool.Ledger.ownerCount, Pool.Async.State.ledger]
      rw [Pool.Async.map_role_set ht (by rfl)]
  · refine (h.of_jobs fun i job'' hi ↦ ?_).congr rfl rfl rfl
    rcases getElem?_set_cases hi with ⟨rfl, rfl⟩ | ⟨-, hi⟩
    · exact ⟨job, hj, advance_frame hadv⟩
    · exact ⟨job'', hi, rfl, rfl, rfl, id⟩
  · rcases hpool with ⟨t, hp⟩ | hp
    · obtain ⟨start, w, cancelled, timedOut, ht, rfl⟩ := Pool.Async.step_timer hp
      refine (h.of_pool fun a ↦ ?_).congr rfl rfl rfl
      simp only [Pool.Ledger.ownerCount, Pool.Async.State.ledger]
      rw [Pool.Async.map_role_set ht (by rfl)]
    · obtain rfl := Option.some.inj hp
      have hmetrics : JobInv { s with pool := { s.pool with pool := s.pool.pool.metrics } } :=
        h.of_pool fun a ↦ rfl
      exact hmetrics.congr rfl rfl rfl
  · exact h.congr rfl rfl rfl

end JobInv

section Main

/-- Everybody in his place has his connection to himself. -/
theorem JobInv.exclusive (h : JobInv s) (hs : Seated s)
    (hown : Pool.Ledger.OwnershipInv s.pool.ledger) : s.Exclusive := by
  have hactive {job : Job} (hrun : job.state = .running) : job.active = true := by
    simp [Job.active, hrun]
  constructor
  · intro i j a b hi hj ha hb hab
    exact h.apart i j a b hi hj (hactive ha) (hactive hb) hab
  · intro job hmem hrun hidle
    have hpos : 0 < s.pool.ledger.store.idle.count job.conn := List.count_pos_iff.mpr hidle
    have hone := hown.owner job.conn
    by_cases hk : job.kind = .disconnect
    · have hz := h.evicted job hmem (hactive hrun) hk
      rw [Pool.Ledger.ownerCount] at hz
      omega
    · obtain ⟨j, hj⟩ := List.getElem?_of_mem hmem
      obtain ⟨req, hreq, haw⟩ := h.awaited j job hj (hactive hrun) hk
      obtain ⟨t, -, hin⟩ := hs.inHand hreq haw
      have hrole := Pool.Async.State.inHand_iff.mp hin
      have hle := le_tally_of_getElem? (w := fun r ↦ r.owns.count job.conn) hrole
      have howns : (Pool.Role.holding job.conn).owns.count job.conn = 1 :=
        List.count_singleton_self
      rw [Pool.Ledger.ownerCount] at hone
      omega
  · rintro job hmem hrun r hr ⟨req', t', hreq', ht', hin'⟩
    have hrole' := Pool.Async.State.inHand_iff.mp hin'
    by_cases hk : job.kind = .disconnect
    · exact Pool.Ledger.not_holding (h.evicted job hmem (hactive hrun) hk) t' hrole'
    · obtain ⟨j, hj⟩ := List.getElem?_of_mem hmem
      obtain ⟨req, hreq, haw⟩ := h.awaited j job hj (hactive hrun) hk
      obtain ⟨t, ht, hin⟩ := hs.inHand hreq haw
      obtain rfl := hown.holder_unique (Pool.Async.State.inHand_iff.mp hin) hrole'
      exact hr (hs.unique r job.owner req' req t hreq' hreq ht' ht)

variable [DecidableEq K] {minConn maxConn : Nat} {permits : Cost → Nat}
  {cache : QueryCacheCoordinator K Text D E}

/-- In a run that drops no running job, every job is in its place. -/
theorem jobInv_of_reach (h : (system u minConn maxConn permits cache).Reach SparesRunning s) :
    JobInv s := by
  refine h.invariant_of (fun s hs ↦ And.intro (pool_reach hs) (seated_of_reach hs)) ?_ ?_
  · constructor <;> simp [system]
  · rintro s a s' hs ⟨hpool, hseated⟩ - hok hstep
    exact hs.step hseated hpool hok hstep

/-- As long as no strike takes effect in a request while a thread is inside the driver call that
the request awaits, every running job has its connection to itself. -/
theorem connections_exclusive
    (h : (system u minConn maxConn permits cache).Reach SparesRunning s) : s.Exclusive := by
  have hown := Pool.Ledger.OwnershipInv.of_reach (Pool.Async.ledger_ownReleases (pool_reach h))
  exact (jobInv_of_reach h).exclusive (seated_of_reach h) hown

end Main

instance (s : State K P D E) (a : Act K P D E) : Decidable (SparesRunning s a) :=
  match a with
  | .resume r _ => inferInstanceAs (Decidable (∀ req ∈ s.requests[r]?, req.struck = true →
      ∀ j ∈ req.stage.job?, s.jobState? j ≠ some .running))
  | .call _ | .strike _ _ | .timer _ | .start _ | .commit _ | .finish _ _ | .metrics
  | .others _ => isTrue trivial

private def selectOne : Run Nat := ⟨⟨true, true⟩, "SELECT 1".toList, 0, "read".toList⟩

private def oneConnection : System (State Nat Nat Nat Nat) (Act Nat Nat Nat Nat) :=
  system .basic 1 1 (fun _ ↦ 4) (.new 1 3600 Nat.one_pos)

/-- A query that times out while a thread is inside the driver hands its connection back, and
the next query starts on the same connection. -/
theorem timedOutQuery_shares : ∃ s, oneConnection.Reachable s ∧ ¬ s.Exclusive := by
  obtain ⟨s, hreach, hs⟩ := System.exists_of_exec oneConnection (fun _ _ ↦ True)
    [.call selectOne, .resume 0 { addr := 10 }, .resume 0 { addr := 11 }, .start 0,
      .strike 0 .timeout, .resume 0 { addr := 12 }, .call selectOne, .resume 1 { addr := 13 },
      .start 1]
    (fun s ↦ s.jobs == [⟨0, .fetchAll, 11, .running, none⟩, ⟨1, .fetchAll, 11, .running, none⟩])
    (by decide +kernel)
  rw [beq_iff_eq] at hs
  refine ⟨s, hreach, fun hex ↦ ?_⟩
  have hsame := hex.apart 0 1 ⟨0, .fetchAll, 11, .running, none⟩
    ⟨1, .fetchAll, 11, .running, none⟩ (by rw [hs]; rfl) (by rw [hs]; rfl) rfl rfl rfl
  cases hsame

/-- A query that times out before a thread has taken its job leaves no trace on the connection. -/
theorem connections_exclusive_queuedTimeout :
    ∃ s, oneConnection.Reach SparesRunning s ∧ s.jobs = [⟨0, .fetchAll, 11, .cancelled, none⟩,
      ⟨1, .fetchAll, 11, .running, none⟩] ∧ s.Exclusive := by
  obtain ⟨s, hreach, hs⟩ := System.exists_of_exec oneConnection SparesRunning
    [.call selectOne, .resume 0 { addr := 10 }, .resume 0 { addr := 11 },
      .strike 0 .timeout, .resume 0 { addr := 12 }, .call selectOne, .resume 1 { addr := 13 },
      .start 1]
    (fun s ↦ s.jobs == [⟨0, .fetchAll, 11, .cancelled, none⟩, ⟨1, .fetchAll, 11, .running, none⟩])
    (by decide +kernel)
  rw [beq_iff_eq] at hs
  exact ⟨s, hreach, hs, connections_exclusive hreach⟩

end SalesData.Execution

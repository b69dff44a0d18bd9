import SalesData.Execution.Seats

/-!
# Invalidation after a write

`QueryService.run` invalidates behind the execution of a write, on the path of success only
(`core/services/query_service.py:114–123`). So a commit is followed by the invalidation of its
tables as long as the request still awaits the statement when it commits, the driver raises
nothing behind the commit, and nothing strikes the request from then on.
-/

namespace SalesData.Execution

open Base Sql
open Cache (QueryCacheCoordinator Purge)
open Pool (Addr)
open Pool.Async (Choice PC)
open Service (Run)

variable {K P D E : Type} [DecidableEq K] {u : Unicode} {s s' : State K P D E}

/-- The statement of the request is a write. -/
def Request.IsWrite (u : Unicode) (req : Request P) : Prop :=
  classifyOperation u req.run.sql = .write

/-- The purges reach every table of the statement: `clear_all`, or `invalidate_tables` for all
of them. -/
def Request.Covers (u : Unicode) (req : Request P) (purges : List Purge) : Prop :=
  purges = [.all] ∨ purges = (extractTables u req.run.sql).map .table

/-- Once a call for a write has ended, in whatever way, each effect that its statement has
committed by then or commits later was followed by a finished invalidation of its tables. -/
def State.Invalidated (u : Unicode) (s : State K P D E) : Prop :=
  ∀ (r : Nat) (req : Request P), s.requests[r]? = some req → req.IsWrite u →
    ∀ outcome, req.stage = .ended outcome →
    ∀ job ∈ s.jobs, job.owner = r → ∀ n, job.committed = some n →
      ∃ since purges, req.invalidated = some (since, purges) ∧ n < since ∧ req.Covers u purges

/-- Request `r` is a write. -/
def State.Writes (u : Unicode) (s : State K P D E) (r : Nat) : Prop :=
  ∃ req ∈ s.requests[r]?, req.IsWrite u

/-- The warehouse has committed a statement of request `r`. -/
def State.Committed (s : State K P D E) (r : Nat) : Prop :=
  ∃ job ∈ s.jobs, job.owner = r ∧ job.committed ≠ none

/-- The fetch that the request awaits. -/
def Stage.fetch? : Stage → Option Nat
  | fetching _ _ j => some j
  | _ => none

/-- No `CancelledError` is about to be thrown into the request, nor into its call of the pool. -/
def State.Spared (s : State K P D E) (req : Request P) : Prop :=
  req.struck = false ∧
    ∀ t ∈ req.stage.task?, ∀ task ∈ s.pool.tasks[t]?, task.cancelled = false

/-- A write commits while its request awaits the statement, the driver does not raise behind the
commit, and no strike takes effect in the request afterwards. -/
def Settles (u : Unicode) (s : State K P D E) : Act K P D E → Prop
  | .commit j => ∀ job ∈ s.jobs[j]?, s.Writes u job.owner →
    ∀ req ∈ s.requests[job.owner]?, req.stage.fetch? = some j
  | .finish j (some _) => ∀ job ∈ s.jobs[j]?, s.Writes u job.owner → job.committed = none
  | .resume r _ => ∀ req ∈ s.requests[r]?, req.IsWrite u → s.Committed r → s.Spared req
  | _ => True

/-- Where a write can be once its statement, which is job `i`, has committed at step `n`. -/
def Request.Settled (u : Unicode) (req : Request P) (i n : Nat) (state : JobState) : Prop :=
  match req.stage with
  | .fetching _ _ j => j = i ∧ (state = .running ∨ state = .returned)
  | .releasing _ _ _ outcome => outcome = none
  | .flushing since purges _ => n < since ∧ req.Covers u purges
  | .ended _ =>
    ∃ since purges, req.invalidated = some (since, purges) ∧ n < since ∧ req.Covers u purges
  | _ => False

/-- Nothing changes for the request when a job changes that is queued at most. -/
theorem Request.Settled.of_state {req : Request P} {i n : Nat} {state state' : JobState}
    (h : req.Settled u i n state) (hst : state ≠ .queued → state' = state) :
    req.Settled u i n state' := by
  unfold Request.Settled at h ⊢
  cases hg : req.stage with
  | fetching t c j =>
    rw [hg] at h
    obtain ⟨rfl, hstate⟩ := h
    have hne : state ≠ .queued := by rcases hstate with rfl | rfl <;> simp
    rw [hst hne]
    exact ⟨rfl, hstate⟩
  | _ =>
    rw [hg] at h
    exact h

/-- Every write whose statement has committed is on its way through the invalidation. -/
structure SettledInv (u : Unicode) (s : State K P D E) : Prop where
  owned : ∀ job ∈ s.jobs, job.owner < s.requests.length
  past : ∀ job ∈ s.jobs, ∀ n, job.committed = some n → n < s.clock
  settled : ∀ (i n : Nat) (job : Job) (req : Request P), s.jobs[i]? = some job →
    job.committed = some n → s.requests[job.owner]? = some req → req.IsWrite u →
    req.Settled u i n job.state

/-- What is purged behind a write covers its tables. -/
theorem invalidateAfterWrite_covers (s : State K P D E) (r : Nat) (req : Request P) :
    ∃ purges, (s.invalidateAfterWrite u r req).requests =
        s.requests.set r { req with stage := .flushing s.clock purges 0, struck := false } ∧
      req.Covers u purges := by
  refine ⟨_, rfl, ?_⟩
  unfold Cache.purges
  split
  · exact .inr rfl
  · exact .inl rfl

/-- A write that has released its connection, or goes on doing so, is on its way through the
invalidation. -/
theorem released_settled {r t : Nat} {req req' : Request P} {c : Addr}
    (hreq : s.requests[r]? = some req) (hw : req.IsWrite u)
    (hpc : ∀ pc, s.pc? t = some pc → pc.returning = true ∨ pc = .ended none)
    (hreq' : (s.released u r req t c none).requests[r]? = some req') {i n : Nat}
    (hn : n < s.clock) (state : JobState) : req'.Settled u i n state := by
  unfold State.released at hreq'
  split at hreq'
  · have hleave : s.leave u r req none = State.invalidateAfterWrite u { s with
        permits := Function.update s.permits (classifyCost u req.run.sql)
          (s.permits (classifyCost u req.run.sql) + 1) } r req := by
      rw [State.leave]
      exact if_pos hw
    rw [hleave] at hreq'
    obtain ⟨purges, hset, hcov⟩ := invalidateAfterWrite_covers (u := u) { s with
      permits := Function.update s.permits (classifyCost u req.run.sql)
        (s.permits (classifyCost u req.run.sql) + 1) } r req
    rw [hset, getElem?_set_of_some hreq] at hreq'
    obtain rfl := Option.some.inj hreq'
    exact ⟨hn, hcov⟩
  · next failure hfail =>
    rcases hpc _ hfail with hret | hend
    · cases hret
    · cases hend
  · rw [State.put, State.submit, getElem?_set_of_some hreq] at hreq'
    obtain rfl := Option.some.inj hreq'
    rfl
  · rw [State.put, getElem?_set_of_some hreq] at hreq'
    obtain rfl := Option.some.inj hreq'
    rfl

/-- A turn of a write whose statement has committed takes it further, if nothing strikes it. -/
theorem Turn.settled {r i n : Nat} {req req' : Request P} {ch : Choice} {job : Job}
    (ht : Turn u s r req ch s') (hseated : Seated s) (hreq : s.requests[r]? = some req)
    (hw : req.IsWrite u) (hjob : s.jobs[i]? = some job) (hn : n < s.clock)
    (hset : req.Settled u i n job.state) (hspared : s.Spared req)
    (hreq' : s'.requests[r]? = some req') (state : JobState) : req'.Settled u i n state := by
  obtain ⟨hstruck, hcancelled⟩ := hspared
  have hnot (hk : req.struck = true) : False := by simp [hstruck] at hk
  -- The task of the request goes on with its release, which nothing cancels.
  have hpc {t : Nat} {ch' : Choice} {p' : Pool.Async.State} (htask : req.stage.task? = some t)
      (hs : req.stage.session? ≠ none) (hp : Pool.Async.step s.pool (.resume t ch') = some p')
      (pc : PC) (hpc : (p'.tasks[t]?).map (·.pc) = some pc) :
      pc.returning = true ∨ pc = .ended none := by
    obtain ⟨task, hat, hfit⟩ := hseated.seat r req t hreq htask
    rcases returning_of_resume hp hat (hfit.returning hs) hpc with hret | ⟨o, rfl, ho⟩
    · exact .inl hret
    · right
      rw [ho (hcancelled t htask task hat)]
  cases ht with
  | refused hg hk => exact (hnot hk).elim
  | enter hg hk hcall hp hch permits | acquire hg hp hch =>
    rw [Request.Settled, hg] at hset
    exact hset.elim
  | drop htask hj hk hp hch => exact (hnot hk).elim
  | @retry t j c exc hg hk hj =>
    rw [Request.Settled, hg] at hset
    obtain ⟨rfl, hstate⟩ := hset
    rw [State.jobState?, hjob, Option.map_some, Option.some.injEq] at hj
    simp [hj] at hstate
  | @release t j c outcome p' ch' htask hj hk hover ho hp hch =>
    have hsession : req.stage.session? ≠ none := by simp [hj.2]
    have hnone : outcome = none := by
      apply ho.mpr
      cases hg : req.stage with
      | fetching t' c' j' =>
        rw [Request.Settled, hg] at hset
        rw [hg] at htask hj
        obtain rfl : t' = t := Option.some.inj htask
        obtain rfl : j' = j := Option.some.inj hj.1
        obtain rfl : c' = c := Option.some.inj hj.2
        obtain ⟨rfl, hstate⟩ := hset
        refine ⟨rfl, ?_⟩
        rw [State.jobState?, hjob, Option.map_some, Option.some.injEq] at hover ⊢
        rcases hover with hover | ⟨exc, hexc⟩
        · exact hover
        · rw [Option.some.inj hexc] at hstate
          simp at hstate
      | rollingBack t' c' j' exc =>
        rw [Request.Settled, hg] at hset
        exact hset.elim
      | _ =>
        rw [hg] at hj
        cases hj.1
    rw [hnone] at hreq'
    exact released_settled (s := { s with pool := p' }) hreq hw (hpc htask hsession hp) hreq' hn
      state
  | @close s₁ t c close outcome p' ch' hg hs hp hch =>
    rw [Request.Settled, hg] at hset
    have hnone : outcome = none := hset
    have htask : req.stage.task? = some t := by rw [hg]; rfl
    have hsession : req.stage.session? ≠ none := by simp [hg, Stage.session?]
    rw [hnone] at hreq'
    rcases hs with rfl | ⟨j, -, rfl⟩
    · exact released_settled (s := { s₁ with pool := p' }) hreq hw (hpc htask hsession hp) hreq'
        hn state
    · exact released_settled (s := { s.dropJob j with pool := p' }) hreq hw
        (hpc htask hsession hp) hreq' hn state
  | interrupt hg hk => exact (hnot hk).elim
  | flush hg hk hlt =>
    rw [State.put, getElem?_set_of_some hreq] at hreq'
    obtain rfl := Option.some.inj hreq'
    rw [Request.Settled, hg] at hset
    exact hset
  | @flushed since k purges hg hk hle =>
    rw [State.put, getElem?_set_of_some hreq] at hreq'
    obtain rfl := Option.some.inj hreq'
    rw [Request.Settled, hg] at hset
    exact ⟨since, purges, rfl, hset⟩

namespace SettledInv

omit [DecidableEq K] in
/-- The invariant looks at the jobs, the requests and the clock. -/
theorem congr (h : SettledInv u s) (hjobs : s'.jobs = s.jobs) (hreqs : s'.requests = s.requests)
    (hclock : s.clock ≤ s'.clock) : SettledInv u s' := by
  constructor
  · rw [hjobs, hreqs]
    exact h.owned
  · intro job hmem n hn
    rw [hjobs] at hmem
    have hlt := h.past job hmem n hn
    omega
  · rw [hjobs, hreqs]
    exact h.settled

/-- A turn keeps the invariant, if it settles. -/
theorem turn (h : SettledInv u s) (hseated : Seated s) {r : Nat} {req : Request P} {ch : Choice}
    (ht : Turn u s r req ch s') (hreq : s.requests[r]? = some req)
    (hok : Settles u s (.resume r ch : Act K P D E)) : SettledInv u s' := by
  obtain ⟨hclock, ⟨req', hreqs, hrun⟩, hjobs⟩ := ht.frame
  have hr : r < s.requests.length := (List.getElem?_eq_some_iff.mp hreq).1
  have hself : s'.requests[r]? = some req' := by rw [hreqs, getElem?_set_of_some hreq]
  constructor
  · intro job' hmem
    obtain ⟨i, hi⟩ := List.getElem?_of_mem hmem
    rw [hreqs, List.length_set]
    rcases hjobs i job' hi with ⟨job, hjob, ho, -, -, -⟩ | ⟨ho, -⟩
    · rw [ho]
      exact h.owned job (List.mem_of_getElem? hjob)
    · rw [ho]
      exact hr
  · intro job' hmem n hn
    obtain ⟨i, hi⟩ := List.getElem?_of_mem hmem
    rw [hclock]
    rcases hjobs i job' hi with ⟨job, hjob, -, -, hc, -⟩ | ⟨-, hc⟩
    · exact h.past job (List.mem_of_getElem? hjob) n (hc ▸ hn)
    · rw [hc] at hn
      cases hn
  · intro i n job' q hi hn hq hw
    rcases hjobs i job' hi with ⟨job, hjob, ho, -, hc, hst⟩ | ⟨-, hc⟩
    · rw [ho, hreqs] at hq
      rw [hc] at hn
      rcases getElem?_set_cases hq with ⟨hown, rfl⟩ | ⟨hne, hold⟩
      · rw [← hown] at hreq
        have hw' : req.IsWrite u := by rwa [Request.IsWrite, hrun] at hw
        have hset := h.settled i n job req hjob hn hreq hw'
        have hspared := hok req (by rw [← hown, hreq]; rfl) hw'
          ⟨job, List.mem_of_getElem? hjob, hown, by simp [hn]⟩
        rw [hown] at hreq
        exact ht.settled hseated hreq hw' hjob (h.past job (List.mem_of_getElem? hjob) n hn) hset
          hspared hself job'.state
      · exact (h.settled i n job q hjob hn hold hw).of_state hst
    · rw [hc] at hn
      cases hn

omit [DecidableEq K] in
/-- A job goes on in its thread. -/
theorem advance (h : SettledInv u s) {j : Nat} {job job' : Job} {a : Act K P D E}
    (hj : s.jobs[j]? = some job) (ha : a.job? = some j) (hadv : job.advance s.clock a = some job')
    (hok : Settles u s a) :
    SettledInv u { s with jobs := s.jobs.set j job', clock := s.clock + 1 } := by
  have hmem := List.mem_of_getElem? hj
  -- What the change of the job means for its owner.
  have hkey : job'.owner = job.owner ∧ ∀ n, job'.committed = some n → n < s.clock + 1 ∧
      ∀ req, s.requests[job.owner]? = some req → req.IsWrite u →
        req.Settled u j n job'.state := by
    cases a with
    | start i =>
      obtain rfl : i = j := Option.some.inj ha
      simp only [Job.advance] at hadv
      split at hadv
      · next hq =>
        obtain rfl := Option.some.inj hadv
        refine ⟨rfl, fun n hn ↦ ⟨?_, fun req hreq hw ↦ ?_⟩⟩
        · exact Nat.lt_succ_of_lt (h.past job hmem n hn)
        · exact (h.settled i n job req hj hn hreq hw).of_state fun hne ↦ absurd hq hne
      · cases hadv
    | commit i =>
      obtain rfl : i = j := Option.some.inj ha
      simp only [Job.advance] at hadv
      split at hadv
      · next hrun =>
        obtain rfl := Option.some.inj hadv
        refine ⟨rfl, fun n hn ↦ ?_⟩
        obtain rfl := Option.some.inj hn
        refine ⟨Nat.lt_succ_self _, fun req hreq hw ↦ ?_⟩
        have hfetch := hok job (by rw [hj]; rfl) ⟨req, by rw [hreq]; rfl, hw⟩ req
          (by rw [hreq]; rfl)
        unfold Request.Settled
        cases hg : req.stage with
        | fetching t c k =>
          rw [hg] at hfetch
          exact ⟨Option.some.inj hfetch, .inl hrun.1⟩
        | _ =>
          rw [hg] at hfetch
          cases hfetch
      · cases hadv
    | finish i exc =>
      obtain rfl : i = j := Option.some.inj ha
      simp only [Job.advance] at hadv
      split at hadv
      · next hrun =>
        obtain rfl := Option.some.inj hadv
        refine ⟨rfl, fun n hn ↦ ⟨Nat.lt_succ_of_lt (h.past job hmem n hn), fun req hreq hw ↦ ?_⟩⟩
        have hset := h.settled i n job req hj hn hreq hw
        cases exc with
        | none =>
          unfold Request.Settled at hset ⊢
          cases hg : req.stage with
          | fetching t c k =>
            rw [hg] at hset
            exact ⟨hset.1, .inr rfl⟩
          | _ =>
            rw [hg] at hset
            exact hset
        | some exc =>
          have hnone := hok job (by rw [hj]; rfl) ⟨req, by rw [hreq]; rfl, hw⟩
          rw [hnone] at hn
          cases hn
      · cases hadv
    | _ => cases ha
  obtain ⟨howner, hkey⟩ := hkey
  constructor
  · refine forall_mem_set h.owned ?_
    rw [howner]
    exact h.owned job hmem
  · refine forall_mem_set (fun job hmem n hn ↦ ?_) fun n hn ↦ (hkey n hn).1
    exact Nat.lt_succ_of_lt (h.past job hmem n hn)
  · intro i n k req hi hn hreq hw
    rcases getElem?_set_cases hi with ⟨rfl, rfl⟩ | ⟨-, hold⟩
    · exact (hkey n hn).2 req (howner ▸ hreq) hw
    · exact h.settled i n k req hold hn hreq hw

/-- No step that settles breaks the invariant. -/
theorem step (h : SettledInv u s) (hseated : Seated s) {a : Act K P D E} (hok : Settles u s a)
    (hstep : Execution.step u s a = some s') : SettledInv u s' := by
  rcases step_cases hstep with ⟨run, rfl, -, rfl⟩ | ⟨r, ch, req, s₁, rfl, hreq, hch, ht, rfl⟩ |
    ⟨r, how, req, s₁, rfl, hreq, hstrike, rfl⟩ | ⟨j, job, job', ha, hj, hadv, rfl⟩ |
    ⟨pool, hpool, rfl⟩ | ⟨cache, rfl, rfl⟩
  · constructor
    · intro job hmem
      have hlt := h.owned job hmem
      simp only [List.length_append, List.length_singleton]
      omega
    · exact fun job hmem n hn ↦ Nat.lt_succ_of_lt (h.past job hmem n hn)
    · intro i n job req hi hn hreq hw
      rw [List.getElem?_append_left (h.owned job (List.mem_of_getElem? hi))] at hreq
      exact h.settled i n job req hi hn hreq hw
  · refine (h.turn hseated ht hreq hok).congr rfl rfl ?_
    rw [ht.frame.clock]
    exact Nat.le_succ _
  · obtain ⟨struck, pool, rfl, -⟩ := strike_spec hstrike
    constructor
    · intro job hmem
      simp only [List.length_set]
      exact h.owned job hmem
    · exact fun job hmem n hn ↦ Nat.lt_succ_of_lt (h.past job hmem n hn)
    · intro i n job q hi hn hq hw
      rcases getElem?_set_cases hq with ⟨hown, rfl⟩ | ⟨-, hold⟩
      · exact h.settled i n job req hi hn (hown ▸ hreq) hw
      · exact h.settled i n job q hi hn hold hw
  · exact h.advance hj ha hadv hok
  · exact h.congr rfl rfl (Nat.le_succ _)
  · exact h.congr rfl rfl (Nat.le_succ _)

omit [DecidableEq K] in
/-- A write that has ended has been through the invalidation. -/
theorem invalidated (h : SettledInv u s) : s.Invalidated u := by
  intro r req hreq hw outcome hstage job hmem howner n hn
  obtain ⟨i, hi⟩ := List.getElem?_of_mem hmem
  have hset := h.settled i n job req hi hn (howner ▸ hreq) hw
  rw [Request.Settled, hstage] at hset
  exact hset

end SettledInv

/-- In every run in which a write commits while its request awaits the statement, the driver
does not raise behind the commit, and no strike takes effect from then on, every effect of a
write that has ended was followed by a finished invalidation of its tables. -/
theorem writes_invalidated {minConn maxConn : Nat} {permits : Cost → Nat}
    {cache : QueryCacheCoordinator K Text D E}
    (h : (system u minConn maxConn permits cache).Reach (Settles u) s) : s.Invalidated u := by
  apply SettledInv.invalidated
  refine h.invariant_of (P := SettledInv u) (fun _ hs ↦ seated_of_reach hs) ?_ ?_
  · constructor <;> simp [system]
  · intro s a s' hs hseated _ hok hstep
    exact hs.step hseated hok hstep

instance (req : Request P) : Decidable (req.IsWrite u) := by
  unfold Request.IsWrite; infer_instance

instance (s : State K P D E) (r : Nat) : Decidable (s.Writes u r) := by
  unfold State.Writes; infer_instance

instance (s : State K P D E) (r : Nat) : Decidable (s.Committed r) := by
  unfold State.Committed; infer_instance

instance (s : State K P D E) (req : Request P) : Decidable (s.Spared req) := by
  unfold State.Spared; infer_instance

instance (s : State K P D E) (a : Act K P D E) : Decidable (Settles u s a) :=
  match a with
  | .commit j => inferInstanceAs (Decidable (∀ job ∈ s.jobs[j]?, s.Writes u job.owner →
      ∀ req ∈ s.requests[job.owner]?, req.stage.fetch? = some j))
  | .finish j (some _) => inferInstanceAs (Decidable (∀ job ∈ s.jobs[j]?,
      s.Writes u job.owner → job.committed = none))
  | .resume r _ => inferInstanceAs (Decidable (∀ req ∈ s.requests[r]?, req.IsWrite u →
      s.Committed r → s.Spared req))
  | .finish _ none | .call _ | .strike _ _ | .timer _ | .start _ | .metrics
  | .others _ => isTrue trivial

private def deleteOrders : Run Nat := ⟨⟨true, true⟩, "DELETE FROM orders".toList, 0, "write".toList⟩

private def oneWriter : System (State Nat Nat Nat Nat) (Act Nat Nat Nat Nat) :=
  system .basic 1 1 (fun _ ↦ 4) (.new 1 3600 Nat.one_pos)

/-- A write times out while a thread is inside the driver; the thread commits it afterwards, and
nothing is ever invalidated. -/
theorem timedOutWrite_commits : ∃ s, oneWriter.Reachable s ∧ ¬ s.Invalidated .basic := by
  obtain ⟨s, hreach, hs⟩ := System.exists_of_exec oneWriter (fun _ _ ↦ True)
    [.call deleteOrders, .resume 0 { addr := 10 }, .resume 0 { addr := 11 }, .start 0,
      .strike 0 .timeout, .resume 0 { addr := 12 }, .commit 0, .finish 0 none]
    (fun s ↦ s.jobs == [⟨0, .fetchAll, 11, .returned, some 6⟩] && s.requests ==
      [⟨deleteOrders, .ended (some .queryTimeoutError), false, true, false, none⟩])
    (by decide +kernel)
  simp only [Bool.and_eq_true, beq_iff_eq] at hs
  refine ⟨s, hreach, fun hinv ↦ ?_⟩
  obtain ⟨since, purges, hnone, -⟩ := hinv 0 _ (by rw [hs.2]; rfl) (by decide +kernel) _ rfl
    ⟨0, .fetchAll, 11, .returned, some 6⟩ (by simp [hs.1]) rfl 6 rfl
  cases hnone

/-- A write that is left alone is invalidated behind its commit. -/
theorem writes_invalidated_delete : ∃ s, oneWriter.Reach (Settles .basic) s ∧
    s.jobs = [⟨0, .fetchAll, 11, .returned, some 4⟩] ∧ s.requests =
      [⟨deleteOrders, .ended none, false, false, false, some (6, [.all])⟩] ∧
    s.Invalidated .basic := by
  obtain ⟨s, hreach, hs⟩ := System.exists_of_exec oneWriter (Settles .basic)
    [.call deleteOrders, .resume 0 { addr := 10 }, .resume 0 { addr := 11 }, .start 0,
      .commit 0, .finish 0 none, .resume 0 { addr := 12 }, .resume 0 { addr := 13 }]
    (fun s ↦ s.jobs == [⟨0, .fetchAll, 11, .returned, some 4⟩] && s.requests ==
      [⟨deleteOrders, .ended none, false, false, false, some (6, [.all])⟩])
    (by decide +kernel)
  simp only [Bool.and_eq_true, beq_iff_eq] at hs
  exact ⟨s, hreach, hs.1, hs.2, writes_invalidated hreach⟩

end SalesData.Execution

import SalesData.Performance.ServedProfiler

/-!
# The middleware over whole runs

Any requests at once are answered as their handlers end, and the registry and the sampler account
for each (`core/performance/middleware/fastapi.py:83–152`).
-/

namespace SalesData.Performance.Middleware

open Base

variable {F R : Type}

/-- The id of a request with a profiler. -/
def Request.requestId? (request : Request F R) : Option Text :=
  request.profiler.map (·.requestId)

/-- The sampler's view of an ended request. -/
def Request.isBad (config : PerformanceConfig) (code : R → Int) (request : Request F R) : Bool :=
  match request.ended with
  | some ended =>
    AdaptiveSampler.isBad config.sampler (ended.ending.statusCode code) ended.durationSeconds
  | none => false

/-- `uuid4` repeats no id, points and stages have the types of their names and values that are
taken, and the clock stays within the horizon. -/
def Conforms (fl : Floats F) (types : MetricName → MetricType) (start horizon : Int)
    (s : Serving F R) : Event F R → Prop
  | .arrive a => a.requestId ∉ s.requests.filterMap Request.requestId?
  | .work _ w => w.Conforms fl types ∧ s.now + w.elapsed ≤ start + horizon
  | .finish _ _ d => s.now + d.finished ≤ start + horizon
  | .ingest points => ∀ point ∈ points, Accepted fl types point

instance (fl : Floats F) (types : MetricName → MetricType) (start horizon : Int)
    (s : Serving F R) (event : Event F R) : Decidable (Conforms fl types start horizon s event) :=
  match event with
  | .arrive a => inferInstanceAs
      (Decidable (a.requestId ∉ s.requests.filterMap Request.requestId?))
  | .work _ w => inferInstanceAs
      (Decidable (w.Conforms fl types ∧ s.now + w.elapsed ≤ start + horizon))
  | .finish _ _ d => inferInstanceAs (Decidable (s.now + d.finished ≤ start + horizon))
  | .ingest points => inferInstanceAs (Decidable (∀ point ∈ points, Accepted fl types point))

/-- The sampler counts every request, every profiler and every bad ending. -/
structure Counted (config : PerformanceConfig) (code : R → Int) (sampler : AdaptiveSampler)
    (requests : List (Request F R)) : Prop where
  asked : sampler.totalRequests = requests.length
  sampled : sampler.totalSampled = requests.countP (·.profiler.isSome)
  bad : sampler.totalBadOutcomes = requests.countP (Request.isBad config code)

/-- No request is answered otherwise than its handler does, each sampled one that is over has one
profile, and the registry and the sampler count them. -/
structure Transparent (config : PerformanceConfig) (code : R → Int) (maxRequestHistory : Nat)
    (s : Serving F R) : Prop where
  answers : ∀ request ∈ s.requests, ∀ ended, request.ended = some ended →
    ended.answer = .inner ended.ending
  recorded : (s.recorded.map summaryOf).Perm (s.requests.filterMap (·.summary code))
  total : s.registry.totalRequestsRecorded = s.recorded.length
  history : 1 ≤ maxRequestHistory → Agrees s.registry s.recorded
  sampler : config.adaptiveSampling = true → Counted config code s.sampler s.requests

/-- What every step keeps, besides. -/
structure Inv (fl : Floats F) (config : PerformanceConfig) (code : R → Int)
    (types : MetricName → MetricType) (maxRequestHistory : Nat) (start : Int)
    (s : Serving F R) : Prop extends Transparent config code maxRequestHistory s where
  started : start ≤ s.now
  bound : s.registry.maxRequestHistory = maxRequestHistory
  typed : Typed types s.registry.aggregator
  ids : (s.requests.filterMap Request.requestId?).Nodup
  live : ∀ request ∈ s.requests, ∀ profiler, request.profiler = some profiler →
    request.ended = none →
    Live fl types start s.now (request.scopes + 2) profiler ∧
      profiler.tags = methodTags request.method

private theorem inv_init {fl : Floats F} {config : PerformanceConfig} {code : R → Int}
    {types : MetricName → MetricType} {maxRequestHistory : Nat} {windowStart : ℚ} {start : Int} :
    Inv fl config code types maxRequestHistory start
      ⟨.create maxRequestHistory, .new config.sampler windowStart, start, [], []⟩ where
  answers := fun _ h ↦ absurd h List.not_mem_nil
  recorded := List.Perm.refl _
  total := rfl
  history := fun _ ↦ agrees_create maxRequestHistory
  sampler := fun _ ↦ ⟨rfl, rfl, rfl⟩
  started := le_refl start
  bound := rfl
  typed := nofun
  ids := List.nodup_nil
  live := fun _ h ↦ absurd h List.not_mem_nil

/-- When no id is repeated, none is dropped that is still retained. -/
theorem unrepeated_of_nodup {registry : PerformanceRegistry F}
    {recorded : List (RequestProfile F)} (h : Agrees registry recorded)
    (hnodup : (recorded.map (·.requestId)).Nodup) (profile : RequestProfile F) :
    OldestUnrepeated registry profile := by
  intro oldest rest hitems _
  right
  intro other hother heq
  have hsub : registry.history.items.Sublist recorded := by
    rw [h.history, List.rtake]
    exact List.drop_sublist _ _
  have hitems' := (hsub.map (·.requestId)).nodup hnodup
  rw [hitems, List.map_cons, List.nodup_cons] at hitems'
  exact hitems'.1 (heq ▸ List.mem_map_of_mem hother)

/-- Retention counts a profile. -/
theorem total_retain (registry : PerformanceRegistry F) (profile : RequestProfile F) :
    (registry.retain profile).1.totalRequestsRecorded = registry.totalRequestsRecorded + 1 := by
  unfold PerformanceRegistry.retain PerformanceRegistry.forget
  split
  · rfl
  · split
    · split <;> rfl
    · rfl

/-- A profile with an id of its own is retained. -/
theorem retain_fresh {registry : PerformanceRegistry F} {recorded : List (RequestProfile F)}
    (hagrees : 1 ≤ registry.maxRequestHistory → Agrees registry recorded)
    (hnodup : (recorded.map (·.requestId)).Nodup) (aggregator : MetricsAggregator F)
    (profile : RequestProfile F) :
    ({ registry with aggregator }.retain profile).2 = .ok () ∧
      (1 ≤ registry.maxRequestHistory →
        Agrees ({ registry with aggregator }.retain profile).1 (recorded ++ [profile])) := by
  rcases Nat.eq_zero_or_pos registry.maxRequestHistory with hzero | hpos
  · constructor
    · have hevicted : { registry with aggregator }.evictedId = none :=
        if_neg fun h ↦ h.1 hzero
      rw [PerformanceRegistry.retain, hevicted]
    · intro hone
      rw [hzero] at hone
      cases hone
  · have h := hagrees hpos
    have hagrees' : Agrees { registry with aggregator } recorded := ⟨h.history, h.byId, h.keys⟩
    have hpos' : 1 ≤ { registry with aggregator }.maxRequestHistory := hpos
    have hretain := (retain_agrees_iff profile hpos' hagrees').mpr
      (unrepeated_of_nodup hagrees' hnodup profile)
    exact ⟨hretain.1, fun _ ↦ hretain.2⟩

section Steps

variable {fl : Floats F} {config : PerformanceConfig} {code : R → Int} {str : Error → Text}
  {types : MetricName → MetricType} {maxRequestHistory : Nat} {start horizon : Int}
  {s s' : Serving F R}

/-- What is asked of the sampler counts the request. -/
theorem wasSampled_counts (config : PerformanceConfig) (sampler : AdaptiveSampler) (a : Arrival)
    (hadaptive : config.adaptiveSampling = true) :
    (wasSampled config sampler a).1.totalRequests = sampler.totalRequests + 1 ∧
      (wasSampled config sampler a).1.totalSampled =
        sampler.totalSampled + (if (wasSampled config sampler a).2 then 1 else 0) ∧
      (wasSampled config sampler a).1.totalBadOutcomes = sampler.totalBadOutcomes := by
  rw [wasSampled, if_pos hadaptive]
  obtain ⟨s₁, hs₁, hshould⟩ := @AdaptiveSampler.shouldSample_cases config.sampler sampler
    a.elapsedAt a.resetAt a.askedAt a.draw
  have htotals : s₁.totalSampled = sampler.totalSampled ∧
      s₁.totalRequests = sampler.totalRequests + 1 ∧
      s₁.totalBadOutcomes = sampler.totalBadOutcomes := by
    subst hs₁
    unfold AdaptiveSampler.maybeAdjust
    dsimp only
    split <;> exact ⟨rfl, rfl, rfl⟩
  obtain ⟨hsampled, hrequests, hbad⟩ := htotals
  rw [hshould]
  split
  · exact ⟨hrequests, congrArg (· + 1) hsampled, hbad⟩
  · exact ⟨hrequests, hsampled, hbad⟩

/-- A request that arrives, with its profiler if it has one. -/
theorem Counted.arrive {requests : List (Request F R)} {sampler : AdaptiveSampler}
    (h : Counted config code sampler requests) (hadaptive : config.adaptiveSampling = true)
    (a : Arrival) {request : Request F R} (hended : request.ended = none)
    (hsampled : request.profiler.isSome = (wasSampled config sampler a).2) :
    Counted config code (wasSampled config sampler a).1 (requests ++ [request]) := by
  obtain ⟨hrequests, hcount, hbad⟩ := wasSampled_counts config sampler a hadaptive
  refine ⟨?_, ?_, ?_⟩
  · rw [hrequests, h.asked, List.length_append, List.length_singleton]
  · rw [hcount, h.sampled, List.countP_append, List.countP_singleton, hsampled]
  · rw [hbad, h.bad, List.countP_append, List.countP_singleton]
    simp [Request.isBad, hended]

/-- The sampler hears of an ending. -/
theorem Counted.finish {requests : List (Request F R)} {sampler : AdaptiveSampler} {k : Nat}
    {request : Request F R} (h : Counted config code sampler requests)
    (hadaptive : config.adaptiveSampling = true) (hk : requests[k]? = some request)
    (hnone : request.ended = none) {profiler : Option (RequestProfiler F)}
    (hprofiler : profiler.isSome = request.profiler.isSome) (ended : Ended R) (escalatedAt : ℚ) :
    Counted config code
      (recordOutcome config code sampler ended.ending ended.durationSeconds escalatedAt)
      (requests.set k (request.over profiler ended)) := by
  have hsampled := tally_set (w := fun r : Request F R ↦ if r.profiler.isSome then 1 else 0) hk
    (request.over profiler ended)
  have hbad := tally_set (w := fun r : Request F R ↦ if r.isBad config code then 1 else 0) hk
    (request.over profiler ended)
  have hsame : (request.over profiler ended).profiler.isSome = request.profiler.isSome := hprofiler
  rw [← countP_eq_tally, ← countP_eq_tally, hsame] at hsampled
  rw [← countP_eq_tally (Request.isBad config code), ← countP_eq_tally (Request.isBad config code)]
    at hbad
  have hbefore : request.isBad config code = false := by rw [Request.isBad, hnone]
  have hafter : (request.over profiler ended).isBad config code =
      AdaptiveSampler.isBad config.sampler (ended.ending.statusCode code)
        ended.durationSeconds := rfl
  rw [hbefore, hafter] at hbad
  rw [recordOutcome, if_pos hadaptive, AdaptiveSampler.recordOutcome]
  have hr := h.asked
  have hs := h.sampled
  have hb := h.bad
  split
  · next hisBad =>
    rw [hisBad] at hbad
    refine ⟨?_, ?_, ?_⟩
    · rw [List.length_set]
      exact hr
    · show sampler.totalSampled = _
      omega
    · show sampler.totalBadOutcomes + 1 = _
      simp only [if_true, Bool.false_eq_true, if_false] at hbad
      omega
  · next hisBad =>
    rw [Bool.not_eq_true] at hisBad
    rw [hisBad] at hbad
    refine ⟨?_, ?_, ?_⟩
    · rw [List.length_set]
      exact hr
    · omega
    · simp only [Bool.false_eq_true, if_false] at hbad
      omega

/-- A summary has the id of its request. -/
theorem requestId_of_summary {request : Request F R} {summary : Summary}
    (h : request.summary code = some summary) : request.requestId? = some summary.requestId := by
  unfold Request.summary at h
  split at h
  · next profiler ended hprofiler hended =>
    cases h
    rw [Request.requestId?, hprofiler]
    rfl
  · cases h

/-- No two recorded profiles have one id. -/
theorem Inv.nodup_recorded (h : Inv fl config code types maxRequestHistory start s) :
    (s.recorded.map (·.requestId)).Nodup := by
  have hsub : ((s.requests.filterMap (·.summary code)).map (·.requestId)).Sublist
      (s.requests.filterMap Request.requestId?) := by
    induction s.requests with
    | nil => exact List.Sublist.refl _
    | cons request requests ih =>
      cases hsummary : request.summary code with
      | none =>
        rw [List.filterMap_cons_none hsummary]
        exact ih.trans ((List.sublist_cons_self request requests).filterMap _)
      | some summary =>
        rw [List.filterMap_cons_some hsummary,
          List.filterMap_cons_some (requestId_of_summary hsummary), List.map_cons]
        exact ih.cons_cons _
  have hperm := h.recorded.map (·.requestId)
  rw [List.map_map] at hperm
  exact hperm.nodup_iff.mpr (hsub.nodup h.ids)

/-- A request is added that is not over. -/
theorem Inv.add (h : Inv fl config code types maxRequestHistory start s) {request : Request F R}
    {sampler : AdaptiveSampler} {now' : Int} (hended : request.ended = none)
    (hfresh : ∀ id ∈ request.requestId?, id ∉ s.requests.filterMap Request.requestId?)
    (hsampler : config.adaptiveSampling = true →
      Counted config code sampler (s.requests ++ [request]))
    (hnow : s.now ≤ now')
    (hlive : ∀ profiler, request.profiler = some profiler →
      Live fl types start now' (request.scopes + 2) profiler ∧
        profiler.tags = methodTags request.method) :
    Inv fl config code types maxRequestHistory start
      { s with sampler, now := now', requests := s.requests ++ [request] } := by
  refine ⟨⟨?_, ?_, h.total, h.history, hsampler⟩, h.started.trans hnow, h.bound, h.typed, ?_, ?_⟩
  · intro other hmem ended hother
    rcases List.mem_append.mp hmem with hmem | hmem
    · exact h.answers other hmem ended hother
    · obtain rfl := List.mem_singleton.mp hmem
      rw [hended] at hother
      cases hother
  · have hnone : request.summary code = none := by
      unfold Request.summary
      rw [hended]
      cases request.profiler <;> rfl
    show (s.recorded.map summaryOf).Perm ((s.requests ++ [request]).filterMap _)
    rw [List.filterMap_append, List.filterMap_cons_none hnone, List.filterMap_nil,
      List.append_nil]
    exact h.recorded
  · show ((s.requests ++ [request]).filterMap Request.requestId?).Nodup
    rw [List.filterMap_append]
    cases hid : request.requestId? with
    | none =>
      rw [List.filterMap_cons_none hid, List.filterMap_nil, List.append_nil]
      exact h.ids
    | some id =>
      rw [List.filterMap_cons_some hid, List.filterMap_nil]
      refine h.ids.append (List.nodup_singleton _) ?_
      rw [List.disjoint_singleton]
      exact hfresh id hid
  · intro other hmem profiler hprofiler hother
    rcases List.mem_append.mp hmem with hmem | hmem
    · obtain ⟨hold, htags⟩ := h.live other hmem profiler hprofiler hother
      exact ⟨hold.later hnow, htags⟩
    · obtain rfl := List.mem_singleton.mp hmem
      exact hlive profiler hprofiler

/-- Arrivals keep the invariant. -/
theorem Inv.arrive (h : Inv fl config code types maxRequestHistory start s)
    (hdispatch : types "dispatch".toList = .timer) {a : Arrival}
    (hfresh : a.requestId ∉ s.requests.filterMap Request.requestId?)
    (hstep : step fl config code str s (.arrive a) = some s') :
    Inv fl config code types maxRequestHistory start s' := by
  unfold step at hstep
  dsimp only at hstep
  split at hstep
  · next hsampled =>
    obtain ⟨profiler, hopen, hlive, hid, htags⟩ :=
      openProfiler_live fl a hdispatch h.started
    rw [hopen] at hstep
    cases hstep
    apply h.add rfl
    · intro id hmem
      obtain rfl := Option.some.inj hmem
      show profiler.requestId ∉ _
      rw [hid]
      exact hfresh
    · exact fun hadaptive ↦ (h.sampler hadaptive).arrive hadaptive a rfl hsampled.symm
    · omega
    · intro other hother
      cases hother
      exact ⟨hlive, htags⟩
  · next hsampled =>
    rw [Bool.not_eq_true] at hsampled
    cases hstep
    apply h.add rfl
    · exact nofun
    · exact fun hadaptive ↦ (h.sampler hadaptive).arrive hadaptive a rfl hsampled.symm
    · exact le_refl _
    · exact nofun

private theorem filterMap_set_same {A B : Type} {f : A → Option B} {as : List A} {k : Nat}
    {a a' : A} (hk : as[k]? = some a) (hsame : f a' = f a) :
    ((as.set k a').filterMap f).Perm (as.filterMap f) := by
  have hset := filterMap_set (f := f) hk a'
  rw [hsame] at hset
  exact (List.perm_append_right_iff _).mp hset

/-- Work keeps the invariant. -/
theorem Inv.work (h : Inv fl config code types maxRequestHistory start s)
    (hofInt : Converts fl horizon) {k : Nat} {w : Work F} (hw : w.Conforms fl types)
    (hhorizon : s.now + w.elapsed ≤ start + horizon)
    (hstep : step fl config code str s (.work k w) = some s') :
    Inv fl config code types maxRequestHistory start s' := by
  unfold step at hstep
  dsimp only at hstep
  split at hstep
  · cases hstep
  · next request hk =>
    have hmem := List.mem_of_getElem? hk
    split at hstep
    · cases hstep
      exact h
    · next profiler hprofiler =>
      obtain ⟨⟨profiler', scopes'⟩, hrun, rfl⟩ := Option.map_eq_some_iff.mp hstep
      obtain ⟨hid, htags⟩ := run_same hrun
      have hsummary : Request.summary code
          { request with profiler := some profiler', scopes := scopes' } =
            request.summary code := by
        unfold Request.summary
        rw [hprofiler]
        cases request.ended with
        | none => rfl
        | some ended => simp [hid]
      have hrequestId : Request.requestId?
          { request with profiler := some profiler', scopes := scopes' } =
            request.requestId? := by
        unfold Request.requestId?
        rw [hprofiler]
        exact congrArg some hid
      refine ⟨⟨?_, ?_, h.total, h.history, ?_⟩, ?_, h.bound, h.typed, ?_, ?_⟩
      · exact forall_mem_set h.answers (h.answers request hmem)
      · exact h.recorded.trans (filterMap_set_same hk hsummary).symm
      · intro hadaptive
        obtain ⟨hasked, hsampled, hbad⟩ := h.sampler hadaptive
        have hcount {p : Request F R → Bool}
            (hsame : p { request with profiler := some profiler', scopes := scopes' } =
              p request) :
            (s.requests.set k { request with
              profiler := some profiler', scopes := scopes' }).countP p =
                s.requests.countP p := by
          have := tally_set (w := fun r ↦ if p r then 1 else 0) hk
            { request with profiler := some profiler', scopes := scopes' }
          rw [← countP_eq_tally p, ← countP_eq_tally p, hsame] at this
          omega
        refine ⟨?_, ?_, ?_⟩
        · rw [List.length_set]
          exact hasked
        · rw [hcount (by rw [hprofiler]; rfl)]
          exact hsampled
        · rw [hcount rfl]
          exact hbad
      · have := h.started
        show start ≤ s.now + w.elapsed
        omega
      · exact (filterMap_set_same hk hrequestId).nodup_iff.mpr h.ids
      · refine forall_mem_set ?_ ?_
        · intro other hother profiler₁ hprofiler₁ hended
          obtain ⟨hlive, htags'⟩ := h.live other hother profiler₁ hprofiler₁ hended
          exact ⟨hlive.later (by dsimp only; omega), htags'⟩
        · intro profiler₁ hprofiler₁ hended
          cases hprofiler₁
          obtain ⟨hlive, htags'⟩ := h.live request hmem profiler hprofiler hended
          exact ⟨hlive.run hofInt h.started hw hhorizon hrun, htags.trans htags'⟩

/-- What is said of a request that is over. -/
theorem summary_over (request : Request F R) (profiler : RequestProfiler F) (ended : Ended R) :
    (request.over profiler ended).summary code = some
      ⟨profiler.requestId, ended.ending.tag code (methodTags request.method) ended.route,
        ended.ending.status, ended.ending.error⟩ := rfl

/-- The other requests and the ids when one request is over. -/
theorem Inv.over (h : Inv fl config code types maxRequestHistory start s) {k : Nat}
    {request : Request F R} (hk : s.requests[k]? = some request)
    (profiler : Option (RequestProfiler F)) (ended : Ended R) {now' : Int}
    (hid : profiler.map (·.requestId) = request.requestId?)
    (hanswer : ended.answer = .inner ended.ending) (hnow : s.now ≤ now') :
    (∀ other ∈ s.requests.set k (request.over profiler ended), ∀ ended,
      other.ended = some ended → ended.answer = .inner ended.ending) ∧
    ((s.requests.set k (request.over profiler ended)).filterMap Request.requestId?).Nodup ∧
    ∀ other ∈ s.requests.set k (request.over profiler ended), ∀ profiler,
      other.profiler = some profiler → other.ended = none →
        Live fl types start now' (other.scopes + 2) profiler ∧
          profiler.tags = methodTags other.method := by
  refine ⟨forall_mem_set h.answers ?_, ?_, forall_mem_set ?_ ?_⟩
  · intro ended' hended
    cases hended
    exact hanswer
  · exact (filterMap_set_same hk hid).nodup_iff.mpr h.ids
  · intro other hother profiler hprofiler hended
    obtain ⟨hlive, htags⟩ := h.live other hother profiler hprofiler hended
    exact ⟨hlive.later hnow, htags⟩
  · exact fun _ _ hended ↦ nomatch hended

/-- The end of a request keeps the invariant. -/
theorem Inv.finish (h : Inv fl config code types maxRequestHistory start s)
    (hofInt : Converts fl horizon) {k : Nat} {ending : Ending R} {d : Departure}
    (hhorizon : s.now + d.finished ≤ start + horizon)
    (hstep : step fl config code str s (.finish k ending d) = some s') :
    Inv fl config code types maxRequestHistory start s' := by
  unfold step at hstep
  dsimp only at hstep
  split at hstep
  · cases hstep
  · next request hk =>
    split at hstep
    · cases hstep
    · next hopen =>
      have hnone : request.ended = none := by
        cases hended : request.ended with
        | none => rfl
        | some ended =>
          rw [hended] at hopen
          exact absurd rfl hopen
      have hbefore : request.summary code = none := by
        unfold Request.summary
        rw [hnone]
        cases request.profiler <;> rfl
      split at hstep
      · next hprofiler =>
        cases hstep
        obtain ⟨hanswers, hids, hlive⟩ := h.over hk none
          ⟨ending, d.route, d.endedAt - request.startedAt, .inner ending⟩
          (by rw [Request.requestId?, hprofiler]) rfl (le_refl s.now)
        refine ⟨⟨hanswers, ?_, h.total, h.history, fun hadaptive ↦ ?_⟩, h.started, h.bound,
          h.typed, hids, hlive⟩
        · exact h.recorded.trans (filterMap_set_same hk hbefore.symm).symm
        · have hsampled : (none : Option (RequestProfiler F)).isSome = request.profiler.isSome := by
            rw [hprofiler]
          exact (h.sampler hadaptive).finish hadaptive hk hnone hsampled
            ⟨ending, d.route, d.endedAt - request.startedAt, .inner ending⟩ d.escalatedAt
      · next profiler hprofiler =>
        obtain ⟨hopened, htags⟩ :=
          h.live request (List.mem_of_getElem? hk) profiler hprofiler hnone
        have hagrees : 1 ≤ s.registry.maxRequestHistory → Agrees s.registry s.recorded := by
          rw [h.bound]
          exact h.history
        obtain ⟨profile, aggregator, htyped, hsummary, left, hleave, hid⟩ :=
          leave_live config code str s.sampler ending d hopened hofInt hhorizon htags h.typed
            fun aggregator profile _ ↦
              (retain_fresh hagrees h.nodup_recorded aggregator profile).1
        rw [hleave] at hstep
        cases hstep
        have hnow : s.now ≤ s.now + d.finished + d.stamped + d.completed := by omega
        obtain ⟨hanswers, hids, hlive⟩ := h.over hk (some left)
          ⟨ending, d.route, d.endedAt - request.startedAt, .inner ending⟩
          (by rw [Request.requestId?, hprofiler]; exact congrArg some hid) rfl hnow
        obtain ⟨haggregator, hbound⟩ := PerformanceRegistry.retain_keeps
          { s.registry with aggregator } profile
        refine ⟨⟨hanswers, ?_, ?_, ?_, fun hadaptive ↦ ?_⟩, ?_, hbound.trans h.bound, ?_, hids,
          hlive⟩
        · have hset := filterMap_set (f := Request.summary code) hk (request.over left
            ⟨ending, d.route, d.endedAt - request.startedAt, .inner ending⟩)
          rw [hbefore, summary_over, hid, ← hsummary, Option.toList_none, List.append_nil,
            Option.toList_some] at hset
          show ((s.recorded ++ [profile]).map summaryOf).Perm _
          rw [List.map_append, List.map_singleton]
          exact (h.recorded.append_right _).trans hset.symm
        · show (PerformanceRegistry.retain _ profile).1.totalRequestsRecorded =
            (s.recorded ++ [profile]).length
          rw [total_retain, List.length_append, List.length_singleton]
          exact congrArg (· + 1) h.total
        · intro hone
          rw [← h.bound] at hone
          exact (retain_fresh hagrees h.nodup_recorded aggregator profile).2 hone
        · have hsampled : (some left).isSome = request.profiler.isSome := by
            rw [hprofiler]
            rfl
          exact (h.sampler hadaptive).finish hadaptive hk hnone hsampled
            ⟨ending, d.route, d.endedAt - request.startedAt, .inner ending⟩ d.escalatedAt
        · exact h.started.trans hnow
        · show Typed types (PerformanceRegistry.retain _ profile).1.aggregator
          rw [haggregator]
          exact htyped

/-- Every event keeps the invariant. -/
theorem Inv.step (h : Inv fl config code types maxRequestHistory start s)
    (hofInt : Converts fl horizon) (hdispatch : types "dispatch".toList = .timer)
    {event : Event F R} (hevent : Conforms fl types start horizon s event)
    (hstep : step fl config code str s event = some s') :
    Inv fl config code types maxRequestHistory start s' := by
  cases event with
  | arrive a => exact h.arrive hdispatch hevent hstep
  | work k w => exact h.work hofInt hevent.1 hevent.2 hstep
  | finish k ending d => exact h.finish hofInt hevent hstep
  | ingest points =>
    obtain ⟨aggregator, hingest, htyped⟩ := ingest_accepted h.typed hevent
    cases hstep
    refine ⟨⟨h.answers, h.recorded, h.total, ?_, h.sampler⟩, h.started, h.bound, ?_, h.ids,
      h.live⟩
    · intro hone
      have hagrees := h.history hone
      exact ⟨hagrees.history, hagrees.byId, hagrees.keys⟩
    · show Typed types (s.registry.aggregator.ingest fl points).1
      rw [hingest]
      exact htyped

end Steps

/-- The middleware is transparent: in every run, with any requests at once and any work on their
profilers, as long as names keep their types, values are floats and `uuid4` repeats no id, every
request is answered as its handler does, and the registry and the sampler account for each. -/
theorem serving_transparent (fl : Floats F) (config : PerformanceConfig) (code : R → Int)
    (str : Error → Text) (types : MetricName → MetricType) (maxRequestHistory : Nat)
    (windowStart : ℚ) (start horizon : Int) (hofInt : Converts fl horizon)
    (hdispatch : types "dispatch".toList = .timer) (s : Serving F R)
    (h : (serving fl config code str maxRequestHistory windowStart start).Reach
      (Conforms fl types start horizon) s) :
    Transparent config code maxRequestHistory s := by
  have hinv : Inv fl config code types maxRequestHistory start s :=
    h.invariant (P := Inv fl config code types maxRequestHistory start) inv_init
      fun s event s' hs hevent hstep ↦ hs.step hofInt hdispatch hevent hstep
  exact hinv.toTransparent

-- A name's type in the runs below.
private def workTypes (name : MetricName) : MetricType :=
  if name = "pool_idle_connections".toList then .gauge else .timer

private def everyRequest : PerformanceConfig := ⟨true, 100, false, {}⟩

private def arrival (requestId : String) : Arrival :=
  ⟨"GET".toList, requestId.toList, 0, 0, 0, 0, 1, 0, 1, 1, 1⟩

private def departure : Departure := ⟨"/api/query".toList, 1, 1, fun _ ↦ 0, 1, 3, 3⟩

private def message : Error → Text
  | .traceStateError text | .invalidTimestampError text | .metricStateError text
  | .profilerStateError text | .overflowError text | .keyError text => text

-- Two requests at once, a collector and a stage that a thread leaves when its request is over.
private def overlapping : List (Event Rat Int) :=
  [.arrive (arrival "a"), .arrive (arrival "b"),
    .work 0 (.enter .sqlExecute "sql_execute".toList .empty 1),
    .ingest [⟨"pool_idle_connections".toList, .gauge, .int 3, 0, .count, .empty⟩],
    .finish 1 (.response 200) departure, .finish 0 .cancelled departure, .work 0 (.exit 1 1)]

private theorem converts_exact : Converts Floats.exact (10 ^ 18) :=
  fun _ _ _ ↦ Option.some_ne_none _

/-- Two overlapping requests are answered as their handlers did, and recorded once. -/
theorem serving_transparent_overlapping :
    ∃ s, (serving Floats.exact everyRequest id message 1 0 0).Reach
        (Conforms Floats.exact workTypes 0 (10 ^ 18)) s ∧
      (s.requests.length = 2 ∧ s.recorded.length = 2) ∧ Transparent everyRequest id 1 s := by
  obtain ⟨s, hs, hlen⟩ := System.exists_of_exec
    (serving Floats.exact everyRequest id message 1 0 0)
    (Conforms Floats.exact workTypes 0 (10 ^ 18)) overlapping
    (fun s ↦ s.requests.length == 2 && s.recorded.length == 2) (by decide +kernel)
  exact ⟨s, hs, by simpa using hlen,
    serving_transparent Floats.exact everyRequest id message workTypes 1 0 0 (10 ^ 18)
      converts_exact rfl s hs⟩

end SalesData.Performance.Middleware

import SalesData.Base.System
import SalesData.Performance.Registry

/-!
# Request history and its index

The bounded history and the dictionary by request id are kept in step by hand
(`core/performance/registry.py:91–100`): the id of the profile that the append drops is deleted,
unless the new profile has it. The other retained profiles are not looked at.
-/

namespace SalesData.Performance

open Base

variable {F : Type}

/-- The most recent profile with an id. -/
def lastWith (id : Text) (profiles : List (RequestProfile F)) : Option (RequestProfile F) :=
  (profiles.filter (·.requestId == id)).getLast?

/-- A newer profile with the id comes first. -/
theorem lastWith_concat (id : Text) (profiles : List (RequestProfile F))
    (profile : RequestProfile F) :
    lastWith id (profiles ++ [profile]) =
      if profile.requestId = id then some profile else lastWith id profiles := by
  unfold lastWith
  rw [List.filter_append]
  by_cases h : profile.requestId = id <;> simp [h]

/-- A profile with another id is not looked at. -/
theorem lastWith_cons_of_ne {id : Text} {oldest : RequestProfile F}
    (h : oldest.requestId ≠ id) (rest : List (RequestProfile F)) :
    lastWith id (oldest :: rest) = lastWith id rest := by
  rw [lastWith, List.filter_cons_of_neg (by simpa using h), lastWith]

/-- Nothing is found exactly when no profile has the id. -/
theorem lastWith_eq_none_iff {id : Text} {profiles : List (RequestProfile F)} :
    lastWith id profiles = none ↔ ∀ p ∈ profiles, p.requestId ≠ id := by
  rw [lastWith, List.getLast?_eq_none_iff, List.filter_eq_nil_iff]
  simp

/-- The history is the last of the recorded profiles and the index finds, for each id, the most
recent retained profile. -/
structure Agrees (registry : PerformanceRegistry F) (recorded : List (RequestProfile F)) :
    Prop where
  history : registry.history.items = recorded.rtake registry.maxRequestHistory
  byId : ∀ id, registry.getRequest id = lastWith id registry.history.items
  keys : ∀ id, id ∈ registry.historyById.keys ↔
    ∃ profile ∈ registry.history.items, profile.requestId = id

/-- If the history is full, the profile that goes is the only retained one with its id, or the
new one has that id too. -/
def OldestUnrepeated (registry : PerformanceRegistry F) (profile : RequestProfile F) : Prop :=
  ∀ oldest rest, registry.history.items = oldest :: rest →
    registry.maxRequestHistory ≤ registry.history.items.length →
    oldest.requestId = profile.requestId ∨ ∀ other ∈ rest, other.requestId ≠ oldest.requestId

instance (registry : PerformanceRegistry F) (profile : RequestProfile F) :
    Decidable (OldestUnrepeated registry profile) :=
  match hitems : registry.history.items with
  | [] => isTrue (by
      intro oldest rest h
      rw [hitems] at h
      cases h)
  | oldest :: rest => decidable_of_iff
      (registry.maxRequestHistory ≤ (oldest :: rest).length →
        oldest.requestId = profile.requestId ∨
          ∀ other ∈ rest, other.requestId ≠ oldest.requestId) (by
      unfold OldestUnrepeated
      rw [hitems]
      constructor
      · intro h oldest' rest' he
        cases he
        exact h
      · exact fun h ↦ h oldest rest rfl)

private theorem keys_of_byId {registry : PerformanceRegistry F}
    (h : ∀ id, registry.getRequest id = lastWith id registry.history.items) (id : Text) :
    id ∈ registry.historyById.keys ↔
      ∃ profile ∈ registry.history.items, profile.requestId = id := by
  have hnone : id ∉ registry.historyById.keys ↔
      ∀ profile ∈ registry.history.items, profile.requestId ≠ id := by
    rw [← Dict.get?_eq_none_iff, ← lastWith_eq_none_iff]
    exact h id ▸ Iff.rfl
  by_cases hmem : id ∈ registry.historyById.keys
  · simp only [hmem, true_iff]
    by_contra hall
    push Not at hall
    exact hnone.mpr hall hmem
  · have := hnone.mp hmem
    simp only [hmem, false_iff]
    rintro ⟨profile, hprofile, hid⟩
    exact this profile hprofile hid

/-- An empty registry agrees with the empty record. -/
theorem agrees_create (maxRequestHistory : Nat) :
    Agrees (PerformanceRegistry.create maxRequestHistory : PerformanceRegistry F) [] :=
  ⟨by simp [PerformanceRegistry.create, Deque.empty], fun _ ↦ rfl,
    keys_of_byId fun _ ↦ rfl⟩

section Retain

variable {registry : PerformanceRegistry F} {recorded : List (RequestProfile F)}
  (profile : RequestProfile F)

private theorem maxlen_of_pos {maxRequestHistory : Nat} (h : 1 ≤ maxRequestHistory) :
    maxlen maxRequestHistory = some maxRequestHistory := if_neg (by omega)

private theorem history_append (hmax : 1 ≤ registry.maxRequestHistory)
    (h : registry.history.items = recorded.rtake registry.maxRequestHistory) :
    (registry.append profile).history.items =
      (recorded ++ [profile]).rtake registry.maxRequestHistory := by
  have htrim (xs : List (RequestProfile F)) :
      Deque.trim (maxlen registry.maxRequestHistory) xs = xs.rtake registry.maxRequestHistory := by
    rw [maxlen_of_pos hmax]
    rfl
  rw [← htrim] at h ⊢
  exact Deque.items_append h profile

private theorem agrees_append (hmax : 1 ≤ registry.maxRequestHistory) (h : Agrees registry recorded)
    (hbyId : ∀ id, (registry.append profile).getRequest id =
      lastWith id (registry.append profile).history.items) :
    Agrees (registry.append profile) (recorded ++ [profile]) :=
  ⟨history_append profile hmax h.history, hbyId, keys_of_byId hbyId⟩

private theorem getRequest_append (id : Text) :
    (registry.append profile).getRequest id =
      if profile.requestId = id then some profile else registry.getRequest id := by
  show (registry.historyById.set profile.requestId profile).get? id = _
  rw [Dict.get?_set]
  by_cases hid : id = profile.requestId
  · rw [if_pos hid, if_pos hid.symm]
  · rw [if_neg hid, if_neg (Ne.symm hid)]
    rfl

/-- A history with room keeps what it has. -/
theorem retain_of_room (hmax : 1 ≤ registry.maxRequestHistory) (h : Agrees registry recorded)
    (hroom : registry.history.items.length < registry.maxRequestHistory) :
    registry.retain profile = (registry.append profile, .ok ()) ∧
      Agrees (registry.append profile) (recorded ++ [profile]) := by
  have hevict : registry.evictedId = none := by
    rw [PerformanceRegistry.evictedId, if_neg]
    omega
  have hitems : (registry.append profile).history.items =
      registry.history.items ++ [profile] := by
    apply Deque.trim_of_room
    intro m hm
    rw [maxlen_of_pos hmax] at hm
    cases hm
    rw [List.length_append, List.length_singleton]
    exact hroom
  refine ⟨by rw [PerformanceRegistry.retain, hevict], agrees_append profile hmax h ?_⟩
  intro id
  rw [hitems, lastWith_concat, getRequest_append profile, h.byId]

private theorem items_of_full (hmax : 1 ≤ registry.maxRequestHistory)
    (hfull : registry.maxRequestHistory ≤ registry.history.items.length)
    {oldest : RequestProfile F} {rest : List (RequestProfile F)}
    (hitems : registry.history.items = oldest :: rest) :
    (registry.append profile).history.items = rest ++ [profile] := by
  have hbound := registry.history.bound _ (maxlen_of_pos hmax)
  show Deque.trim _ (registry.history.items ++ [profile]) = _
  rw [hitems] at hfull hbound ⊢
  exact Deque.trim_of_full (maxlen_of_pos hmax) hfull hbound profile

private theorem evictedId_of_full (hmax : 1 ≤ registry.maxRequestHistory)
    (hfull : registry.maxRequestHistory ≤ registry.history.items.length)
    {oldest : RequestProfile F} {rest : List (RequestProfile F)}
    (hitems : registry.history.items = oldest :: rest) :
    registry.evictedId = some oldest.requestId := by
  rw [PerformanceRegistry.evictedId, if_pos ⟨by omega, hfull⟩, hitems]
  rfl

/-- The new profile has the id of the one that goes: its entry is already the new one. -/
theorem retain_of_same (hmax : 1 ≤ registry.maxRequestHistory) (h : Agrees registry recorded)
    (hfull : registry.maxRequestHistory ≤ registry.history.items.length)
    {oldest : RequestProfile F} {rest : List (RequestProfile F)}
    (hitems : registry.history.items = oldest :: rest)
    (hsame : oldest.requestId = profile.requestId) :
    registry.retain profile = (registry.append profile, .ok ()) ∧
      Agrees (registry.append profile) (recorded ++ [profile]) := by
  constructor
  · rw [PerformanceRegistry.retain, evictedId_of_full hmax hfull hitems]
    exact if_neg (by simpa using hsame)
  · apply agrees_append profile hmax h
    intro id
    rw [items_of_full profile hmax hfull hitems, lastWith_concat, getRequest_append profile, h.byId,
      hitems]
    split
    · rfl
    · next hid => exact lastWith_cons_of_ne (hsame ▸ hid) rest

/-- Any other id is deleted, and was there. -/
theorem retain_of_other (hmax : 1 ≤ registry.maxRequestHistory) (h : Agrees registry recorded)
    (hfull : registry.maxRequestHistory ≤ registry.history.items.length)
    {oldest : RequestProfile F} {rest : List (RequestProfile F)}
    (hitems : registry.history.items = oldest :: rest)
    (hother : oldest.requestId ≠ profile.requestId) :
    registry.retain profile =
      ({ registry.append profile with
          historyById := (registry.append profile).historyById.pop oldest.requestId }, .ok ()) := by
  rw [PerformanceRegistry.retain, evictedId_of_full hmax hfull hitems]
  have hmem : oldest.requestId ∈ (registry.append profile).historyById.keys := by
    apply Dict.mem_keys_set.mpr
    apply Or.inr
    exact (h.keys _).mpr ⟨oldest, by rw [hitems]; exact List.mem_cons_self .., rfl⟩
  show (if oldest.requestId ≠ profile.requestId then _ else _) = _
  rw [if_pos hother, PerformanceRegistry.forget, if_pos hmem]

/-- After the deletion the index is right exactly when the id was not repeated. -/
theorem agrees_forget_iff (hmax : 1 ≤ registry.maxRequestHistory) (h : Agrees registry recorded)
    (hfull : registry.maxRequestHistory ≤ registry.history.items.length)
    {oldest : RequestProfile F} {rest : List (RequestProfile F)}
    (hitems : registry.history.items = oldest :: rest)
    (hother : oldest.requestId ≠ profile.requestId) :
    Agrees { registry.append profile with
        historyById := (registry.append profile).historyById.pop oldest.requestId }
      (recorded ++ [profile]) ↔ ∀ other ∈ rest, other.requestId ≠ oldest.requestId := by
  have hnew := items_of_full profile hmax hfull hitems
  constructor
  · intro hagrees other hmem hid
    have hkey := (hagrees.keys oldest.requestId).mpr
      ⟨other, by rw [hnew]; exact List.mem_append_left _ hmem, hid⟩
    exact (Dict.mem_keys_pop.mp hkey).2 rfl
  · intro hall
    have hbyId (id : Text) : ((registry.append profile).historyById.pop oldest.requestId).get? id =
        lastWith id (registry.append profile).history.items := by
      rw [hnew, lastWith_concat, Dict.get?_pop]
      by_cases hid : id = oldest.requestId
      · subst hid
        rw [if_pos rfl, if_neg (Ne.symm hother)]
        exact (lastWith_eq_none_iff.mpr hall).symm
      · rw [if_neg hid]
        have hget : (registry.append profile).getRequest id = _ := getRequest_append profile id
        rw [h.byId, hitems, lastWith_cons_of_ne (Ne.symm hid)] at hget
        exact hget
    exact ⟨history_append profile hmax h.history, hbyId, keys_of_byId hbyId⟩

/-- Recording keeps the agreement, without an exception, exactly when the id that goes is not
repeated. -/
theorem retain_agrees_iff (hmax : 1 ≤ registry.maxRequestHistory) (h : Agrees registry recorded) :
    ((registry.retain profile).2 = .ok () ∧
      Agrees (registry.retain profile).1 (recorded ++ [profile])) ↔
    OldestUnrepeated registry profile := by
  by_cases hfull : registry.maxRequestHistory ≤ registry.history.items.length
  · cases hitems : registry.history.items with
    | nil =>
      rw [hitems, List.length_nil] at hfull
      omega
    | cons oldest rest =>
      have hiff : OldestUnrepeated registry profile ↔ oldest.requestId = profile.requestId ∨
          ∀ other ∈ rest, other.requestId ≠ oldest.requestId := by
        constructor
        · exact fun hcond ↦ hcond oldest rest hitems hfull
        · intro hcond oldest' rest' hitems' _
          rw [hitems] at hitems'
          cases hitems'
          exact hcond
      rw [hiff]
      by_cases hsame : oldest.requestId = profile.requestId
      · obtain ⟨hretain, hagrees⟩ := retain_of_same profile hmax h hfull hitems hsame
        rw [hretain]
        simp [hsame, hagrees]
      · rw [retain_of_other profile hmax h hfull hitems hsame]
        simp only [hsame, false_or, true_and]
        exact agrees_forget_iff profile hmax h hfull hitems hsame
  · obtain ⟨hretain, hagrees⟩ := retain_of_room profile hmax h (by omega)
    rw [hretain]
    exact ⟨fun _ _ _ _ hge ↦ absurd hge hfull, fun _ ↦ ⟨rfl, hagrees⟩⟩

end Retain

/-- A registry in use, with what was recorded since the last reset. -/
structure Usage (F : Type) where
  registry : PerformanceRegistry F
  recorded : List (RequestProfile F)
  raised : Bool

/-- The calls that change a registry. -/
inductive Call (F : Type)
  | record (profile : RequestProfile F)
  | reset

/-- A registry and the calls on it. -/
def usage (fl : Floats F) (maxRequestHistory : Nat) : System (Usage F) (Call F) where
  init := ⟨.create maxRequestHistory, [], false⟩
  step s
    | .record profile =>
      match s.registry.recordCompletedRequest fl profile with
      | (registry, .ok ()) => some ⟨registry, s.recorded ++ [profile], s.raised⟩
      | (registry, .error _) => some ⟨registry, s.recorded ++ [profile], true⟩
    | .reset => some ⟨s.registry.reset, [], s.raised⟩

/-- The points of a recorded profile fold: no type clash and no value that an aggregate
refuses. -/
def Folds (fl : Floats F) (s : Usage F) : Call F → Prop
  | .record profile => (s.registry.aggregator.ingest fl profile.metricPoints).2.isOk = true
  | .reset => True

instance (fl : Floats F) (s : Usage F) (call : Call F) : Decidable (Folds fl s call) :=
  match call with
  | .record profile =>
    inferInstanceAs (Decidable
      ((s.registry.aggregator.ingest fl profile.metricPoints).2.isOk = true))
  | .reset => inferInstanceAs (Decidable True)

/-- A recorded profile drops no id that the history still has. -/
def DropsUnrepeated (s : Usage F) : Call F → Prop
  | .record profile => OldestUnrepeated s.registry profile
  | .reset => True

variable {fl : Floats F} {maxRequestHistory : Nat}

private theorem agrees_aggregator {registry : PerformanceRegistry F}
    {recorded : List (RequestProfile F)} (h : Agrees registry recorded)
    (aggregator : MetricsAggregator F) : Agrees { registry with aggregator } recorded :=
  ⟨h.history, h.byId, h.keys⟩

/-- One recorded profile, its points folding. -/
theorem step_record {s s' : Usage F} {profile : RequestProfile F}
    (hmax : 1 ≤ s.registry.maxRequestHistory) (hagrees : Agrees s.registry s.recorded)
    (hraised : s.raised = false) (hfolds : Folds fl s (.record profile))
    (hstep : (usage fl maxRequestHistory).step s (.record profile) = some s') :
    s'.registry.maxRequestHistory = s.registry.maxRequestHistory ∧
      ((s'.raised = false ∧ Agrees s'.registry s'.recorded) ↔
        OldestUnrepeated s.registry profile) := by
  cases hingest : s.registry.aggregator.ingest fl profile.metricPoints with
  | mk aggregator result =>
    cases result with
    | error e =>
      rw [Folds, hingest] at hfolds
      cases hfolds
    | ok _ =>
      have hrecord := PerformanceRegistry.record_of_ingest hingest
      have hmax' : 1 ≤ { s.registry with aggregator }.maxRequestHistory := hmax
      have hiff := retain_agrees_iff profile hmax' (agrees_aggregator hagrees aggregator)
      have hkeep := (PerformanceRegistry.retain_keeps { s.registry with aggregator } profile).2
      simp only [usage, hrecord] at hstep
      generalize PerformanceRegistry.retain _ profile = after at *
      split at hstep
      · cases hstep
        refine ⟨hkeep, ?_⟩
        rw [show OldestUnrepeated s.registry profile ↔ _ from hiff.symm]
        simp [hraised]
      · cases hstep
        refine ⟨hkeep, ?_⟩
        rw [show OldestUnrepeated s.registry profile ↔ _ from hiff.symm]
        simp

instance (s : Usage F) (call : Call F) : Decidable (DropsUnrepeated s call) :=
  match call with
  | .record profile => inferInstanceAs (Decidable (OldestUnrepeated s.registry profile))
  | .reset => inferInstanceAs (Decidable True)

/-- As long as no repeated id is dropped, recording never raises and history and index agree;
and the first time one is dropped, they do not. -/
theorem history_agrees (fl : Floats F) (maxRequestHistory : Nat) (hmax : 1 ≤ maxRequestHistory)
    (s : Usage F)
    (h : (usage fl maxRequestHistory).Reach
      (fun s call ↦ Folds fl s call ∧ DropsUnrepeated s call) s) :
    s.registry.maxRequestHistory = maxRequestHistory ∧ s.raised = false ∧
      Agrees s.registry s.recorded ∧
      ∀ profile s', Folds fl s (.record profile) →
        (usage fl maxRequestHistory).step s (.record profile) = some s' →
        ((s'.raised = false ∧ Agrees s'.registry s'.recorded) ↔
          OldestUnrepeated s.registry profile) := by
  have hinv : s.registry.maxRequestHistory = maxRequestHistory ∧ s.raised = false ∧
      Agrees s.registry s.recorded := by
    refine h.invariant (P := fun s ↦ s.registry.maxRequestHistory = maxRequestHistory ∧
      s.raised = false ∧ Agrees s.registry s.recorded)
      ⟨rfl, rfl, agrees_create maxRequestHistory⟩ ?_
    rintro s call s' ⟨hkeep, hraised, hagrees⟩ ⟨hfolds, hdrops⟩ hstep
    cases call with
    | record profile =>
      obtain ⟨hkeep', hiff⟩ := step_record (hkeep ▸ hmax) hagrees hraised hfolds hstep
      exact ⟨hkeep'.trans hkeep, hiff.mpr hdrops⟩
    | reset =>
      cases hstep
      refine ⟨hkeep, hraised, ?_⟩
      exact ⟨by simp [PerformanceRegistry.reset, Deque.empty], fun _ ↦ rfl,
        keys_of_byId fun _ ↦ rfl⟩
  obtain ⟨hkeep, hraised, hagrees⟩ := hinv
  refine ⟨hkeep, hraised, hagrees, ?_⟩
  intro profile s' hfolds hstep
  exact (step_record (hkeep ▸ hmax) hagrees hraised hfolds hstep).2

private def plain (requestId : String) : RequestProfile Rat :=
  ⟨requestId.toList, [], .empty, 0, 0, 0, "ok".toList, none⟩

/-- Three requests with room for two, the last two with one id. -/
theorem history_agrees_oneRepeated :
    ∃ s, (usage Floats.exact 2).Reach (fun s call ↦ Folds Floats.exact s call ∧
        DropsUnrepeated s call) s ∧
      (s.recorded.length = 3 ∧ s.raised = false ∧ Agrees s.registry s.recorded) := by
  obtain ⟨s, hs, hlen⟩ := System.exists_of_exec (usage Floats.exact 2)
    (fun s call ↦ Folds Floats.exact s call ∧ DropsUnrepeated s call)
    [.record (plain "b"), .record (plain "a"), .record (plain "a")]
    (fun s ↦ s.recorded.length == 3) (by decide +kernel)
  have hagrees := history_agrees Floats.exact 2 (by decide) s hs
  exact ⟨s, hs, by simpa using hlen, hagrees.2.1, hagrees.2.2.1⟩

/-- An id used twice in a row: when the first of the two profiles goes, the index loses the one
that stays, and the next request raises. -/
theorem repeatedId_lost :
    (∃ s, (usage Floats.exact 2).Reach (Folds Floats.exact) s ∧
      s.raised = false ∧ ¬ Agrees s.registry s.recorded) ∧
    ∃ s, (usage Floats.exact 2).Reach (Folds Floats.exact) s ∧ s.raised = true := by
  constructor
  · obtain ⟨s, hs, hlost⟩ := System.exists_of_exec (usage Floats.exact 2) (Folds Floats.exact)
      [.record (plain "a"), .record (plain "a"), .record (plain "b")]
      (fun s ↦ !s.raised && s.registry.history.items.any (·.requestId == "a".toList) &&
        !s.registry.historyById.keys.contains "a".toList) (by decide +kernel)
    simp only [Bool.and_eq_true, Bool.not_eq_true', List.any_eq_true, beq_iff_eq] at hlost
    obtain ⟨⟨hraised, kept⟩, hkeys⟩ := hlost
    refine ⟨s, hs, hraised, ?_⟩
    intro hagrees
    have hmem := (hagrees.keys "a".toList).mpr kept
    rw [← List.contains_iff_mem, hkeys] at hmem
    cases hmem
  · exact System.exists_of_exec (usage Floats.exact 2) (Folds Floats.exact)
      [.record (plain "a"), .record (plain "a"), .record (plain "b"), .record (plain "c")]
      (fun s ↦ s.raised) (by decide +kernel)

end SalesData.Performance

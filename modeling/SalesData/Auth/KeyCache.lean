import Mathlib.Tactic.Linarith
import SalesData.Auth.ApiKeyService
import SalesData.Base.System

/-!
# Validations while keys are revoked

Calls of `validate_api_key`, `revoke_api_key` and `delete_api_key`
(`core/auth/api_key_service.py:126–263`) on one process interleave at each `await`: the statement
of a call runs in an executor thread at any time after its submission, and the call goes on at any
time after that. A validation may also be interrupted between its look at the cache and its
submission, which the event loop does not do. `past` is bookkeeping of the model: the clock and
the table of every earlier state.
-/

namespace SalesData.Auth.KeyCache

open Base
open Cache (Time Time.toInt)

/-- `_CACHE_TTL_SECONDS` (`api_key_service.py:48`). -/
def cacheTtlSeconds : Time := 30

/-- Where a call of `validate_api_key` is. -/
inductive Stage where
  /-- Not in the cache; line 150. -/
  | missed
  /-- In the executor with the reading `now` of the clock; line 153. -/
  | reading (now : Time)
  /-- The statement has run. -/
  | read (key : Option ApiKey)
  | ended (outcome : Option APIKeyInfo)
  deriving DecidableEq, Repr

/-- A call of `validate_api_key` that began at `start`. -/
structure Validation where
  apiKeyHash : Text
  start : Time
  stage : Stage
  deriving DecidableEq, Repr

/-- What a call of `revoke_api_key` or `delete_api_key` does to the table. -/
inductive ChangeKind where
  | revoke
  | delete
  deriving DecidableEq, Repr

/-- Where a call of `revoke_api_key` or `delete_api_key` is; its statement has run at `at`. -/
inductive ChangeStage where
  | submitted
  | ran (time : Time) (result : Bool)
  | ended (time : Time) (result : Bool)
  deriving DecidableEq, Repr

/-- A call of `revoke_api_key` or `delete_api_key`. -/
structure Change where
  kind : ChangeKind
  keyId : Text
  ownerId : Text
  stage : ChangeStage
  deriving DecidableEq, Repr

/-- When the statement of the call took effect. -/
def Change.committed (change : Change) : Option Time :=
  match change.stage with
  | .ran time true | .ended time true => some time
  | _ => none

/-- The clock, the table, `_validation_cache`, and the calls. -/
structure State where
  clock : Time
  apiKeys : ApiKeys
  cache : Dict Text (APIKeyInfo × Time)
  validations : List Validation
  changes : List Change
  past : List (Time × ApiKeys)

/-- Scheduler actions. -/
inductive Act where
  | tick (now : Time)
  | validate (apiKeyHash : Text)
  | submit (v : Nat)
  | read (v : Nat) (fails : Bool)
  | answer (v : Nat)
  | change (kind : ChangeKind) (keyId ownerId : Text)
  | commit (c : Nat) (fails : Bool)
  | evict (c : Nat)
  deriving DecidableEq, Repr

/-- A look at the cache (`api_key_service.py:140–148`): the outcome of a hit, and the cache without
an entry that has expired. -/
def look (cache : Dict Text (APIKeyInfo × Time)) (apiKeyHash : Text) (now : Time) :
    Option APIKeyInfo × Dict Text (APIKeyInfo × Time) :=
  match cache.get? apiKeyHash with
  | some (validated, expiresAt) =>
    if now < expiresAt then (some validated, cache) else (none, cache.pop apiKeyHash)
  | none => (none, cache)

/-- A call returns what it has found in the cache. -/
def Stage.behindLook : Option APIKeyInfo → Stage
  | some info => .ended (some info)
  | none => .missed

/-- The table behind a statement of `revoke_api_key` or `delete_api_key`. -/
def ChangeKind.apply (kind : ChangeKind) (keys : ApiKeys) (keyId ownerId : Text) (fails : Bool) :
    Option ApiKeys :=
  match kind with
  | revoke => keys.revoke keyId ownerId fails
  | delete => keys.delete keyId ownerId fails

namespace State

/-- Validation `v` goes on. -/
def goto (s : State) (v : Nat) (call : Validation) (stage : Stage) : State :=
  { s with validations := s.validations.set v { call with stage } }

/-- One action, before the state becomes a past one. -/
def act (s : State) : Act → Option State
  | .tick now => if s.clock ≤ now then some { s with clock := now } else none
  | .validate apiKeyHash =>
    let found := look s.cache apiKeyHash s.clock
    some { s with
      cache := found.2
      validations := s.validations ++ [⟨apiKeyHash, s.clock, .behindLook found.1⟩] }
  | .submit v => (s.validations[v]?).bind fun call ↦
    match call.stage with
    | .missed => some (s.goto v call (.reading s.clock))
    | _ => none
  | .read v fails => (s.validations[v]?).bind fun call ↦
    match call.stage with
    | .reading now =>
      some (s.goto v call (.read (s.apiKeys.validate call.apiKeyHash now.toInt fails)))
    | _ => none
  | .answer v => (s.validations[v]?).bind fun call ↦
    match call.stage with
    | .read none => some (s.goto v call (.ended none))
    | .read (some key) => some { s.goto v call (.ended (some key.info)) with
        cache := s.cache.set call.apiKeyHash (key.info, call.start + cacheTtlSeconds) }
    | _ => none
  | .change kind keyId ownerId =>
    some { s with changes := s.changes ++ [⟨kind, keyId, ownerId, .submitted⟩] }
  | .commit c fails => (s.changes[c]?).bind fun change ↦
    match change.stage with
    | .submitted =>
      let apiKeys := change.kind.apply s.apiKeys change.keyId change.ownerId fails
      some { s with
        apiKeys := apiKeys.getD s.apiKeys
        changes := s.changes.set c { change with stage := .ran s.clock apiKeys.isSome } }
    | _ => none
  | .evict c => (s.changes[c]?).bind fun change ↦
    match change.stage with
    | .ran time result => some { s with
        cache := if result then s.cache.filter fun e ↦ e.1.keyId != change.keyId else s.cache
        changes := s.changes.set c { change with stage := .ended time result } }
    | _ => none

end State

/-- One action. -/
def step (s : State) (a : Act) : Option State :=
  (s.act a).map fun s' ↦ { s' with past := (s.clock, s.apiKeys) :: s.past }

/-- A process that starts with the given table. -/
def system (apiKeys : ApiKeys) : System State Act := ⟨⟨0, apiKeys, .empty, [], [], []⟩, step⟩

/-- The table had the key, active, at an instant not before `time`. -/
def Existed (past : List (Time × ApiKeys)) (apiKeyHash : Text) (info : APIKeyInfo) (time : Time) :
    Prop :=
  ∃ p ∈ past, time ≤ p.1 ∧ ∃ key ∈ p.2.rows,
    key.apiKeyHash = apiKeyHash ∧ key.info = info ∧ key.isActive = true

/-- The expiry was compared with a reading of the clock not before `time`. -/
def Compared (past : List (Time × ApiKeys)) (info : APIKeyInfo) (time : Time) : Prop :=
  ∃ p ∈ past, time ≤ p.1 ∧ ∀ e ∈ info.expiresAt, e = 0 ∨ p.1.toInt ≤ e

/-- What stands behind the stage of a validation. -/
def Validation.Backed (past : List (Time × ApiKeys)) (call : Validation) : Prop :=
  match call.stage with
  | .missed => True
  | .reading now => call.start ≤ now ∧ ∃ p ∈ past, p.1 = now
  | .read (some key) =>
    Existed past call.apiKeyHash key.info call.start ∧ Compared past key.info call.start
  | .ended (some info) => ∃ time, call.start - cacheTtlSeconds < time ∧
      Existed past call.apiKeyHash info time ∧ Compared past info time
  | .read none | .ended none => True

/-- No row of the key is active. -/
def Dead (keys : ApiKeys) (change : Change) : Prop :=
  ∀ key ∈ keys.rows, key.isActive = true →
    ¬ (key.keyId = change.keyId ∧ key.ownerId = change.ownerId)

/-- Whatever is cached or returned was seen in the table, less than the lifetime of an entry ago,
and what was revoked or deleted is not active again. -/
structure CacheInv (keys : ApiKeys) (s : State) : Prop where
  past : ∀ p ∈ s.past, p.1 ≤ s.clock
  started : ∀ call ∈ s.validations, call.start ≤ s.clock
  backed : ∀ call ∈ s.validations, call.Backed s.past
  cached : ∀ apiKeyHash info expiresAt, s.cache.get? apiKeyHash = some (info, expiresAt) →
    Existed s.past apiKeyHash info (expiresAt - cacheTtlSeconds) ∧
      Compared s.past info (expiresAt - cacheTtlSeconds)
  rows : ∀ p ∈ (s.clock, s.apiKeys) :: s.past, ∀ key ∈ p.2.rows, key.isActive = true →
    key ∈ keys.rows
  dead : ∀ change ∈ s.changes, ∀ time, change.committed = some time → time ≤ s.clock ∧
    Dead s.apiKeys change ∧ ∀ p ∈ s.past, time < p.1 → Dead p.2 change

section Steps

variable {past past' : List (Time × ApiKeys)}

/-- A key that was there stays among what is past. -/
theorem Existed.mono {apiKeyHash : Text} {info : APIKeyInfo} {time : Time}
    (h : Existed past apiKeyHash info time) (hsub : past ⊆ past') :
    Existed past' apiKeyHash info time := by
  obtain ⟨p, hp, ht, hkey⟩ := h
  exact ⟨p, hsub hp, ht, hkey⟩

/-- A comparison stays among what is past. -/
theorem Compared.mono {info : APIKeyInfo} {time : Time} (h : Compared past info time)
    (hsub : past ⊆ past') : Compared past' info time := by
  obtain ⟨p, hp, ht⟩ := h
  exact ⟨p, hsub hp, ht⟩

/-- What stands behind a validation stays there. -/
theorem Validation.Backed.mono {call : Validation} (h : call.Backed past) (hsub : past ⊆ past') :
    call.Backed past' := by
  unfold Validation.Backed at h ⊢
  split at h
  · trivial
  · obtain ⟨hle, p, hp, hnow⟩ := h
    exact ⟨hle, p, hsub hp, hnow⟩
  · exact ⟨h.1.mono hsub, h.2.mono hsub⟩
  · obtain ⟨time, hlt, hexisted, hcompared⟩ := h
    exact ⟨time, hlt, hexisted.mono hsub, hcompared.mono hsub⟩
  · trivial
  · trivial

/-- A row that `validate_api_key` finds is in the table, active, and not expired. -/
theorem of_validate {keys : ApiKeys} {apiKeyHash : Text} {now : Int} {fails : Bool} {key : ApiKey}
    (h : keys.validate apiKeyHash now fails = some key) : key ∈ keys.rows ∧
      key.apiKeyHash = apiKeyHash ∧ key.isActive = true ∧
      ∀ e ∈ key.expiresAt, e = 0 ∨ now ≤ e := by
  unfold ApiKeys.validate at h
  split at h
  · cases h
  · obtain ⟨hfind, hfresh⟩ := Option.filter_eq_some_iff.mp h
    obtain ⟨hmem, hkey⟩ := Table.of_find? hfind
    simp only [Bool.and_eq_true, beq_iff_eq] at hkey
    refine ⟨hmem, hkey.1, hkey.2, fun e he ↦ ?_⟩
    rw [Option.mem_def] at he
    simp only [he, Option.any_some, Bool.not_eq_true', Bool.and_eq_false_iff,
      decide_eq_false_iff_not, ne_eq, not_not, not_lt] at hfresh
    exact hfresh

/-- A change makes no row active, and leaves no active row of its key. -/
theorem of_apply {kind : ChangeKind} {keys keys' : ApiKeys} {keyId ownerId : Text} {fails : Bool}
    (h : kind.apply keys keyId ownerId fails = some keys') {key : ApiKey} (hmem : key ∈ keys'.rows)
    (hactive : key.isActive = true) :
    key ∈ keys.rows ∧ ¬ (key.keyId = keyId ∧ key.ownerId = ownerId) := by
  cases kind with
  | revoke =>
    simp only [ChangeKind.apply, ApiKeys.revoke] at h
    split at h
    · cases h
    · obtain rfl := Option.some.inj h
      obtain ⟨old, hold, rfl⟩ := Table.mem_update.mp hmem
      split at hactive
      · cases hactive
      · next hnot =>
        rw [if_neg hnot]
        simp only [Bool.and_eq_true, beq_iff_eq] at hnot
        exact ⟨hold, hnot⟩
  | delete =>
    simp only [ChangeKind.apply, ApiKeys.delete] at h
    split at h
    · cases h
    · obtain rfl := Option.some.inj h
      obtain ⟨hold, hnot⟩ := List.mem_filter.mp hmem
      simp only [Bool.not_eq_true', Bool.and_eq_false_iff, beq_eq_false_iff_ne] at hnot
      refine ⟨hold, fun hsame ↦ ?_⟩
      obtain ⟨hkey, howner⟩ := hsame
      rcases hnot with hnot | hnot
      · exact hnot hkey
      · exact hnot howner

/-- A hit has not expired, and a look adds no entry. -/
theorem look_spec (cache : Dict Text (APIKeyInfo × Time)) (apiKeyHash : Text) (now : Time) :
    (∀ info, (look cache apiKeyHash now).1 = some info →
      ∃ expiresAt, cache.get? apiKeyHash = some (info, expiresAt) ∧ now < expiresAt) ∧
    ∀ a e, (look cache apiKeyHash now).2.get? a = some e → cache.get? a = some e := by
  unfold look
  split
  · next validated expiresAt hget =>
    split
    · next hlt =>
      refine ⟨fun info h ↦ ?_, fun a e h ↦ h⟩
      obtain rfl := Option.some.inj h
      exact ⟨expiresAt, hget, hlt⟩
    · refine ⟨fun info h ↦ (by cases h), fun a e h ↦ ?_⟩
      rw [Dict.get?_pop] at h
      split at h
      · cases h
      · exact h
  · exact ⟨fun info h ↦ (by cases h), fun a e h ↦ h⟩

end Steps

namespace CacheInv

variable {keys : ApiKeys} {s s' : State}

/-- A state that only adds what was seen keeps the invariant. -/
theorem next (h : CacheInv keys s) (hpast : s'.past = (s.clock, s.apiKeys) :: s.past)
    (hclock : s.clock ≤ s'.clock)
    (hrows : ∀ key ∈ s'.apiKeys.rows, key.isActive = true → key ∈ s.apiKeys.rows)
    (hvalidations : ∀ call ∈ s'.validations,
      call ∈ s.validations ∨ call.start ≤ s.clock ∧ call.Backed s'.past)
    (hcache : ∀ apiKeyHash info expiresAt, s'.cache.get? apiKeyHash = some (info, expiresAt) →
      s.cache.get? apiKeyHash = some (info, expiresAt) ∨
        Existed s'.past apiKeyHash info (expiresAt - cacheTtlSeconds) ∧
          Compared s'.past info (expiresAt - cacheTtlSeconds))
    (hchanges : ∀ change ∈ s'.changes, ∀ time, change.committed = some time →
      (∃ old ∈ s.changes, old.committed = some time ∧ old.keyId = change.keyId ∧
        old.ownerId = change.ownerId) ∨ time = s.clock ∧ Dead s'.apiKeys change) :
    CacheInv keys s' := by
  have hsub : s.past ⊆ s'.past := by
    rw [hpast]
    exact List.subset_cons_self _ _
  have hle (p : Time × ApiKeys) (hp : p ∈ s'.past) : p.1 ≤ s.clock := by
    rw [hpast] at hp
    rcases List.mem_cons.mp hp with rfl | hp
    · exact le_refl _
    · exact h.past p hp
  constructor
  · exact fun p hp ↦ (hle p hp).trans hclock
  · intro call hmem
    rcases hvalidations call hmem with hold | ⟨hstart, -⟩
    · exact (h.started call hold).trans hclock
    · exact hstart.trans hclock
  · intro call hmem
    rcases hvalidations call hmem with hold | ⟨-, hbacked⟩
    · exact (h.backed call hold).mono hsub
    · exact hbacked
  · intro apiKeyHash info expiresAt hget
    rcases hcache apiKeyHash info expiresAt hget with hold | hseen
    · obtain ⟨hexisted, hcompared⟩ := h.cached apiKeyHash info expiresAt hold
      exact ⟨hexisted.mono hsub, hcompared.mono hsub⟩
    · exact hseen
  · intro p hp key hkey hactive
    rcases List.mem_cons.mp hp with rfl | hp
    · exact h.rows _ (List.mem_cons_self ..) key (hrows key hkey hactive) hactive
    · rw [hpast] at hp
      exact h.rows p hp key hkey hactive
  · intro change hmem time hcommitted
    rcases hchanges change hmem time hcommitted with ⟨old, hold, hold', hkey, howner⟩ | ⟨rfl, hdead⟩
    · obtain ⟨hle', hdead, hpastDead⟩ := h.dead old hold time hold'
      have hsame (keys' : ApiKeys) (hd : Dead keys' old) : Dead keys' change := by
        intro key hk hactive hmatch
        rw [← hkey, ← howner] at hmatch
        exact hd key hk hactive hmatch
      refine ⟨hle'.trans hclock, fun key hk hactive ↦ ?_, fun p hp hlt ↦ ?_⟩
      · exact hsame _ hdead key (hrows key hk hactive) hactive
      · rw [hpast] at hp
        rcases List.mem_cons.mp hp with rfl | hp
        · exact hsame _ hdead
        · exact hsame _ (hpastDead p hp hlt)
    · refine ⟨hclock, hdead, fun p hp hlt ↦ ?_⟩
      exact absurd (hle p hp) (not_le.mpr hlt)

private theorem past_subset (s : State) : s.past ⊆ (s.clock, s.apiKeys) :: s.past :=
  List.subset_cons_self _ _

private theorem goes (h : CacheInv keys s) {v : Nat} {call : Validation} {stage : Stage}
    {cache : Dict Text (APIKeyInfo × Time)} (hv : s.validations[v]? = some call)
    (hbacked : ({ call with stage } : Validation).Backed ((s.clock, s.apiKeys) :: s.past))
    (hcache : ∀ apiKeyHash info expiresAt, cache.get? apiKeyHash = some (info, expiresAt) →
      s.cache.get? apiKeyHash = some (info, expiresAt) ∨
        Existed ((s.clock, s.apiKeys) :: s.past) apiKeyHash info (expiresAt - cacheTtlSeconds) ∧
          Compared ((s.clock, s.apiKeys) :: s.past) info (expiresAt - cacheTtlSeconds)) :
    CacheInv keys
      { s.goto v call stage with cache, past := (s.clock, s.apiKeys) :: s.past } := by
  refine h.next rfl (le_refl _) (fun _ hk _ ↦ hk) (fun other hmem ↦ ?_) hcache
    fun change hmem _ hc ↦ .inl ⟨change, hmem, hc, rfl, rfl⟩
  rcases List.mem_or_eq_of_mem_set hmem with hold | rfl
  · exact .inl hold
  · exact .inr ⟨h.started call (List.mem_of_getElem? hv), hbacked⟩

private theorem looked (h : CacheInv keys s) (apiKeyHash : Text) :
    (⟨apiKeyHash, s.clock, .behindLook (look s.cache apiKeyHash s.clock).1⟩ :
      Validation).Backed ((s.clock, s.apiKeys) :: s.past) := by
  cases hlook : (look s.cache apiKeyHash s.clock).1 with
  | none =>
    rw [Validation.Backed]
    trivial
  | some info =>
    obtain ⟨expiresAt, hcached, hlt⟩ := (look_spec s.cache apiKeyHash s.clock).1 info hlook
    obtain ⟨hexisted, hcompared⟩ := h.cached apiKeyHash info expiresAt hcached
    exact ⟨_, sub_lt_sub_right hlt _, hexisted.mono (past_subset s),
      hcompared.mono (past_subset s)⟩

private theorem read (h : CacheInv keys s) {call : Validation} {now : Time}
    (hmem : call ∈ s.validations) (hstage : call.stage = .reading now) (fails : Bool) :
    ({ call with stage := .read (s.apiKeys.validate call.apiKeyHash now.toInt fails) } :
      Validation).Backed ((s.clock, s.apiKeys) :: s.past) := by
  have hback := h.backed call hmem
  rw [Validation.Backed, hstage] at hback
  obtain ⟨hle, p, hp, rfl⟩ := hback
  cases hread : s.apiKeys.validate call.apiKeyHash p.1.toInt fails with
  | none => trivial
  | some key =>
    obtain ⟨hkey, hhash, hactive, hfresh⟩ := of_validate hread
    refine ⟨⟨_, List.mem_cons_self .., ?_, key, hkey, hhash, rfl, hactive⟩, ?_⟩
    · exact h.started call hmem
    · exact ⟨p, past_subset s hp, hle, hfresh⟩

private theorem answered (h : CacheInv keys s) {v : Nat} {call : Validation} {key : ApiKey}
    (hv : s.validations[v]? = some call) (hstage : call.stage = .read (some key)) :
    CacheInv keys
      { s.goto v call (.ended (some key.info)) with
        cache := s.cache.set call.apiKeyHash (key.info, call.start + cacheTtlSeconds)
        past := (s.clock, s.apiKeys) :: s.past } := by
  have hback := h.backed call (List.mem_of_getElem? hv)
  rw [Validation.Backed, hstage] at hback
  have hexisted := hback.1.mono (past_subset s)
  have hcompared := hback.2.mono (past_subset s)
  refine h.goes hv ?_ fun a info e hg ↦ ?_
  · exact ⟨call.start, sub_lt_self _ (by norm_num [cacheTtlSeconds]), hexisted, hcompared⟩
  · rw [Dict.get?_set] at hg
    split at hg
    · next ha =>
      subst ha
      obtain ⟨rfl, rfl⟩ := Prod.mk.inj (Option.some.inj hg)
      rw [add_sub_cancel_right]
      exact .inr ⟨hexisted, hcompared⟩
    · exact .inl hg

private theorem committed (h : CacheInv keys s) {c : Nat} (change : Change) (fails : Bool) :
    CacheInv keys
      { s with
        apiKeys := (change.kind.apply s.apiKeys change.keyId change.ownerId fails).getD s.apiKeys
        changes := s.changes.set c { change with
          stage := .ran s.clock
            (change.kind.apply s.apiKeys change.keyId change.ownerId fails).isSome }
        past := (s.clock, s.apiKeys) :: s.past } := by
  cases happly : change.kind.apply s.apiKeys change.keyId change.ownerId fails with
  | none =>
    refine h.next rfl (le_refl _) (fun _ hk _ ↦ hk) (fun _ hm ↦ .inl hm)
      (fun _ _ _ hg ↦ .inl hg) fun other hmem time hcommitted ↦ ?_
    rcases List.mem_or_eq_of_mem_set hmem with hold | rfl
    · exact .inl ⟨other, hold, hcommitted, rfl, rfl⟩
    · cases hcommitted
  | some apiKeys =>
    refine h.next rfl (le_refl _) (fun key hk hactive ↦ (of_apply happly hk hactive).1)
      (fun _ hm ↦ .inl hm) (fun _ _ _ hg ↦ .inl hg) fun other hmem time hcommitted ↦ ?_
    rcases List.mem_or_eq_of_mem_set hmem with hold | rfl
    · exact .inl ⟨other, hold, hcommitted, rfl, rfl⟩
    · exact .inr ⟨(Option.some.inj hcommitted).symm,
        fun key hk hactive ↦ (of_apply happly hk hactive).2⟩

private theorem evicted (h : CacheInv keys s) {c : Nat} {change : Change} {time : Time}
    {result : Bool} (hc : s.changes[c]? = some change) (hstage : change.stage = .ran time result) :
    CacheInv keys
      { s with
        cache := if result then s.cache.filter fun e ↦ e.1.keyId != change.keyId else s.cache
        changes := s.changes.set c { change with stage := .ended time result }
        past := (s.clock, s.apiKeys) :: s.past } := by
  refine h.next rfl (le_refl _) (fun _ hk _ ↦ hk) (fun _ hm ↦ .inl hm)
    (fun a info e hg ↦ .inl ?_) fun other hmem time' hcommitted ↦ .inl ?_
  · dsimp only at hg
    split at hg
    · exact (Dict.get?_filter.mp hg).1
    · exact hg
  · rcases List.mem_or_eq_of_mem_set hmem with hold | rfl
    · exact ⟨other, hold, hcommitted, rfl, rfl⟩
    · refine ⟨change, List.mem_of_getElem? hc, ?_, rfl, rfl⟩
      rw [Change.committed, hstage]
      cases result with
      | false => cases hcommitted
      | true => exact hcommitted

/-- A step keeps the invariant. -/
theorem step (h : CacheInv keys s) {a : Act} (hstep : KeyCache.step s a = some s') :
    CacheInv keys s' := by
  obtain ⟨s₁, hact, rfl⟩ := Option.map_eq_some_iff.mp hstep
  have hsame : ∀ change ∈ s.changes, ∀ time, change.committed = some time →
      (∃ old ∈ s.changes, old.committed = some time ∧ old.keyId = change.keyId ∧
        old.ownerId = change.ownerId) ∨ time = s.clock ∧ Dead s.apiKeys change :=
    fun change hmem _ hc ↦ .inl ⟨change, hmem, hc, rfl, rfl⟩
  cases a with
  | tick now =>
    simp only [State.act] at hact
    split at hact
    · next hle =>
      obtain rfl := Option.some.inj hact
      exact h.next rfl hle (fun _ hk _ ↦ hk) (fun _ hm ↦ .inl hm) (fun _ _ _ hg ↦ .inl hg) hsame
    · cases hact
  | validate apiKeyHash =>
    obtain rfl := Option.some.inj hact
    refine h.next rfl (le_refl _) (fun _ hk _ ↦ hk) (fun call hmem ↦ ?_)
      (fun a info e hg ↦ .inl ((look_spec s.cache apiKeyHash s.clock).2 a _ hg)) hsame
    rcases List.mem_append.mp hmem with hold | hnew
    · exact .inl hold
    · obtain rfl := List.mem_singleton.mp hnew
      exact .inr ⟨le_refl _, h.looked apiKeyHash⟩
  | submit v =>
    obtain ⟨call, hv, hact⟩ := Option.bind_eq_some_iff.mp hact
    split at hact
    · obtain rfl := Option.some.inj hact
      refine h.goes hv ?_ fun _ _ _ hg ↦ .inl hg
      exact ⟨h.started call (List.mem_of_getElem? hv), _, List.mem_cons_self .., rfl⟩
    · cases hact
  | read v fails =>
    obtain ⟨call, hv, hact⟩ := Option.bind_eq_some_iff.mp hact
    split at hact
    · next hstage =>
      obtain rfl := Option.some.inj hact
      exact h.goes hv (h.read (List.mem_of_getElem? hv) hstage fails) fun _ _ _ hg ↦ .inl hg
    · cases hact
  | answer v =>
    obtain ⟨call, hv, hact⟩ := Option.bind_eq_some_iff.mp hact
    split at hact
    · obtain rfl := Option.some.inj hact
      exact h.goes hv trivial fun _ _ _ hg ↦ .inl hg
    · next hstage =>
      obtain rfl := Option.some.inj hact
      exact h.answered hv hstage
    · cases hact
  | change kind keyId ownerId =>
    obtain rfl := Option.some.inj hact
    refine h.next rfl (le_refl _) (fun _ hk _ ↦ hk) (fun _ hm ↦ .inl hm) (fun _ _ _ hg ↦ .inl hg)
      fun change hmem time hc ↦ ?_
    rcases List.mem_append.mp hmem with hold | hnew
    · exact hsame change hold time hc
    · obtain rfl := List.mem_singleton.mp hnew
      cases hc
  | commit c fails =>
    obtain ⟨change, -, hact⟩ := Option.bind_eq_some_iff.mp hact
    split at hact
    · obtain rfl := Option.some.inj hact
      exact h.committed change fails
    · cases hact
  | evict c =>
    obtain ⟨change, hc, hact⟩ := Option.bind_eq_some_iff.mp hact
    split at hact
    · next hstage =>
      obtain rfl := Option.some.inj hact
      exact h.evicted hc hstage
    · cases hact

/-- In every run the invariant holds. -/
theorem of_reach (h : (system keys).Reachable s) : CacheInv keys s := by
  refine h.invariant (P := CacheInv keys) ?_ fun s a s' hs _ hstep ↦ hs.step hstep
  refine ⟨by simp [system], by simp [system], by simp [system], by simp [system], ?_,
    by simp [system]⟩
  intro p hp key hkey _
  obtain rfl := List.mem_singleton.mp hp
  exact hkey

end CacheInv

/-- A validation that returns metadata has them from a row that was in the table, active, at an
instant less than 30 seconds before it began, and its expiry was compared with a reading of the
clock taken then. So one that begins 30 seconds or more after the revocation or deletion of its key
returns none. -/
theorem deadKeys_expire (keys : ApiKeys) (s : State) (h : (system keys).Reachable s) :
    ∀ call ∈ s.validations,
      (∀ info, call.stage = .ended (some info) →
        ∃ time, call.start - cacheTtlSeconds < time ∧
          Existed s.past call.apiKeyHash info time ∧ Compared s.past info time) ∧
      ∀ change ∈ s.changes, ∀ time, change.committed = some time →
        time + cacheTtlSeconds ≤ call.start →
        (∀ key ∈ keys.rows, key.apiKeyHash = call.apiKeyHash →
          key.keyId = change.keyId ∧ key.ownerId = change.ownerId) →
        ∀ info, call.stage ≠ .ended (some info) := by
  have hinv := CacheInv.of_reach h
  intro call hcall
  have hended (info : APIKeyInfo) (hstage : call.stage = .ended (some info)) :
      ∃ time, call.start - cacheTtlSeconds < time ∧
        Existed s.past call.apiKeyHash info time ∧ Compared s.past info time := by
    have hback := hinv.backed call hcall
    rwa [Validation.Backed, hstage] at hback
  refine ⟨hended, fun change hchange time hcommitted hlate hkey info hstage ↦ ?_⟩
  obtain ⟨seen, hlt, ⟨p, hp, hle, key, hmem, hhash, -, hactive⟩, -⟩ := hended info hstage
  obtain ⟨-, -, hdead⟩ := hinv.dead change hchange time hcommitted
  have hafter : time < p.1 := by
    have hbound : time ≤ call.start - cacheTtlSeconds := by linarith
    exact hbound.trans_lt (hlt.trans_le hle)
  apply hdead p hp hafter key hmem hactive
  exact hkey key (hinv.rows p (List.mem_cons_of_mem _ hp) key hmem hactive) hhash

private def partnerKey : ApiKey :=
  ⟨"key_1".toList, "digest".toList, "bob".toList, 0, none, some "read".toList, true⟩

private def partnerKeys : ApiKeys := ⟨[partnerKey], by simp⟩

/-- A validation that overlaps the revocation of its key caches it again; the next one still returns
it, and the one that begins 30 seconds after the revocation does not. -/
theorem deadKeys_expire_overlap : ∃ s, (system partnerKeys).Reachable s ∧
    s.validations = [⟨"digest".toList, 1, .ended (some partnerKey.info)⟩,
      ⟨"digest".toList, 30, .ended (some partnerKey.info)⟩,
      ⟨"digest".toList, 32, .ended none⟩] ∧
    ∀ info, (⟨"digest".toList, 32, .ended none⟩ : Validation).stage ≠ .ended (some info) := by
  obtain ⟨s, hreach, hs⟩ := System.exists_of_exec (system partnerKeys) (fun _ _ ↦ True)
    [.tick 1, .validate "digest".toList, .submit 0, .read 0 false, .tick 2,
      .change .revoke "key_1".toList "bob".toList, .commit 0 false, .evict 0, .answer 0, .tick 30,
      .validate "digest".toList, .tick 32, .validate "digest".toList, .submit 2, .read 2 false,
      .answer 2]
    (fun s ↦ s.validations == [⟨"digest".toList, 1, .ended (some partnerKey.info)⟩,
      ⟨"digest".toList, 30, .ended (some partnerKey.info)⟩,
      ⟨"digest".toList, 32, .ended none⟩] && s.changes ==
      [⟨.revoke, "key_1".toList, "bob".toList, .ended 2 true⟩])
    (by decide +kernel)
  simp only [Bool.and_eq_true, beq_iff_eq] at hs
  refine ⟨s, hreach, hs.1, ?_⟩
  refine (deadKeys_expire partnerKeys s hreach _ (by simp [hs.1])).2
    ⟨.revoke, "key_1".toList, "bob".toList, .ended 2 true⟩ (by simp [hs.2]) 2 rfl
    (by norm_num [cacheTtlSeconds]) fun key hkey _ ↦ ?_
  obtain rfl := List.mem_singleton.mp hkey
  exact ⟨rfl, rfl⟩

end SalesData.Auth.KeyCache

import SalesData.Auth.Routes

/-!
# Key management by users

What a caller who is no administrator can do through the routes: its own keys are all it sees and
changes, and nobody's role moves. Each handler has one lemma; a sequence of requests composes
them.
-/

namespace SalesData.Auth

open Base

/-- The rows of keys in an answer. -/
def Response.keyRows {T : Type} : Response T → List APIKeyInfo
  | .apiKey key => [key.toAPIKeyInfo]
  | .apiKeys keys _ => keys
  | _ => []

/-- The keys of other owners are unchanged, and every user is there with the same roles. -/
structure OwnDataOnly (caller : CurrentUser) (s s' : AuthState) : Prop where
  apiKeys : s'.apiKeys.select (·.ownerId != caller.userId) =
    s.apiKeys.select (·.ownerId != caller.userId)
  roles : ∀ user ∈ s.users.rows, ∃ user' ∈ s'.users.rows,
    user'.userId = user.userId ∧ user'.roles = user.roles

/-- An outcome in which a caller meets its own data only. -/
structure OwnOutcome {T : Type} (caller : CurrentUser) (s : AuthState) (outcome : Outcome T) :
    Prop where
  data : OwnDataOnly caller s outcome.2
  keyRows : ∀ answer, outcome.1 = .ok answer → ∀ key ∈ answer.keyRows,
    key.ownerId = caller.userId

namespace OwnDataOnly

variable {caller : CurrentUser} {s s' s'' : AuthState}

/-- A state that is left alone. -/
theorem refl : OwnDataOnly caller s s where
  apiKeys := rfl
  roles user h := ⟨user, h, rfl, rfl⟩

/-- One request after another. -/
theorem trans (h : OwnDataOnly caller s s') (h' : OwnDataOnly caller s' s'') :
    OwnDataOnly caller s s'' where
  apiKeys := h'.apiKeys.trans h.apiKeys
  roles user huser := by
    obtain ⟨user', huser', hid, hroles⟩ := h.roles user huser
    obtain ⟨user'', huser'', hid', hroles'⟩ := h'.roles user' huser'
    exact ⟨user'', huser'', hid'.trans hid, hroles'.trans hroles⟩

/-- A change of the keys of one's own. -/
theorem of_apiKeys (husers : s'.users = s.users)
    (h : s'.apiKeys.select (·.ownerId != caller.userId) =
      s.apiKeys.select (·.ownerId != caller.userId)) : OwnDataOnly caller s s' where
  apiKeys := h
  roles user huser := ⟨user, by rwa [husers], rfl, rfl⟩

/-- A change of the users that keeps their roles. -/
theorem of_users (hkeys : s'.apiKeys = s.apiKeys)
    (h : ∀ user ∈ s.users.rows, ∃ user' ∈ s'.users.rows,
      user'.userId = user.userId ∧ user'.roles = user.roles) : OwnDataOnly caller s s' where
  apiKeys := by rw [hkeys]
  roles := h

end OwnDataOnly

/-- Only its own user passes for the owner, unless the caller is an administrator. -/
theorem eq_of_requireOwnerOrAdmin {caller : CurrentUser} {ownerId : Text}
    (hcaller : caller.role ≠ admin) (h : requireOwnerOrAdmin caller ownerId = .ok ()) :
    ownerId = caller.userId := by
  have hadmin : caller.isAdmin = false := by simpa [CurrentUser.isAdmin] using hcaller
  unfold requireOwnerOrAdmin at h
  rw [hadmin, if_neg (by simp)] at h
  split at h
  · cases h
  · next hne =>
    rw [not_or, not_not] at hne
    exact hne.2.symm

/-- A caller who is no administrator is turned away from what only administrators may. -/
theorem requireAdmin_of_ne {caller : CurrentUser} (hcaller : caller.role ≠ admin) :
    requireAdmin caller = .error ⟨403, "Admin privileges required".toList⟩ := by
  have hadmin : caller.isAdmin = false := by simpa [CurrentUser.isAdmin] using hcaller
  rw [requireAdmin, hadmin]
  rfl

namespace OwnOutcome

variable {T : Type} {caller : CurrentUser} {s : AuthState}

/-- A request that is refused. -/
theorem error {e : HttpError} : OwnOutcome (T := T) caller s (.error e, s) where
  data := .refl
  keyRows answer h := by cases h

end OwnOutcome

section Handlers

variable {T : Type} (crypto : Crypto T) (expirySeconds : Int) (env : Env) {caller : CurrentUser}
  (s : AuthState)

/-- Creating a key adds one of the caller. -/
theorem ownOutcome_createApiKey (hcaller : caller.role ≠ admin) (data : APIKeyCreate) :
    OwnOutcome caller s (Routes.createApiKey crypto env caller data s) := by
  unfold Routes.createApiKey
  cases howner : requireOwnerOrAdmin caller data.ownerId with
  | error e => exact .error
  | ok _ =>
    have hid := eq_of_requireOwnerOrAdmin hcaller howner
    constructor
    · unfold APIKeyService.createApiKey
      dsimp only
      split
      · next apiKeys hcreate =>
        apply OwnDataOnly.of_apiKeys
        · rfl
        · unfold ApiKeys.create at hcreate
          split at hcreate
          · cases hcreate
          · exact Table.select_insert_of_not hcreate (by simp [hid])
      · exact .refl
    · intro answer hanswer key hkey
      rw [← Except.ok.inj hanswer] at hkey
      rw [List.mem_singleton.mp hkey]
      exact hid

/-- Listing shows keys of the caller. -/
theorem ownOutcome_listApiKeys (hcaller : caller.role ≠ admin) (ownerId : Text) :
    OwnOutcome (T := T) caller s (Routes.listApiKeys env caller ownerId s) := by
  unfold Routes.listApiKeys
  cases howner : requireOwnerOrAdmin caller ownerId with
  | error e => exact .error
  | ok _ =>
    constructor
    · exact .refl
    · intro answer hanswer key hkey
      rw [← Except.ok.inj hanswer] at hkey
      obtain ⟨row, hrow, rfl⟩ := List.mem_map.mp hkey
      rw [← eq_of_requireOwnerOrAdmin hcaller howner]
      exact (ApiKeys.ownerId_of_mem_listByOwner hrow).1

/-- A condition on a key that asks for its owner does not meet other owners' keys. -/
theorem other_owner {keyId ownerId userId : Text} (h : ownerId = userId) (key : ApiKey)
    (hkey : (key.keyId == keyId && key.ownerId == ownerId) = true) :
    (key.ownerId != userId) = false := by
  rw [Bool.and_eq_true, beq_iff_eq, beq_iff_eq] at hkey
  simp [hkey.2, h]

/-- Revoking turns off a key of the caller. -/
theorem ownOutcome_revokeApiKey (hcaller : caller.role ≠ admin) (keyId ownerId : Text) :
    OwnOutcome (T := T) caller s (Routes.revokeApiKey env caller keyId ownerId s) := by
  unfold Routes.revokeApiKey
  cases howner : requireOwnerOrAdmin caller ownerId with
  | error e => exact .error
  | ok _ =>
    have hid := eq_of_requireOwnerOrAdmin hcaller howner
    constructor
    · show OwnDataOnly caller s (APIKeyService.revokeApiKey env keyId ownerId s)
      unfold APIKeyService.revokeApiKey ApiKeys.revoke
      cases env.fails .revokeApiKey with
      | true => exact .refl
      | false =>
        apply OwnDataOnly.of_apiKeys
        · rfl
        · apply Table.select_update_of_disjoint
          · simp
          · exact fun key hkey ↦ ⟨other_owner hid key hkey, other_owner hid key hkey⟩
    · intro answer hanswer key hkey
      rw [← Except.ok.inj hanswer] at hkey
      cases hkey

/-- Deleting removes a key of the caller. -/
theorem ownOutcome_deleteApiKey (hcaller : caller.role ≠ admin) (keyId ownerId : Text) :
    OwnOutcome (T := T) caller s (Routes.deleteApiKey env caller keyId ownerId s) := by
  unfold Routes.deleteApiKey
  cases howner : requireOwnerOrAdmin caller ownerId with
  | error e => exact .error
  | ok _ =>
    have hid := eq_of_requireOwnerOrAdmin hcaller howner
    constructor
    · show OwnDataOnly caller s (APIKeyService.deleteApiKey env keyId ownerId s)
      unfold APIKeyService.deleteApiKey ApiKeys.delete
      cases env.fails .deleteApiKey with
      | true => exact .refl
      | false =>
        apply OwnDataOnly.of_apiKeys
        · rfl
        · exact Table.select_delete_of_disjoint fun key hkey ↦ other_owner hid key hkey
    · intro answer hanswer key hkey
      rw [← Except.ok.inj hanswer] at hkey
      cases hkey

/-- A registration adds a user, and the others stay. -/
theorem ownOutcome_registerUser (data : UserCreate) :
    OwnOutcome caller s (Routes.registerUser crypto env data s) := by
  unfold Routes.registerUser
  split
  · exact .error
  · split
    · exact .error
    · dsimp only
      split
      · exact .error
      · next users hcreate =>
        constructor
        · apply OwnDataOnly.of_users
          · rfl
          · intro user huser
            unfold Users.create at hcreate
            split at hcreate
            · cases hcreate
            · refine ⟨user, ?_, rfl, rfl⟩
              rw [Table.rows_insert hcreate]
              exact List.mem_append_left _ huser
        · intro answer hanswer key hkey
          rw [← Except.ok.inj hanswer] at hkey
          cases hkey

/-- A login notes its time. -/
theorem ownOutcome_loginUser (data : UserLogin) :
    OwnOutcome caller s (Routes.loginUser crypto expirySeconds env data s) := by
  unfold Routes.loginUser
  split
  · exact .error
  · dsimp only
    split
    · next rejection _ =>
      constructor
      · exact .refl
      · intro answer hanswer key hkey
        cases rejection with
        | raised => cases hanswer
        | invalid =>
          rw [← Except.ok.inj hanswer] at hkey
          cases hkey
        | disabled =>
          rw [← Except.ok.inj hanswer] at hkey
          cases hkey
    · next user _ =>
      constructor
      · apply OwnDataOnly.of_users
        · rfl
        · exact fun r hr ↦ Users.roles_updateLastLogin _ _ _ _ hr
      · intro answer hanswer key hkey
        rw [← Except.ok.inj hanswer] at hkey
        cases hkey

/-- Whatever a user asks for, it meets its own data only. -/
theorem ownOutcome_handle (hcaller : caller.role ≠ admin) (request : Request) :
    OwnOutcome caller s (request.handle crypto expirySeconds env caller s) := by
  cases request with
  | createApiKey data =>
    rw [Request.handle]
    split
    · exact .error
    · exact ownOutcome_createApiKey crypto env s hcaller _
  | listApiKeys ownerId => exact ownOutcome_listApiKeys env s hcaller ownerId
  | revokeApiKey keyId ownerId => exact ownOutcome_revokeApiKey env s hcaller keyId ownerId
  | deleteApiKey keyId ownerId => exact ownOutcome_deleteApiKey env s hcaller keyId ownerId
  | registerUser data =>
    rw [Request.handle]
    split
    · exact .error
    · exact ownOutcome_registerUser crypto env s _
  | loginUser data => exact ownOutcome_loginUser crypto expirySeconds env s data
  | listUsers =>
    rw [Request.handle, Routes.listUsers, requireAdmin_of_ne hcaller]
    exact .error
  | updateUserRole userId role =>
    rw [Request.handle]
    simp only [Routes.updateUserRole, requireAdmin_of_ne hcaller]
    split
    · exact .error
    · exact .error

end Handlers

/-- Whatever a caller who is no administrator asks for, one request after the other and from any
state: other owners' keys stay as they are and out of its sight, and every user keeps its roles. -/
theorem keyManagement_ownData {T : Type} (crypto : Crypto T) (expirySeconds : Int)
    (caller : CurrentUser) (hcaller : caller.role ≠ admin) (requests : List (Env × Request))
    (s : AuthState) :
    OwnDataOnly caller s (Request.serve crypto expirySeconds caller requests s).2 ∧
      ∀ answer, .ok answer ∈ (Request.serve crypto expirySeconds caller requests s).1 →
        ∀ key ∈ answer.keyRows, key.ownerId = caller.userId := by
  induction requests generalizing s with
  | nil => exact ⟨.refl, fun answer h ↦ by cases h⟩
  | cons head requests ih =>
    have hhead := ownOutcome_handle crypto expirySeconds head.1 s hcaller head.2
    obtain ⟨hrest, hkeys⟩ := ih (head.2.handle crypto expirySeconds head.1 caller s).2
    constructor
    · exact hhead.data.trans hrest
    · intro answer hanswer
      rcases List.mem_cons.mp hanswer with h | h
      · exact hhead.keyRows answer h.symm
      · exact hkeys answer h

section Example

private def bob : CurrentUser := ⟨"bob".toList, "user".toList, "read".toList⟩

private def aliceAndBob : AuthState where
  users := ⟨[⟨"alice".toList, "alice".toList, "a@x".toList, [], some admin, true, 0, 0, none⟩,
    ⟨"bob".toList, "bob".toList, "b@x".toList, [], some "user".toList, true, 0, 0, none⟩],
    by decide⟩
  apiKeys := ⟨[⟨"key_1".toList, [], "alice".toList, 0, none, none, true⟩], by decide⟩
  validationCache := .empty
  userCache := .empty
  revokedBefore := .empty

private def bobEnv : Env :=
  ⟨fun _ ↦ 5, 5, fun _ ↦ false, false, "00".toList, "5a17".toList, "secret".toList⟩

private def bobRequests : List Request :=
  [.createApiKey ⟨"bob".toList, some "read,write".toList, none⟩,
    .revokeApiKey "key_1".toList "bob".toList, .deleteApiKey "key_1".toList "alice".toList,
    .updateUserRole "bob".toList admin, .listApiKeys "bob".toList]

/-- A user's attempts on another owner's key and on its own role. -/
theorem keyManagement_ownData_bob :
    OwnDataOnly bob aliceAndBob
      (Request.serve Crypto.transparent 3600 bob (bobRequests.map (bobEnv, ·)) aliceAndBob).2 ∧
    ∀ answer, .ok answer ∈
        (Request.serve Crypto.transparent 3600 bob (bobRequests.map (bobEnv, ·)) aliceAndBob).1 →
      ∀ key ∈ answer.keyRows, key.ownerId = bob.userId :=
  keyManagement_ownData Crypto.transparent 3600 bob (by decide) _ aliceAndBob

end Example
end SalesData.Auth

import SalesData.Auth.Middleware
import SalesData.Sql.Policy

/-!
# Read-only callers

What the middleware (`core/auth/middleware.py:100–228`) makes of keys that do not grant writes, and
of tokens without the role of an administrator, when neither belongs to an administrator: a caller
without the write scope, who is no administrator. The caches of keys and of users stay read-only
on the way.
-/

namespace SalesData.Auth

open Base Sql
open Cache (Time Time.toInt)

section Grants

variable (u : Unicode)

/-- No administrator has this id. -/
def Users.NonAdmin (users : Users) (userId : Text) : Prop :=
  ∀ user ∈ users.rows, user.userId = userId → primaryRole user ≠ admin

/-- Scopes that do not grant writes, of an owner who is no administrator. -/
structure ReadOnlyKey (users : Users) (ownerId : Text) (scopes : Option Text) : Prop where
  scopes : hasScope u scopes "write".toList = false
  owner : users.NonAdmin ownerId

/-- A caller without the write scope who is no administrator. -/
structure ReadOnlyCaller (users : Users) (caller : CurrentUser) : Prop where
  role : caller.role ≠ admin
  scopes : hasScope u (some caller.scopes) "write".toList = false
  userId : users.NonAdmin caller.userId

/-- The caches hold read-only keys and users who are no administrators. -/
structure ReadOnlyCaches (s : AuthState) : Prop where
  keys : ∀ hash info expiresAt, s.validationCache.get? hash = some (info, expiresAt) →
    ReadOnlyKey u s.users info.ownerId info.scopes
  owners : ∀ userId user expiresAt, s.userCache.get? userId = some (user, expiresAt) →
    ownerRole (some user) ≠ admin

variable {u}

/-- A session of a user who is no administrator does not grant writes. -/
theorem hasScope_sessionScopes {role : Text} (h : role ≠ admin) :
    hasScope u (some (sessionScopes role)) "write".toList = false := by
  have hread : u.lower "read".toList = "read".toList := u.lower_ascii _ (by simp)
  have hwrite : u.lower "write".toList = "write".toList := u.lower_ascii _ (by simp)
  rw [sessionScopes, if_neg h]
  have hnamed : (((some "read".toList).getD []).splitOn ',').filter (Text.strip · ≠ []) =
      ["read".toList] := by decide
  have hstrip : Text.strip "read".toList = "read".toList := by decide
  simp only [hasScope, hnamed, List.map_cons, List.map_nil, hstrip, hread, hwrite]
  decide

/-- A key without scopes grants what the empty text does. -/
theorem hasScope_getD (scopes : Option Text) (required : Text) :
    hasScope u (some (scopes.getD [])) required = hasScope u scopes required := by
  cases scopes with
  | none => rfl
  | some scopes => rfl

/-- An owner with the role of an administrator is one. -/
theorem primaryRole_of_ownerRole {user : User} (h : ownerRole (some user) = admin) :
    primaryRole user = admin := by
  unfold ownerRole at h
  unfold primaryRole
  dsimp only [Option.bind_some] at h
  split at h
  · next roles hroles =>
    cases roles with
    | nil => cases h
    | cons c roles => rwa [hroles]
  · cases h

/-- An owner who is not found has no role. -/
theorem ownerRole_none : ownerRole none ≠ admin := by decide

end Grants

section Middleware

variable {T : Type} {u : Unicode} {s : AuthState}

/-- The middleware changes the caches only, and keeps them read-only. -/
structure Screened (u : Unicode) (s s' : AuthState) : Prop where
  users : s'.users = s.users
  apiKeys : s'.apiKeys = s.apiKeys
  caches : ReadOnlyCaches u s'

namespace Screened

/-- Two stages of the middleware. -/
theorem trans {s' s'' : AuthState} (h : Screened u s s') (h' : Screened u s' s'') :
    Screened u s s'' where
  users := h'.users.trans h.users
  apiKeys := h'.apiKeys.trans h.apiKeys
  caches := h'.caches

end Screened

namespace ReadOnlyCaches

/-- A state that is left alone. -/
theorem screened (h : ReadOnlyCaches u s) : Screened u s s := ⟨rfl, rfl, h⟩

/-- An entry of the validation cache that expires. -/
theorem popKey (h : ReadOnlyCaches u s) (hash : Text) :
    Screened u s { s with validationCache := s.validationCache.pop hash } := by
  refine ⟨rfl, rfl, ?_, h.owners⟩
  intro hash' info expiresAt hget
  exact h.keys hash' info expiresAt (Dict.get?_of_pop hget).2

/-- A new entry of the validation cache. -/
theorem setKey (h : ReadOnlyCaches u s) {info : APIKeyInfo}
    (hinfo : ReadOnlyKey u s.users info.ownerId info.scopes) (hash : Text) (expiresAt : Time) :
    Screened u s
      { s with validationCache := s.validationCache.set hash (info, expiresAt) } := by
  refine ⟨rfl, rfl, ?_, h.owners⟩
  intro hash' info' expiresAt' hget
  rw [Dict.get?_set] at hget
  split at hget
  · cases Option.some.inj hget
    exact hinfo
  · exact h.keys hash' info' expiresAt' hget

/-- An entry of the cache of users that expires. -/
theorem popOwner (h : ReadOnlyCaches u s) (userId : Text) :
    Screened u s { s with userCache := s.userCache.pop userId } := by
  refine ⟨rfl, rfl, h.keys, ?_⟩
  intro userId' user expiresAt hget
  exact h.owners userId' user expiresAt (Dict.get?_of_pop hget).2

/-- A new entry of the cache of users. -/
theorem setOwner (h : ReadOnlyCaches u s) {user : User} (huser : ownerRole (some user) ≠ admin)
    (userId : Text) (expiresAt : Time) :
    Screened u s { s with userCache := s.userCache.set userId (user, expiresAt) } := by
  refine ⟨rfl, rfl, h.keys, ?_⟩
  intro userId' user' expiresAt' hget
  rw [Dict.get?_set] at hget
  split at hget
  · cases Option.some.inj hget
    exact huser
  · exact h.owners userId' user' expiresAt' hget

end ReadOnlyCaches

variable (env : Env)

/-- A lookup in the table finds a read-only key, when the rows of its hash are read-only. -/
theorem lookup_screened (h : ReadOnlyCaches u s) {hash : Text}
    (hrows : ∀ row ∈ s.apiKeys.rows, row.apiKeyHash = hash →
      ReadOnlyKey u s.users row.ownerId row.scopes) :
    Screened u s (APIKeyService.lookup env hash s).2 ∧
      ∀ info, (APIKeyService.lookup env hash s).1 = some info →
        ReadOnlyKey u s.users info.ownerId info.scopes := by
  unfold APIKeyService.lookup
  split
  · exact ⟨h.screened, fun info hinfo ↦ by cases hinfo⟩
  · next key hkey =>
    have hweak : ReadOnlyKey u s.users key.ownerId key.scopes := by
      unfold ApiKeys.validate at hkey
      split at hkey
      · cases hkey
      · obtain ⟨hmem, hfound⟩ := Table.of_find? (Option.filter_eq_some_iff.mp hkey).1
        apply hrows key hmem
        simp only [Bool.and_eq_true, beq_iff_eq] at hfound
        exact hfound.1
    refine ⟨h.setKey hweak hash _, fun info hinfo ↦ ?_⟩
    cases Option.some.inj hinfo
    exact hweak

/-- A validation finds a read-only key, when the rows of the key's hash are read-only. -/
theorem validateApiKey_screened {sha256 : Text → Text} (h : ReadOnlyCaches u s) {apiKey : Text}
    (hrows : ∀ row ∈ s.apiKeys.rows, row.apiKeyHash = sha256 apiKey →
      ReadOnlyKey u s.users row.ownerId row.scopes) :
    Screened u s (APIKeyService.validateApiKey sha256 env apiKey s).2 ∧
      ∀ info, (APIKeyService.validateApiKey sha256 env apiKey s).1 = some info →
        ReadOnlyKey u s.users info.ownerId info.scopes := by
  unfold APIKeyService.validateApiKey
  dsimp only
  split
  · next validated expiresAt hget =>
    split
    · refine ⟨h.screened, fun info hinfo ↦ ?_⟩
      cases Option.some.inj hinfo
      exact h.keys _ _ _ hget
    · have hpop := h.popKey (sha256 apiKey)
      obtain ⟨hscreened, hfound⟩ := lookup_screened env hpop.caches hrows
      exact ⟨hpop.trans hscreened, hfound⟩
  · exact lookup_screened env h hrows

/-- The cache of users finds nobody who is an administrator. -/
theorem getCachedUser_screened (h : ReadOnlyCaches u s) (userId : Text) :
    Screened u s (Middleware.getCachedUser env userId s).2 ∧
      ∀ user, (Middleware.getCachedUser env userId s).1 = some user →
        ownerRole (some user) ≠ admin := by
  unfold Middleware.getCachedUser
  split
  · exact ⟨h.screened, fun user huser ↦ by cases huser⟩
  · next cached expiresAt hget =>
    split
    · exact ⟨h.popOwner userId, fun user huser ↦ by cases huser⟩
    · refine ⟨h.screened, fun user huser ↦ ?_⟩
      cases Option.some.inj huser
      exact h.owners _ _ _ hget

/-- The row of an owner who is no administrator. -/
theorem ownerRole_of_getById {users : Users} {ownerId : Text} {fails : Bool} {user : User}
    (howner : users.NonAdmin ownerId) (h : users.getById ownerId fails = some user) :
    ownerRole (some user) ≠ admin := by
  unfold Users.getById at h
  split at h
  · cases h
  · obtain ⟨hmem, hid⟩ := Table.of_find? h
    intro hrole
    exact howner user hmem (by simpa using hid) (primaryRole_of_ownerRole hrole)

/-- The owner of a read-only key is no administrator to the middleware. -/
theorem keyOwner_screened (h : ReadOnlyCaches u s) {ownerId : Text}
    (howner : s.users.NonAdmin ownerId) :
    Screened u s (Middleware.keyOwner env ownerId s).2 ∧
      ownerRole (Middleware.keyOwner env ownerId s).1 ≠ admin := by
  have hcached := getCachedUser_screened env h ownerId
  unfold Middleware.keyOwner
  split
  · next user s' heq =>
    rw [heq] at hcached
    exact ⟨hcached.1, hcached.2 user rfl⟩
  · next s' heq =>
    rw [heq] at hcached
    have hscreened : Screened u s s' := hcached.1
    split
    · next user hrow =>
      rw [hscreened.users] at hrow
      have hrole := ownerRole_of_getById howner hrow
      exact ⟨hscreened.trans (hscreened.caches.setOwner hrole ownerId _), hrole⟩
    · exact ⟨hscreened, ownerRole_none⟩

/-- Whom a read-only key stands for. -/
theorem apiKeyUser_screened {sha256 : Text → Text} (h : ReadOnlyCaches u s) {apiKey : Text}
    (hrows : ∀ row ∈ s.apiKeys.rows, row.apiKeyHash = sha256 apiKey →
      ReadOnlyKey u s.users row.ownerId row.scopes) :
    Screened u s (Middleware.apiKeyUser env sha256 apiKey s).2 ∧
      ∀ caller, (Middleware.apiKeyUser env sha256 apiKey s).1 = some caller →
        ReadOnlyCaller u s.users caller := by
  have hvalidated := validateApiKey_screened env h hrows
  unfold Middleware.apiKeyUser
  split
  · next s' heq =>
    rw [heq] at hvalidated
    exact ⟨hvalidated.1, fun caller hcaller ↦ by cases hcaller⟩
  · next key s' heq =>
    rw [heq] at hvalidated
    have hscreened : Screened u s s' := hvalidated.1
    have hkey : ReadOnlyKey u s.users key.ownerId key.scopes := hvalidated.2 key rfl
    have hscopes : hasScope u (some (key.scopes.getD [])) "write".toList = false := by
      rw [hasScope_getD]
      exact hkey.scopes
    dsimp only
    split
    · refine ⟨hscreened, fun caller hcaller ↦ ?_⟩
      cases Option.some.inj hcaller
      exact ⟨ownerRole_none, hscopes, hkey.owner⟩
    · have howner := hkey.owner
      rw [← hscreened.users] at howner
      obtain ⟨hkept, hrole⟩ := keyOwner_screened env hscreened.caches howner
      refine ⟨hscreened.trans hkept, fun caller hcaller ↦ ?_⟩
      cases Option.some.inj hcaller
      exact ⟨hrole, hscopes, hkey.owner⟩

/-- A payload without the role of an administrator, for an id without one. -/
structure ReadOnlyPayload (users : Users) (payload : Payload) : Prop where
  role : payload.role ≠ admin
  userId : users.NonAdmin payload.userId

/-- Whom a token without an administrator's role stands for. -/
theorem bearerUser_readOnly {jwt : Jwt T} {users : Users} {revokedBefore : Dict Text Time}
    {now : Time} {payload : Payload} {caller : CurrentUser} (h : ReadOnlyPayload users payload)
    (hcaller : bearerUser jwt revokedBefore now (jwt.encode payload) = some caller) :
    ReadOnlyCaller u users caller := by
  obtain ⟨-, rfl⟩ := of_bearerUser_encode hcaller
  exact ⟨h.role, hasScope_sessionScopes h.role, h.userId⟩

/-- Credentials that stand for nothing but read-only keys and payloads. -/
structure ReadOnlyCredentials (u : Unicode) (crypto : Crypto T) (door : Env)
    (creds : Credentials T) (s : AuthState) : Prop where
  apiKey : creds.rawApiKey ≠ [] → ∀ row ∈ s.apiKeys.rows,
    row.apiKeyHash = crypto.sha256 creds.rawApiKey → ReadOnlyKey u s.users row.ownerId row.scopes
  bearer : ∀ token, creds.bearer = some token →
    (∃ payload, token = crypto.jwt.encode payload ∧ ReadOnlyPayload s.users payload) ∨
      crypto.jwt.decode (door.now 1) token = none

/-- The middleware lets read-only callers in only. -/
theorem enforceAuth_screened {crypto : Crypto T} {door : Env} {creds : Credentials T}
    (h : ReadOnlyCaches u s) (hcreds : ReadOnlyCredentials u crypto door creds s) :
    Screened u s (Middleware.enforceAuth door crypto creds s).2 ∧
      ∀ caller, (Middleware.enforceAuth door crypto creds s).1 = some caller →
        ReadOnlyCaller u s.users caller := by
  have hbearer (revokedBefore : Dict Text Time) (caller : CurrentUser)
      (hcaller : creds.bearer.bind (bearerUser crypto.jwt revokedBefore (door.now 1)) =
        some caller) : ReadOnlyCaller u s.users caller := by
    obtain ⟨token, htoken, huser⟩ := Option.bind_eq_some_iff.mp hcaller
    rcases hcreds.bearer token htoken with ⟨payload, rfl, hpayload⟩ | hvoid
    · exact bearerUser_readOnly hpayload huser
    · rw [bearerUser, hvoid] at huser
      cases huser
  unfold Middleware.enforceAuth
  by_cases hnone : creds.rawApiKey = []
  · rw [if_pos hnone]
    exact ⟨h.screened, hbearer s.revokedBefore⟩
  · rw [if_neg hnone]
    have huser := apiKeyUser_screened door h (hcreds.apiKey hnone)
    cases heq : Middleware.apiKeyUser door crypto.sha256 creds.rawApiKey s with
    | mk found s' =>
      rw [heq] at huser
      cases found with
      | some caller => exact huser
      | none => exact ⟨huser.1, hbearer s'.revokedBefore⟩

end Middleware

end SalesData.Auth

import SalesData.Auth.Callers

/-!
# API keys

`core/auth/api_key_service.py`: keys are made, validated through a cache, listed, revoked and
deleted. What a request reads from outside stands in `Env`.
-/

namespace SalesData.Auth

open Base
open Cache (Time Time.toInt)

/-- The statements of a request. -/
inductive Statement where
  | validateApiKey
  | keyOwner
  | createApiKey
  | listApiKeys
  | revokeApiKey
  | deleteApiKey
  | createUser
  | findUsername
  | updateLastLogin
  | listUsers
  | findTarget
  | updateRole
  | rereadTarget
  deriving DecidableEq, Repr

/-- What a request meets: its readings of the clocks, the statements that raise, the verdict of
the rate limiter and the output of `secrets`. -/
structure Env where
  now : Nat → Time
  monotonic : Time
  fails : Statement → Bool
  limited : Bool
  tokenHex : Text
  salt : Text
  apiKey : Text

/-- `APIKeyInfo` (`models.py:67–88`), also the dictionary of a validated key. -/
structure APIKeyInfo where
  keyId : Text
  ownerId : Text
  createdAt : Int
  expiresAt : Option Int
  scopes : Option Text
  isActive : Bool
  deriving DecidableEq, Repr

/-- `APIKeyResponse` (`models.py:41–64`). -/
structure APIKeyResponse extends APIKeyInfo where
  apiKey : Text
  deriving DecidableEq, Repr

/-- The columns of a key that leave the table. -/
def ApiKey.info (key : ApiKey) : APIKeyInfo :=
  ⟨key.keyId, key.ownerId, key.createdAt, key.expiresAt, key.scopes, key.isActive⟩

/-- The tables and what the process keeps of them: `_validation_cache`
(`api_key_service.py:47`), `_USER_CACHE` and `_REVOKED_BEFORE` (`middleware.py:28` and `48`). -/
structure AuthState where
  users : Users
  apiKeys : ApiKeys
  validationCache : Dict Text (APIKeyInfo × Time)
  userCache : Dict Text (User × Time)
  revokedBefore : Dict Text Time

/-- `key_{int(time.time())}_{token_hex(4)}`, and the same for users. -/
def freshId (kind : String) (now : Time) (tokenHex : Text) : Text :=
  kind.toList ++ '_' :: (toString now.toInt).toList ++ '_' :: tokenHex

namespace APIKeyService

variable (sha256 : Text → Text) (env : Env)

/-- `_evict_by_key_id` (`api_key_service.py:247–263`). -/
def evictByKeyId (s : AuthState) (keyId : Text) : AuthState :=
  { s with validationCache := s.validationCache.filter fun e ↦ e.1.keyId != keyId }

/-- `create_api_key` (`api_key_service.py:79–124`). The repository's verdict is not looked at. -/
def createApiKey (ownerId : Text) (scopes : Option Text) (expiresAt : Option Int) (s : AuthState) :
    APIKeyResponse × AuthState :=
  let info : APIKeyInfo :=
    ⟨freshId "key" (env.now 1) env.tokenHex, ownerId, (env.now 2).toInt, expiresAt, scopes, true⟩
  let key : ApiKey :=
    ⟨info.keyId, sha256 env.apiKey, ownerId, info.createdAt, expiresAt, scopes, true⟩
  ({ info with apiKey := env.apiKey },
    match s.apiKeys.create key (env.fails .createApiKey) with
    | some apiKeys => { s with apiKeys }
    | none => s)

/-- The lookup of `validate_api_key` in the table. -/
def lookup (apiKeyHash : Text) (s : AuthState) : Option APIKeyInfo × AuthState :=
  match s.apiKeys.validate apiKeyHash (env.now 0).toInt (env.fails .validateApiKey) with
  | none => (none, s)
  | some key => (some key.info, { s with
      validationCache := s.validationCache.set apiKeyHash (key.info, env.monotonic + 30) })

/-- `validate_api_key` (`api_key_service.py:126–173`). -/
def validateApiKey (apiKey : Text) (s : AuthState) : Option APIKeyInfo × AuthState :=
  let apiKeyHash := sha256 apiKey
  match s.validationCache.get? apiKeyHash with
  | some (validated, expiresAt) =>
    if env.monotonic < expiresAt then (some validated, s)
    else lookup env apiKeyHash { s with validationCache := s.validationCache.pop apiKeyHash }
  | none => lookup env apiKeyHash s

/-- `list_api_keys` (`api_key_service.py:175–201`). -/
def listApiKeys (ownerId : Text) (s : AuthState) : List APIKeyInfo :=
  (s.apiKeys.listByOwner ownerId (env.fails .listApiKeys)).map ApiKey.info

/-- `revoke_api_key` (`api_key_service.py:203–223`). -/
def revokeApiKey (keyId ownerId : Text) (s : AuthState) : AuthState :=
  match s.apiKeys.revoke keyId ownerId (env.fails .revokeApiKey) with
  | some apiKeys => evictByKeyId { s with apiKeys } keyId
  | none => s

/-- `delete_api_key` (`api_key_service.py:225–245`). -/
def deleteApiKey (keyId ownerId : Text) (s : AuthState) : AuthState :=
  match s.apiKeys.delete keyId ownerId (env.fails .deleteApiKey) with
  | some apiKeys => evictByKeyId { s with apiKeys } keyId
  | none => s

end APIKeyService
end SalesData.Auth

import SalesData.Auth.Routes

/-!
# The authentication middleware

`enforce_auth` (`core/auth/middleware.py:100–228`) and the cache of users that it keeps: which
caller the credentials of a request stand for, and how a request gets to its route. The headers
are read before the model begins: `bearer` is what is left of `authorization` without the prefix.
One reading of the monotonic clock stands for all of a request.
-/

namespace SalesData.Auth

open Base
open Cache (Time Time.toInt)

/-- The credentials of a request (`middleware.py:121–125`). -/
structure Credentials (T : Type) where
  xApiKey : Text
  bearer : Option T
  deriving DecidableEq, Repr

/-- `raw_api_key`; a header that is missing is empty. -/
def Credentials.rawApiKey {T : Type} (creds : Credentials T) : Text := Text.strip creds.xApiKey

/-- `request.state` of a request that no credentials are asked for. -/
def CurrentUser.anonymous : CurrentUser := ⟨[], [], []⟩

/-- The role of a key's owner (`middleware.py:162–169`); empty for a user without roles. -/
def ownerRole (user : Option User) : Text :=
  match user.bind User.roles with
  | some roles => (roles.splitOn ',').headD []
  | none => []

namespace Middleware

variable (env : Env)

/-- `_get_cached_user` (`middleware.py:57–65`). -/
def getCachedUser (userId : Text) (s : AuthState) : Option User × AuthState :=
  match s.userCache.get? userId with
  | none => (none, s)
  | some (user, expiresAt) =>
    if expiresAt ≤ env.monotonic then (none, { s with userCache := s.userCache.pop userId })
    else (some user, s)

/-- `_cache_user` (`middleware.py:68–69`). -/
def cacheUser (userId : Text) (user : User) (s : AuthState) : AuthState :=
  { s with userCache := s.userCache.set userId (user, env.monotonic + 30) }

/-- The owner of a key (`middleware.py:155–161`). -/
def keyOwner (ownerId : Text) (s : AuthState) : Option User × AuthState :=
  match getCachedUser env ownerId s with
  | (some user, s) => (some user, s)
  | (none, s) =>
    match s.users.getById ownerId (env.fails .keyOwner) with
    | some user => (some user, cacheUser env ownerId user s)
    | none => (none, s)

/-- The caller that an API key stands for (`middleware.py:137–170`). -/
def apiKeyUser (sha256 : Text → Text) (apiKey : Text) (s : AuthState) :
    Option CurrentUser × AuthState :=
  match APIKeyService.validateApiKey sha256 env apiKey s with
  | (none, s) => (none, s)
  | (some key, s) =>
    let (owner, s) := if key.ownerId = [] then (none, s) else keyOwner env key.ownerId s
    (some ⟨key.ownerId, ownerRole owner, key.scopes.getD []⟩, s)

/-- The caller of a protected request (`middleware.py:121–226`); `none` is 401. An API key that is
not valid is passed over for the token. -/
def enforceAuth {T : Type} (crypto : Crypto T) (creds : Credentials T) (s : AuthState) :
    Option CurrentUser × AuthState :=
  let (caller, s) :=
    if creds.rawApiKey = [] then (none, s) else apiKeyUser env crypto.sha256 creds.rawApiKey s
  match caller with
  | some caller => (some caller, s)
  | none => (creds.bearer.bind (bearerUser crypto.jwt s.revokedBefore (env.now 1)), s)

end Middleware

/-- A request to one of the two `PUBLIC_PATHS` that have a route (`middleware.py:88–93`). -/
def Request.isPublic : Request → Bool
  | registerUser _ | loginUser _ => true
  | _ => false

/-- The answer to a request without valid credentials (`middleware.py:223–226`). -/
def unauthorized : HttpError := ⟨401, []⟩

/-- A request on its way through the middleware, which meets `door`, to its handler, which
meets `env`. -/
def Request.respond {T : Type} (crypto : Crypto T) (expirySeconds : Int) (door env : Env)
    (creds : Credentials T) (s : AuthState) (request : Request) : Outcome T :=
  if request.isPublic then request.handle crypto expirySeconds env .anonymous s
  else
    match Middleware.enforceAuth door crypto creds s with
    | (none, s) => (.error unauthorized, s)
    | (some caller, s) => request.handle crypto expirySeconds env caller s

end SalesData.Auth

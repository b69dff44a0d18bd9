import SalesData.Auth.ApiKeyService

/-!
# Authentication routes

The handlers of `core/app/api/routes/auth.py`, each as one function of the caller, the body, what
the request meets and the state. The audit log, which no route reads, is left out.
-/

namespace SalesData.Auth

open Base
open Cache (Time Time.toInt)

/-- The libraries that the routes rest on: digests and tokens. -/
structure Crypto (T : Type) where
  pbkdf2 : Text → Text → Option Text
  sha256 : Text → Text
  jwt : Jwt T

/-- Digests and tokens that show what they are made of. -/
def Crypto.transparent : Crypto Payload :=
  ⟨fun password salt ↦ some (password ++ salt), id, .transparent⟩

/-- `APIKeyCreate` (`models.py:10–38`). -/
structure APIKeyCreate where
  ownerId : Text
  scopes : Option Text
  expiresAt : Option Int
  deriving DecidableEq, Repr

/-- `_expires_at_must_be_future` (`models.py:33–38`). -/
def APIKeyCreate.validate (data : APIKeyCreate) (now : Time) : Except HttpError APIKeyCreate :=
  if data.expiresAt.any (· ≤ now.toInt) then
    .error ⟨422, "expires_at must be a future Unix timestamp".toList⟩
  else .ok data

/-- `UserCreate` (`models.py:147–172`). -/
structure UserCreate where
  username : Text
  email : Text
  password : Text
  role : Text
  deriving DecidableEq, Repr

/-- The least length of a password (`models.py:162–164`). -/
def UserCreate.validate (data : UserCreate) : Except HttpError UserCreate :=
  if data.password.length < 8 then
    .error ⟨422, "String should have at least 8 characters".toList⟩
  else .ok data

/-- `UserLogin` (`models.py:195–207`). -/
structure UserLogin where
  username : Text
  password : Text
  deriving DecidableEq, Repr

/-- `UserRoleUpdate` (`models.py:175–192`). -/
structure UserRoleUpdate where
  role : Text
  known : role = admin ∨ role = "user".toList

/-- `_role_must_be_known` (`models.py:182–192`). -/
def UserRoleUpdate.validate (role : Text) : Except HttpError UserRoleUpdate :=
  if h : role = admin ∨ role = "user".toList then .ok ⟨role, h⟩
  else .error ⟨422, "role must be one of ['admin', 'user']".toList⟩

/-- `UserResponse` (`models.py:210–231`). -/
structure UserResponse where
  userId : Text
  username : Text
  email : Text
  role : Text
  createdAt : Int
  isActive : Bool
  deriving DecidableEq, Repr

/-- What a route shows of a row. -/
def User.response (user : User) : UserResponse :=
  ⟨user.userId, user.username, user.email, primaryRole user, user.createdAt, user.isActive⟩

/-- `AuthResponse` (`models.py:259–283`). -/
structure AuthResponse (T : Type) where
  success : Bool
  user : Option UserResponse
  token : Option T
  message : Text
  deriving DecidableEq, Repr

/-- The bodies that the routes answer with. -/
inductive Response (T : Type) where
  | apiKey (key : APIKeyResponse)
  | apiKeys (keys : List APIKeyInfo) (count : Nat)
  | apiKeyMessage (keyId message : Text)
  | user (user : UserResponse)
  | users (users : List UserResponse) (count : Nat)
  | auth (auth : AuthResponse T)
  deriving DecidableEq, Repr

/-- The answer of a handler, or the exception it raises, and the state it leaves. -/
abbrev Outcome (T : Type) := Except HttpError (Response T) × AuthState

namespace Routes

variable {T : Type} (crypto : Crypto T) (expirySeconds : Int) (env : Env) (caller : CurrentUser)

/-- `create_api_key` (`routes/auth.py:104–149`). -/
def createApiKey (data : APIKeyCreate) (s : AuthState) : Outcome T :=
  match requireOwnerOrAdmin caller data.ownerId with
  | .error e => (.error e, s)
  | .ok () =>
    let (key, s) :=
      APIKeyService.createApiKey crypto.sha256 env data.ownerId data.scopes data.expiresAt s
    (.ok (.apiKey key), s)

/-- `list_api_keys` (`routes/auth.py:152–182`). -/
def listApiKeys (ownerId : Text) (s : AuthState) : Outcome T :=
  match requireOwnerOrAdmin caller ownerId with
  | .error e => (.error e, s)
  | .ok () =>
    let keys := APIKeyService.listApiKeys env ownerId s
    (.ok (.apiKeys keys keys.length), s)

/-- `revoke_api_key` (`routes/auth.py:185–227`). -/
def revokeApiKey (keyId ownerId : Text) (s : AuthState) : Outcome T :=
  match requireOwnerOrAdmin caller ownerId with
  | .error e => (.error e, s)
  | .ok () => (.ok (.apiKeyMessage keyId "API key revoked successfully".toList),
      APIKeyService.revokeApiKey env keyId ownerId s)

/-- `delete_api_key` (`routes/auth.py:230–272`). -/
def deleteApiKey (keyId ownerId : Text) (s : AuthState) : Outcome T :=
  match requireOwnerOrAdmin caller ownerId with
  | .error e => (.error e, s)
  | .ok () => (.ok (.apiKeyMessage keyId "API key deleted successfully".toList),
      APIKeyService.deleteApiKey env keyId ownerId s)

/-- The row that a registration inserts; the role that was asked for is ignored. -/
def newUser (data : UserCreate) (passwordHash : Text) : User where
  userId := freshId "user" (env.now 0) env.tokenHex
  username := data.username
  email := data.email
  passwordHash := passwordHash
  roles := some "user".toList
  isActive := true
  createdAt := (env.now 1).toInt
  updatedAt := (env.now 1).toInt
  lastLoginAt := none

/-- `register_user` (`routes/auth.py:278–355`). -/
def registerUser (data : UserCreate) (s : AuthState) : Outcome T :=
  if env.limited then (.error ⟨429, "Too many registration attempts".toList⟩, s)
  else
    match hashPassword crypto.pbkdf2 data.password env.salt with
    | none => (.error ⟨400, "Failed to register user".toList⟩, s)
    | some passwordHash =>
      let user := newUser env data passwordHash
      match s.users.create user (env.fails .createUser) with
      | none => (.error ⟨400, "Failed to create user".toList⟩, s)
      | some users =>
        (.ok (.user { user.response with createdAt := (env.now 2).toInt }), { s with users })

/-- Why a login makes no token. -/
inductive Rejection where
  | raised
  | invalid
  | disabled
  deriving DecidableEq, Repr

/-- The check of the credentials (`routes/auth.py:396–422`). For no user a dummy digest is
verified, for the time that it takes. -/
def authenticate (pbkdf2 : Text → Text → Option Text) (password : Text) (user : Option User) :
    Except Rejection User :=
  match user with
  | none => .error .invalid
  | some user =>
    match verifyPassword pbkdf2 password user.passwordHash with
    | none => .error .raised
    | some false => .error .invalid
    | some true => if user.isActive then .ok user else .error .disabled

/-- Whoever passes the check of the credentials is the user that was found, with its password. -/
theorem of_authenticate {pbkdf2 : Text → Text → Option Text} {password : Text}
    {found : Option User} {user : User} (h : authenticate pbkdf2 password found = .ok user) :
    found = some user ∧ verifyPassword pbkdf2 password user.passwordHash = some true := by
  unfold authenticate at h
  split at h
  · cases h
  · split at h
    · cases h
    · cases h
    · next hverified =>
      split at h
      · cases Except.ok.inj h
        exact ⟨rfl, hverified⟩
      · cases h

/-- The answer to a login without a token. -/
def Rejection.answer : Rejection → Except HttpError (Response T)
  | raised => .error ⟨400, "Failed to authenticate user".toList⟩
  | invalid => .ok (.auth ⟨false, none, none, "Invalid username or password".toList⟩)
  | disabled => .ok (.auth ⟨false, none, none, "Account is disabled".toList⟩)

/-- `login_user` (`routes/auth.py:358–472`). -/
def loginUser (data : UserLogin) (s : AuthState) : Outcome T :=
  if env.limited then (.error ⟨429, "Too many login attempts".toList⟩, s)
  else
    let found := s.users.getByUsername data.username (env.fails .findUsername)
    match authenticate crypto.pbkdf2 data.password found with
    | .error rejection => (rejection.answer, s)
    | .ok user =>
      let token := crypto.jwt.encode (user.payload (env.now 0) expirySeconds)
      (.ok (.auth ⟨true, some user.response, some token, "Login successful".toList⟩),
        { s with users :=
            s.users.updateLastLogin user.userId (env.now 1) (env.fails .updateLastLogin) })

/-- `list_users` (`routes/auth.py:475–512`). -/
def listUsers (s : AuthState) : Outcome T :=
  match requireAdmin caller with
  | .error e => (.error e, s)
  | .ok () =>
    let users := (s.users.listAll (env.fails .listUsers)).map User.response
    (.ok (.users users users.length), s)

/-- A role change that takes an administrator's role away (`routes/auth.py:552`). -/
def demotesAdmin (target : User) (roleUpdate : UserRoleUpdate) : Bool :=
  primaryRole target == admin && roleUpdate.role != admin

/-- `remaining_admins` (`routes/auth.py:554–558`). -/
def remainingAdmins (allUsers : List User) (userId : Text) : List User :=
  allUsers.filter fun u ↦ u.userId != userId && primaryRole u == admin

/-- The answer to a role change (`routes/auth.py:593–605`). -/
def updatedUser (reread : Option User) (target : User) (roleUpdate : UserRoleUpdate) :
    UserResponse :=
  let updated := (reread.getD target).response
  { updated with role := if updated.role = [] then roleUpdate.role else updated.role }

/-- A user that is not there (`routes/auth.py:544–545`). -/
def notFound (userId : Text) : HttpError := ⟨404, "User not found: ".toList ++ userId⟩

/-- The refusal of `update_user_role` to demote the last administrator
(`routes/auth.py:559–563`). -/
def lastAdmin : HttpError := ⟨409, "Cannot demote the last remaining admin".toList⟩

/-- A role change that the table did not take (`routes/auth.py:568–569`). -/
def notUpdated : HttpError := ⟨400, "Failed to update user role".toList⟩

/-- `update_user_role` (`routes/auth.py:515–610`). -/
def updateUserRole (userId : Text) (roleUpdate : UserRoleUpdate) (s : AuthState) : Outcome T :=
  match requireAdmin caller with
  | .error e => (.error e, s)
  | .ok () =>
    match s.users.getById userId (env.fails .findTarget) with
    | none => (.error (notFound userId), s)
    | some target =>
      if demotesAdmin target roleUpdate ∧
          remainingAdmins (s.users.listAll (env.fails .listUsers)) userId = [] then
        (.error lastAdmin, s)
      else
        match s.users.updateRole userId roleUpdate.role (env.now 0) (env.fails .updateRole) with
        | none => (.error notUpdated, s)
        | some users =>
          let reread := users.getById userId (env.fails .rereadTarget)
          (.ok (.user (updatedUser reread target roleUpdate)),
            { s with
              users
              userCache := s.userCache.pop userId
              revokedBefore := s.revokedBefore.set userId (env.now 1) })

end Routes

/-- A request to one of the routes. -/
inductive Request where
  | createApiKey (data : APIKeyCreate)
  | listApiKeys (ownerId : Text)
  | revokeApiKey (keyId ownerId : Text)
  | deleteApiKey (keyId ownerId : Text)
  | registerUser (data : UserCreate)
  | loginUser (data : UserLogin)
  | listUsers
  | updateUserRole (userId role : Text)
  deriving DecidableEq, Repr

namespace Request

variable {T : Type} (crypto : Crypto T) (expirySeconds : Int)

/-- The handler of a request; a body that is not valid does not get there. -/
def handle (env : Env) (caller : CurrentUser) (s : AuthState) : Request → Outcome T
  | createApiKey data =>
    match data.validate (env.now 0) with
    | .error e => (.error e, s)
    | .ok data => Routes.createApiKey crypto env caller data s
  | listApiKeys ownerId => Routes.listApiKeys env caller ownerId s
  | revokeApiKey keyId ownerId => Routes.revokeApiKey env caller keyId ownerId s
  | deleteApiKey keyId ownerId => Routes.deleteApiKey env caller keyId ownerId s
  | registerUser data =>
    match data.validate with
    | .error e => (.error e, s)
    | .ok data => Routes.registerUser crypto env data s
  | loginUser data => Routes.loginUser crypto expirySeconds env data s
  | listUsers => Routes.listUsers env caller s
  | updateUserRole userId role =>
    match UserRoleUpdate.validate role with
    | .error e => (.error e, s)
    | .ok roleUpdate => Routes.updateUserRole env caller userId roleUpdate s

/-- A caller's requests, one after the other: the answers and the state at the end. -/
def serve (caller : CurrentUser) :
    List (Env × Request) → AuthState → List (Except HttpError (Response T)) × AuthState
  | [], s => ([], s)
  | (env, request) :: requests, s =>
    let (answer, s) := request.handle crypto expirySeconds env caller s
    let (answers, s) := serve caller requests s
    (answer :: answers, s)

end Request
end SalesData.Auth

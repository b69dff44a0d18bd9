import SalesData.Auth.Tables

/-!
# Callers

Who a request comes from (`core/auth/dependencies.py` and the bearer half of
`core/auth/middleware.py`), what the routes ask of a caller, and the passwords and session
tokens that callers show (`core/auth/passwords.py`). The digest and the token library are
parameters.
-/

namespace SalesData.Auth

open Base
open Cache (Time Time.toInt)

/-- `HTTPException`. -/
structure HttpError where
  statusCode : Nat
  detail : Text
  deriving DecidableEq, Repr

/-- `CurrentUser` (`dependencies.py:14–30`). -/
structure CurrentUser where
  userId : Text
  role : Text
  scopes : Text
  deriving DecidableEq, Repr

namespace CurrentUser

/-- `CurrentUser.is_admin`. -/
def isAdmin (currentUser : CurrentUser) : Bool := currentUser.role == admin

end CurrentUser

/-- `_require_owner_or_admin` (`routes/auth.py:61–78`). -/
def requireOwnerOrAdmin (currentUser : CurrentUser) (ownerId : Text) : Except HttpError Unit :=
  if currentUser.isAdmin then .ok ()
  else if currentUser.userId = [] ∨ currentUser.userId ≠ ownerId then
    .error ⟨403, "Not authorized to access this resource".toList⟩
  else .ok ()

/-- `_require_admin` (`routes/auth.py:81–88`). -/
def requireAdmin (currentUser : CurrentUser) : Except HttpError Unit :=
  if currentUser.isAdmin then .ok () else .error ⟨403, "Admin privileges required".toList⟩

section Passwords

variable (pbkdf2 : Text → Text → Option Text)

/-- `hash_password` (`passwords.py:21–36`) with a salt; a salt that is not hexadecimal has no
digest. -/
def hashPassword (password salt : Text) : Option Text :=
  (pbkdf2 password salt).map fun derived ↦ salt ++ '$' :: derived

/-- `verify_password` (`passwords.py:39–50`); `none` is an exception. An empty salt is replaced
by a fresh one, and strings that are not ASCII are not compared. -/
def verifyPassword (password storedHash : Text) : Option Bool :=
  let salt := storedHash.takeWhile (· ≠ '$')
  if '$' ∉ storedHash then some false
  else if storedHash.any (128 ≤ ·.toNat) then none
  else if salt = [] then some false
  else (hashPassword pbkdf2 password salt).map (· == storedHash)

end Passwords

/-- The payload of a session token (`routes/auth.py:430–436`). -/
structure Payload where
  userId : Text
  username : Text
  role : Text
  iat : Int
  exp : Int
  deriving DecidableEq, Repr

/-- The payload that a login makes at `now`. -/
def User.payload (user : User) (now : Time) (expirySeconds : Int) : Payload :=
  ⟨user.userId, user.username, primaryRole user, now.toInt, now.toInt + expirySeconds⟩

/-- `jwt` with the server's key: a token that decodes holds what it was made of. -/
structure Jwt (T : Type) where
  encode : Payload → T
  decode : Time → T → Option Payload
  decode_encode : ∀ {now : Time} {p q : Payload}, decode now (encode p) = some q → q = p

/-- Tokens that show their payload and decode from their issue time to their expiry. -/
def Jwt.transparent : Jwt Payload where
  encode := id
  decode now p := if (p.iat : ℚ) ≤ now ∧ now < p.exp then some p else none
  decode_encode h := by
    split at h
    · exact (Option.some.inj h).symm
    · cases h

/-- The scopes of a session (`middleware.py:213–217`). -/
def sessionScopes (role : Text) : Text :=
  if role = admin then "read,write".toList else "read".toList

/-- `_REVOKED_BEFORE` is behind the issue time of a token (`middleware.py:194–202`). -/
def revoked (revokedBefore : Dict Text Time) (payload : Payload) : Bool :=
  (revokedBefore.get? payload.userId).any fun before ↦ decide ((payload.iat : ℚ) < before)

/-- The caller that a bearer token stands for (`middleware.py:184–221`). -/
def bearerUser {T : Type} (jwt : Jwt T) (revokedBefore : Dict Text Time) (now : Time) (token : T) :
    Option CurrentUser :=
  (jwt.decode now token).bind fun payload ↦
    if revoked revokedBefore payload then none
    else some ⟨payload.userId, payload.role, sessionScopes payload.role⟩

/-- A token that is accepted has not been revoked and stands for its payload. -/
theorem of_bearerUser_encode {T : Type} {jwt : Jwt T} {revokedBefore : Dict Text Time} {now : Time}
    {p : Payload} {caller : CurrentUser}
    (h : bearerUser jwt revokedBefore now (jwt.encode p) = some caller) :
    revoked revokedBefore p = false ∧ caller = ⟨p.userId, p.role, sessionScopes p.role⟩ := by
  obtain ⟨q, hq, hcaller⟩ := Option.bind_eq_some_iff.mp h
  have hqp := jwt.decode_encode hq
  subst hqp
  split at hcaller
  · cases hcaller
  · next hnot => exact ⟨by simpa using hnot, (Option.some.inj hcaller).symm⟩

end SalesData.Auth

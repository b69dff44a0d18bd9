import SalesData.Base.System
import SalesData.Base.Tally
import SalesData.Auth.Routes

/-!
# Logins and role changes side by side

`login_user` and `update_user_role` (`core/app/api/routes/auth.py`) between their awaited calls. Any
number of both run at a time in one process: a statement takes effect when its thread runs it, and
what a handler does up to its next awaited call is one step. The clock may be set to anything.
-/

namespace SalesData.Auth

open Base
open Cache (Time)

/-- A call of `login_user`. -/
inductive Login (T : Type) where
  | reading (data : UserLogin)
  | verifying (password : Text) (found : Option User)
  | recording (user : User) (payload : Payload)
  | answered (answer : Except HttpError (Response T))

/-- Where a call of `update_user_role` is. -/
inductive Update.Phase where
  | reading
  | listing (target : User)
  | writing (target : User)
  | written (target : User)
  | rereading (target : User)
  | returned (user : UserResponse)
  | refused (error : HttpError)

/-- A call of `update_user_role`. -/
structure Update where
  userId : Text
  roleUpdate : UserRoleUpdate
  phase : Update.Phase

namespace Update

/-- The row is written, and the tokens of its user are not yet revoked. -/
def isWritten (upd : Update) : Bool :=
  match upd.phase with
  | .written _ => true
  | _ => false

/-- The tokens of the user have been revoked. -/
def hasRevoked (upd : Update) : Bool :=
  match upd.phase with
  | .rereading _ | .returned _ => true
  | _ => false

/-- The call has returned. -/
def hasReturned (upd : Update) : Bool :=
  match upd.phase with
  | .returned _ => true
  | _ => false

/-- The call still runs. -/
def isRunning (upd : Update) : Bool :=
  match upd.phase with
  | .returned _ | .refused _ => false
  | _ => true

end Update

namespace Roles

/-- The process: the table `users`, `_REVOKED_BEFORE`, the clock, the payloads of all tokens that
have been made, and the calls. -/
structure State (T : Type) where
  users : Users
  revokedBefore : Dict Text Time
  now : Time
  issued : List Payload
  logins : List (Login T)
  updates : List Update

/-- A step of the process. -/
inductive Act where
  | setClock (now : Time)
  | login (data : UserLogin)
  | readUser (i : Nat) (fails : Bool)
  | verified (i : Nat)
  | record (i : Nat) (fails : Bool)
  | update (caller : CurrentUser) (userId : Text) (roleUpdate : UserRoleUpdate)
  | readTarget (j : Nat) (fails : Bool)
  | listUsers (j : Nat) (fails : Bool)
  | write (j : Nat) (fails : Bool)
  | revoke (j : Nat)
  | reread (j : Nat) (fails : Bool)

variable {T : Type}

namespace State

/-- Login `i` moves on. -/
def setLogin (s : State T) (i : Nat) (l : Login T) : State T :=
  { s with logins := s.logins.set i l }

/-- Role change `j` moves on. -/
def setPhase (s : State T) (j : Nat) (upd : Update) (phase : Update.Phase) : State T :=
  { s with updates := s.updates.set j { upd with phase } }

end State

section Step

variable (crypto : Crypto T) (expirySeconds : Int)

/-- The stretches of `login_user`. -/
def stepLogin (s : State T) (i : Nat) : Login T → Act → Option (State T)
  | .reading data, .readUser _ fails =>
    some (s.setLogin i (.verifying data.password (s.users.getByUsername data.username fails)))
  | .verifying password found, .verified _ =>
    match Routes.authenticate crypto.pbkdf2 password found with
    | .error rejection => some (s.setLogin i (.answered rejection.answer))
    | .ok user =>
      let payload := user.payload s.now expirySeconds
      some { s.setLogin i (.recording user payload) with issued := payload :: s.issued }
  | .recording user payload, .record _ fails =>
    let token := crypto.jwt.encode payload
    let answer := ⟨true, some user.response, some token, "Login successful".toList⟩
    some { s.setLogin i (.answered (.ok (.auth answer))) with
      users := s.users.updateLastLogin user.userId s.now fails }
  | _, _ => none

/-- The stretches of `update_user_role`. -/
def stepUpdate (s : State T) (j : Nat) (upd : Update) : Update.Phase → Act → Option (State T)
  | .reading, .readTarget _ fails =>
    match s.users.getById upd.userId fails with
    | none => some (s.setPhase j upd (.refused (Routes.notFound upd.userId)))
    | some target =>
      if Routes.demotesAdmin target upd.roleUpdate then some (s.setPhase j upd (.listing target))
      else some (s.setPhase j upd (.writing target))
  | .listing target, .listUsers _ fails =>
    if Routes.remainingAdmins (s.users.listAll fails) upd.userId = [] then
      some (s.setPhase j upd (.refused Routes.lastAdmin))
    else some (s.setPhase j upd (.writing target))
  | .writing target, .write _ fails =>
    match s.users.updateRole upd.userId upd.roleUpdate.role s.now fails with
    | none => some (s.setPhase j upd (.refused Routes.notUpdated))
    | some users => some { s.setPhase j upd (.written target) with users }
  | .written target, .revoke _ =>
    some { s.setPhase j upd (.rereading target) with
      revokedBefore := s.revokedBefore.set upd.userId s.now }
  | .rereading target, .reread _ fails =>
    let reread := s.users.getById upd.userId fails
    some (s.setPhase j upd (.returned (Routes.updatedUser reread target upd.roleUpdate)))
  | _, _ => none

/-- The step function of the process. -/
def step (s : State T) (a : Act) : Option (State T) :=
  match a with
  | .setClock now => some { s with now }
  | .login data => some { s with logins := s.logins ++ [.reading data] }
  | .update caller userId roleUpdate =>
    let phase := match requireAdmin caller with
      | .ok () => .reading
      | .error e => .refused e
    some { s with updates := s.updates ++ [⟨userId, roleUpdate, phase⟩] }
  | .readUser i _ | .verified i | .record i _ =>
    s.logins[i]?.bind fun l ↦ stepLogin crypto expirySeconds s i l a
  | .readTarget j _ | .listUsers j _ | .write j _ | .revoke j | .reread j _ =>
    s.updates[j]?.bind fun upd ↦ stepUpdate s j upd upd.phase a

/-- A process that starts on `users`; tokens of earlier processes may be around. -/
def system (users : Users) (issued : List Payload) (now : Time) : System (State T) Act where
  init := ⟨users, .empty, now, issued, [], []⟩
  step := step crypto expirySeconds

/-- What a step does. -/
inductive Step (s : State T) : Act → State T → Prop
  | setClock (now : Time) : Step s (.setClock now) { s with now }
  | login (data : UserLogin) : Step s (.login data) { s with logins := s.logins ++ [.reading data] }
  | readUser {i : Nat} {data : UserLogin} (fails : Bool)
      (hl : s.logins[i]? = some (.reading data)) :
      Step s (.readUser i fails) (s.setLogin i
        (.verifying data.password (s.users.getByUsername data.username fails)))
  | reject {i : Nat} {password : Text} {found : Option User} {rejection : Routes.Rejection}
      (hl : s.logins[i]? = some (.verifying password found))
      (hrejected : Routes.authenticate crypto.pbkdf2 password found = .error rejection) :
      Step s (.verified i) (s.setLogin i (.answered rejection.answer))
  | mint {i : Nat} {password : Text} {found : Option User} {user : User}
      (hl : s.logins[i]? = some (.verifying password found))
      (huser : Routes.authenticate crypto.pbkdf2 password found = .ok user) :
      Step s (.verified i)
        { s.setLogin i (.recording user (user.payload s.now expirySeconds)) with
          issued := user.payload s.now expirySeconds :: s.issued }
  | record {i : Nat} {user : User} {payload : Payload} {answer : AuthResponse T} (fails : Bool)
      (hl : s.logins[i]? = some (.recording user payload)) :
      Step s (.record i fails) { s.setLogin i (.answered (.ok (.auth answer))) with
        users := s.users.updateLastLogin user.userId s.now fails }
  | update {caller : CurrentUser} (upd : Update) (hwritten : upd.isWritten = false)
      (hrevoked : upd.hasRevoked = false) : Step s (.update caller upd.userId upd.roleUpdate)
        { s with updates := s.updates ++ [upd] }
  | move {j : Nat} {a : Act} {upd : Update} {phase : Update.Phase} (hupd : s.updates[j]? = some upd)
      (hbefore : upd.isWritten = false)
      (hafter : ({ upd with phase } : Update).isWritten = false)
      (hrevoked : ({ upd with phase } : Update).hasRevoked = true → upd.hasRevoked = true) :
      Step s a (s.setPhase j upd phase)
  | write {j : Nat} {upd : Update} {target : User} (hupd : s.updates[j]? = some upd)
      (hphase : upd.phase = .writing target) :
      Step s (.write j false) { s.setPhase j upd (.written target) with
        users := s.users.setRole upd.userId upd.roleUpdate.role s.now }
  | revoke {j : Nat} {upd : Update} {target : User} (hupd : s.updates[j]? = some upd)
      (hphase : upd.phase = .written target) :
      Step s (.revoke j) { s.setPhase j upd (.rereading target) with
        revokedBefore := s.revokedBefore.set upd.userId s.now }

private theorem stepLogin_spec {s s' : State T} {i : Nat} {l : Login T} {a : Act}
    (hl : s.logins[i]? = some l)
    (ha : ∀ k fails, (a = .readUser k fails ∨ a = .verified k ∨ a = .record k fails) → k = i)
    (h : stepLogin crypto expirySeconds s i l a = some s') : Step crypto expirySeconds s a s' := by
  unfold stepLogin at h
  split at h
  · next data k fails =>
    rw [← Option.some.inj h, ha k fails (.inl rfl)]
    exact .readUser fails hl
  · next password found k =>
    rw [ha k false (.inr (.inl rfl))]
    split at h
    · next rejection hrejected =>
      rw [← Option.some.inj h]
      exact .reject hl hrejected
    · next user huser =>
      rw [← Option.some.inj h]
      exact .mint hl huser
  · next user payload k fails =>
    rw [← Option.some.inj h, ha k fails (.inr (.inr rfl))]
    exact .record fails hl
  · cases h

private theorem stepUpdate_spec {s s' : State T} {j : Nat} {upd : Update} {a : Act}
    (hupd : s.updates[j]? = some upd)
    (ha : ∀ k, (a = .write k false ∨ a = .revoke k) → k = j)
    (h : stepUpdate s j upd upd.phase a = some s') : Step crypto expirySeconds s a s' := by
  unfold stepUpdate at h
  split at h
  · next hphase =>
    have hbefore : upd.isWritten = false := by rw [Update.isWritten, hphase]
    split at h
    · rw [← Option.some.inj h]
      exact .move hupd hbefore rfl (fun hafter ↦ by cases hafter)
    · split at h
      · rw [← Option.some.inj h]
        exact .move hupd hbefore rfl (fun hafter ↦ by cases hafter)
      · rw [← Option.some.inj h]
        exact .move hupd hbefore rfl (fun hafter ↦ by cases hafter)
  · next hphase =>
    have hbefore : upd.isWritten = false := by rw [Update.isWritten, hphase]
    split at h
    · rw [← Option.some.inj h]
      exact .move hupd hbefore rfl (fun hafter ↦ by cases hafter)
    · rw [← Option.some.inj h]
      exact .move hupd hbefore rfl (fun hafter ↦ by cases hafter)
  · next target k fails hphase =>
    have hbefore : upd.isWritten = false := by rw [Update.isWritten, hphase]
    cases fails with
    | true =>
      rw [← Option.some.inj h]
      exact .move hupd hbefore rfl (fun hafter ↦ by cases hafter)
    | false =>
      rw [← Option.some.inj h, ha k (.inl rfl)]
      exact .write hupd hphase
  · next target k hphase =>
    rw [← Option.some.inj h, ha k (.inr rfl)]
    exact .revoke hupd hphase
  · next target k fails hphase =>
    have hbefore : upd.isWritten = false := by rw [Update.isWritten, hphase]
    have hrevoked : upd.hasRevoked = true := by rw [Update.hasRevoked, hphase]
    rw [← Option.some.inj h]
    exact .move hupd hbefore rfl (fun _ ↦ hrevoked)
  · cases h

/-- The step function does what `Step` says. -/
theorem step_spec {s s' : State T} {a : Act} (h : step crypto expirySeconds s a = some s') :
    Step crypto expirySeconds s a s' := by
  cases a with
  | setClock now =>
    rw [← Option.some.inj h]
    exact .setClock now
  | login data =>
    rw [← Option.some.inj h]
    exact .login data
  | update caller userId roleUpdate =>
    rw [← Option.some.inj h]
    cases requireAdmin caller with
    | ok _ => exact .update ⟨userId, roleUpdate, .reading⟩ rfl rfl
    | error e => exact .update ⟨userId, roleUpdate, .refused e⟩ rfl rfl
  | readUser i fails | verified i | record i fails =>
    obtain ⟨l, hl, hstep⟩ := Option.bind_eq_some_iff.mp h
    refine stepLogin_spec crypto expirySeconds hl ?_ hstep
    simp
  | readTarget j fails | listUsers j fails | write j fails | revoke j | reread j fails =>
    obtain ⟨upd, hupd, hstep⟩ := Option.bind_eq_some_iff.mp h
    refine stepUpdate_spec crypto expirySeconds hupd ?_ hstep
    simp

end Step

end Roles
end SalesData.Auth

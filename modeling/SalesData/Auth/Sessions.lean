import SalesData.Auth.RoleChanges

/-!
# Sessions after a role change

`update_user_role` rejects "any JWT already issued to this user" so that "the role change takes
effect immediately for JWT sessions too" (`routes/auth.py:576–581`). It compares issue times. The
role of a token is that of the row its login read, and the token may be made long after.
-/

namespace SalesData.Auth

open Base
open Cache (Time)

/-- The role that the table has for a user. -/
def Users.role? (users : Users) (userId : Text) : Option Text :=
  (users.byId userId).map primaryRole

/-- Another user's role after a role change. -/
theorem role?_setRole_of_ne {users : Users} {userId role : Text} {now : Time} {a : Text}
    (h : a ≠ userId) : (users.setRole userId role now).role? a = users.role? a := by
  rw [Users.role?, Users.byId_setRole, if_neg h, Users.role?]

namespace Roles

variable {T : Type} (crypto : Crypto T) (expirySeconds : Int)

/-- The user for whom a login is about to make a token. -/
def minting (l : Login T) : Option User :=
  match l with
  | .verifying password found => (Routes.authenticate crypto.pbkdf2 password found).toOption
  | _ => none

/-- Every accepted token of a user whose role change has returned, with no other one running,
carries the role that the table has. -/
def RolesInEffect (s : State T) : Prop :=
  ∀ userId, (∃ upd ∈ s.updates, upd.userId = userId ∧ upd.hasReturned = true) →
    (∀ upd ∈ s.updates, upd.userId = userId → upd.isRunning = false) →
    ∀ p ∈ s.issued, ∀ caller,
      bearerUser crypto.jwt s.revokedBefore s.now (crypto.jwt.encode p) = some caller →
      caller.userId = userId → s.users.role? userId = some caller.role

/-- Whether a role change of a user has written and not yet revoked. -/
def unrevokedWrite (userId : Text) (upd : Update) : Nat :=
  if upd.userId = userId ∧ upd.isWritten = true then 1 else 0

/-- How many role changes of a user have written and not yet revoked. -/
def unrevoked (userId : Text) (updates : List Update) : Nat :=
  tally (unrevokedWrite userId) updates

/-- No login crosses the revocation of user `userId`: its tokens with another role than the table's
were issued earlier, and no login is about to make one. -/
def Uncrossed (s : State T) (userId : Text) : Prop :=
  (∀ p ∈ s.issued, p.userId = userId → s.users.role? userId ≠ some p.role → (p.iat : ℚ) < s.now) ∧
  ∀ l ∈ s.logins, ∀ user ∈ minting crypto l, user.userId = userId →
    s.users.role? userId = some (primaryRole user)

instance (s : State T) (userId : Text) : Decidable (Uncrossed crypto s userId) :=
  @instDecidableAnd _ _ inferInstance
    (@List.decidableBAll _ _ (fun _ ↦ @Option.decidableForallMem _ _ (fun _ ↦ inferInstance) _) _)

/-- A revocation that no login crosses, unless another one of the user is still to come. -/
def UncrossedRevoke (s : State T) : Act → Prop
  | .revoke j => ∀ upd ∈ s.updates[j]?, unrevoked upd.userId s.updates = 1 →
      Uncrossed crypto s upd.userId
  | _ => True

instance (s : State T) : ∀ a, Decidable (UncrossedRevoke crypto s a)
  | .revoke j => @Option.decidableForallMem _ _ (fun _ ↦ inferInstance) s.updates[j]?
  | .setClock _ | .login _ | .readUser _ _ | .verified _ | .record _ _ | .update _ _ _
  | .readTarget _ _ | .listUsers _ _ | .write _ _ | .reread _ _ => isTrue trivial

/-- The tokens of a user that are not revoked carry the table's role, and so will the ones that
logins are about to make. -/
structure Current (s : State T) (userId : Text) : Prop where
  issued : ∀ p ∈ s.issued, p.userId = userId → revoked s.revokedBefore p = false →
    s.users.role? userId = some p.role
  logins : ∀ l ∈ s.logins, ∀ user ∈ minting crypto l, user.userId = userId →
    s.users.role? userId = some (primaryRole user)

/-- Who has been revoked has current tokens, except between a write and its revocation. -/
structure RoleInv (s : State T) : Prop where
  revokes : ∀ upd ∈ s.updates, upd.hasRevoked = true → s.revokedBefore.get? upd.userId ≠ none
  current : ∀ userId, s.revokedBefore.get? userId ≠ none → unrevoked userId s.updates = 0 →
    Current crypto s userId

variable {crypto expirySeconds} {s s' : State T}

namespace Current

/-- What keeps the tokens of a user current: the same role and revocation, and new tokens and
logins with that role. -/
theorem of_frame {userId : Text} (h : Current crypto s userId)
    (hrole : s'.users.role? userId = s.users.role? userId)
    (hrevoked : s'.revokedBefore.get? userId = s.revokedBefore.get? userId)
    (hissued : ∀ p ∈ s'.issued, p ∈ s.issued ∨
      (p.userId = userId → s.users.role? userId = some p.role))
    (hlogins : ∀ l ∈ s'.logins, l ∈ s.logins ∨ ∀ user ∈ minting crypto l,
      user.userId = userId → s.users.role? userId = some (primaryRole user)) :
    Current crypto s' userId where
  issued p hp hid hnot := by
    rw [hrole]
    rcases hissued p hp with hp | hp
    · rw [revoked, hid, hrevoked] at hnot
      apply h.issued p hp hid
      rw [revoked, hid, hnot]
    · exact hp hid
  logins l hl user huser hid := by
    rw [hrole]
    rcases hlogins l hl with hl | hl
    · exact h.logins l hl user huser hid
    · exact hl user huser hid

end Current

private theorem unrevokedWrite_of_not {upd : Update} (userId : Text) (h : upd.isWritten = false) :
    unrevokedWrite userId upd = 0 := by
  rw [unrevokedWrite, if_neg]
  rw [h]
  simp

private theorem unrevokedWrite_of_ne {userId : Text} (upd : Update) (h : upd.userId ≠ userId) :
    unrevokedWrite userId upd = 0 := by
  rw [unrevokedWrite, if_neg]
  exact fun hboth ↦ h hboth.1

private theorem unrevokedWrite_self {upd : Update} (h : upd.isWritten = true) :
    unrevokedWrite upd.userId upd = 1 := by
  rw [unrevokedWrite, if_pos ⟨rfl, h⟩]

private theorem unrevoked_set {j : Nat} {upd : Update} (hupd : s.updates[j]? = some upd)
    (userId : Text) (phase : Update.Phase) :
    unrevoked userId (s.updates.set j { upd with phase }) + unrevokedWrite userId upd =
      unrevoked userId s.updates + unrevokedWrite userId { upd with phase } :=
  tally_set hupd _

private theorem unrevoked_set_of_ne {j : Nat} {upd : Update} {userId : Text}
    (hupd : s.updates[j]? = some upd) (hid : upd.userId ≠ userId) (phase : Update.Phase) :
    unrevoked userId (s.updates.set j { upd with phase }) = unrevoked userId s.updates := by
  have hcount := unrevoked_set hupd userId phase
  have hafter : unrevokedWrite userId { upd with phase } = 0 := unrevokedWrite_of_ne _ hid
  rw [unrevokedWrite_of_ne upd hid, hafter] at hcount
  exact hcount

private theorem current_setLogin {l' : Login T} {i : Nat} {userId : Text}
    (h : Current crypto s userId)
    (hl' : ∀ user ∈ minting crypto l', user.userId = userId →
      s.users.role? userId = some (primaryRole user)) :
    Current crypto (s.setLogin i l') userId := by
  apply h.of_frame
  · rfl
  · rfl
  · exact fun p hp ↦ .inl hp
  · intro l hl
    rcases List.mem_or_eq_of_mem_set hl with hl | rfl
    · exact .inl hl
    · exact .inr hl'

/-- A login in its check makes a token for a user that was found and passes. -/
theorem mem_minting {password : Text} {found : Option User} {user : User} :
    user ∈ minting crypto (.verifying password found : Login T) ↔
      Routes.authenticate crypto.pbkdf2 password found = .ok user := by
  show user ∈ (Routes.authenticate crypto.pbkdf2 password found).toOption ↔ _
  cases Routes.authenticate crypto.pbkdf2 password found with
  | error e => simp [Except.toOption]
  | ok found => simp [Except.toOption]

private theorem current_login {i : Nat} {data : UserLogin} {userId : Text} (fails : Bool)
    (h : Current crypto s userId) : Current crypto (s.setLogin i
      (.verifying data.password (s.users.getByUsername data.username fails))) userId := by
  apply current_setLogin h
  intro user huser hid
  have hfound := (Routes.of_authenticate (mem_minting.mp huser)).1
  rw [← hid, Users.role?, Users.byId_of_getByUsername hfound]
  rfl

private theorem current_mint {i : Nat} {password : Text} {found : Option User} {user : User}
    {userId : Text} (h : Current crypto s userId)
    (hl : s.logins[i]? = some (.verifying password found))
    (huser : Routes.authenticate crypto.pbkdf2 password found = .ok user) :
    Current crypto { s.setLogin i (.recording user (user.payload s.now expirySeconds)) with
      issued := user.payload s.now expirySeconds :: s.issued } userId := by
  have hset : Current crypto (s.setLogin i
      (.recording user (user.payload s.now expirySeconds))) userId := by
    apply current_setLogin h
    exact fun user huser ↦ by cases huser
  apply hset.of_frame
  · rfl
  · rfl
  · intro p hp
    rcases List.mem_cons.mp hp with rfl | hp
    · right
      exact h.logins _ (List.mem_of_getElem? hl) user (mem_minting.mpr huser)
    · exact .inl hp
  · exact fun l hl ↦ .inl hl

private theorem current_record {i : Nat} {user : User} {answer : AuthResponse T} {userId : Text}
    (fails : Bool) (h : Current crypto s userId) :
    Current crypto { s.setLogin i (.answered (.ok (.auth answer))) with
      users := s.users.updateLastLogin user.userId s.now fails } userId := by
  have hset : Current crypto (s.setLogin i (.answered (.ok (.auth answer)))) userId := by
    apply current_setLogin h
    exact fun user huser ↦ by cases huser
  apply hset.of_frame
  · exact Users.byId_updateLastLogin s.users user.userId s.now fails userId
  · rfl
  · exact fun p hp ↦ .inl hp
  · exact fun l hl ↦ .inl hl

private theorem current_revoke {j : Nat} {upd : Update} {target : User}
    (h : Uncrossed crypto s upd.userId) :
    Current crypto { s.setPhase j upd (.rereading target) with
      revokedBefore := s.revokedBefore.set upd.userId s.now } upd.userId where
  issued p hp hid hnot := by
    by_contra hrole
    have hlt := h.1 p hp hid hrole
    rw [revoked, hid, Dict.get?_set, if_pos rfl] at hnot
    simp [hlt] at hnot
  logins := h.2

private theorem current_of_step {a : Act} {userId : Text} (hinv : RoleInv crypto s)
    (hok : UncrossedRevoke crypto s a) (h : Step crypto expirySeconds s a s')
    (hbefore : s'.revokedBefore.get? userId ≠ none)
    (hnone : unrevoked userId s'.updates = 0) : Current crypto s' userId := by
  cases h with
  | setClock now =>
    have hcur := hinv.current userId hbefore hnone
    exact ⟨hcur.issued, hcur.logins⟩
  | login data =>
    apply (hinv.current userId hbefore hnone).of_frame
    · rfl
    · rfl
    · exact fun p hp ↦ .inl hp
    · intro l hl
      rcases List.mem_append.mp hl with hl | hl
      · exact .inl hl
      · rw [List.mem_singleton.mp hl]
        exact .inr fun user huser ↦ by cases huser
  | readUser fails hl => exact current_login fails (hinv.current userId hbefore hnone)
  | reject hl hrejected =>
    apply current_setLogin (hinv.current userId hbefore hnone)
    exact fun user huser ↦ by cases huser
  | mint hl huser => exact current_mint (hinv.current userId hbefore hnone) hl huser
  | record fails hl => exact current_record fails (hinv.current userId hbefore hnone)
  | update upd hwritten hrevoked =>
    have hcount : unrevoked userId (s.updates ++ [upd]) = 0 := hnone
    rw [unrevoked, tally_append, tally_cons, unrevokedWrite_of_not userId hwritten] at hcount
    have hcur := hinv.current userId hbefore (Nat.eq_zero_of_add_eq_zero_right hcount)
    exact ⟨hcur.issued, hcur.logins⟩
  | @move j a upd phase hupd hwritten hafter hrevoked =>
    have hcount := unrevoked_set hupd userId phase
    rw [unrevokedWrite_of_not userId hwritten, unrevokedWrite_of_not userId hafter] at hcount
    have hcur := hinv.current userId hbefore (hcount.symm.trans hnone)
    exact ⟨hcur.issued, hcur.logins⟩
  | @write j upd target hupd hphase =>
    have hzero : unrevoked userId (s.updates.set j { upd with phase := .written target }) = 0 :=
      hnone
    by_cases hid : upd.userId = userId
    · subst hid
      have hcount := unrevoked_set hupd upd.userId (.written target)
      have hwriting : upd.isWritten = false := by rw [Update.isWritten, hphase]
      have hbefore := unrevokedWrite_of_not upd.userId hwriting
      have hafter : unrevokedWrite upd.userId { upd with phase := .written target } = 1 :=
        if_pos ⟨rfl, rfl⟩
      omega
    · have hcount := unrevoked_set_of_ne hupd hid (.written target)
      apply (hinv.current userId hbefore (hcount.symm.trans hzero)).of_frame
      · exact role?_setRole_of_ne (Ne.symm hid)
      · rfl
      · exact fun p hp ↦ .inl hp
      · exact fun l hl ↦ .inl hl
  | @revoke j upd target hupd hphase =>
    have hzero : unrevoked userId (s.updates.set j { upd with phase := .rereading target }) = 0 :=
      hnone
    by_cases hid : upd.userId = userId
    · subst hid
      have hcount := unrevoked_set hupd upd.userId (.rereading target)
      have hwritten : upd.isWritten = true := by rw [Update.isWritten, hphase]
      have hone := unrevokedWrite_self hwritten
      have hafter : unrevokedWrite upd.userId { upd with phase := .rereading target } = 0 :=
        unrevokedWrite_of_not upd.userId rfl
      exact current_revoke (hok upd hupd (by omega))
    · have hcount := unrevoked_set_of_ne hupd hid (.rereading target)
      have hget : (s.revokedBefore.set upd.userId s.now).get? userId =
          s.revokedBefore.get? userId := by
        rw [Dict.get?_set, if_neg (Ne.symm hid)]
      have hsome : s.revokedBefore.get? userId ≠ none := by
        rw [← hget]
        exact hbefore
      apply (hinv.current userId hsome (hcount.symm.trans hzero)).of_frame
      · rfl
      · exact hget
      · exact fun p hp ↦ .inl hp
      · exact fun l hl ↦ .inl hl

private theorem revokes_of_step {a : Act} (hinv : RoleInv crypto s)
    (h : Step crypto expirySeconds s a s') :
    ∀ upd ∈ s'.updates, upd.hasRevoked = true → s'.revokedBefore.get? upd.userId ≠ none := by
  cases h with
  | setClock | login | readUser | reject | mint | record => exact hinv.revokes
  | update upd hwritten hrevoked =>
    intro upd' hupd' hdone
    rcases List.mem_append.mp hupd' with hupd' | hupd'
    · exact hinv.revokes upd' hupd' hdone
    · rw [List.mem_singleton.mp hupd', hrevoked] at hdone
      cases hdone
  | @move j a upd phase hupd hwritten hafter hrevoked =>
    apply forall_mem_set hinv.revokes
    exact fun hdone ↦ hinv.revokes upd (List.mem_of_getElem? hupd) (hrevoked hdone)
  | write hupd hphase =>
    apply forall_mem_set hinv.revokes
    exact fun hdone ↦ by cases hdone
  | @revoke j upd target hupd hphase =>
    have hget : ∀ userId, s.revokedBefore.get? userId ≠ none ∨ userId = upd.userId →
        (s.revokedBefore.set upd.userId s.now).get? userId ≠ none := by
      intro userId hor
      rw [Dict.get?_set]
      split
      · simp
      · next hne => exact hor.resolve_right hne
    apply forall_mem_set
    · exact fun upd' hupd' hdone ↦ hget _ (.inl (hinv.revokes upd' hupd' hdone))
    · exact fun _ ↦ hget _ (.inr rfl)

/-- Whoever's role change has returned has current tokens, in every run without a login that crosses
a revocation. -/
theorem roleInv_of_reach {users : Users} {issued : List Payload} {now : Time}
    (h : (system crypto expirySeconds users issued now).Reach (UncrossedRevoke crypto) s) :
    RoleInv crypto s := by
  apply h.invariant (P := RoleInv crypto)
  · constructor
    · exact fun upd hupd ↦ by cases hupd
    · exact fun userId hbefore ↦ absurd rfl hbefore
  · intro s a s' hinv hok hstep
    have hspec := step_spec crypto expirySeconds hstep
    constructor
    · exact revokes_of_step hinv hspec
    · exact fun userId ↦ current_of_step hinv hok hspec

/-- Role changes take effect for sessions in every run in which no login crosses a revocation. -/
theorem roles_inEffect {T : Type} (crypto : Crypto T) (expirySeconds : Int) (users : Users)
    (issued : List Payload) (now : Time) (s : State T)
    (h : (system crypto expirySeconds users issued now).Reach (UncrossedRevoke crypto) s) :
    RolesInEffect crypto s := by
  intro userId ⟨upd, hupd, hid, hreturned⟩ hrunning p hp caller haccepted hcaller
  have hinv := roleInv_of_reach h
  have hbefore : s.revokedBefore.get? userId ≠ none := by
    rw [← hid]
    apply hinv.revokes upd hupd
    unfold Update.hasReturned at hreturned
    unfold Update.hasRevoked
    split at hreturned
    · next heq => rw [heq]
    · cases hreturned
  have hnone : unrevoked userId s.updates = 0 := by
    rw [unrevoked, tally_eq_zero_iff]
    intro upd' hupd'
    by_cases hid' : upd'.userId = userId
    · apply unrevokedWrite_of_not
      have hstopped := hrunning upd' hupd' hid'
      unfold Update.isRunning at hstopped
      unfold Update.isWritten
      split
      · next heq =>
        rw [heq] at hstopped
        cases hstopped
      · rfl
    · exact unrevokedWrite_of_ne upd' hid'
  obtain ⟨hnot, rfl⟩ := of_bearerUser_encode haccepted
  exact (hinv.current userId hbefore hnone).issued p hp hcaller hnot

section Example

private def root : User :=
  ⟨"root".toList, "root".toList, "r@x".toList, [], some admin, true, 0, 0, none⟩

private def dana : User :=
  ⟨"dana".toList, "dana".toList, "d@x".toList, "5a$pw5a".toList, some admin, true, 0, 0, none⟩

private def rootAndDana : Users := ⟨[root, dana], by decide⟩

private theorem user_known : "user".toList = admin ∨ "user".toList = "user".toList := .inr rfl

private def demotion : UserRoleUpdate := ⟨"user".toList, user_known⟩

private def demote : List Act :=
  [.update ⟨root.userId, admin, sessionScopes admin⟩ dana.userId demotion, .readTarget 0 false,
    .listUsers 0 false, .write 0 false, .revoke 0, .reread 0 false]

-- A login reads its row before the role change, and its password check ends behind it.
private def crossed : List Act :=
  [.login ⟨dana.username, "pw".toList⟩, .readUser 0 false] ++ demote ++
    [.setClock 12, .verified 0, .record 0 false]

-- A login before the role change and one behind it.
private def inTurn : List Act :=
  [.login ⟨dana.username, "pw".toList⟩, .readUser 0 false, .verified 0, .setClock 12] ++ demote ++
    [.login ⟨dana.username, "pw".toList⟩, .readUser 1 false, .setClock 13, .verified 1]

-- A session with the old role that was made behind the revocation.
private def hasStaleSession (s : State Payload) : Bool :=
  (s.updates.any fun upd ↦ upd.userId == dana.userId && upd.hasReturned) &&
  (s.updates.all fun upd ↦ !upd.isRunning) &&
  s.issued.any fun p ↦ (bearerUser .transparent s.revokedBefore s.now p).any fun caller ↦
    caller.userId == dana.userId && s.users.role? dana.userId != some caller.role

/-- A demoted administrator has a session with the role of an administrator. -/
theorem staleRole_accepted : ∃ (users : Users) (s : State Payload),
    (system Crypto.transparent 3600 users [] 10).Reachable s ∧
      ¬RolesInEffect Crypto.transparent s := by
  obtain ⟨s, hs, hstale⟩ := System.exists_of_exec
    (system Crypto.transparent 3600 rootAndDana [] 10) (fun _ _ ↦ True) crossed hasStaleSession
    (by decide +kernel)
  refine ⟨rootAndDana, s, hs, fun heffect ↦ ?_⟩
  rw [hasStaleSession, Bool.and_eq_true, Bool.and_eq_true, List.any_eq_true, List.all_eq_true,
    List.any_eq_true] at hstale
  obtain ⟨⟨⟨upd, hupd, hreturned⟩, hstopped⟩, p, hp, hstale⟩ := hstale
  rw [Option.any_eq_true] at hstale
  obtain ⟨caller, haccepted, hcaller⟩ := hstale
  rw [Bool.and_eq_true, beq_iff_eq, bne_iff_ne] at hcaller
  rw [Bool.and_eq_true, beq_iff_eq] at hreturned
  apply hcaller.2
  apply heffect dana.userId ⟨upd, hupd, hreturned⟩ _ p hp caller haccepted hcaller.1
  exact fun upd hupd _ ↦ by simpa using hstopped upd hupd

/-- When the login does not cross the revocation, the role change takes effect. -/
theorem roles_inEffect_inTurn : ∃ s : State Payload,
    (system Crypto.transparent 3600 rootAndDana [] 10).Reach
      (UncrossedRevoke Crypto.transparent) s ∧
      s.issued.length = 2 ∧ s.users.role? dana.userId = some "user".toList ∧
      RolesInEffect Crypto.transparent s := by
  obtain ⟨s, hs, hrole⟩ := System.exists_of_exec
    (system Crypto.transparent 3600 rootAndDana [] 10) (UncrossedRevoke Crypto.transparent) inTurn
    (fun s ↦ s.issued.length == 2 && s.users.role? dana.userId == some "user".toList)
    (by decide +kernel)
  rw [Bool.and_eq_true, beq_iff_eq, beq_iff_eq] at hrole
  exact ⟨s, hs, hrole.1, hrole.2, roles_inEffect Crypto.transparent 3600 rootAndDana [] 10 s hs⟩

end Example

end Roles
end SalesData.Auth

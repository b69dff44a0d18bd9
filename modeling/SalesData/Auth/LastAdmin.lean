import SalesData.Auth.RoleChanges

/-!
# The last administrator

`update_user_role` refuses to demote "the last remaining admin" (`routes/auth.py:549–563`), "rather
than silently leaving the system with no one who can grant admin back". It asks the table before the
write, and the table may have changed by then.
-/

namespace SalesData.Auth

open Base
open Cache (Time)

/-- Somebody is an administrator. -/
def Users.HasAdmin (users : Users) : Prop := ∃ user ∈ users.rows, primaryRole user = admin

instance (users : Users) : Decidable users.HasAdmin :=
  inferInstanceAs (Decidable (∃ user ∈ users.rows, primaryRole user = admin))

/-- The guard of `update_user_role` on a table: it is no demotion of the last administrator. -/
def Users.guardPasses (users : Users) (userId : Text) (roleUpdate : UserRoleUpdate) : Bool :=
  (users.byId userId).all fun target ↦
    !Routes.demotesAdmin target roleUpdate ||
      decide (Routes.remainingAdmins (users.listAll false) userId ≠ [])

/-- A known role is a primary role. -/
theorem primaryRole_of_known {user : User} (roleUpdate : UserRoleUpdate)
    (h : user.roles = some roleUpdate.role) : primaryRole user = roleUpdate.role := by
  unfold primaryRole
  rcases roleUpdate.known with hrole | hrole
  · rw [h, hrole]
    decide
  · rw [h, hrole]
    decide

/-- Who else is an administrator. -/
theorem mem_remainingAdmins {users : Users} {userId : Text} {user : User} :
    user ∈ Routes.remainingAdmins (users.listAll false) userId ↔
      user ∈ users.rows ∧ user.userId ≠ userId ∧ primaryRole user = admin := by
  simp [Routes.remainingAdmins, Users.listAll]

/-- A login takes nobody's role. -/
theorem hasAdmin_updateLastLogin {users : Users} {userId : Text} {now : Time} {fails : Bool}
    (h : users.HasAdmin) : (users.updateLastLogin userId now fails).HasAdmin := by
  obtain ⟨user, huser, hrole⟩ := h
  obtain ⟨user', huser', -, hroles⟩ := Users.roles_updateLastLogin users userId now fails huser
  refine ⟨user', huser', ?_⟩
  rw [← hrole, primaryRole, primaryRole, hroles]

private theorem mem_setRole_of_ne {users : Users} {userId role : Text} {now : Time} {user : User}
    (h : user.userId ≠ userId) :
    user ∈ (users.setRole userId role now).rows ↔ user ∈ users.rows := by
  rw [Users.setRole, Table.mem_update]
  constructor
  · rintro ⟨r, hr, rfl⟩
    split at h
    · next hid => exact absurd (by simpa using hid) h
    · next hid => rwa [if_neg hid]
  · intro huser
    exact ⟨user, huser, if_neg (by simpa using h)⟩

private theorem admin_of_setRole {users : Users} {userId : Text} {roleUpdate : UserRoleUpdate}
    {now : Time} (h : (users.setRole userId roleUpdate.role now).HasAdmin) :
    roleUpdate.role = admin ∨ Routes.remainingAdmins (users.listAll false) userId ≠ [] := by
  obtain ⟨user, huser, hrole⟩ := h
  by_cases hid : user.userId = userId
  · left
    rw [Users.setRole, Table.mem_update] at huser
    obtain ⟨r, hr, rfl⟩ := huser
    split at hid
    · next hmatch =>
      rw [if_pos hmatch, primaryRole_of_known roleUpdate rfl] at hrole
      exact hrole
    · next hmatch => exact absurd (by simpa using hid) hmatch
  · right
    have hmem := mem_remainingAdmins.mpr ⟨(mem_setRole_of_ne hid).mp huser, hid, hrole⟩
    exact List.ne_nil_of_mem hmem

/-- The write leaves an administrator exactly if the guard passes on the table it writes to. -/
theorem hasAdmin_setRole_iff {users : Users} {userId : Text} {roleUpdate : UserRoleUpdate}
    {now : Time} (hadmin : users.HasAdmin) :
    (users.setRole userId roleUpdate.role now).HasAdmin ↔
      users.guardPasses userId roleUpdate = true := by
  constructor
  · intro h
    unfold Users.guardPasses
    cases htarget : users.byId userId with
    | none => rfl
    | some target =>
      rcases admin_of_setRole h with hrole | hremain
      · simp [Routes.demotesAdmin, hrole]
      · simp [hremain]
  · intro hguard
    obtain ⟨user, huser, hrole⟩ := hadmin
    by_cases hid : user.userId = userId
    · have htarget := Users.byId_of_mem huser
      rw [hid] at htarget
      rw [Users.guardPasses, htarget, Option.all_some, Bool.or_eq_true, decide_eq_true_eq]
        at hguard
      rcases hguard with hdemotes | hremain
      · refine ⟨_, Table.mem_update.mpr ⟨user, huser, rfl⟩, ?_⟩
        rw [if_pos (by simpa using hid), primaryRole_of_known roleUpdate rfl]
        simpa [Routes.demotesAdmin, hrole] using hdemotes
      · obtain ⟨other, hother⟩ := List.exists_mem_of_ne_nil _ hremain
        obtain ⟨hmem, hne, hadmin⟩ := mem_remainingAdmins.mp hother
        exact ⟨other, (mem_setRole_of_ne hne).mpr hmem, hadmin⟩
    · exact ⟨user, (mem_setRole_of_ne hid).mpr huser, hrole⟩

namespace Roles

variable {T : Type} (crypto : Crypto T) (expirySeconds : Int)

/-- A write that meets a table on which the guard of its call passes. -/
def GuardedWrite (s : State T) : Act → Prop
  | .write j false => ∀ upd ∈ s.updates[j]?, s.users.guardPasses upd.userId upd.roleUpdate = true
  | _ => True

instance (s : State T) : ∀ a, Decidable (GuardedWrite s a)
  | .write j false => inferInstanceAs (Decidable (∀ upd ∈ s.updates[j]?, _))
  | .write _ true | .setClock _ | .login _ | .readUser _ _ | .verified _ | .record _ _
  | .update _ _ _ | .readTarget _ _ | .listUsers _ _ | .revoke _ | .reread _ _ => isTrue trivial

/-- What a step does to the table `users`. -/
theorem users_of_step {s s' : State T} {a : Act} (h : Step crypto expirySeconds s a s') :
    s'.users = s.users ∨
      (∃ userId fails, s'.users = s.users.updateLastLogin userId s.now fails) ∨
      ∃ j upd, a = .write j false ∧ s.updates[j]? = some upd ∧
        s'.users = s.users.setRole upd.userId upd.roleUpdate.role s.now := by
  cases h with
  | setClock | login | readUser | reject | mint | update | move | revoke => exact .inl rfl
  | record fails hl => exact .inr (.inl ⟨_, fails, rfl⟩)
  | write hupd hphase => exact .inr (.inr ⟨_, _, rfl, hupd, rfl⟩)

/-- A write changes the role in the table. -/
theorem users_of_write {s s' : State T} {j : Nat} {upd : Update} (hupd : s.updates[j]? = some upd)
    (h : step crypto expirySeconds s (.write j false) = some s') :
    s'.users = s.users.setRole upd.userId upd.roleUpdate.role s.now := by
  obtain ⟨upd', hupd', hstep⟩ := Option.bind_eq_some_iff.mp h
  rw [hupd] at hupd'
  cases hupd'
  unfold stepUpdate at hstep
  split at hstep
  · next heq => cases heq
  · next heq => cases heq
  · next heq =>
    cases heq
    rw [← Option.some.inj hstep]
  · next heq => cases heq
  · next heq => cases heq
  · cases hstep

/-- A guarded step leaves an administrator. -/
theorem hasAdmin_of_step {s s' : State T} {a : Act} (hadmin : s.users.HasAdmin)
    (hguard : GuardedWrite s a) (h : step crypto expirySeconds s a = some s') :
    s'.users.HasAdmin := by
  rcases users_of_step crypto expirySeconds (step_spec crypto expirySeconds h) with
    husers | ⟨userId, fails, husers⟩ | ⟨j, upd, rfl, hupd, husers⟩
  · rwa [husers]
  · rw [husers]
    exact hasAdmin_updateLastLogin hadmin
  · rw [husers, hasAdmin_setRole_iff hadmin]
    exact hguard upd hupd

/-- From a table with an administrator on, there is one in every run whose writes all meet a table
on which the guard passes; and a write that meets another table leaves none. -/
theorem admins_remain (users : Users) (issued : List Payload) (now : Time)
    (hadmin : users.HasAdmin) :
    (∀ s, (system crypto expirySeconds users issued now).Reach GuardedWrite s →
      s.users.HasAdmin) ∧
    ∀ s, (system crypto expirySeconds users issued now).Reachable s → s.users.HasAdmin →
      ∀ j upd s', s.updates[j]? = some upd →
        step crypto expirySeconds s (.write j false) = some s' →
        (s'.users.HasAdmin ↔ s.users.guardPasses upd.userId upd.roleUpdate = true) := by
  constructor
  · intro s h
    apply h.invariant (P := fun s ↦ s.users.HasAdmin)
    · exact hadmin
    · exact fun s a s' hs hok hstep ↦ hasAdmin_of_step crypto expirySeconds hs hok hstep
  · intro s _ hs j upd s' hupd hstep
    rw [users_of_write crypto expirySeconds hupd hstep]
    exact hasAdmin_setRole_iff hs

section Example

private def alice : User :=
  ⟨"alice".toList, "alice".toList, "a@x".toList, [], some admin, true, 0, 0, none⟩

private def carol : User :=
  ⟨"carol".toList, "carol".toList, "c@x".toList, [], some admin, true, 0, 0, none⟩

private def twoAdmins : Users := ⟨[alice, carol], by decide⟩

private def adminCaller (user : User) : CurrentUser := ⟨user.userId, admin, sessionScopes admin⟩

private def toUser : UserRoleUpdate := ⟨"user".toList, .inr rfl⟩

-- Two administrators demote each other: both requests look before either writes.
private def mutualDemotion : List Act :=
  [.update (adminCaller alice) carol.userId toUser, .update (adminCaller carol) alice.userId toUser,
    .readTarget 0 false, .readTarget 1 false, .listUsers 0 false, .listUsers 1 false,
    .write 0 false, .revoke 0, .reread 0 false, .write 1 false, .revoke 1, .reread 1 false]

/-- Two concurrent role changes leave nobody who is an administrator. -/
theorem admins_vanish : ∃ users : Users, users.HasAdmin ∧ ∃ s : State Payload,
    (system Crypto.transparent 3600 users [] 0).Reachable s ∧ ¬s.users.HasAdmin := by
  refine ⟨twoAdmins, by decide, ?_⟩
  obtain ⟨s, hs, hnone⟩ := System.exists_of_exec (system Crypto.transparent 3600 twoAdmins [] 0)
    (fun _ _ ↦ True) mutualDemotion (fun s ↦ decide ¬s.users.HasAdmin) (by decide +kernel)
  exact ⟨s, hs, of_decide_eq_true hnone⟩

-- Two demotions, the second with its look behind the first one's write: it is refused.
private def demotionsInTurn : List Act :=
  [.update (adminCaller alice) carol.userId toUser, .update (adminCaller carol) alice.userId toUser,
    .readTarget 0 false, .readTarget 1 false, .listUsers 0 false, .write 0 false,
    .listUsers 1 false, .revoke 0, .reread 0 false]

/-- When the looks and the writes do not cross, one administrator stays. -/
theorem admins_remain_twoAdmins : ∃ s : State Payload,
    (system Crypto.transparent 3600 twoAdmins [] 0).Reach GuardedWrite s ∧
      s.users.guardPasses alice.userId toUser = false ∧ s.users.HasAdmin := by
  obtain ⟨s, hs, hguard⟩ := System.exists_of_exec (system Crypto.transparent 3600 twoAdmins [] 0)
    GuardedWrite demotionsInTurn (fun s ↦ !s.users.guardPasses alice.userId toUser)
    (by decide +kernel)
  refine ⟨s, hs, by simpa using hguard, ?_⟩
  exact (admins_remain Crypto.transparent 3600 twoAdmins [] 0 (by decide)).1 s hs

end Example

end Roles
end SalesData.Auth

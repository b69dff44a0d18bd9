import Mathlib.Data.List.Sort
import SalesData.Base.Table
import SalesData.Cache.ResultCache

/-!
# Users and API keys

The two tables of the service database that authorization rests on (`core/storage/service_db.py`)
and the statements on them (`core/auth/user_repository.py`, `core/auth/api_key_repository.py`).
A method that swallows the exception of a failed statement is given `fails`.
-/

namespace SalesData.Auth

open Base
open Cache (Time Time.toInt)

/-- A row of `users` (`service_db.py:330–341`). -/
structure User where
  userId : Text
  username : Text
  email : Text
  passwordHash : Text
  roles : Option Text
  isActive : Bool
  createdAt : Int
  updatedAt : Int
  lastLoginAt : Option Int
  deriving DecidableEq, Repr

/-- A row of `api_keys` (`service_db.py:301–312`). -/
structure ApiKey where
  keyId : Text
  apiKeyHash : Text
  ownerId : Text
  createdAt : Int
  expiresAt : Option Int
  scopes : Option Text
  isActive : Bool
  deriving DecidableEq, Repr

/-- The table `users`. -/
abbrev Users := Table User Text [User.userId, User.username, User.email]

/-- The table `api_keys`. -/
abbrev ApiKeys := Table ApiKey Text [ApiKey.keyId]

/-- `_primary_role` (`routes/auth.py:91–101`). There is no column `role`. -/
def primaryRole (user : User) : Text :=
  match user.roles with
  | some (c :: roles) => ((c :: roles).splitOn ',').headD []
  | _ => "user".toList

/-- The role of an administrator. -/
def admin : Text := "admin".toList

namespace Users

/-- The row of a user. -/
def byId (users : Users) (userId : Text) : Option User := users.find? (·.userId == userId)

/-- `get_user_by_id` (`service_db.py:763–778`). -/
def getById (users : Users) (userId : Text) (fails : Bool) : Option User :=
  if fails then none else users.byId userId

/-- `get_user_by_username` (`service_db.py:780–795`). -/
def getByUsername (users : Users) (username : Text) (fails : Bool) : Option User :=
  if fails then none else users.find? (·.username == username)

/-- `list_all` (`user_repository.py:105–117`). -/
def listAll (users : Users) (fails : Bool) : List User :=
  if fails then [] else users.rows.insertionSort fun a b ↦ b.createdAt ≤ a.createdAt

/-- `create_user` (`service_db.py:732–761`). -/
def create (users : Users) (user : User) (fails : Bool) : Option Users :=
  if fails then none else users.insert user

/-- `UPDATE users SET roles = ?, updated_at = ? WHERE user_id = ?`. -/
def setRole (users : Users) (userId role : Text) (now : Time) : Users :=
  users.update (·.userId == userId) (fun r ↦ { r with roles := some role, updatedAt := now.toInt })
    (by simp)

/-- `update_user_role` (`service_db.py:797–813`). -/
def updateRole (users : Users) (userId role : Text) (now : Time) (fails : Bool) : Option Users :=
  if fails then none else some (users.setRole userId role now)

/-- `update_last_login` (`user_repository.py:88–103`). -/
def updateLastLogin (users : Users) (userId : Text) (now : Time) (fails : Bool) : Users :=
  if fails then users
  else
    users.update (·.userId == userId) (fun r ↦ { r with lastLoginAt := some now.toInt }) (by simp)

/-- The row of a user after a role change. -/
theorem byId_setRole (users : Users) (userId role : Text) (now : Time) (a : Text) :
    (users.setRole userId role now).byId a = if a = userId then
      (users.byId userId).map fun r ↦ { r with roles := some role, updatedAt := now.toInt }
    else users.byId a := by
  split
  · next h =>
    subst h
    exact Table.find?_update_self fun _ ↦ rfl
  · next h =>
    apply Table.find?_update_of_disjoint
    · exact fun _ ↦ rfl
    · intro r hr
      rw [beq_iff_eq] at hr
      simpa [hr] using Ne.symm h

/-- A login changes nobody's role. -/
theorem byId_updateLastLogin (users : Users) (userId : Text) (now : Time) (fails : Bool)
    (a : Text) :
    ((users.updateLastLogin userId now fails).byId a).map primaryRole =
      (users.byId a).map primaryRole := by
  unfold updateLastLogin
  split
  · rfl
  · by_cases h : a = userId
    · subst h
      unfold byId
      rw [Table.find?_update_self, Option.map_map]
      · rfl
      · exact fun _ ↦ rfl
    · unfold byId
      rw [Table.find?_update_of_disjoint]
      · exact fun _ ↦ rfl
      · intro r hr
        rw [beq_iff_eq] at hr
        simpa [hr] using Ne.symm h

/-- A login keeps every user's roles. -/
theorem roles_updateLastLogin (users : Users) (userId : Text) (now : Time) (fails : Bool)
    {r : User} (h : r ∈ users.rows) :
    ∃ r' ∈ (users.updateLastLogin userId now fails).rows,
      r'.userId = r.userId ∧ r'.roles = r.roles := by
  unfold updateLastLogin
  split
  · exact ⟨r, h, rfl, rfl⟩
  · refine ⟨_, Table.mem_update.mpr ⟨r, h, rfl⟩, ?_⟩
    split
    · exact ⟨rfl, rfl⟩
    · exact ⟨rfl, rfl⟩

/-- A login changes a row in neither id nor name nor roles. -/
theorem of_mem_updateLastLogin {users : Users} {userId : Text} {now : Time} {fails : Bool}
    {r' : User} (h : r' ∈ (users.updateLastLogin userId now fails).rows) :
    ∃ r ∈ users.rows, r'.userId = r.userId ∧ r'.username = r.username ∧ r'.roles = r.roles := by
  unfold updateLastLogin at h
  split at h
  · exact ⟨r', h, rfl, rfl, rfl⟩
  · obtain ⟨r, hr, rfl⟩ := Table.mem_update.mp h
    refine ⟨r, hr, ?_⟩
    split
    · exact ⟨rfl, rfl, rfl⟩
    · exact ⟨rfl, rfl, rfl⟩

/-- A user has one row. -/
theorem byId_of_mem {users : Users} {r : User} (h : r ∈ users.rows) :
    users.byId r.userId = some r := by
  cases hf : users.byId r.userId with
  | none =>
    have hnone := List.find?_eq_none.mp hf r h
    simp at hnone
  | some s =>
    obtain ⟨hs, hid⟩ := Table.of_find? hf
    rw [beq_iff_eq] at hid
    rw [Table.eq_of_unique (k := User.userId) (by simp) hs h hid]

/-- Whoever is found by name has a row with that name. -/
theorem mem_of_getByUsername {users : Users} {username : Text} {fails : Bool} {r : User}
    (h : users.getByUsername username fails = some r) : r ∈ users.rows ∧ r.username = username := by
  unfold getByUsername at h
  split at h
  · cases h
  · obtain ⟨hmem, hname⟩ := Table.of_find? h
    exact ⟨hmem, by simpa using hname⟩

/-- Whoever is found by name has the row of that id. -/
theorem byId_of_getByUsername {users : Users} {username : Text} {fails : Bool} {r : User}
    (h : users.getByUsername username fails = some r) : users.byId r.userId = some r :=
  byId_of_mem (mem_of_getByUsername h).1

end Users

namespace ApiKeys

/-- `create_api_key` (`service_db.py:601–636`). -/
def create (keys : ApiKeys) (key : ApiKey) (fails : Bool) : Option ApiKeys :=
  if fails then none else keys.insert key

/-- `validate_api_key` (`service_db.py:638–670`); no expiry and the expiry 0 are the same. -/
def validate (keys : ApiKeys) (apiKeyHash : Text) (currentTime : Int) (fails : Bool) :
    Option ApiKey :=
  if fails then none
  else (keys.find? fun r ↦ r.apiKeyHash == apiKeyHash && r.isActive).filter fun r ↦
    !r.expiresAt.any fun e ↦ e ≠ 0 && e < currentTime

/-- `list_api_keys_by_owner` (`service_db.py:672–692`). -/
def listByOwner (keys : ApiKeys) (ownerId : Text) (fails : Bool) : List ApiKey :=
  if fails then []
  else (keys.select (·.ownerId == ownerId)).insertionSort fun a b ↦ b.createdAt ≤ a.createdAt

/-- `revoke_api_key` (`service_db.py:694–710`). -/
def revoke (keys : ApiKeys) (keyId ownerId : Text) (fails : Bool) : Option ApiKeys :=
  if fails then none
  else some (keys.update (fun r ↦ r.keyId == keyId && r.ownerId == ownerId)
    (fun r ↦ { r with isActive := false }) (by simp))

/-- `delete_api_key` (`service_db.py:712–728`). -/
def delete (keys : ApiKeys) (keyId ownerId : Text) (fails : Bool) : Option ApiKeys :=
  if fails then none
  else some (Table.delete keys fun r ↦ r.keyId == keyId && r.ownerId == ownerId)

/-- A list has the keys of its owner only. -/
theorem ownerId_of_mem_listByOwner {keys : ApiKeys} {ownerId : Text} {fails : Bool} {r : ApiKey}
    (h : r ∈ keys.listByOwner ownerId fails) : r.ownerId = ownerId ∧ r ∈ keys.rows := by
  unfold listByOwner at h
  split at h
  · cases h
  · obtain ⟨hmem, hown⟩ := List.mem_filter.mp ((List.mem_insertionSort _).mp h)
    exact ⟨by simpa using hown, hmem⟩

end ApiKeys
end SalesData.Auth

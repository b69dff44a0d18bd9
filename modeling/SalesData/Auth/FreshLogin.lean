import SalesData.Auth.Middleware
import SalesData.Auth.RoleChanges

/-!
# A fresh login after a role change

A token that "predates a role change for its holder" is rejected, "forcing a fresh login"
(`core/auth/middleware.py:198–202`). `login_user` cuts the issue time to whole seconds
(`routes/auth.py:429`) and `revoke_tokens_issued_before` does not cut its mark (line 54), and the
two are compared.
-/

namespace SalesData.Auth

open Base
open Cache (Time Time.toInt)

namespace Middleware

variable (env : Env) {T : Type}

/-- A look for the key's owner leaves the marks alone. -/
theorem revokedBefore_keyOwner (ownerId : Text) (s : AuthState) :
    (keyOwner env ownerId s).2.revokedBefore = s.revokedBefore := by
  have hcached : (getCachedUser env ownerId s).2.revokedBefore = s.revokedBefore := by
    unfold getCachedUser
    split
    · rfl
    · split <;> rfl
  unfold keyOwner
  split
  · next hcache =>
    rw [hcache] at hcached
    exact hcached
  · next hcache =>
    rw [hcache] at hcached
    split <;> exact hcached

/-- A check of an API key leaves the marks alone. -/
theorem revokedBefore_apiKeyUser (sha256 : Text → Text) (apiKey : Text) (s : AuthState) :
    (apiKeyUser env sha256 apiKey s).2.revokedBefore = s.revokedBefore := by
  have hlookup (apiKeyHash : Text) (s : AuthState) :
      (APIKeyService.lookup env apiKeyHash s).2.revokedBefore = s.revokedBefore := by
    unfold APIKeyService.lookup
    split <;> rfl
  have hvalidated : (APIKeyService.validateApiKey sha256 env apiKey s).2.revokedBefore =
      s.revokedBefore := by
    unfold APIKeyService.validateApiKey
    dsimp only
    split
    · split
      · rfl
      · exact hlookup ..
    · exact hlookup ..
  unfold apiKeyUser
  split
  · next hkey =>
    rw [hkey] at hvalidated
    exact hvalidated
  · next key s' hkey =>
    rw [hkey] at hvalidated
    dsimp only
    split
    · exact hvalidated
    · exact (revokedBefore_keyOwner env key.ownerId s').trans hvalidated

/-- A request is let in whatever else it carries exactly when its token is accepted. -/
theorem enforceAuth_all_iff (crypto : Crypto T) (token : T) (s : AuthState) :
    (∀ creds : Credentials T, creds.bearer = some token →
      (enforceAuth env crypto creds s).1.isSome = true) ↔
      (bearerUser crypto.jwt s.revokedBefore (env.now 1) token).isSome = true := by
  constructor
  · intro hall
    exact hall ⟨[], some token⟩ rfl
  · intro hbearer creds hcreds
    unfold enforceAuth
    rw [hcreds]
    by_cases hkey : creds.rawApiKey = []
    · rw [if_pos hkey]
      exact hbearer
    · rw [if_neg hkey]
      have hmarks := revokedBefore_apiKeyUser env crypto.sha256 creds.rawApiKey s
      dsimp only
      split
      · rfl
      · rw [hmarks]
        exact hbearer

end Middleware

/-- A token that decodes is accepted unless it was issued before the mark of its user. -/
theorem bearerUser_isSome_iff {T : Type} {jwt : Jwt T} (revokedBefore : Dict Text Time) {now : Time}
    {p : Payload} (h : jwt.decode now (jwt.encode p) = some p) :
    (bearerUser jwt revokedBefore now (jwt.encode p)).isSome = true ↔
      ∀ mark ∈ revokedBefore.get? p.userId, mark ≤ (p.iat : ℚ) := by
  rw [bearerUser, h, Option.bind_some, revoked]
  cases hmark : revokedBefore.get? p.userId with
  | none => simp
  | some mark =>
    by_cases hlt : (p.iat : ℚ) < mark
    · simp [hlt]
    · simp [hlt, not_lt.mp hlt]

namespace Roles

variable {T : Type} (crypto : Crypto T) (expirySeconds : Int)

/-- The clock does not go back. -/
def Forward (s : State T) : Act → Prop
  | .setClock now => s.now ≤ now
  | _ => True

/-- The step begins a role change of the user. -/
def Begins (userId : Text) : Act → Prop
  | .update _ id _ => id = userId
  | _ => False

/-- The clock does not go back, and no role change of the user begins. -/
def Settled (userId : Text) (s : State T) (a : Act) : Prop := Forward s a ∧ ¬ Begins userId a

instance (s : State T) : ∀ a, Decidable (Forward s a)
  | .setClock now => inferInstanceAs (Decidable (s.now ≤ now))
  | .login _ | .readUser _ _ | .verified _ | .record _ _ | .update _ _ _ | .readTarget _ _
  | .listUsers _ _ | .write _ _ | .revoke _ | .reread _ _ => isTrue trivial

instance (userId : Text) : ∀ a, Decidable (Begins userId a)
  | .update _ id _ => inferInstanceAs (Decidable (id = userId))
  | .setClock _ | .login _ | .readUser _ _ | .verified _ | .record _ _ | .readTarget _ _
  | .listUsers _ _ | .write _ _ | .revoke _ | .reread _ _ => isFalse id

instance (userId : Text) (s : State T) (a : Act) : Decidable (Settled userId s a) :=
  inferInstanceAs (Decidable (_ ∧ _))

/-- No role change of the user is running. -/
def Ended (userId : Text) (s : State T) : Prop :=
  ∀ upd ∈ s.updates, upd.userId = userId → upd.isRunning = false

variable {crypto expirySeconds} {s s' : State T} {userId : Text}

/-- A role change that runs moves on, and marks no other user. -/
theorem stepUpdate_frame {j : Nat} {upd : Update} {a : Act}
    (h : stepUpdate s j upd upd.phase a = some s') :
    upd.isRunning = true ∧ (∃ phase, s'.updates = s.updates.set j { upd with phase }) ∧
      s'.now = s.now ∧
      ∀ id, id ≠ upd.userId → s'.revokedBefore.get? id = s.revokedBefore.get? id := by
  have hmoved {phase : Update.Phase} (hs : s.setPhase j upd phase = s') :
      (∃ phase, s'.updates = s.updates.set j { upd with phase }) ∧ s'.now = s.now ∧
        ∀ id, id ≠ upd.userId → s'.revokedBefore.get? id = s.revokedBefore.get? id := by
    rw [← hs]
    exact ⟨⟨phase, rfl⟩, rfl, fun _ _ ↦ rfl⟩
  unfold stepUpdate at h
  split at h
  · next hphase =>
    refine ⟨by rw [Update.isRunning, hphase], ?_⟩
    split at h
    · exact hmoved (Option.some.inj h)
    · split at h
      · exact hmoved (Option.some.inj h)
      · exact hmoved (Option.some.inj h)
  · next hphase =>
    refine ⟨by rw [Update.isRunning, hphase], ?_⟩
    split at h
    · exact hmoved (Option.some.inj h)
    · exact hmoved (Option.some.inj h)
  · next target k fails hphase =>
    refine ⟨by rw [Update.isRunning, hphase], ?_⟩
    split at h
    · exact hmoved (Option.some.inj h)
    · rw [← Option.some.inj h]
      exact ⟨⟨.written target, rfl⟩, rfl, fun _ _ ↦ rfl⟩
  · next target k hphase =>
    refine ⟨by rw [Update.isRunning, hphase], ?_⟩
    rw [← Option.some.inj h]
    refine ⟨⟨.rereading target, rfl⟩, rfl, fun id hid ↦ ?_⟩
    dsimp only
    rw [Dict.get?_set, if_neg hid]
  · next hphase =>
    refine ⟨by rw [Update.isRunning, hphase], ?_⟩
    exact hmoved (Option.some.inj h)
  · cases h

/-- A login leaves the role changes, the clock and the marks alone. -/
theorem stepLogin_frame {i : Nat} {l : Login T} {a : Act}
    (h : stepLogin crypto expirySeconds s i l a = some s') :
    s'.updates = s.updates ∧ s'.now = s.now ∧ s'.revokedBefore = s.revokedBefore := by
  unfold stepLogin at h
  split at h
  · rw [← Option.some.inj h]
    exact ⟨rfl, rfl, rfl⟩
  · split at h
    · rw [← Option.some.inj h]
      exact ⟨rfl, rfl, rfl⟩
    · rw [← Option.some.inj h]
      exact ⟨rfl, rfl, rfl⟩
  · rw [← Option.some.inj h]
    exact ⟨rfl, rfl, rfl⟩
  · cases h

/-- While no role change of a user runs or begins, none will, its mark stays and the clock goes
on. -/
theorem settled_step {a : Act} (hended : Ended userId s) (hok : Settled userId s a)
    (h : step crypto expirySeconds s a = some s') :
    Ended userId s' ∧ s'.revokedBefore.get? userId = s.revokedBefore.get? userId ∧
      s.now ≤ s'.now := by
  have hlogin {i : Nat} {a : Act}
      (h : (s.logins[i]?.bind fun l ↦ stepLogin crypto expirySeconds s i l a) = some s') :
      Ended userId s' ∧ s'.revokedBefore.get? userId = s.revokedBefore.get? userId ∧
        s.now ≤ s'.now := by
    obtain ⟨l, -, hstep⟩ := Option.bind_eq_some_iff.mp h
    obtain ⟨hupdates, hnow, hmarks⟩ := stepLogin_frame hstep
    rw [Ended, hupdates, hmarks, hnow]
    exact ⟨hended, rfl, le_refl _⟩
  have hupdate {j : Nat} {a : Act}
      (h : (s.updates[j]?.bind fun upd ↦ stepUpdate s j upd upd.phase a) = some s') :
      Ended userId s' ∧ s'.revokedBefore.get? userId = s.revokedBefore.get? userId ∧
        s.now ≤ s'.now := by
    obtain ⟨upd, hupd, hstep⟩ := Option.bind_eq_some_iff.mp h
    obtain ⟨hrunning, ⟨phase, hupdates⟩, hnow, hmarks⟩ := stepUpdate_frame hstep
    -- a role change that moves on is another user's
    have hother : userId ≠ upd.userId := by
      rintro rfl
      rw [hended upd (List.mem_of_getElem? hupd) rfl] at hrunning
      cases hrunning
    refine ⟨fun upd' hmem hid ↦ ?_, hmarks userId hother, hnow.ge⟩
    rw [hupdates] at hmem
    rcases List.mem_or_eq_of_mem_set hmem with hold | rfl
    · exact hended upd' hold hid
    · exact absurd hid.symm hother
  cases a with
  | setClock now =>
    rw [← Option.some.inj h]
    exact ⟨hended, rfl, hok.1⟩
  | login data =>
    rw [← Option.some.inj h]
    exact ⟨hended, rfl, le_refl _⟩
  | update caller id roleUpdate =>
    rw [← Option.some.inj h]
    refine ⟨fun upd hmem hid ↦ ?_, rfl, le_refl _⟩
    rcases List.mem_append.mp hmem with hold | hnew
    · exact hended upd hold hid
    · rw [List.mem_singleton.mp hnew] at hid
      exact absurd hid hok.2
  | readUser i fails | verified i | record i fails => exact hlogin h
  | readTarget j fails | listUsers j fails | write j fails | revoke j | reread j fails =>
    exact hupdate h

/-- Runs without another update of the user keep its mark. -/
theorem settled_run {users : Users} {issued : List Payload} {now : Time} (hended : Ended userId s)
    (h : ((system crypto expirySeconds users issued now).startAt s).Reach (Settled userId) s') :
    Ended userId s' ∧ s'.revokedBefore.get? userId = s.revokedBefore.get? userId ∧
      s.now ≤ s'.now := by
  apply h.invariant
  · exact ⟨hended, rfl, le_refl _⟩
  · rintro s₁ a s₂ ⟨hended₁, hmark, hnow⟩ hok hstep
    obtain ⟨hended₂, hmark₂, hnow₂⟩ := settled_step hended₁ hok hstep
    exact ⟨hended₂, hmark₂.trans hmark, hnow.trans hnow₂⟩

/-- The token that a login makes. -/
theorem mint_spec {i : Nat} {user : User} {p : Payload}
    (h : step crypto expirySeconds s (.verified i) = some s')
    (hp : s'.logins[i]? = some (.recording user p)) : p = user.payload s.now expirySeconds := by
  obtain ⟨l, hl, hstep⟩ := Option.bind_eq_some_iff.mp h
  have hlt := (List.getElem?_eq_some_iff.mp hl).1
  have hset (l' : Login T) : (s.setLogin i l').logins[i]? = some l' := by
    rw [State.setLogin]
    dsimp only
    rw [List.getElem?_set_self hlt]
  cases l with
  | verifying password found =>
    rw [stepLogin] at hstep
    split at hstep
    · next rejection _ =>
      rw [← Option.some.inj hstep, hset] at hp
      cases hp
    · next user' _ =>
      rw [← Option.some.inj hstep] at hp
      cases (hset _).symm.trans hp
      rfl
  | reading | recording | answered => cases hstep

/-- A login that began in `s₀`, when no role change of its user was running, made the token `p` at
the time that the clock had in `s₁`, and the process went on to `s`; no role change of the user has
begun since `s₀`. -/
structure FreshToken (crypto : Crypto T) (expirySeconds : Int) (users : Users)
    (issued : List Payload) (now : Time) (s₀ s₁ s : State T) (p : Payload) : Prop where
  reachable : (system crypto expirySeconds users issued now).Reach Forward s₀
  ended : Ended p.userId s₀
  login : ∃ data s', step crypto expirySeconds s₀ (.login data) = some s' ∧
    ((system crypto expirySeconds users issued now).startAt s').Reach (Settled p.userId) s₁
  mint : ∃ user s', step crypto expirySeconds s₁ (.verified s₀.logins.length) = some s' ∧
    s'.logins[s₀.logins.length]? = some (.recording user p) ∧
    ((system crypto expirySeconds users issued now).startAt s').Reach (Settled p.userId) s

/-- The marks of the process and its clock are those of a request. -/
def Meets (s : State T) (door : Env) (authState : AuthState) : Prop :=
  door.now 1 = s.now ∧ authState.revokedBefore = s.revokedBefore

/-- A fresh token that decodes until it expires is let in before that exactly when the second in
which it was made does not begin before the mark that the role changes have left. -/
theorem freshToken_accepted_iff (crypto : Crypto T) (expirySeconds : Int) (users : Users)
    (issued : List Payload) (now : Time) (s₀ s₁ s : State T) (p : Payload)
    (hfresh : FreshToken crypto expirySeconds users issued now s₀ s₁ s p)
    (hdecode : ∀ now, s₁.now ≤ now → now < p.exp →
      crypto.jwt.decode now (crypto.jwt.encode p) = some p)
    (hexp : s.now < p.exp) :
    (∀ (door : Env) (authState : AuthState) (creds : Credentials T), Meets s door authState →
      creds.bearer = some (crypto.jwt.encode p) →
        (Middleware.enforceAuth door crypto creds authState).1.isSome = true) ↔
      ∀ mark ∈ s₀.revokedBefore.get? p.userId, mark ≤ (s₁.now.toInt : ℚ) := by
  obtain ⟨data, s', hlogin, hrun₁⟩ := hfresh.login
  obtain ⟨user, s'', hmint, hp, hrun⟩ := hfresh.mint
  have hiat : p.iat = s₁.now.toInt := by
    rw [mint_spec hmint hp]
    rfl
  have hlogs : Settled p.userId s₀ (.login data) := ⟨trivial, id⟩
  have hmints : Settled p.userId s₁ (.verified s₀.logins.length) := ⟨trivial, id⟩
  obtain ⟨hended', hmark', -⟩ := settled_step hfresh.ended hlogs hlogin
  obtain ⟨hended₁, hmark₁, -⟩ := settled_run hended' hrun₁
  obtain ⟨hended'', hmark'', hnow''⟩ := settled_step hended₁ hmints hmint
  obtain ⟨-, hmark, hnow⟩ := settled_run hended'' hrun
  have hbearer := bearerUser_isSome_iff s.revokedBefore
    (hdecode s.now (hnow''.trans hnow) hexp)
  rw [hmark, hmark'', hmark₁, hmark', hiat] at hbearer
  rw [← hbearer]
  constructor
  · intro hall
    let door : Env := ⟨fun _ ↦ s.now, 0, fun _ ↦ false, false, [], [], []⟩
    let authState : AuthState := ⟨s.users, ⟨[], by simp⟩, .empty, .empty, s.revokedBefore⟩
    exact hall door authState ⟨[], some (crypto.jwt.encode p)⟩ ⟨rfl, rfl⟩ rfl
  · rintro hsome door authState creds ⟨hdoor, hmarks⟩ hcreds
    rw [← hdoor, ← hmarks] at hsome
    exact (Middleware.enforceAuth_all_iff door crypto _ authState).mpr hsome creds hcreds

section Example

private def ada : User :=
  ⟨"ada".toList, "ada".toList, "a@x".toList, [], some admin, true, 0, 0, none⟩

private def erin : User :=
  ⟨"erin".toList, "erin".toList, "e@x".toList, "5a$pw5a".toList, some "user".toList, true, 0, 0,
    none⟩

private def erins : System (State Payload) Act :=
  system Crypto.transparent 3600 ⟨[ada, erin], by decide⟩ [] 10

-- Erin becomes an administrator half a second behind the full one.
private def promote : List Act :=
  [.setClock (21 / 2), .update ⟨ada.userId, admin, sessionScopes admin⟩ erin.userId
    ⟨admin, .inl rfl⟩, .readTarget 0 false, .write 0 false, .revoke 0, .reread 0 false]

private def promoted : State Payload :=
  (erins.exec Forward erins.init promote).get (by decide +kernel)

private def calls : State Payload :=
  { promoted with logins := promoted.logins ++ [.reading ⟨erin.username, "pw".toList⟩] }

private def reads (t : Time) : Option (State Payload) :=
  (erins.startAt calls).exec (Settled erin.userId) calls [.readUser 0 false, .setClock t]

private def mints (t : Time) : Option (State Payload) :=
  (reads t).bind fun s ↦ erins.step s (.verified 0)

private def records (p : Payload) : Login Payload → Bool
  | .recording _ q => q == p
  | _ => false

private theorem freshToken_erin (t : Time) (p : Payload) (hreads : (reads t).isSome = true)
    (hmints : (mints t).isSome = true)
    (hlogin : ((mints t).get hmints).logins[0]?.any (records p) = true)
    (hid : p.userId = erin.userId) :
    FreshToken Crypto.transparent 3600 ⟨[ada, erin], by decide⟩ [] 10 promoted
      ((reads t).get hreads) ((mints t).get hmints) p where
  reachable := System.exec_reach .init (Option.some_get _).symm
  ended := by
    have hall : promoted.updates.all (fun upd ↦ !upd.isRunning) = true := by decide +kernel
    intro upd hupd _
    simpa using List.all_eq_true.mp hall upd hupd
  login := by
    refine ⟨⟨erin.username, "pw".toList⟩, calls, rfl, ?_⟩
    rw [hid]
    exact System.exec_reach .init (Option.some_get hreads).symm
  mint := by
    have hfirst : promoted.logins.length = 0 := by decide +kernel
    have hstep : (reads t).bind (fun s ↦ erins.step s (.verified 0)) =
        some ((mints t).get hmints) :=
      (Option.some_get hmints).symm
    obtain ⟨s, hs, hverified⟩ := Option.bind_eq_some_iff.mp hstep
    have hget : (reads t).get hreads = s := Option.get_of_eq_some hreads hs
    obtain ⟨l, hl, hrecords⟩ := (Option.any_eq_true _ _).mp hlogin
    unfold records at hrecords
    split at hrecords
    · next user q =>
      refine ⟨user, (mints t).get hmints, ?_, ?_, .init⟩
      · rw [hfirst, hget]
        exact hverified
      · rw [hfirst, ← beq_iff_eq.mp hrecords]
        exact hl
    · cases hrecords

private def token (t : Time) : Payload := { erin with roles := some admin }.payload t 3600

private theorem decode_token {t : Time} (ht : (t.toInt : ℚ) ≤ t) (hreads : (reads t).isSome = true)
    (hnow : ((reads t).get hreads).now = t) (now : Time) (hlater : ((reads t).get hreads).now ≤ now)
    (hexp : now < (token t).exp) : Jwt.transparent.decode now (token t) = some (token t) := by
  rw [hnow] at hlater
  exact if_pos ⟨ht.trans hlater, hexp⟩

private theorem mints_later : (mints 11).isSome = true := by decide +kernel

private theorem reads_early : (reads (107 / 10)).isSome = true := by decide +kernel

private theorem mints_early : (mints (107 / 10)).isSome = true := by decide +kernel

private def door (t : Time) : Env := ⟨fun _ ↦ t, 0, fun _ ↦ false, false, [], [], []⟩

private def opened (t : Time) (hmints : (mints t).isSome = true) : AuthState :=
  ⟨⟨[ada, erin], by decide⟩, ⟨[], by simp⟩, .empty, .empty, ((mints t).get hmints).revokedBefore⟩

/-- A token of the second behind the one of the mark is let in. -/
theorem freshToken_accepted_later :
    (Middleware.enforceAuth (door 11) .transparent ⟨[], some (token 11)⟩
      (opened 11 mints_later)).1.isSome = true :=
  (freshToken_accepted_iff Crypto.transparent 3600 _ [] 10 promoted _ _ _
    (freshToken_erin 11 (token 11) (by decide +kernel) mints_later (by decide +kernel) rfl)
    (decode_token (by decide +kernel) _ (by decide +kernel)) (by decide +kernel)).mpr
    (by decide +kernel) (door 11) (opened 11 mints_later) _ ⟨by decide +kernel, rfl⟩ rfl

/-- A token of a login that began behind the role change, but in the second of the mark, is not. -/
theorem freshToken_rejected : ∃ (users : Users) (s₀ s₁ s : State Payload) (p : Payload),
    FreshToken Crypto.transparent 3600 users [] 10 s₀ s₁ s p ∧ s.now < p.exp ∧
      (∀ now, s₁.now ≤ now → now < p.exp → Jwt.transparent.decode now p = some p) ∧
      ∃ (door : Env) (authState : AuthState) (creds : Credentials Payload), Meets s door authState ∧
        creds.bearer = some p ∧
          (Middleware.enforceAuth door .transparent creds authState).1 = none := by
  refine ⟨_, promoted, _, _, token (107 / 10),
    freshToken_erin _ _ reads_early mints_early (by decide +kernel) rfl, by decide +kernel,
    decode_token (by decide +kernel) reads_early (by decide +kernel), ?_⟩
  exact ⟨door (107 / 10), opened (107 / 10) mints_early, ⟨[], some (token (107 / 10))⟩,
    ⟨by decide +kernel, rfl⟩, rfl, by decide +kernel⟩

end Example

end Roles
end SalesData.Auth

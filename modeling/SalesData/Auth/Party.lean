import SalesData.Auth.OwnData
import SalesData.Auth.ReadOnly

/-!
# What a party can come to hold

A party sends requests with the credentials that it holds and learns new ones from the answers: a
key from `create_api_key`, a token from `login_user`, and the password of an account that it has
registered. Each handler has one effect for a caller who is no administrator, and none of them
makes the party more than read-only, unless the party has a key made that grants writes.
-/

namespace SalesData.Auth

open Base Sql

/-- The credentials of a party: the key that it began with, the keys that were made for it, its
tokens, and the accounts that it registered. -/
structure Party (T : Type) where
  apiKey : Text
  minted : List APIKeyResponse
  tokens : List T
  accounts : List UserLogin
  deriving DecidableEq, Repr

namespace Party

variable {T : Type}

/-- A party with one key. -/
def new (apiKey : Text) : Party T := ⟨apiKey, [], [], []⟩

/-- The keys that a party can show. -/
def apiKeys (party : Party T) : List Text :=
  party.apiKey :: party.minted.map APIKeyResponse.apiKey

/-- What an answer tells the party that asked. -/
def learn (party : Party T) : Request → Except HttpError (Response T) → Party T
  | .registerUser data, .ok _ =>
    { party with accounts := party.accounts ++ [⟨data.username, data.password⟩] }
  | _, .ok (.apiKey key) => { party with minted := party.minted ++ [key] }
  | _, .ok (.auth answer) => { party with tokens := party.tokens ++ answer.token.toList }
  | _, _ => party

/-- A refusal teaches nothing. -/
theorem learn_error {request : Request} {e : HttpError} (party : Party T) :
    party.learn request (.error e) = party := by
  cases request with
  | createApiKey | listApiKeys | revokeApiKey | deleteApiKey | registerUser | loginUser
  | listUsers | updateUserRole => rfl

end Party

section Effects

variable {T : Type}

/-- A key of the table that grants what another does. -/
def ApiKey.SameGrant (row row' : ApiKey) : Prop :=
  row'.apiKeyHash = row.apiKeyHash ∧ row'.ownerId = row.ownerId ∧ row'.scopes = row.scopes

/-- What a request of a caller who is no administrator does. -/
inductive Effect (crypto : Crypto T) (env : Env) (caller : CurrentUser) (s : AuthState) :
    Request → Outcome T → Prop where
  | idle {request : Request} {answer : Except HttpError (Response T)}
      (hlearn : ∀ party : Party T, party.learn request answer = party) :
      Effect crypto env caller s request (answer, s)
  | minted {data : APIKeyCreate} {key : APIKeyResponse} {apiKeys : ApiKeys}
      (howner : key.ownerId = caller.userId) (hsecret : key.apiKey = env.apiKey)
      (hrows : ∀ row' ∈ apiKeys.rows, row' ∈ s.apiKeys.rows ∨
        row'.apiKeyHash = crypto.sha256 key.apiKey ∧ row'.ownerId = key.ownerId ∧
          row'.scopes = key.scopes) :
      Effect crypto env caller s (.createApiKey data) (.ok (.apiKey key), { s with apiKeys })
  | withdrawn {request : Request} {answer : Except HttpError (Response T)} {keyId : Text}
      {apiKeys : ApiKeys} (hlearn : ∀ party : Party T, party.learn request answer = party)
      (hrows : ∀ row' ∈ apiKeys.rows, ∃ row ∈ s.apiKeys.rows, row.SameGrant row') :
      Effect crypto env caller s request
        (answer, APIKeyService.evictByKeyId { s with apiKeys } keyId)
  | registered {data : UserCreate} {user : User} {users : Users} {answer : UserResponse}
      (hcreate : s.users.insert user = some users) (hname : user.username = data.username)
      (hrole : primaryRole user ≠ admin) :
      Effect crypto env caller s (.registerUser data) (.ok (.user answer), { s with users })
  | loggedIn {data : UserLogin} {user : User} {users : Users} {answer : AuthResponse T}
      {payload : Payload} (hmem : user ∈ s.users.rows) (hname : user.username = data.username)
      (hpassword : verifyPassword crypto.pbkdf2 data.password user.passwordHash = some true)
      (htoken : answer.token = some (crypto.jwt.encode payload))
      (hid : payload.userId = user.userId) (hrole : payload.role = primaryRole user)
      (husers : ∀ row' ∈ users.rows, ∃ row ∈ s.users.rows, row'.userId = row.userId ∧
        row'.username = row.username ∧ row'.roles = row.roles) :
      Effect crypto env caller s (.loginUser data) (.ok (.auth answer), { s with users })

variable (crypto : Crypto T) (expirySeconds : Int) (env : Env) {caller : CurrentUser}
  (s : AuthState)

/-- A refusal changes nothing. -/
theorem Effect.refused {request : Request} {e : HttpError} :
    Effect crypto env caller s request (.error e, s) :=
  .idle fun party ↦ party.learn_error

/-- A key is made for the caller. -/
theorem effect_createApiKey (hcaller : caller.role ≠ admin) (data data' : APIKeyCreate) :
    Effect crypto env caller s (.createApiKey data)
      (Routes.createApiKey crypto env caller data' s) := by
  unfold Routes.createApiKey
  cases howner : requireOwnerOrAdmin caller data'.ownerId with
  | error e => exact .refused crypto env s
  | ok _ =>
    have hid := eq_of_requireOwnerOrAdmin hcaller howner
    unfold APIKeyService.createApiKey
    dsimp only
    split
    · next apiKeys hcreate =>
      apply Effect.minted
      · exact hid
      · rfl
      · intro row' hrow'
        unfold ApiKeys.create at hcreate
        split at hcreate
        · cases hcreate
        · rw [Table.rows_insert hcreate] at hrow'
          rcases List.mem_append.mp hrow' with h | h
          · exact .inl h
          · rw [List.mem_singleton.mp h]
            exact .inr ⟨rfl, rfl, rfl⟩
    · exact Effect.minted hid rfl fun row' h ↦ .inl h

/-- A revocation turns keys off. -/
theorem effect_revokeApiKey (keyId ownerId : Text) :
    Effect crypto env caller s (.revokeApiKey keyId ownerId)
      (Routes.revokeApiKey env caller keyId ownerId s) := by
  unfold Routes.revokeApiKey
  cases requireOwnerOrAdmin caller ownerId with
  | error e => exact .refused crypto env s
  | ok _ =>
    show Effect crypto env caller s _ (_, APIKeyService.revokeApiKey env keyId ownerId s)
    unfold APIKeyService.revokeApiKey ApiKeys.revoke
    cases env.fails .revokeApiKey with
    | true => exact .idle fun party ↦ rfl
    | false =>
      apply Effect.withdrawn
      · exact fun party ↦ rfl
      · intro row' hrow'
        obtain ⟨row, hrow, rfl⟩ := Table.mem_update.mp hrow'
        refine ⟨row, hrow, ?_⟩
        split
        · exact ⟨rfl, rfl, rfl⟩
        · exact ⟨rfl, rfl, rfl⟩

/-- A deletion removes keys. -/
theorem effect_deleteApiKey (keyId ownerId : Text) :
    Effect crypto env caller s (.deleteApiKey keyId ownerId)
      (Routes.deleteApiKey env caller keyId ownerId s) := by
  unfold Routes.deleteApiKey
  cases requireOwnerOrAdmin caller ownerId with
  | error e => exact .refused crypto env s
  | ok _ =>
    show Effect crypto env caller s _ (_, APIKeyService.deleteApiKey env keyId ownerId s)
    unfold APIKeyService.deleteApiKey ApiKeys.delete
    cases env.fails .deleteApiKey with
    | true => exact .idle fun party ↦ rfl
    | false =>
      apply Effect.withdrawn
      · exact fun party ↦ rfl
      · intro row' hrow'
        exact ⟨row', List.mem_of_mem_filter hrow', rfl, rfl, rfl⟩

/-- A new user is no administrator. -/
theorem primaryRole_newUser (data : UserCreate) (passwordHash : Text) :
    primaryRole (Routes.newUser env data passwordHash) ≠ admin := by
  have hrole : primaryRole (Routes.newUser env data passwordHash) = "user".toList := rfl
  rw [hrole]
  decide

/-- A registration adds a user who is no administrator. -/
theorem effect_registerUser (data : UserCreate) :
    Effect crypto env caller s (.registerUser data) (Routes.registerUser crypto env data s) := by
  unfold Routes.registerUser
  split
  · exact .refused crypto env s
  · split
    · exact .refused crypto env s
    · next passwordHash _ =>
      dsimp only
      split
      · exact .refused crypto env s
      · next users hcreate =>
        unfold Users.create at hcreate
        split at hcreate
        · cases hcreate
        · apply Effect.registered hcreate
          · rfl
          · exact primaryRole_newUser env data passwordHash

/-- A login makes a token for a user whose password it was given. -/
theorem effect_loginUser (data : UserLogin) :
    Effect crypto env caller s (.loginUser data)
      (Routes.loginUser crypto expirySeconds env data s) := by
  unfold Routes.loginUser
  split
  · exact .refused crypto env s
  · dsimp only
    split
    · next rejection _ =>
      apply Effect.idle
      intro party
      cases rejection with
      | raised => rfl
      | invalid | disabled =>
        show { party with tokens := party.tokens ++ [] } = party
        rw [List.append_nil]
    · next user hauth =>
      obtain ⟨hfound, hverified⟩ := Routes.of_authenticate hauth
      obtain ⟨hmem, hname⟩ := Users.mem_of_getByUsername hfound
      apply Effect.loggedIn hmem hname hverified
      · rfl
      · rfl
      · rfl
      · exact fun row' hrow' ↦ Users.of_mem_updateLastLogin hrow'

/-- Every request of a caller who is no administrator has such an effect. -/
theorem effect_handle (hcaller : caller.role ≠ admin) (request : Request) :
    Effect crypto env caller s request (request.handle crypto expirySeconds env caller s) := by
  cases request with
  | createApiKey data =>
    rw [Request.handle]
    split
    · exact .refused crypto env s
    · exact effect_createApiKey crypto env s hcaller data _
  | listApiKeys ownerId =>
    rw [Request.handle, Routes.listApiKeys]
    split
    · exact .refused crypto env s
    · exact .idle fun party ↦ rfl
  | revokeApiKey keyId ownerId => exact effect_revokeApiKey crypto env s keyId ownerId
  | deleteApiKey keyId ownerId => exact effect_deleteApiKey crypto env s keyId ownerId
  | registerUser data =>
    rw [Request.handle]
    split
    · exact .refused crypto env s
    · next data' hvalid =>
      unfold UserCreate.validate at hvalid
      split at hvalid
      · cases hvalid
      · cases Except.ok.inj hvalid
        exact effect_registerUser crypto env s data
  | loginUser data => exact effect_loginUser crypto expirySeconds env s data
  | listUsers =>
    rw [Request.handle, Routes.listUsers, requireAdmin_of_ne hcaller]
    exact .refused crypto env s
  | updateUserRole userId role =>
    rw [Request.handle]
    simp only [Routes.updateUserRole, requireAdmin_of_ne hcaller]
    split
    · exact .refused crypto env s
    · exact .refused crypto env s

end Effects

section Confinement

variable {T : Type}

/-- The credentials of a request are the party's, or open nothing. -/
def Party.Presents (party : Party T) (crypto : Crypto T) (door : Env) (creds : Credentials T)
    (s : AuthState) : Prop :=
  (creds.rawApiKey = [] ∨ creds.rawApiKey ∈ party.apiKeys ∨
    ∀ row ∈ s.apiKeys.rows, row.apiKeyHash ≠ crypto.sha256 creds.rawApiKey) ∧
  ∀ token ∈ creds.bearer, token ∈ party.tokens ∨ crypto.jwt.decode (door.now 1) token = none

/-- What a party cannot guess: the password of an account that it has not registered, and, for
`secrets`, a key that is in the table already. -/
def Party.Guessless (party : Party T) (crypto : Crypto T) (env : Env) (s : AuthState) :
    Request → Prop
  | .loginUser data => data ∈ party.accounts ∨ ∀ user ∈ s.users.rows,
      user.username = data.username →
        verifyPassword crypto.pbkdf2 data.password user.passwordHash ≠ some true
  | .createApiKey _ => ∀ row ∈ s.apiKeys.rows, row.apiKeyHash ≠ crypto.sha256 env.apiKey
  | _ => True

instance [DecidableEq T] (party : Party T) (crypto : Crypto T) (door : Env)
    (creds : Credentials T) (s : AuthState) : Decidable (party.Presents crypto door creds s) :=
  inferInstanceAs (Decidable (_ ∧ _))

instance (party : Party T) (crypto : Crypto T) (env : Env) (s : AuthState) (request : Request) :
    Decidable (party.Guessless crypto env s request) :=
  match request with
  | .loginUser _ => inferInstanceAs (Decidable (_ ∨ _))
  | .createApiKey _ => inferInstanceAs (Decidable (∀ _ ∈ _, _))
  | .listApiKeys _ | .revokeApiKey _ _ | .deleteApiKey _ _ | .registerUser _ | .listUsers
  | .updateUserRole _ _ => isTrue trivial

/-- Guesses are about the tables, which the middleware leaves alone. -/
theorem Party.Guessless.screened {party : Party T} {crypto : Crypto T} {env : Env}
    {s s' : AuthState} {u : Unicode} {request : Request}
    (h : party.Guessless crypto env s request) (hs : Screened u s s') :
    party.Guessless crypto env s' request := by
  cases request with
  | loginUser data =>
    unfold Guessless
    rw [hs.users]
    exact h
  | createApiKey data =>
    unfold Guessless
    rw [hs.apiKeys]
    exact h
  | listApiKeys | revokeApiKey | deleteApiKey | registerUser | listUsers | updateUserRole =>
    trivial

/-- Nothing that the party holds makes it an administrator or grants writes. -/
structure Confined (u : Unicode) (crypto : Crypto T) (s : AuthState) (party : Party T) : Prop where
  caches : ReadOnlyCaches u s
  keys : ∀ key ∈ party.apiKeys, ∀ row ∈ s.apiKeys.rows, row.apiKeyHash = crypto.sha256 key →
    ReadOnlyKey u s.users row.ownerId row.scopes
  tokens : ∀ token ∈ party.tokens, ∃ payload, token = crypto.jwt.encode payload ∧
    ReadOnlyPayload s.users payload
  accounts : ∀ account ∈ party.accounts, ∀ user ∈ s.users.rows,
    user.username = account.username → primaryRole user ≠ admin

/-- Every administrator was one before. -/
def NoNewAdmin (users users' : Users) : Prop :=
  ∀ user' ∈ users'.rows, primaryRole user' = admin → ∃ user ∈ users.rows,
    user.userId = user'.userId ∧ user.username = user'.username ∧ primaryRole user = admin

/-- Who is no administrator stays so. -/
theorem Users.NonAdmin.mono {users users' : Users} {userId : Text} (h : users.NonAdmin userId)
    (hsame : NoNewAdmin users users') : users'.NonAdmin userId := by
  intro user' huser' hid hrole
  obtain ⟨user, huser, hid', -, hadmin⟩ := hsame user' huser' hrole
  exact h user huser (hid'.trans hid) hadmin

/-- A row without a role of its own is that of a user who is no administrator. -/
theorem nonAdmin_of_mem {users : Users} {user : User} (h : user ∈ users.rows)
    (hrole : primaryRole user ≠ admin) : users.NonAdmin user.userId := by
  intro user' huser' hid
  rw [Table.eq_of_unique (k := User.userId) (by simp) huser' h hid]
  exact hrole

namespace Confined

variable {u : Unicode} {crypto : Crypto T} {s s' : AuthState} {party : Party T}

/-- The middleware keeps a party confined. -/
theorem screened (h : Confined u crypto s party) (hs : Screened u s s') :
    Confined u crypto s' party where
  caches := hs.caches
  keys := by
    rw [hs.users, hs.apiKeys]
    exact h.keys
  tokens := by
    rw [hs.users]
    exact h.tokens
  accounts := by
    rw [hs.users]
    exact h.accounts

/-- What a confined party presents is read-only. -/
theorem credentials (h : Confined u crypto s party) {door : Env} {creds : Credentials T}
    (hp : party.Presents crypto door creds s) : ReadOnlyCredentials u crypto door creds s where
  apiKey hsome row hrow hhash := by
    rcases hp.1 with hnone | hheld | hvoid
    · exact absurd hnone hsome
    · exact h.keys _ hheld row hrow hhash
    · exact absurd hhash (hvoid row hrow)
  bearer token htoken := by
    rcases hp.2 token htoken with hheld | hvoid
    · exact .inl (h.tokens token hheld)
    · exact .inr hvoid

/-- Users come and go on, as long as nobody becomes an administrator. -/
theorem users (h : Confined u crypto s party) {users : Users} (hsame : NoNewAdmin s.users users) :
    Confined u crypto { s with users } party where
  caches := by
    refine ⟨fun hash info expiresAt hget ↦ ?_, h.caches.owners⟩
    have hkey := h.caches.keys hash info expiresAt hget
    exact ⟨hkey.scopes, hkey.owner.mono hsame⟩
  keys key hkey row hrow hhash := by
    have hrow := h.keys key hkey row hrow hhash
    exact ⟨hrow.scopes, hrow.owner.mono hsame⟩
  tokens token htoken := by
    obtain ⟨payload, hencode, hpayload⟩ := h.tokens token htoken
    exact ⟨payload, hencode, hpayload.role, hpayload.userId.mono hsame⟩
  accounts account haccount user' huser' hname hrole := by
    obtain ⟨user, huser, -, hname', hadmin⟩ := hsame user' huser' hrole
    exact h.accounts account haccount user huser (hname'.trans hname) hadmin

/-- Keys are withdrawn. -/
theorem withdrawn (h : Confined u crypto s party) {apiKeys : ApiKeys} (keyId : Text)
    (hrows : ∀ row' ∈ apiKeys.rows, ∃ row ∈ s.apiKeys.rows, row.SameGrant row') :
    Confined u crypto (APIKeyService.evictByKeyId { s with apiKeys } keyId) party where
  caches := by
    refine ⟨fun hash info expiresAt hget ↦ ?_, h.caches.owners⟩
    exact h.caches.keys hash info expiresAt (Dict.get?_filter.mp hget).1
  keys key hkey row' hrow' hhash := by
    obtain ⟨row, hrow, hsame, howner, hscopes⟩ := hrows row' hrow'
    rw [howner, hscopes]
    exact h.keys key hkey row hrow (hsame.symm.trans hhash)
  tokens := h.tokens
  accounts := h.accounts

/-- A key without write scope is made for the party. -/
theorem minted (h : Confined u crypto s party) {key : APIKeyResponse} {apiKeys : ApiKeys}
    (hfresh : ∀ row ∈ s.apiKeys.rows, row.apiKeyHash ≠ crypto.sha256 key.apiKey)
    (hkey : ReadOnlyKey u s.users key.ownerId key.scopes)
    (hrows : ∀ row' ∈ apiKeys.rows, row' ∈ s.apiKeys.rows ∨
      row'.apiKeyHash = crypto.sha256 key.apiKey ∧ row'.ownerId = key.ownerId ∧
        row'.scopes = key.scopes) :
    Confined u crypto { s with apiKeys } { party with minted := party.minted ++ [key] } where
  caches := ⟨h.caches.keys, h.caches.owners⟩
  keys held hheld row' hrow' hhash := by
    rcases hrows row' hrow' with hold | ⟨-, howner, hscopes⟩
    · have hbefore : held ∈ party.apiKeys ∨ held = key.apiKey := by
        simpa [Party.apiKeys, or_assoc] using hheld
      rcases hbefore with hbefore | rfl
      · exact h.keys held hbefore row' hold hhash
      · exact absurd hhash (hfresh row' hold)
    · rw [howner, hscopes]
      exact hkey
  tokens := h.tokens
  accounts := h.accounts

/-- A user who is no administrator registers. -/
theorem registered (h : Confined u crypto s party) {user : User} {users : Users}
    (hcreate : s.users.insert user = some users) (hrole : primaryRole user ≠ admin)
    (password : Text) :
    Confined u crypto { s with users }
      { party with accounts := party.accounts ++ [⟨user.username, password⟩] } := by
  have hmem : user ∈ users.rows := by simp [Table.rows_insert hcreate]
  have hsame : NoNewAdmin s.users users := by
    intro user' huser' hadmin
    rw [Table.rows_insert hcreate] at huser'
    rcases List.mem_append.mp huser' with hold | hnew
    · exact ⟨user', hold, rfl, rfl, hadmin⟩
    · rw [List.mem_singleton.mp hnew] at hadmin
      exact absurd hadmin hrole
  have hkept := h.users hsame
  refine ⟨hkept.caches, hkept.keys, hkept.tokens, ?_⟩
  intro account haccount user' huser' hname
  rcases List.mem_append.mp haccount with hold | hnew
  · exact hkept.accounts account hold user' huser' hname
  · rw [List.mem_singleton.mp hnew] at hname
    have hone : user' = user := Table.eq_of_unique (k := User.username) (by simp) huser' hmem hname
    rwa [hone]

/-- A user who is no administrator logs in. -/
theorem loggedIn (h : Confined u crypto s party) {user : User} {users : Users}
    {payload : Payload} (hmem : user ∈ s.users.rows) (huser : primaryRole user ≠ admin)
    (hid : payload.userId = user.userId) (hrole : payload.role = primaryRole user)
    (husers : ∀ row' ∈ users.rows, ∃ row ∈ s.users.rows, row'.userId = row.userId ∧
      row'.username = row.username ∧ row'.roles = row.roles) :
    Confined u crypto { s with users }
      { party with tokens := party.tokens ++ [crypto.jwt.encode payload] } := by
  have hsame : NoNewAdmin s.users users := by
    intro row' hrow' hadmin
    obtain ⟨row, hrow, hid', hname, hroles⟩ := husers row' hrow'
    refine ⟨row, hrow, hid'.symm, hname.symm, ?_⟩
    rwa [primaryRole, ← hroles]
  have hkept := h.users hsame
  have hpayload : ReadOnlyPayload users payload := by
    refine ⟨by rwa [hrole], ?_⟩
    rw [hid]
    exact (nonAdmin_of_mem hmem huser).mono hsame
  refine ⟨hkept.caches, hkept.keys, ?_, hkept.accounts⟩
  intro token htoken
  rcases List.mem_append.mp htoken with hold | hnew
  · exact hkept.tokens token hold
  · exact ⟨payload, List.mem_singleton.mp hnew, hpayload⟩

/-- The account that a confined party logs in to is no administrator's. -/
theorem primaryRole_of_verified (h : Confined u crypto s party) {env : Env} {data : UserLogin}
    (hguess : party.Guessless crypto env s (.loginUser data)) {user : User}
    (hmem : user ∈ s.users.rows) (hname : user.username = data.username)
    (hpassword : verifyPassword crypto.pbkdf2 data.password user.passwordHash = some true) :
    primaryRole user ≠ admin := by
  rcases hguess with hown | hwrong
  · exact h.accounts data hown user hmem hname
  · exact absurd hpassword (hwrong user hmem hname)

/-- A request keeps a party confined, unless it has a key made that grants writes. -/
theorem effect (h : Confined u crypto s party) {env : Env} {caller : CurrentUser}
    {request : Request} {outcome : Outcome T} (heffect : Effect crypto env caller s request outcome)
    (hguess : party.Guessless crypto env s request)
    (hcaller : request.isPublic = false → s.users.NonAdmin caller.userId)
    (hminted : ∀ key ∈ (party.learn request outcome.1).minted,
      hasScope u key.scopes "write".toList = false) :
    Confined u crypto outcome.2 (party.learn request outcome.1) := by
  cases heffect with
  | idle hlearn =>
    rw [hlearn]
    exact h
  | minted howner hsecret hrows =>
    have hscopes := hminted _ (List.mem_append_right party.minted (List.mem_singleton_self _))
    apply h.minted
    · rw [hsecret]
      exact hguess
    · refine ⟨hscopes, ?_⟩
      rw [howner]
      exact hcaller rfl
    · exact hrows
  | withdrawn hlearn hrows =>
    rw [hlearn]
    exact h.withdrawn _ hrows
  | @registered data user users answer hcreate hname hrole =>
    have hkept := h.registered hcreate hrole data.password
    rwa [hname] at hkept
  | @loggedIn data user users answer payload hmem hname hpassword htoken hid hrole husers =>
    have huser := h.primaryRole_of_verified hguess hmem hname hpassword
    have hkept := h.loggedIn hmem huser hid hrole husers
    show Confined u crypto _ { party with tokens := party.tokens ++ answer.token.toList }
    rw [htoken]
    exact hkept

/-- A request to a route keeps a party confined, unless it has a key made that grants writes. -/
theorem respond (h : Confined u crypto s party) {expirySeconds : Int} {door env : Env}
    {creds : Credentials T} {request : Request} (hp : party.Presents crypto door creds s)
    (hguess : party.Guessless crypto env s request) {outcome : Outcome T}
    (houtcome : request.respond crypto expirySeconds door env creds s = outcome)
    (hminted : ∀ key ∈ (party.learn request outcome.1).minted,
      hasScope u key.scopes "write".toList = false) :
    Confined u crypto outcome.2 (party.learn request outcome.1) := by
  subst houtcome
  unfold Request.respond at hminted ⊢
  by_cases hpublic : request.isPublic = true
  · rw [if_pos hpublic] at hminted ⊢
    apply h.effect (effect_handle crypto expirySeconds env s (by decide) request) hguess
    · intro hprotected
      rw [hpublic] at hprotected
      cases hprotected
    · exact hminted
  · rw [if_neg hpublic] at hminted ⊢
    have hdoor := enforceAuth_screened h.caches (h.credentials hp)
    cases heq : Middleware.enforceAuth door crypto creds s with
    | mk found s' =>
      rw [heq] at hdoor hminted
      have hscreened : Screened u s s' := hdoor.1
      have hkept := h.screened hscreened
      cases found with
      | none =>
        show Confined u crypto s' (party.learn request (.error unauthorized))
        rw [Party.learn_error]
        exact hkept
      | some caller =>
        have hcaller : ReadOnlyCaller u s.users caller := hdoor.2 caller rfl
        apply hkept.effect (effect_handle crypto expirySeconds env s' hcaller.role request)
        · exact hguess.screened hscreened
        · intro _
          rw [hscreened.users]
          exact hcaller.userId
        · exact hminted

end Confined

end Confinement

end SalesData.Auth

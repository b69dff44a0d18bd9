import SalesData.Auth.Party
import SalesData.Service.WriteGate

/-!
# The console of a party

A party that began with one key sends requests to the key management routes and statements to
`/api/query` (`core/app/api/routes/query.py:236–297`), one after the other. What the query service
does with the statements is left to its scheduler. "Everyone else is read-only until they mint a
write-scoped API key" (`core/auth/middleware.py:208–212`): a caller makes keys for itself with the
scopes that it asks for (`core/app/api/routes/auth.py:104–149`).
-/

namespace SalesData.App.Console

open Base Auth Sql
open Service (QueryService Run)

/-- A service database with a user who is no administrator, and a key of the user that does not
grant writes. -/
structure Holder (u : Unicode) (sha256 : Text → Text) where
  users : Users
  apiKeys : ApiKeys
  user : User
  apiKey : Text
  mem : user ∈ users.rows
  role : primaryRole user ≠ admin
  rows : ∀ row ∈ apiKeys.rows, row.apiKeyHash = sha256 apiKey →
    row.ownerId = user.userId ∧ hasScope u row.scopes "write".toList = false

/-- The service database with the caches of the process, what the party holds, and the query
service. -/
structure State (T K P D E : Type) where
  auth : AuthState
  party : Party T
  service : Service.State K P D E

/-- A request of the party, which meets `door` in the middleware, or a step of the service. -/
inductive Act (T K P D E : Type) where
  | request (door env : Env) (creds : Credentials T) (request : Request)
  | query (door : Env) (creds : Credentials T) (sql : Text) (params : P)
  | task (a : Cache.Act K Text D E (Run P))

/-- `execute_query` passes on the statement and the caller's scopes
(`routes/query.py:262–280`). -/
def executeQuery {P : Type} (settings : QueryService) (caller : CurrentUser) (sql : Text)
    (params : P) : Run P :=
  ⟨settings, sql, params, caller.scopes⟩

variable {T K P D E : Type} [DecidableEq K] (u : Unicode) (crypto : Crypto T)
  (expirySeconds : Int) (cacheKey : Text → P → K) (settings : QueryService)

/-- One action. -/
def step (s : State T K P D E) : Act T K P D E → Option (State T K P D E)
  | .request door env creds request =>
    let (answer, auth) := request.respond crypto expirySeconds door env creds s.auth
    some { s with auth, party := s.party.learn request answer }
  | .query door creds sql params =>
    match Middleware.enforceAuth door crypto creds s.auth with
    | (none, auth) => some { s with auth }
    | (some caller, auth) =>
      (Service.step u cacheKey s.service (.run (executeQuery settings caller sql params))).map
        fun service ↦ { s with auth, service }
  | .task a => (Service.step u cacheKey s.service (.task a)).map fun service ↦ { s with service }

/-- A process that has just started, and the party with its one key. -/
def system (l1MaxSize : Nat) (l1TtlSeconds : Int) (h : 0 < l1MaxSize)
    (holder : Holder u crypto.sha256) : System (State T K P D E) (Act T K P D E) where
  init :=
    { auth := ⟨holder.users, holder.apiKeys, .empty, .empty, .empty⟩
      party := .new holder.apiKey
      service := (Service.system u cacheKey l1MaxSize l1TtlSeconds h).init }
  step := step u crypto expirySeconds cacheKey settings

/-- The party uses nothing but what it holds. -/
def Holds (s : State T K P D E) : Act T K P D E → Prop
  | .request door env creds request =>
    s.party.Presents crypto door creds s.auth ∧ s.party.Guessless crypto env s.auth request
  | .query door creds _ _ => s.party.Presents crypto door creds s.auth
  | .task _ => True

instance [DecidableEq T] (s : State T K P D E) (a : Act T K P D E) : Decidable (Holds crypto s a) :=
  match a with
  | .request _ _ _ _ => inferInstanceAs (Decidable (_ ∧ _))
  | .query _ _ _ _ => inferInstanceAs (Decidable (Party.Presents _ _ _ _ _))
  | .task _ => isTrue trivial

/-- No key that was made for the party grants writes. -/
def Mintless (s : State T K P D E) : Prop :=
  ∀ key ∈ s.party.minted, hasScope u key.scopes "write".toList = false

/-- A run without the write scope where the scope is required. -/
structure ReadOnlyRun (run : Run P) : Prop where
  required : run.service.requireWriteScope = true
  scopes : hasScope u (some run.scopes) "write".toList = false

/-- The party is confined, and whatever it sent to the service was read-only. -/
structure ConsoleInv (l1MaxSize : Nat) (l1TtlSeconds : Int) (h : 0 < l1MaxSize)
    (s : State T K P D E) : Prop where
  confined : Confined u crypto s.auth s.party
  service : (Service.system u cacheKey l1MaxSize l1TtlSeconds h).Reach
    (fun _ a ↦ ∀ run, a = .run run → ReadOnlyRun u run) s.service

variable {u crypto expirySeconds cacheKey settings} {l1MaxSize : Nat} {l1TtlSeconds : Int}
  {hpos : 0 < l1MaxSize} {holder : Holder u crypto.sha256} {s s' : State T K P D E}

/-- Answers take no key away. -/
theorem mem_minted_learn {party : Party T} {request : Request}
    {answer : Except HttpError (Response T)} {key : APIKeyResponse} (h : key ∈ party.minted) :
    key ∈ (party.learn request answer).minted := by
  unfold Party.learn
  split
  · exact h
  · exact List.mem_append_left _ h
  · exact h
  · exact h

/-- Whoever has no writing key later has none now. -/
theorem mintless_of_step {a : Act T K P D E}
    (hstep : step u crypto expirySeconds cacheKey settings s a = some s') (h : Mintless u s') :
    Mintless u s := by
  intro key hkey
  apply h
  cases a with
  | request door env creds request =>
    rw [← Option.some.inj hstep]
    exact mem_minted_learn hkey
  | query door creds sql params =>
    rw [step] at hstep
    split at hstep
    · rw [← Option.some.inj hstep]
      exact hkey
    · obtain ⟨service, -, rfl⟩ := Option.map_eq_some_iff.mp hstep
      exact hkey
  | task a =>
    obtain ⟨service, -, rfl⟩ := Option.map_eq_some_iff.mp hstep
    exact hkey

/-- A process starts with a confined party. -/
theorem consoleInv_init :
    ConsoleInv u crypto cacheKey l1MaxSize l1TtlSeconds hpos
      (system (D := D) (E := E) u crypto expirySeconds cacheKey settings l1MaxSize l1TtlSeconds hpos
        holder).init where
  confined := by
    refine ⟨⟨fun hash info expiresAt h ↦ ?_, fun userId user expiresAt h ↦ ?_⟩, ?_, ?_, ?_⟩
    · cases h
    · cases h
    · intro key hkey row hrow hhash
      obtain rfl : key = holder.apiKey := List.mem_singleton.mp hkey
      obtain ⟨howner, hscopes⟩ := holder.rows row hrow hhash
      refine ⟨hscopes, ?_⟩
      rw [howner]
      exact nonAdmin_of_mem holder.mem holder.role
    · exact fun token htoken ↦ by cases htoken
    · exact fun account haccount ↦ by cases haccount
  service := .init

/-- Every action of a party without a writing key keeps the invariant. -/
theorem ConsoleInv.step {a : Act T K P D E} (hrequire : settings.requireWriteScope = true)
    (h : ConsoleInv u crypto cacheKey l1MaxSize l1TtlSeconds hpos s) (hok : Holds crypto s a)
    (hstep : Console.step u crypto expirySeconds cacheKey settings s a = some s')
    (hmint : Mintless u s') : ConsoleInv u crypto cacheKey l1MaxSize l1TtlSeconds hpos s' := by
  cases a with
  | request door env creds request =>
    rw [← Option.some.inj hstep] at hmint ⊢
    exact ⟨h.confined.respond hok.1 hok.2 rfl hmint, h.service⟩
  | query door creds sql params =>
    have hdoor := enforceAuth_screened h.confined.caches (h.confined.credentials hok)
    rw [Console.step] at hstep
    split at hstep
    · next auth heq =>
      rw [heq] at hdoor
      rw [← Option.some.inj hstep]
      exact ⟨h.confined.screened hdoor.1, h.service⟩
    · next caller auth heq =>
      rw [heq] at hdoor
      obtain ⟨service, hservice, rfl⟩ := Option.map_eq_some_iff.mp hstep
      have hcaller : ReadOnlyCaller u s.auth.users caller := hdoor.2 caller rfl
      have hrun : ∀ run, Service.Act.run (executeQuery settings caller sql params) =
          (.run run : Service.Act K P D E) → ReadOnlyRun u run := by
        intro run hrun
        rw [← Service.Act.run.inj hrun]
        exact ⟨hrequire, hcaller.scopes⟩
      have hreach : (Service.system u cacheKey l1MaxSize l1TtlSeconds hpos).Reach
          (fun _ a ↦ ∀ run, a = .run run → ReadOnlyRun u run) service :=
        h.service.step hrun hservice
      exact ⟨h.confined.screened hdoor.1, hreach⟩
  | task a =>
    obtain ⟨service, hservice, rfl⟩ := Option.map_eq_some_iff.mp hstep
    have hreach : (Service.system u cacheKey l1MaxSize l1TtlSeconds hpos).Reach
        (fun _ a ↦ ∀ run, a = .run run → ReadOnlyRun u run) service :=
      h.service.step (fun run hrun ↦ by cases hrun) hservice
    exact ⟨h.confined, hreach⟩

/-- The invariant holds in every run in which the party gets no writing key. -/
theorem consoleInv_of_reach (hrequire : settings.requireWriteScope = true)
    (h : (system u crypto expirySeconds cacheKey settings l1MaxSize l1TtlSeconds hpos holder).Reach
      (Holds crypto) s) (hmint : Mintless u s) :
    ConsoleInv u crypto cacheKey l1MaxSize l1TtlSeconds hpos s := by
  refine h.invariant (P := fun s ↦ Mintless u s →
    ConsoleInv u crypto cacheKey l1MaxSize l1TtlSeconds hpos s) (fun _ ↦ consoleInv_init) ?_ hmint
  intro s a s' hinv hok hstep hmint'
  exact (hinv (mintless_of_step hstep hmint')).step hrequire hok hstep hmint'

/-- The write gate keeps a read-only run from sending a write. -/
theorem classifyOperation_of_sent {service : Service.State K P D E}
    (h : (Service.system u cacheKey l1MaxSize l1TtlSeconds hpos).Reach
      (fun _ a ↦ ∀ run, a = .run run → ReadOnlyRun u run) service) :
    ∀ e ∈ service.sent, classifyOperation u e.text ≠ .write := by
  intro e he hwrite
  obtain ⟨htext, hdenied⟩ := Service.sent_of_reach h e he
  have hrun := Service.runs_of_reach h e he
  rw [htext] at hwrite
  rw [Run.denied, hwrite, hrun.required, hrun.scopes] at hdenied
  cases hdenied

/-- No statement that is classified as a write has reached the warehouse. -/
def State.ReadOnly (u : Unicode) (s : State T K P D E) : Prop :=
  ∀ e ∈ s.service.sent, classifyOperation u e.text ≠ .write

/-- Unless a key that grants writes is made for it, a party that began with a read-only key
executes no write, whatever it asks for in whatever order. -/
theorem console_readOnly (hrequire : settings.requireWriteScope = true)
    (h : (system u crypto expirySeconds cacheKey settings l1MaxSize l1TtlSeconds hpos holder).Reach
      (Holds crypto) s) (hmint : Mintless u s) : s.ReadOnly u :=
  classifyOperation_of_sent (consoleInv_of_reach hrequire h hmint).service

section Example

private def frank : User :=
  ⟨"frank".toList, "frank".toList, "f@x".toList, [], some "user".toList, true, 0, 0, none⟩

/-- A user with a key whose scope is `read`; a digest shows what it is made of. -/
def readKey : Holder .basic Crypto.transparent.sha256 where
  users := ⟨[frank], by decide⟩
  apiKeys :=
    ⟨[⟨"key_1".toList, "k".toList, "frank".toList, 0, none, some "read".toList, true⟩], by decide⟩
  user := frank
  apiKey := "k".toList
  mem := by decide
  role := by decide
  rows := by decide +kernel

private def doorway : Env :=
  ⟨fun _ ↦ 5, 5, fun _ ↦ false, false, "00".toList, "5a17".toList, "k2".toList⟩

private theorem four_results : 0 < 4 := by decide

/-- The console of that user; a statement is its own cache key. -/
def console : System (State Payload Text Unit Nat Nat) (Act Payload Text Unit Nat Nat) :=
  system .basic .transparent 3600 (fun sql _ ↦ sql) ⟨true, true⟩ 4 3600 four_results readKey

-- Ask for a key with `scopes`, and send a statement with it.
private def askAndSend (scopes sql : String) : List (Act Payload Text Unit Nat Nat) :=
  [.request doorway doorway ⟨"k".toList, none⟩
      (.createApiKey ⟨"frank".toList, some scopes.toList, none⟩),
    .query doorway ⟨"k2".toList, none⟩ sql.toList ()]

/-- The holder of a read-only key asks for one that grants writes, and deletes rows with it. -/
theorem mintedKey_writes :
    ∃ s, console.Reach (Holds .transparent) s ∧ ¬ s.ReadOnly .basic := by
  obtain ⟨s, hs, hend⟩ := System.exists_of_exec console (Holds .transparent)
    (askAndSend "read,write" "DELETE FROM orders" ++ [.task (.begin 0)])
    (fun s ↦ s.service.sent.any fun e ↦ classifyOperation .basic e.text == .write)
    (by decide +kernel)
  obtain ⟨e, he, hwrite⟩ := List.any_eq_true.mp hend
  exact ⟨s, hs, fun h ↦ h e he (by simpa using hwrite)⟩

/-- With a second read-only key, a deletion is refused and a query is executed. -/
theorem console_readOnly_secondKey :
    ∃ s, console.Reach (Holds .transparent) s ∧ s.party.minted.length = 1 ∧
      s.service.refused.length = 1 ∧ s.service.sent.length = 1 ∧ s.ReadOnly .basic := by
  obtain ⟨s, hs, hend⟩ := System.exists_of_exec console (Holds .transparent)
    (askAndSend "read" "DELETE FROM orders" ++
      [.query doorway ⟨"k2".toList, none⟩ "SELECT 1".toList (), .task (.begin 0),
        .task (.finish 0 none), .task (.resume 0), .task (.begin 0)])
    (fun s ↦ s.party.minted.length == 1 && s.service.refused.length == 1 &&
      s.service.sent.length == 1 &&
      s.party.minted.all fun key ↦ !hasScope .basic key.scopes "write".toList)
    (by decide +kernel)
  simp only [Bool.and_eq_true, beq_iff_eq, List.all_eq_true, Bool.not_eq_true'] at hend
  obtain ⟨⟨⟨hminted, hrefused⟩, hsent⟩, hmint⟩ := hend
  exact ⟨s, hs, hminted, hrefused, hsent, console_readOnly rfl hs hmint⟩

end Example
end SalesData.App.Console

import SalesData.Base.SlidingWindow
import SalesData.Base.System
import SalesData.Auth.Routes

/-!
# Throttled logins

`core/auth/rate_limiter.py` in front of the two routes that need no credentials
(`routes/auth.py:278–472`). A bucket of attempts per route and client address is a sliding window; a
successful login clears the bucket of its address (line 424).
-/

namespace SalesData.Auth

open Base
open Cache (Time)

/-- The settings of the limiter (`settings.py:102–104`). -/
structure AuthRateLimit where
  enabled : Bool
  maxAttempts : Nat
  windowSeconds : Time

namespace RateLimiter

/-- `_attempts` (`rate_limiter.py:26`). -/
abbrev Attempts := Dict Text (List Time)

/-- The bucket of a key; a missing one is empty. -/
def bucket (attempts : Attempts) (key : Text) : List Time := (attempts.get? key).getD []

/-- `check_and_record` (`rate_limiter.py:29–53`). -/
def checkAndRecord (key : Text) (maxAttempts : Nat) (windowSeconds now : Time)
    (attempts : Attempts) : Bool × Attempts :=
  let (allowed, recorded) :=
    SlidingWindow.attempt maxAttempts windowSeconds now (bucket attempts key)
  (allowed, attempts.set key recorded)

/-- `reset` (`rate_limiter.py:56–59`). -/
def reset (key : Text) (attempts : Attempts) : Attempts := attempts.pop key

/-- The key of the logins from an address. -/
def loginKey (clientIp : Text) : Text := "login:".toList ++ clientIp

/-- The key of the registrations from an address. -/
def registerKey (clientIp : Text) : Text := "register:".toList ++ clientIp

/-- A request as it arrives. -/
structure Arrival where
  clientIp : Text
  env : Env
  caller : CurrentUser
  request : Request

/-- The reading of the clock that the limiter takes. -/
def Arrival.time (arrival : Arrival) : Time := arrival.env.monotonic

section Handlers

variable {T : Type} (crypto : Crypto T) (expirySeconds : Int) (settings : AuthRateLimit)

/-- The verdict of the limiter; without it every request is allowed. -/
def allow (key : Text) (now : Time) (attempts : Attempts) : Bool × Attempts :=
  if settings.enabled then
    checkAndRecord key settings.maxAttempts settings.windowSeconds now attempts
  else (true, attempts)

/-- `login_user` behind the limiter (`routes/auth.py:373–424`). -/
def loginUser (clientIp : Text) (env : Env) (data : UserLogin) (s : AuthState)
    (attempts : Attempts) : Outcome T × Attempts :=
  let (allowed, attempts) := allow settings (loginKey clientIp) env.monotonic attempts
  let found := s.users.getByUsername data.username (env.fails .findUsername)
  (Routes.loginUser crypto expirySeconds { env with limited := !allowed } data s,
    match allowed, Routes.authenticate crypto.pbkdf2 data.password found with
    | true, .ok _ => reset (loginKey clientIp) attempts
    | _, _ => attempts)

/-- `register_user` behind the limiter (`routes/auth.py:293–298`). -/
def registerUser (clientIp : Text) (env : Env) (data : UserCreate) (s : AuthState)
    (attempts : Attempts) : Outcome T × Attempts :=
  let (allowed, attempts) := allow settings (registerKey clientIp) env.monotonic attempts
  (Routes.registerUser crypto { env with limited := !allowed } data s, attempts)

/-- The handler of a request; the other routes do not ask the limiter. -/
def serve (arrival : Arrival) (s : AuthState) (attempts : Attempts) : Outcome T × Attempts :=
  match arrival.request with
  | .loginUser data =>
    loginUser crypto expirySeconds settings arrival.clientIp arrival.env data s attempts
  | .registerUser data =>
    match data.validate with
    | .error e => ((.error e, s), attempts)
    | .ok data => registerUser crypto settings arrival.clientIp arrival.env data s attempts
  | request => (request.handle crypto expirySeconds arrival.env arrival.caller s, attempts)

end Handlers

/-- An answered request. -/
structure Entry (T : Type) extends Arrival where
  answer : Except HttpError (Response T)

namespace Entry

variable {T : Type}

/-- A login from an address. -/
def isLogin (clientIp : Text) (e : Entry T) : Bool :=
  match e.request with
  | .loginUser _ => e.clientIp == clientIp
  | _ => false

/-- The limiter refused the request. -/
def throttled (e : Entry T) : Bool :=
  match e.answer with
  | .error error => error.statusCode == 429
  | .ok _ => false

/-- The answer has a token. -/
def loggedIn (e : Entry T) : Bool :=
  match e.answer with
  | .ok (.auth auth) => auth.success
  | _ => false

/-- A login from an address that the limiter let through and that made no token. -/
def failed (clientIp : Text) (e : Entry T) : Bool :=
  e.isLogin clientIp && !e.throttled && !e.loggedIn

/-- A login from an address that made a token. -/
def succeeded (clientIp : Text) (e : Entry T) : Bool := e.isLogin clientIp && e.loggedIn

/-- The request came in the window of length `w` that begins at `t`. -/
def within (t w : Time) (e : Entry T) : Bool := t ≤ e.time && e.time ≤ t + w

end Entry

/-- The process and the requests that it has answered, the latest first. -/
structure State (T : Type) where
  auth : AuthState
  attempts : Attempts
  log : List (Entry T)

section Runs

variable {T : Type} (crypto : Crypto T) (expirySeconds : Int) (settings : AuthRateLimit)

/-- Requests come one after the other, at times that do not decrease. -/
def step (s : State T) (arrival : Arrival) : Option (State T) :=
  if s.log.all fun e ↦ e.time ≤ arrival.time then
    let (outcome, attempts) := serve crypto expirySeconds settings arrival s.auth s.attempts
    some ⟨outcome.2, attempts, ⟨arrival, outcome.1⟩ :: s.log⟩
  else none

/-- A process that has counted no attempt yet. -/
def system (auth : AuthState) : System (State T) Arrival :=
  ⟨⟨auth, Dict.empty, []⟩, step crypto expirySeconds settings⟩

end Runs

/-- The failed logins from an address in a window. -/
def failures {T : Type} (clientIp : Text) (t w : Time) (log : List (Entry T)) : Nat :=
  log.countP fun e ↦ e.failed clientIp && e.within t w

/-- The successful logins from an address in a window. -/
def successes {T : Type} (clientIp : Text) (t w : Time) (log : List (Entry T)) : Nat :=
  log.countP fun e ↦ e.succeeded clientIp && e.within t w

/-- The times of the failed logins from an address since its last successful one. -/
def unreset {T : Type} (clientIp : Text) : List (Entry T) → List Time
  | [] => []
  | e :: log =>
    if e.succeeded clientIp then []
    else if e.failed clientIp then unreset clientIp log ++ [e.time]
    else unreset clientIp log

section Step

variable {T : Type} {crypto : Crypto T} {expirySeconds : Int} {settings : AuthRateLimit}

/-- The bucket behind `pop`. -/
theorem bucket_reset (key : Text) (attempts : Attempts) (a : Text) :
    bucket (reset key attempts) a = if a = key then [] else bucket attempts a := by
  unfold bucket reset
  rw [Dict.get?_pop]
  split
  · rfl
  · rfl

/-- The bucket behind a verdict. -/
theorem bucket_allow (key : Text) (now : Time) (attempts : Attempts) (a : Text) (h : a ≠ key) :
    bucket (allow settings key now attempts).2 a = bucket attempts a := by
  unfold allow checkAndRecord
  split
  · simp [bucket, Dict.get?_set, h]
  · rfl

/-- The verdict and the bucket of an enabled limiter. -/
theorem allow_self (henabled : settings.enabled = true) (key : Text) (now : Time)
    (attempts : Attempts) :
    ((allow settings key now attempts).1, bucket (allow settings key now attempts).2 key) =
      SlidingWindow.attempt settings.maxAttempts settings.windowSeconds now
        (bucket attempts key) := by
  simp [allow, henabled, checkAndRecord, bucket, Dict.get?_set]

/-- The bucket of a login key is not the bucket of registrations. -/
theorem loginKey_ne_registerKey (clientIp other : Text) :
    loginKey clientIp ≠ registerKey other := by
  intro h
  unfold loginKey registerKey at h
  rw [show "login:".toList = ['l', 'o', 'g', 'i', 'n', ':'] by decide,
    show "register:".toList = ['r', 'e', 'g', 'i', 's', 't', 'e', 'r', ':'] by decide] at h
  simp at h

/-- Each address has its own key. -/
theorem loginKey_injective {clientIp other : Text} (h : loginKey clientIp = loginKey other) :
    clientIp = other :=
  List.append_cancel_left h

/-- A step answers one request. -/
theorem step_spec {s s' : State T} {arrival : Arrival}
    (h : step crypto expirySeconds settings s arrival = some s') :
    (∀ old ∈ s.log, old.time ≤ arrival.time) ∧ ∃ e : Entry T, e.toArrival = arrival ∧
      e.answer = (serve crypto expirySeconds settings arrival s.auth s.attempts).1.1 ∧
      s'.log = e :: s.log ∧
      s'.attempts = (serve crypto expirySeconds settings arrival s.auth s.attempts).2 := by
  unfold step at h
  split at h
  · next htimes =>
    rw [← Option.some.inj h]
    exact ⟨by simpa using htimes, _, rfl, rfl, rfl, rfl⟩
  · cases h

/-- A request that is no login from an address leaves the bucket of the address alone. -/
theorem bucket_serve (clientIp : Text) (e : Entry T) (s : AuthState) (attempts : Attempts)
    (h : e.isLogin clientIp = false) :
    bucket (serve crypto expirySeconds settings e.toArrival s attempts).2 (loginKey clientIp) =
      bucket attempts (loginKey clientIp) := by
  unfold serve
  split
  · next data hrequest =>
    have hne : loginKey clientIp ≠ loginKey e.clientIp := by
      intro hkey
      simp [Entry.isLogin, hrequest, loginKey_injective hkey] at h
    unfold loginUser
    dsimp only
    split
    · rw [bucket_reset, if_neg hne]
      exact bucket_allow _ _ _ _ hne
    · exact bucket_allow _ _ _ _ hne
  · split
    · rfl
    · apply bucket_allow
      exact loginKey_ne_registerKey clientIp e.clientIp
  · rfl

/-- A login from an address: the limiter decides, and a token clears the bucket. -/
theorem serve_login (henabled : settings.enabled = true) (clientIp : Text) (e : Entry T)
    (s : AuthState) (attempts : Attempts)
    (hanswer : e.answer = (serve crypto expirySeconds settings e.toArrival s attempts).1.1)
    (hlogin : e.isLogin clientIp = true) :
    match SlidingWindow.attempt settings.maxAttempts settings.windowSeconds e.time
        (bucket attempts (loginKey clientIp)) with
    | (false, recorded) =>
      e.throttled = true ∧ e.loggedIn = false ∧
        bucket (serve crypto expirySeconds settings e.toArrival s attempts).2 (loginKey clientIp) =
          recorded
    | (true, recorded) =>
      e.throttled = false ∧
        bucket (serve crypto expirySeconds settings e.toArrival s attempts).2 (loginKey clientIp) =
          if e.loggedIn then [] else recorded := by
  obtain ⟨arrival, answer⟩ := e
  obtain ⟨data, hrequest, rfl⟩ : ∃ data, arrival.request = .loginUser data ∧
      arrival.clientIp = clientIp := by
    unfold Entry.isLogin at hlogin
    split at hlogin
    · next data hrequest => exact ⟨data, hrequest, by simpa using hlogin⟩
    · cases hlogin
  have hallow := allow_self henabled (loginKey arrival.clientIp) arrival.time attempts
  have hserve : serve crypto expirySeconds settings arrival s attempts =
      loginUser crypto expirySeconds settings arrival.clientIp arrival.env data s attempts := by
    rw [serve, hrequest]
  dsimp only at hanswer ⊢
  rw [hserve] at hanswer ⊢
  rw [← hallow]
  unfold Arrival.time
  unfold loginUser Routes.loginUser at hanswer ⊢
  generalize allow settings (loginKey arrival.clientIp) arrival.env.monotonic attempts = verdict
    at hanswer ⊢
  obtain ⟨allowed, attempts'⟩ := verdict
  cases allowed with
  | false =>
    subst hanswer
    exact ⟨rfl, rfl, rfl⟩
  | true =>
    cases hauth : Routes.authenticate crypto.pbkdf2 data.password
        (s.users.getByUsername data.username (arrival.env.fails .findUsername)) with
    | error rejection =>
      simp only [hauth, Bool.not_true, Bool.false_eq_true, if_false] at hanswer ⊢
      cases rejection with
      | raised => exact hanswer ▸ ⟨rfl, rfl⟩
      | invalid => exact hanswer ▸ ⟨rfl, rfl⟩
      | disabled => exact hanswer ▸ ⟨rfl, rfl⟩
    | ok user =>
      simp only [hauth, Bool.not_true, Bool.false_eq_true, if_false] at hanswer ⊢
      subst hanswer
      refine ⟨rfl, ?_⟩
      rw [bucket_reset, if_pos rfl]
      rfl

end Step

section Windows

variable {T : Type} {settings : AuthRateLimit} {clientIp : Text}

/-- What holds of an address behind every request: its bucket stands for the failures since its last
success. A window that has not ended yet has at most `m` attempts for each success in it and those
failures; one that has ended has at most `m` more. -/
structure WindowInv (settings : AuthRateLimit) (clientIp : Text) (s : State T) : Prop where
  stands : ∀ now, (∀ e ∈ s.log, e.time ≤ now) →
    SlidingWindow.Stands settings.maxAttempts settings.windowSeconds now (unreset clientIp s.log)
      (bucket s.attempts (loginKey clientIp))
  running : ∀ t, (∀ e ∈ s.log, e.time ≤ t + settings.windowSeconds) →
    failures clientIp t settings.windowSeconds s.log +
        successes clientIp t settings.windowSeconds s.log ≤
      settings.maxAttempts * successes clientIp t settings.windowSeconds s.log +
        (unreset clientIp s.log).countP (t ≤ ·)
  ended : ∀ t,
    failures clientIp t settings.windowSeconds s.log +
        successes clientIp t settings.windowSeconds s.log ≤
      settings.maxAttempts * (successes clientIp t settings.windowSeconds s.log + 1)

/-- An entry counts as a failure if it is one and in the window. -/
theorem failures_cons (t w : Time) (e : Entry T) (log : List (Entry T)) :
    failures clientIp t w (e :: log) =
      failures clientIp t w log + if e.failed clientIp && e.within t w then 1 else 0 :=
  List.countP_cons ..

/-- An entry counts as a success if it is one and in the window. -/
theorem successes_cons (t w : Time) (e : Entry T) (log : List (Entry T)) :
    successes clientIp t w (e :: log) =
      successes clientIp t w log + if e.succeeded clientIp && e.within t w then 1 else 0 :=
  List.countP_cons ..

/-- A window that begins after every request has met none. -/
theorem successes_eq_zero {t w : Time} {log : List (Entry T)} (h : ∀ e ∈ log, e.time < t) :
    successes clientIp t w log = 0 := by
  apply List.countP_eq_zero.mpr
  intro e he
  simp [Entry.within, h e he]

/-- A window that begins after every request has met none. -/
theorem failures_eq_zero {t w : Time} {log : List (Entry T)} (h : ∀ e ∈ log, e.time < t) :
    failures clientIp t w log = 0 := by
  apply List.countP_eq_zero.mpr
  intro e he
  simp [Entry.within, h e he]

namespace WindowInv

variable {s s' : State T} {e : Entry T}

/-- A request that is neither a failure nor a success keeps the counts. -/
theorem pass (h : WindowInv settings clientIp s) (hlog : s'.log = e :: s.log)
    (hfailed : e.failed clientIp = false) (hsucceeded : e.succeeded clientIp = false)
    (hstands : SlidingWindow.Stands settings.maxAttempts settings.windowSeconds e.time
      (unreset clientIp s.log) (bucket s'.attempts (loginKey clientIp))) :
    WindowInv settings clientIp s' := by
  have hunreset : unreset clientIp s'.log = unreset clientIp s.log := by
    rw [hlog, unreset, hsucceeded, hfailed]
    rfl
  have hfailures (t : Time) : failures clientIp t settings.windowSeconds s'.log =
      failures clientIp t settings.windowSeconds s.log := by
    simp [hlog, failures_cons, hfailed]
  have hsuccesses (t : Time) : successes clientIp t settings.windowSeconds s'.log =
      successes clientIp t settings.windowSeconds s.log := by
    simp [hlog, successes_cons, hsucceeded]
  constructor
  · intro now hnow
    rw [hunreset]
    apply hstands.later
    exact hnow e (by simp [hlog])
  · intro t ht
    rw [hunreset, hfailures, hsuccesses]
    apply h.running t
    exact fun old hold ↦ ht old (by simp [hlog, hold])
  · intro t
    rw [hfailures, hsuccesses]
    exact h.ended t

/-- A failure is one more attempt since the last success. -/
theorem fail (h : WindowInv settings clientIp s) (hlog : s'.log = e :: s.log)
    (htimes : ∀ old ∈ s.log, old.time ≤ e.time)
    (hfailed : e.failed clientIp = true) (hsucceeded : e.succeeded clientIp = false)
    (hstands : SlidingWindow.Stands settings.maxAttempts settings.windowSeconds e.time
      (unreset clientIp s.log ++ [e.time]) (bucket s'.attempts (loginKey clientIp)))
    (hroom : ∀ t, e.time ≤ t + settings.windowSeconds →
      (unreset clientIp s.log).countP (t ≤ ·) < settings.maxAttempts) :
    WindowInv settings clientIp s' := by
  have hunreset : unreset clientIp s'.log = unreset clientIp s.log ++ [e.time] := by
    rw [hlog, unreset, hsucceeded, hfailed]
    rfl
  have hsuccesses (t : Time) : successes clientIp t settings.windowSeconds s'.log =
      successes clientIp t settings.windowSeconds s.log := by
    simp [hlog, successes_cons, hsucceeded]
  have hbefore {t : Time} (ht : e.time ≤ t + settings.windowSeconds) :=
    h.running t fun old hold ↦ (htimes old hold).trans ht
  constructor
  · intro now hnow
    rw [hunreset]
    apply hstands.later
    exact hnow e (by simp [hlog])
  · intro t ht
    have hle := ht e (by simp [hlog])
    have hold := hbefore hle
    rw [hunreset, hsuccesses, hlog, failures_cons, List.countP_append, List.countP_singleton]
    by_cases hin : t ≤ e.time
    · simp only [hfailed, Entry.within, hin, hle, decide_true, Bool.and_self, if_true]
      omega
    · simp only [hfailed, Entry.within, hin, decide_false, Bool.false_and, Bool.and_false,
        Bool.false_eq_true, if_false]
      omega
  · intro t
    rw [hsuccesses, hlog, failures_cons]
    by_cases hin : e.within t settings.windowSeconds = true
    · have hle : e.time ≤ t + settings.windowSeconds := by
        simp only [Entry.within, Bool.and_eq_true, decide_eq_true_eq] at hin
        exact hin.2
      have hold := hbefore hle
      have hlt := hroom t hle
      rw [Nat.mul_succ]
      simp only [hfailed, hin, Bool.and_self, if_true]
      omega
    · have hold := h.ended t
      simp only [hin, Bool.and_false, Bool.false_eq_true, if_false]
      omega

/-- A success clears the bucket. -/
theorem succeed (h : WindowInv settings clientIp s) (hlog : s'.log = e :: s.log)
    (htimes : ∀ old ∈ s.log, old.time ≤ e.time)
    (hfailed : e.failed clientIp = false) (hsucceeded : e.succeeded clientIp = true)
    (hbucket : bucket s'.attempts (loginKey clientIp) = [])
    (hroom : ∀ t, e.time ≤ t + settings.windowSeconds →
      (unreset clientIp s.log).countP (t ≤ ·) < settings.maxAttempts) :
    WindowInv settings clientIp s' := by
  have hunreset : unreset clientIp s'.log = [] := by
    rw [hlog, unreset, hsucceeded]
    rfl
  have hfailures (t : Time) : failures clientIp t settings.windowSeconds s'.log =
      failures clientIp t settings.windowSeconds s.log := by
    simp [hlog, failures_cons, hfailed]
  -- A window that the success is in has room for it.
  have hin {t : Time} (hwithin : e.within t settings.windowSeconds = true) :
      failures clientIp t settings.windowSeconds s'.log +
          successes clientIp t settings.windowSeconds s'.log ≤
        settings.maxAttempts * successes clientIp t settings.windowSeconds s'.log := by
    have hle : e.time ≤ t + settings.windowSeconds := by
      simp only [Entry.within, Bool.and_eq_true, decide_eq_true_eq] at hwithin
      exact hwithin.2
    have hold := h.running t fun old hold ↦ (htimes old hold).trans hle
    have hlt := hroom t hle
    rw [hfailures, hlog, successes_cons]
    simp only [hsucceeded, hwithin, Bool.and_self, if_true, Nat.mul_succ]
    omega
  constructor
  · intro now _
    rw [hunreset, hbucket]
    exact .nil _ _ _
  · intro t ht
    by_cases hwithin : e.within t settings.windowSeconds = true
    · apply (hin hwithin).trans
      exact Nat.le_add_right _ _
    · -- The window begins after the success, and so after everything before it.
      have hlt : e.time < t := by
        have hle := ht e (by simp [hlog])
        simpa [Entry.within, hle] using hwithin
      have hall : ∀ old ∈ s'.log, old.time < t := by
        intro old hold
        rw [hlog] at hold
        rcases List.mem_cons.mp hold with rfl | hold
        · exact hlt
        · exact (htimes old hold).trans_lt hlt
      rw [failures_eq_zero hall, successes_eq_zero hall]
      exact Nat.zero_le _
  · intro t
    by_cases hwithin : e.within t settings.windowSeconds = true
    · apply (hin hwithin).trans
      exact Nat.mul_le_mul_left _ (Nat.le_succ _)
    · have hold := h.ended t
      rw [hfailures, hlog, successes_cons]
      simp only [hwithin, Bool.and_false, Bool.false_eq_true, if_false]
      exact hold

/-- A request keeps the invariant of every address. -/
theorem step {crypto : Crypto T} {expirySeconds : Int} {arrival : Arrival}
    (h : WindowInv settings clientIp s) (henabled : settings.enabled = true)
    (hstep : RateLimiter.step crypto expirySeconds settings s arrival = some s') :
    WindowInv settings clientIp s' := by
  obtain ⟨htimes, e, rfl, hanswer, hlog, hattempts⟩ := step_spec hstep
  by_cases hlogin : e.isLogin clientIp = true
  · have hserve := serve_login henabled clientIp e s.auth s.attempts hanswer hlogin
    have hattempt := (h.stands e.time htimes).attempt (le_refl _)
    rw [← hattempts] at hserve
    split at hserve
    · next recorded heq =>
      obtain ⟨hthrottled, hloggedIn, hbucket⟩ := hserve
      rw [heq] at hattempt
      apply h.pass hlog
      · simp [Entry.failed, hthrottled]
      · simp [Entry.succeeded, hloggedIn]
      · rw [hbucket]
        exact hattempt
    · next recorded heq =>
      obtain ⟨hthrottled, hbucket⟩ := hserve
      rw [heq] at hattempt
      obtain ⟨hstands, hroom⟩ := hattempt
      split at hbucket
      · next hloggedIn =>
        apply h.succeed hlog htimes
        · simp [Entry.failed, hloggedIn]
        · simp [Entry.succeeded, hlogin, hloggedIn]
        · exact hbucket
        · exact hroom
      · next hloggedIn =>
        apply h.fail hlog htimes
        · simp [Entry.failed, hlogin, hthrottled, hloggedIn]
        · simp [Entry.succeeded, hloggedIn]
        · rw [hbucket]
          exact hstands
        · exact hroom
  · rw [Bool.not_eq_true] at hlogin
    apply h.pass hlog
    · simp [Entry.failed, hlogin]
    · simp [Entry.succeeded, hlogin]
    · rw [hattempts, bucket_serve clientIp e s.auth s.attempts hlogin]
      exact h.stands e.time htimes

end WindowInv

/-- From any tables, in every run of requests at times that do not decrease: in a window of length
`w`, the failed logins from an address and its successful ones are at most `m`, and `m` more for
each successful one. Without a successful login in the window, at most `m` fail in it. -/
theorem failedLogins_bounded (crypto : Crypto T) (expirySeconds : Int) (settings : AuthRateLimit)
    (henabled : settings.enabled = true) (auth : AuthState) (s : State T)
    (h : (system crypto expirySeconds settings auth).Reachable s) (clientIp : Text) (t : Time) :
    failures clientIp t settings.windowSeconds s.log +
        successes clientIp t settings.windowSeconds s.log ≤
      settings.maxAttempts * (successes clientIp t settings.windowSeconds s.log + 1) := by
  have hinv : WindowInv settings clientIp s := by
    apply h.invariant (P := WindowInv settings clientIp)
    · constructor
      · exact fun _ _ ↦ .nil _ _ _
      · exact fun _ _ ↦ Nat.zero_le _
      · exact fun _ ↦ Nat.zero_le _
    · exact fun s a s' hs _ hstep ↦ hs.step henabled hstep
  exact hinv.ended t

end Windows

section Example

private def erin : User :=
  ⟨"erin".toList, "erin".toList, "e@x".toList, "00$secret00".toList, none, true, 0, 0, none⟩

private def onlyErin : AuthState :=
  ⟨⟨[erin], by simp⟩, Table.empty, Dict.empty, Dict.empty, Dict.empty⟩

private def nobody : CurrentUser := ⟨[], [], []⟩

-- A login as erin at an instant.
private def loginAt (now : Time) (password : String) : Arrival where
  clientIp := "10.0.0.1".toList
  env := ⟨fun _ ↦ now, now, fun _ ↦ false, false, [], [], []⟩
  caller := nobody
  request := .loginUser ⟨"erin".toList, password.toList⟩

private def twoInAMinute : AuthRateLimit := ⟨true, 2, 60⟩

/-- With two attempts a minute: a failed login, a successful one and two more failed ones. -/
theorem failedLogins_exceed : ∃ s : State Payload,
    (system Crypto.transparent 3600 twoInAMinute onlyErin).Reachable s ∧
      failures "10.0.0.1".toList 0 60 s.log = 3 ∧ (3 : Nat) > twoInAMinute.maxAttempts := by
  obtain ⟨s, hs, hfailures⟩ := System.exists_of_exec
    (system Crypto.transparent 3600 twoInAMinute onlyErin) (fun _ _ ↦ True)
    [loginAt 0 "guess", loginAt 1 "secret", loginAt 2 "guess", loginAt 3 "guess"]
    (fun s ↦ failures "10.0.0.1".toList 0 60 s.log == 3) (by decide +kernel)
  exact ⟨s, hs, by simpa using hfailures, by decide⟩

/-- Without the success the third failure in a minute is refused. -/
theorem failedLogins_bounded_guesses : ∃ s : State Payload,
    (system Crypto.transparent 3600 twoInAMinute onlyErin).Reachable s ∧
      (failures "10.0.0.1".toList 0 60 s.log = 2 ∧ successes "10.0.0.1".toList 0 60 s.log = 0) ∧
      failures "10.0.0.1".toList 0 60 s.log + successes "10.0.0.1".toList 0 60 s.log ≤
        2 * (successes "10.0.0.1".toList 0 60 s.log + 1) := by
  obtain ⟨s, hs, hcounts⟩ := System.exists_of_exec
    (system Crypto.transparent 3600 twoInAMinute onlyErin) (fun _ _ ↦ True)
    [loginAt 0 "guess", loginAt 1 "guess", loginAt 2 "guess", loginAt 61 "secret"]
    (fun s ↦ failures "10.0.0.1".toList 0 60 s.log == 2 &&
      successes "10.0.0.1".toList 0 60 s.log == 0) (by decide +kernel)
  refine ⟨s, hs, by simpa using hcounts, ?_⟩
  exact failedLogins_bounded Crypto.transparent 3600 twoInAMinute rfl onlyErin s hs
    "10.0.0.1".toList 0

end Example

end RateLimiter
end SalesData.Auth

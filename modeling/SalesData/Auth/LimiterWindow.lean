import SalesData.Auth.RateLimiter

/-!
# The window of a key

The calls on the limiter by themselves (`core/auth/rate_limiter.py:25–59`), each key with its own
limits: what a call answers, in terms of what the calls before it were answered.
-/

namespace SalesData.Auth.RateLimiter

open Base
open Cache (Time)

/-- The limits that the callers pass for each key. -/
structure Limits where
  maxAttempts : Text → Nat
  windowSeconds : Text → Time

/-- A call on the limiter and the instant of the call. -/
inductive LimiterCall
  | checkAndRecord (key : Text) (now : Time)
  | reset (key : Text) (now : Time)
  deriving DecidableEq

namespace LimiterCall

/-- The key of a call. -/
def key : LimiterCall → Text
  | checkAndRecord key _ | reset key _ => key

/-- The instant of a call. -/
def now : LimiterCall → Time
  | checkAndRecord _ now | reset _ now => now

/-- A call: its answer, if it has one, and the buckets behind it. -/
def run (limits : Limits) (attempts : Attempts) : LimiterCall → Option Bool × Attempts
  | checkAndRecord key now =>
    let (allowed, attempts) := RateLimiter.checkAndRecord key (limits.maxAttempts key)
      (limits.windowSeconds key) now attempts
    (some allowed, attempts)
  | reset key _ => (none, RateLimiter.reset key attempts)

end LimiterCall

/-- A call with its answer. -/
structure Answered where
  call : LimiterCall
  answer : Option Bool
  deriving DecidableEq

/-- The call was an attempt for a key, and it was allowed. -/
def Answered.allows (key : Text) (e : Answered) : Bool :=
  e.answer == some true && e.call.key == key

/-- The buckets and the answered calls, in order. -/
structure Limiter where
  attempts : Attempts
  log : List Answered

/-- One more call. -/
def Limiter.serve (limits : Limits) (s : Limiter) (call : LimiterCall) : Limiter :=
  let (answer, attempts) := call.run limits s.attempts
  ⟨attempts, s.log ++ [⟨call, answer⟩]⟩

/-- A new limiter after some calls. -/
def Limiter.after (limits : Limits) (calls : List LimiterCall) : Limiter :=
  calls.foldl (serve limits) ⟨Dict.empty, []⟩

/-- What a call does to the attempts for a key that were allowed since its last reset. -/
def Answered.count (key : Text) (admitted : List Time) (e : Answered) : List Time :=
  match e.call with
  | .reset k _ => if k = key then [] else admitted
  | .checkAndRecord _ now => if e.allows key then admitted ++ [now] else admitted

/-- The instants of the attempts for a key that were allowed since its last reset. -/
def sinceReset (key : Text) (log : List Answered) : List Time := log.foldl (Answered.count key) []

/-- The allowed attempts for a key in a closed interval. -/
def allowedIn (key : Text) (a b : Time) (log : List Answered) : Nat :=
  log.countP fun e ↦ e.allows key && decide (a ≤ e.call.now) && decide (e.call.now ≤ b)

/-- The key is not reset in a closed interval. -/
def NoReset (key : Text) (a b : Time) (calls : List LimiterCall) : Prop :=
  ∀ now, .reset key now ∈ calls → now < a ∨ b < now

section Runs

variable {limits : Limits} {key : Text}

/-- The calls before the last one. -/
theorem after_snoc (calls : List LimiterCall) (call : LimiterCall) :
    Limiter.after limits (calls ++ [call]) = (Limiter.after limits calls).serve limits call := by
  simp [Limiter.after]

/-- The answered calls before the last one. -/
theorem sinceReset_snoc (log : List Answered) (e : Answered) :
    sinceReset key (log ++ [e]) = e.count key (sinceReset key log) := by
  simp [sinceReset]

/-- The buckets that a call on another key leaves alone. -/
theorem bucket_run_of_ne {call : LimiterCall} (h : call.key ≠ key) (attempts : Attempts) :
    bucket (call.run limits attempts).2 key = bucket attempts key := by
  cases call with
  | checkAndRecord k now =>
    have hne : key ≠ k := Ne.symm h
    simp [LimiterCall.run, checkAndRecord, bucket, Dict.get?_set, hne]
  | reset k now =>
    have hne : key ≠ k := Ne.symm h
    simp [LimiterCall.run, bucket_reset, hne]

/-- A call on a key sees the bucket of the key alone. -/
theorem run_of_bucket (limits : Limits) {call : LimiterCall} (h : call.key = key)
    {attempts attempts' : Attempts} (hbucket : bucket attempts key = bucket attempts' key) :
    (call.run limits attempts).1 = (call.run limits attempts').1 ∧
      bucket (call.run limits attempts).2 key = bucket (call.run limits attempts').2 key := by
  subst h
  cases call with
  | checkAndRecord k now =>
    have hsame : (attempts.get? k).getD [] = (attempts'.get? k).getD [] := hbucket
    simp [LimiterCall.run, checkAndRecord, LimiterCall.key, bucket, Dict.get?_set, hsame]
  | reset k now => simp [LimiterCall.run, LimiterCall.key, bucket_reset]

/-- A call on another key does not count. -/
theorem count_of_ne {e : Answered} (h : e.call.key ≠ key) (admitted : List Time) :
    e.count key admitted = admitted := by
  obtain ⟨call, answer⟩ := e
  cases call with
  | checkAndRecord k now =>
    have hne : (k == key) = false := beq_false_of_ne h
    simp [Answered.count, Answered.allows, LimiterCall.key, hne]
  | reset k now => exact if_neg h

/-- The calls for other keys do not change what a key's calls are answered. -/
theorem log_filter (calls : List LimiterCall) :
    (Limiter.after limits calls).log.filter (·.call.key == key) =
        (Limiter.after limits (calls.filter (·.key == key))).log ∧
      bucket (Limiter.after limits calls).attempts key =
        bucket (Limiter.after limits (calls.filter (·.key == key))).attempts key := by
  induction calls using List.reverseRecOn with
  | nil => exact ⟨rfl, rfl⟩
  | append_singleton calls call ih =>
    obtain ⟨hlog, hbucket⟩ := ih
    rw [after_snoc, List.filter_append]
    by_cases hkey : call.key = key
    · obtain ⟨hanswer, hbehind⟩ := run_of_bucket limits hkey hbucket
      have hone : [call].filter (·.key == key) = [call] := by simp [hkey]
      rw [hone, after_snoc]
      unfold Limiter.serve
      dsimp only
      rw [List.filter_append, hlog, ← hanswer]
      simp [hkey, hbehind]
    · have hone : [call].filter (·.key == key) = [] := by simp [hkey]
      rw [hone, List.append_nil, ← hlog, ← hbucket]
      unfold Limiter.serve
      dsimp only
      rw [List.filter_append, bucket_run_of_ne hkey]
      simp [hkey]

/-- The calls of the log. -/
theorem log_map_call (calls : List LimiterCall) :
    (Limiter.after limits calls).log.map (·.call) = calls := by
  induction calls using List.reverseRecOn with
  | nil => rfl
  | append_singleton calls call ih =>
    rw [after_snoc, Limiter.serve, List.map_append, ih]
    rfl

/-- The call of an entry. -/
theorem call_mem {calls : List LimiterCall} {e : Answered}
    (he : e ∈ (Limiter.after limits calls).log) : e.call ∈ calls := by
  have hmem := List.mem_map_of_mem (f := Answered.call) he
  rwa [log_map_call] at hmem

end Runs

/-- What holds of a key behind every call: the bucket stands for the attempts since the last
reset, and every answer is that of the window. -/
structure Window (limits : Limits) (key : Text) (calls : List LimiterCall) : Prop where
  stands : ∀ now, (∀ c ∈ calls, c.now ≤ now) →
    SlidingWindow.Stands (limits.maxAttempts key) (limits.windowSeconds key) now
      (sinceReset key (Limiter.after limits calls).log)
      (bucket (Limiter.after limits calls).attempts key)
  sorted : (sinceReset key (Limiter.after limits calls).log).Pairwise (· ≤ ·)
  past : ∀ t ∈ sinceReset key (Limiter.after limits calls).log, ∃ c ∈ calls, c.now = t
  exact : ∀ earlier t answer later,
    (Limiter.after limits calls).log = earlier ++ ⟨.checkAndRecord key t, answer⟩ :: later →
    (answer = some true ↔ (sinceReset key earlier).countP (fun x ↦
      decide (t - limits.windowSeconds key ≤ x) && decide (x ≤ t)) < limits.maxAttempts key)
  running : ∀ a, (∀ now, .reset key now ∈ calls → now < a) →
    (Limiter.after limits calls).log.countP (fun e ↦ e.allows key && decide (a ≤ e.call.now)) =
      (sinceReset key (Limiter.after limits calls).log).countP (a ≤ ·)

namespace Window

variable {limits : Limits} {key : Text} {calls : List LimiterCall} {call : LimiterCall}

/-- A new limiter. -/
theorem nil (limits : Limits) (key : Text) : Window limits key [] where
  stands now _ := .nil _ _ now
  sorted := .nil
  past t ht := by cases ht
  exact earlier t answer later h := by
    have hlength := congrArg List.length h
    simp [Limiter.after] at hlength
  running _ _ := rfl

private theorem exact_snoc {log : List Answered} {e : Answered}
    {P : List Answered → Time → Option Bool → Prop}
    (hold : ∀ earlier t answer later,
      log = earlier ++ ⟨.checkAndRecord key t, answer⟩ :: later → P earlier t answer)
    (hnew : ∀ t answer, e = ⟨.checkAndRecord key t, answer⟩ → P log t answer)
    (earlier : List Answered) (t : Time) (answer : Option Bool) (later : List Answered)
    (h : log ++ [e] = earlier ++ ⟨.checkAndRecord key t, answer⟩ :: later) :
    P earlier t answer := by
  rcases List.eq_nil_or_concat later with rfl | ⟨later', last, rfl⟩
  · obtain ⟨rfl, he⟩ := List.append_inj' h rfl
    exact hnew t answer (List.cons.inj he).1
  · rw [List.concat_eq_append, ← List.cons_append, ← List.append_assoc] at h
    exact hold earlier t answer later' (List.append_inj' h rfl).1

/-- A call on another key. -/
theorem other (h : Window limits key calls) (hkey : call.key ≠ key)
    (htimes : ∀ c ∈ calls, c.now ≤ call.now) : Window limits key (calls ++ [call]) := by
  have hcount (answer : Option Bool) (admitted : List Time) :
      Answered.count key admitted ⟨call, answer⟩ = admitted := count_of_ne hkey admitted
  have hallows (answer : Option Bool) : Answered.allows key ⟨call, answer⟩ = false := by
    simp [Answered.allows, hkey]
  constructor
  · intro now hnow
    rw [after_snoc, Limiter.serve, sinceReset_snoc, hcount, bucket_run_of_ne hkey]
    exact h.stands now fun c hc ↦ hnow c (List.mem_append_left _ hc)
  · rw [after_snoc, Limiter.serve, sinceReset_snoc, hcount]
    exact h.sorted
  · rw [after_snoc, Limiter.serve, sinceReset_snoc, hcount]
    intro t ht
    obtain ⟨c, hc, rfl⟩ := h.past t ht
    exact ⟨c, List.mem_append_left _ hc, rfl⟩
  · rw [after_snoc, Limiter.serve]
    apply exact_snoc h.exact
    intro t answer he
    cases he
    exact absurd rfl hkey
  · intro a ha
    rw [after_snoc, Limiter.serve, sinceReset_snoc, hcount, List.countP_append,
      h.running a fun now hnow ↦ ha now (List.mem_append_left _ hnow)]
    simp [hallows]

/-- A reset of the key. -/
theorem reset {t : Time} (h : Window limits key calls) (htimes : ∀ c ∈ calls, c.now ≤ t) :
    Window limits key (calls ++ [.reset key t]) := by
  have hcount (admitted : List Time) :
      Answered.count key admitted ⟨.reset key t, none⟩ = [] := if_pos rfl
  have hrun (attempts : Attempts) : LimiterCall.run limits attempts (.reset key t) =
      (none, RateLimiter.reset key attempts) := rfl
  constructor
  · intro now hnow
    rw [after_snoc, Limiter.serve, hrun, sinceReset_snoc, hcount, bucket_reset, if_pos rfl]
    exact .nil _ _ _
  · rw [after_snoc, Limiter.serve, hrun, sinceReset_snoc, hcount]
    exact .nil
  · rw [after_snoc, Limiter.serve, hrun, sinceReset_snoc, hcount]
    intro x hx
    cases hx
  · rw [after_snoc, Limiter.serve, hrun]
    apply exact_snoc h.exact
    intro t' answer he
    cases he
  · intro a ha
    have hlt : t < a := ha t (List.mem_append_right _ (List.mem_singleton_self _))
    rw [after_snoc, Limiter.serve, hrun, sinceReset_snoc, hcount]
    apply List.countP_eq_zero.mpr
    intro e he
    rcases List.mem_append.mp he with he | he
    · have hnow := (htimes _ (call_mem he)).trans_lt hlt
      simp [hnow]
    · rw [List.mem_singleton] at he
      simp [he, Answered.allows]

/-- An attempt for the key. -/
theorem attempt {t : Time} (h : Window limits key calls) (htimes : ∀ c ∈ calls, c.now ≤ t) :
    Window limits key (calls ++ [.checkAndRecord key t]) := by
  have hstands := h.stands t htimes
  have hiff := hstands.attempt_iff (le_refl t) h.sorted
  have hnext := hstands.attempt (le_refl t)
  have hpast : ∀ x ∈ sinceReset key (Limiter.after limits calls).log, x ≤ t := by
    intro x hx
    obtain ⟨c, hc, rfl⟩ := h.past x hx
    exact htimes c hc
  have hwindow : (sinceReset key (Limiter.after limits calls).log).countP (fun x ↦
        decide (t - limits.windowSeconds key ≤ x) && decide (x ≤ t)) =
      (sinceReset key (Limiter.after limits calls).log).countP
        (t - limits.windowSeconds key ≤ ·) := by
    apply List.countP_congr
    intro x hx
    simp [hpast x hx]
  have hrun : LimiterCall.run limits (Limiter.after limits calls).attempts
      (.checkAndRecord key t) =
        (some (SlidingWindow.attempt (limits.maxAttempts key) (limits.windowSeconds key) t
            (bucket (Limiter.after limits calls).attempts key)).1,
          (Limiter.after limits calls).attempts.set key
            (SlidingWindow.attempt (limits.maxAttempts key) (limits.windowSeconds key) t
              (bucket (Limiter.after limits calls).attempts key)).2) := rfl
  have hbucket (recorded : List Time) :
      bucket ((Limiter.after limits calls).attempts.set key recorded) key = recorded := by
    simp [bucket, Dict.get?_set]
  generalize SlidingWindow.attempt (limits.maxAttempts key) (limits.windowSeconds key) t
    (bucket (Limiter.after limits calls).attempts key) = verdict at hiff hnext hrun
  obtain ⟨allowed, recorded⟩ := verdict
  have hallows : Answered.allows key ⟨.checkAndRecord key t, some allowed⟩ = allowed := by
    simp [Answered.allows, LimiterCall.key]
  have hcount (admitted : List Time) :
      Answered.count key admitted ⟨.checkAndRecord key t, some allowed⟩ =
        if allowed then admitted ++ [t] else admitted := by
    simp [Answered.count, hallows]
  have hserve : Limiter.after limits (calls ++ [.checkAndRecord key t]) =
      ⟨(Limiter.after limits calls).attempts.set key recorded,
        (Limiter.after limits calls).log ++ [⟨.checkAndRecord key t, some allowed⟩]⟩ := by
    rw [after_snoc, Limiter.serve, hrun]
  have hexact : ∀ earlier t' answer later,
      (Limiter.after limits (calls ++ [.checkAndRecord key t])).log =
        earlier ++ ⟨.checkAndRecord key t', answer⟩ :: later →
      (answer = some true ↔ (sinceReset key earlier).countP (fun x ↦
        decide (t' - limits.windowSeconds key ≤ x) && decide (x ≤ t')) <
          limits.maxAttempts key) := by
    rw [hserve]
    apply exact_snoc h.exact
    intro t' answer he
    cases he
    rw [hwindow, ← hiff, Option.some.injEq]
  have hmem (c : LimiterCall) (hc : c ∈ calls) : c ∈ calls ++ [.checkAndRecord key t] :=
    List.mem_append_left _ hc
  cases allowed with
  | false =>
    constructor
    · intro now hnow
      rw [hserve, sinceReset_snoc, hcount, hbucket]
      exact hnext.later (hnow _ (List.mem_append_right _ (List.mem_singleton_self _)))
    · rw [hserve, sinceReset_snoc, hcount]
      exact h.sorted
    · rw [hserve, sinceReset_snoc, hcount]
      intro x hx
      obtain ⟨c, hc, hcx⟩ := h.past x hx
      exact ⟨c, hmem c hc, hcx⟩
    · exact hexact
    · intro a ha
      rw [hserve, sinceReset_snoc, hcount, List.countP_append,
        h.running a fun now hnow ↦ ha now (hmem _ hnow)]
      simp [hallows]
  | true =>
    constructor
    · intro now hnow
      rw [hserve, sinceReset_snoc, hcount, hbucket]
      exact hnext.1.later (hnow _ (List.mem_append_right _ (List.mem_singleton_self _)))
    · rw [hserve, sinceReset_snoc, hcount]
      refine List.pairwise_append.mpr ⟨h.sorted, List.pairwise_singleton _ _, ?_⟩
      intro x hx y hy
      rw [List.mem_singleton.mp hy]
      exact hpast x hx
    · rw [hserve, sinceReset_snoc, hcount]
      intro x hx
      rcases List.mem_append.mp hx with hx | hx
      · obtain ⟨c, hc, hcx⟩ := h.past x hx
        exact ⟨c, hmem c hc, hcx⟩
      · rw [List.mem_singleton.mp hx]
        exact ⟨_, List.mem_append_right _ (List.mem_singleton_self _), rfl⟩
    · exact hexact
    · intro a ha
      rw [hserve, sinceReset_snoc, hcount, List.countP_append,
        h.running a fun now hnow ↦ ha now (hmem _ hnow), if_pos rfl, List.countP_append]
      rw [List.countP_singleton, List.countP_singleton, hallows, Bool.true_and]
      rfl

/-- One more call, no earlier than those before it. -/
theorem snoc (h : Window limits key calls) (htimes : ∀ c ∈ calls, c.now ≤ call.now) :
    Window limits key (calls ++ [call]) := by
  by_cases hkey : call.key = key
  · subst hkey
    cases call with
    | checkAndRecord k t => exact h.attempt htimes
    | reset k t => exact h.reset htimes
  · exact h.other hkey htimes

end Window

section Runs

variable (limits : Limits) {calls : List LimiterCall}

/-- The window holds behind every run. -/
theorem window_of_run (hclock : calls.Pairwise fun c c' ↦ c.now ≤ c'.now) (key : Text) :
    Window limits key calls := by
  induction calls using List.reverseRecOn with
  | nil => exact .nil limits key
  | append_singleton calls call ih =>
    obtain ⟨hcalls, -, htimes⟩ := List.pairwise_append.mp hclock
    exact (ih hcalls).snoc fun c hc ↦ htimes c hc call (List.mem_singleton_self _)

/-- A window without a reset has at most as many allowed attempts as the limit says. -/
theorem allowedIn_le (hclock : calls.Pairwise fun c c' ↦ c.now ≤ c'.now) (key : Text) (a : Time)
    (hreset : NoReset key a (a + limits.windowSeconds key) calls) :
    allowedIn key a (a + limits.windowSeconds key) (Limiter.after limits calls).log ≤
      limits.maxAttempts key := by
  induction calls using List.reverseRecOn with
  | nil => exact Nat.zero_le _
  | append_singleton calls call ih =>
    obtain ⟨hcalls, -, hafter⟩ := List.pairwise_append.mp hclock
    have htimes : ∀ c ∈ calls, c.now ≤ call.now :=
      fun c hc ↦ hafter c hc call (List.mem_singleton_self _)
    have hold := ih hcalls fun now hnow ↦ hreset now (List.mem_append_left _ hnow)
    have hexact := (window_of_run limits hclock key).exact
    have hwindow := window_of_run limits hcalls key
    rw [after_snoc, Limiter.serve] at hexact ⊢
    dsimp only at hexact ⊢
    generalize (call.run limits (Limiter.after limits calls).attempts).1 = answer at hexact ⊢
    rw [allowedIn, List.countP_append, List.countP_singleton]
    split
    · next hin =>
      simp only [Answered.allows, Bool.and_eq_true, beq_iff_eq, decide_eq_true_eq] at hin
      obtain ⟨⟨⟨rfl, rfl⟩, hfrom⟩, hto⟩ := hin
      cases call with
      | reset k t =>
        rcases hreset t (List.mem_append_right _ (List.mem_singleton_self _)) with hlt | hlt
        · exact absurd hfrom (not_le.mpr hlt)
        · exact absurd hto (not_le.mpr hlt)
      | checkAndRecord k t =>
        -- What the window met before is since the last reset, and in the window that ends here.
        have hroom := (hexact _ t (some true) [] rfl).mp rfl
        have hrunning := hwindow.running a fun now hnow ↦ by
          rcases hreset now (List.mem_append_left _ hnow) with hlt | hlt
          · exact hlt
          · exact absurd ((htimes _ hnow).trans hto) (not_le.mpr hlt)
        have hmet : allowedIn k a (a + limits.windowSeconds k) (Limiter.after limits calls).log ≤
            (Limiter.after limits calls).log.countP
              (fun e ↦ e.allows k && decide (a ≤ e.call.now)) := by
          apply List.countP_mono_left
          intro e _ he
          exact (Bool.and_eq_true_iff.mp he).1
        have hinside : (sinceReset k (Limiter.after limits calls).log).countP (a ≤ ·) ≤
            (sinceReset k (Limiter.after limits calls).log).countP (fun x ↦
              decide (t - limits.windowSeconds k ≤ x) && decide (x ≤ t)) := by
          apply List.countP_mono_left
          intro x hx hax
          obtain ⟨c, hc, rfl⟩ := hwindow.past x hx
          have hle : t - limits.windowSeconds k ≤ c.now :=
            (sub_le_iff_le_add.mpr hto).trans (of_decide_eq_true hax)
          have hct : c.now ≤ t := htimes c hc
          simp [hle, hct]
        have hlt : allowedIn k a (a + limits.windowSeconds k) (Limiter.after limits calls).log <
            limits.maxAttempts k := calc
          _ ≤ _ := hmet
          _ = _ := hrunning
          _ ≤ _ := hinside
          _ < _ := hroom
        exact Nat.succ_le_of_lt hlt
    · exact hold

/-- In every run of calls in the order of the clock: an attempt is allowed exactly when fewer than
`m` attempts for its key since the key's last reset were allowed in the window that ends with it,
so a window without a reset has at most `m` of them; calls for other keys change no answer. -/
theorem slidingWindow_exact (limits : Limits) (calls : List LimiterCall)
    (hclock : calls.Pairwise fun c c' ↦ c.now ≤ c'.now) (key : Text) :
    (∀ earlier t answer later,
      (Limiter.after limits calls).log = earlier ++ ⟨.checkAndRecord key t, answer⟩ :: later →
      (answer = some true ↔ (sinceReset key earlier).countP (fun x ↦
        decide (t - limits.windowSeconds key ≤ x) && decide (x ≤ t)) <
          limits.maxAttempts key)) ∧
      (∀ a, NoReset key a (a + limits.windowSeconds key) calls →
        allowedIn key a (a + limits.windowSeconds key) (Limiter.after limits calls).log ≤
          limits.maxAttempts key) ∧
      (Limiter.after limits calls).log.filter (·.call.key == key) =
        (Limiter.after limits (calls.filter (·.key == key))).log :=
  ⟨(window_of_run limits hclock key).exact, allowedIn_le limits hclock key, (log_filter calls).1⟩

-- Two attempts in ten seconds for one key, beside another one and with a reset.
private def mixed : List LimiterCall :=
  [.checkAndRecord "a".toList 0, .checkAndRecord "b".toList 1, .checkAndRecord "a".toList 5,
    .checkAndRecord "a".toList 10, .reset "a".toList 11, .checkAndRecord "a".toList 11]

private def twice : Limits := ⟨fun _ ↦ 2, fun _ ↦ 10⟩

/-- The third attempt is refused at the closed end of the window; the one behind the reset is
allowed. -/
theorem slidingWindow_exact_mixed :
    (Limiter.after twice mixed).log.map (·.answer) =
      [some true, some true, some true, some false, none, some true] ∧
    (∀ earlier t answer later, (Limiter.after twice mixed).log =
        earlier ++ ⟨.checkAndRecord "a".toList t, answer⟩ :: later →
      (answer = some true ↔ (sinceReset "a".toList earlier).countP (fun x ↦
        decide (t - 10 ≤ x) && decide (x ≤ t)) < 2)) := by
  refine ⟨by decide +kernel, ?_⟩
  exact (slidingWindow_exact twice mixed (by decide +kernel) "a".toList).1

end Runs

end SalesData.Auth.RateLimiter

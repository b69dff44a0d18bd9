import SalesData.Pool.Guarantees
import SalesData.Storage.ServiceDatabase

/-!
# Connections that are returned clean

`transaction()` commits or rolls back before its connection goes back to the pool
(`service_db.py:207` and `209–218`); `execute`, `fetch_one` and `fetch_all` do not roll back.
A connection in a transaction is one that a call in the midst of its work holds, as long as no call
goes to its release in a transaction.
-/

namespace SalesData.Storage

open Base Sql
open Pool (Addr)
open Pool.Sync (Choice PC)

/-- No connection in the pool's `_available` has an open transaction. -/
def CleanConnections (s : State) : Prop := ∀ c ∈ s.pool.pool.store.idle, c ∉ s.inTransaction

/-- A use of the driver by a call of `op` on the connection `c` that does not take it to its release
in a transaction: outside `transaction()` a statement opens none unless the commit is next, and the
last commit or rollback does not raise while a transaction is open. -/
def Drive.Closes (op : Operation) (c : Addr) (inTransaction : List Addr) : Drive → Prop
  | .statement sql result => Sqlite.opens sql result = true →
      match op with
      | .execute own => result = .done ∧ startsSelect own = false
      | .fetchOne _ | .fetchAll _ => False
      | .transaction => True
  | .commit true => op ≠ .transaction → c ∉ inTransaction
  | .rollback true => c ∉ inTransaction
  | .commit false | .rollback false | .endBody _ => True

instance (op : Operation) (c : Addr) (l : List Addr) : ∀ d, Decidable (Drive.Closes op c l d)
  | .statement sql result => match op with
    | .execute own => inferInstanceAs
        (Decidable (Sqlite.opens sql result = true → result = .done ∧ startsSelect own = false))
    | .fetchOne _ | .fetchAll _ =>
      inferInstanceAs (Decidable (Sqlite.opens sql result = true → False))
    | .transaction => isTrue fun _ ↦ trivial
  | .commit true => inferInstanceAs (Decidable (op ≠ .transaction → c ∉ l))
  | .rollback true => inferInstanceAs (Decidable (c ∉ l))
  | .commit false | .rollback false | .endBody _ => isTrue trivial

/-- A step that takes no call to its release in a transaction. -/
def Closes (s : State) : Act → Prop
  | .drive t d => ∀ call ∈ s.calls[t]?, ∀ c ∈ s.held t, d.Closes call.op c s.inTransaction
  | .call _ | .run _ _ | .metrics => True

instance (s : State) : ∀ a, Decidable (Closes s a)
  | .drive t _ => @Option.decidableForallMem _ _
      (fun _ ↦ @Option.decidableForallMem _ _ (fun _ ↦ inferInstance) (s.held t)) s.calls[t]?
  | .call _ | .run _ _ | .metrics => isTrue trivial

/-- A call that is between its statements and the commit or rollback behind them. -/
def Call.midway (call : Call) : Bool :=
  match call.stage with
  | .committing | .rollingBack => true
  | .working => call.op == .transaction
  | _ => false

/-- Every open transaction is that of a call in the midst of its work. -/
def TransactionsOwned (s : State) : Prop :=
  ∀ c ∈ s.inTransaction, ∃ t call, s.calls[t]? = some call ∧ call.midway = true ∧
    s.held t = some c

section Steps

variable {s s' : State}

/-- The thread in whose hands a connection is holds it. -/
theorem held_eq_some {t : Nat} {c : Addr} :
    s.held t = some c ↔ s.pool.threads[t]? = some (.holding c) := by
  unfold State.held
  split
  · next d hd => rw [hd, Option.some_inj, Option.some_inj, PC.holding.injEq]
  · next hne =>
    constructor
    · intro h
      cases h
    · exact fun h ↦ absurd h (hne c)

/-- A step of one call keeps the transactions of the others. -/
theorem TransactionsOwned.set {t : Nat} {call call' : Call} (h : TransactionsOwned s)
    (ht : s.calls[t]? = some call) (hcalls : s'.calls = s.calls.set t call')
    (hheld : ∀ u, u ≠ t → s'.held u = s.held u)
    (hmem : ∀ c ∈ s'.inTransaction, call'.midway = true ∧ s'.held t = some c ∨
      c ∈ s.inTransaction ∧ (call.midway = false ∨ s.held t ≠ some c)) :
    TransactionsOwned s' := by
  intro c hc
  rcases hmem c hc with ⟨hmid, htc⟩ | ⟨hold, hother⟩
  · refine ⟨t, call', ?_, hmid, htc⟩
    rw [hcalls]
    exact getElem?_set_of_some ht call'
  · obtain ⟨u, owner, hu, hmid, huc⟩ := h c hold
    have hne : u ≠ t := by
      rintro rfl
      rw [Option.some.inj (ht.symm.trans hu)] at hother
      rcases hother with hother | hother
      · rw [hmid] at hother
        cases hother
      · exact hother huc
    refine ⟨u, owner, ?_, hmid, (hheld u hne).trans huc⟩
    rw [hcalls, List.getElem?_set_ne (Ne.symm hne)]
    exact hu

private theorem held_of_run {t : Nat} {ch : Choice} {pool : Pool.Sync.State}
    (h : Pool.Sync.step s.pool (.run t ch) = some pool) {s' : State} (hpool : s'.pool = pool)
    {u : Nat} (hne : u ≠ t) : s'.held u = s.held u := by
  obtain ⟨pc, p', pc', -, -, -, rfl⟩ := Pool.Sync.step_run h
  rw [State.held, State.held, hpool]
  dsimp only
  rw [List.getElem?_set_ne (Ne.symm hne)]

private theorem owned_turn {t : Nat} {ch : Choice} {call : Call} (h : TransactionsOwned s)
    (ht : s.calls[t]? = some call) (hs : turn s t ch call = some s') : TransactionsOwned s' := by
  unfold turn at hs
  split at hs
  · next hstage =>
    obtain ⟨pool, hpool, rfl⟩ := Option.map_eq_some_iff.mp hs
    apply h.set ht rfl
    · exact fun u hne ↦ held_of_run hpool rfl hne
    · exact fun c hc ↦ .inr ⟨hc, .inl (by rw [Call.midway, hstage])⟩
  · next hstage =>
    obtain ⟨pool, hpool, rfl⟩ := Option.map_eq_some_iff.mp hs
    apply h.set ht rfl
    · exact fun u hne ↦ held_of_run hpool rfl hne
    · exact fun c hc ↦ .inr ⟨hc, .inl (by rw [Call.midway, hstage])⟩
  · cases hs

private theorem mem_of_drive {call : Call} {c : Addr} {l l' : List Addr} {d : Drive} {stage : Stage}
    (h : call.drive c l d = some (stage, l')) : ∀ a ∈ l', a ≠ c → a ∈ l := by
  intro a ha hne
  unfold Call.drive at h
  split at h
  · split at h
    · obtain ⟨-, rfl⟩ := Prod.mk.inj (Option.some.inj h)
      split at ha
      · exact (List.mem_cons.mp ha).resolve_left hne
      · exact ha
    · cases h
  · split at h
    · obtain ⟨-, rfl⟩ := Prod.mk.inj (Option.some.inj h)
      exact ha
    · cases h
  · split at h
    · split at h
      · obtain ⟨-, rfl⟩ := Prod.mk.inj (Option.some.inj h)
        exact ha
      · obtain ⟨-, rfl⟩ := Prod.mk.inj (Option.some.inj h)
        exact List.mem_of_mem_filter ha
    · cases h
  · split at h
    · obtain ⟨-, rfl⟩ := Prod.mk.inj (Option.some.inj h)
      split at ha
      · exact ha
      · exact List.mem_of_mem_filter ha
    · cases h

private theorem not_mem_filter_ne {c : Addr} {l : List Addr} : c ∉ l.filter (· != c) := by
  simp

private theorem statement_midway {call : Call} {c : Addr} {l : List Addr} {sql : Text}
    {result : Sqlite.Result} (hworking : call.stage = .working)
    (hok : (Drive.statement sql result).Closes call.op c l) :
    ({ call with stage := afterStatement call.op result } : Call).midway = true ∨
      Sqlite.opens sql result = false ∧ call.midway = false := by
  obtain ⟨op, stage⟩ := call
  obtain rfl : stage = .working := hworking
  cases op with
  | transaction => exact .inl rfl
  | execute own =>
    cases hopens : Sqlite.opens sql result with
    | false => exact .inr ⟨rfl, rfl⟩
    | true =>
      obtain ⟨hdone, hselect⟩ := hok hopens
      left
      rw [afterStatement, if_neg (by simp [hdone, hselect])]
      rfl
  | fetchOne own | fetchAll own =>
    cases hopens : Sqlite.opens sql result with
    | false => exact .inr ⟨rfl, rfl⟩
    | true => exact (hok hopens).elim

private theorem midway_of_drive {call : Call} {c : Addr} {l l' : List Addr} {d : Drive}
    {stage : Stage} (h : call.drive c l d = some (stage, l')) (hok : d.Closes call.op c l)
    (hc : c ∈ l') :
    ({ call with stage } : Call).midway = true ∨ c ∈ l ∧ call.midway = false := by
  unfold Call.drive at h
  split at h
  · next sql result =>
    split at h
    · next hallowed =>
      obtain ⟨rfl, rfl⟩ := Prod.mk.inj (Option.some.inj h)
      rcases statement_midway hallowed.1 hok with hmid | ⟨hopens, hmid⟩
      · exact .inl hmid
      · rw [hopens] at hc
        exact .inr ⟨hc, hmid⟩
    · cases h
  · next raises =>
    split at h
    · obtain ⟨rfl, -⟩ := Prod.mk.inj (Option.some.inj h)
      left
      cases raises with
      | true => rfl
      | false => rfl
    · cases h
  · next raises =>
    split at h
    · cases raises with
      | true =>
        obtain ⟨rfl, rfl⟩ := Prod.mk.inj (Option.some.inj h)
        by_cases hop : call.op = .transaction
        · rw [if_pos hop]
          exact .inl rfl
        · exact absurd hc (hok hop)
      | false =>
        obtain ⟨-, rfl⟩ := Prod.mk.inj (Option.some.inj h)
        exact absurd hc not_mem_filter_ne
    · cases h
  · next raises =>
    split at h
    · cases raises with
      | true =>
        obtain ⟨-, rfl⟩ := Prod.mk.inj (Option.some.inj h)
        exact absurd hc hok
      | false =>
        obtain ⟨-, rfl⟩ := Prod.mk.inj (Option.some.inj h)
        exact absurd hc not_mem_filter_ne
    · cases h

private theorem owned_drive {t : Nat} {c : Addr} {call : Call} {d : Drive} {stage : Stage}
    {l : List Addr} (h : TransactionsOwned s) (ht : s.calls[t]? = some call)
    (hheld : s.held t = some c) (hdrive : call.drive c s.inTransaction d = some (stage, l))
    (hok : d.Closes call.op c s.inTransaction) :
    TransactionsOwned { s.goto t call stage with inTransaction := l } := by
  apply h.set ht rfl
  · exact fun u _ ↦ rfl
  · intro a ha
    by_cases hac : a = c
    · subst hac
      rcases midway_of_drive hdrive hok ha with hmid | ⟨hold, hmid⟩
      · exact .inl ⟨hmid, hheld⟩
      · exact .inr ⟨hold, .inl hmid⟩
    · right
      refine ⟨mem_of_drive hdrive a ha hac, .inr ?_⟩
      rw [hheld]
      exact fun h ↦ hac (Option.some.inj h).symm

private theorem drive_of_step {t : Nat} {d : Drive} (h : step s (.drive t d) = some s') :
    ∃ call c stage l, s.calls[t]? = some call ∧ s.held t = some c ∧
      call.drive c s.inTransaction d = some (stage, l) ∧
      s' = { s.goto t call stage with inTransaction := l } := by
  obtain ⟨call, ht, hcall⟩ := Option.bind_eq_some_iff.mp h
  obtain ⟨c, hheld, hc⟩ := Option.bind_eq_some_iff.mp hcall
  obtain ⟨⟨stage, l⟩, hdrive, rfl⟩ := Option.map_eq_some_iff.mp hc
  exact ⟨call, c, stage, l, ht, hheld, hdrive, rfl⟩

/-- A step that closes keeps the open transactions owned. -/
theorem owned_of_step {a : Act} (h : TransactionsOwned s) (hok : Closes s a)
    (hs : step s a = some s') : TransactionsOwned s' := by
  cases a with
  | call op =>
    rw [step] at hs
    obtain ⟨pool, hpool, rfl⟩ := Option.map_eq_some_iff.mp hs
    obtain ⟨-, rfl⟩ := Pool.Sync.step_call hpool
    intro c hc
    obtain ⟨t, call, ht, hmid, hheld⟩ := h c hc
    refine ⟨t, call, ?_, hmid, ?_⟩
    · rw [List.getElem?_append_left (List.getElem?_eq_some_iff.mp ht).1]
      exact ht
    · rw [held_eq_some] at hheld ⊢
      dsimp only
      rw [List.getElem?_append_left (List.getElem?_eq_some_iff.mp hheld).1]
      exact hheld
  | run t ch =>
    obtain ⟨call, ht, hturn⟩ := Option.bind_eq_some_iff.mp hs
    exact owned_turn h ht hturn
  | drive t d =>
    obtain ⟨call, c, stage, l, ht, hheld, hdrive, rfl⟩ := drive_of_step hs
    exact owned_drive h ht hheld hdrive (hok call ht c hheld)
  | metrics =>
    rw [step] at hs
    obtain ⟨pool, hpool, rfl⟩ := Option.map_eq_some_iff.mp hs
    rw [← Option.some.inj hpool]
    exact h

private theorem pool_of_step {a : Act} (hs : step s a = some s') :
    s'.pool = s.pool ∨ ∃ b, Pool.Sync.OwnReleases s.pool b ∧
      Pool.Sync.step s.pool b = some s'.pool := by
  cases a with
  | call op =>
    rw [step] at hs
    obtain ⟨pool, hstep, rfl⟩ := Option.map_eq_some_iff.mp hs
    exact .inr ⟨.call .acquire, trivial, hstep⟩
  | run t ch =>
    obtain ⟨call, -, hturn⟩ := Option.bind_eq_some_iff.mp hs
    unfold turn at hturn
    split at hturn
    · obtain ⟨pool, hstep, rfl⟩ := Option.map_eq_some_iff.mp hturn
      exact .inr ⟨.run t ch, trivial, hstep⟩
    · obtain ⟨pool, hstep, rfl⟩ := Option.map_eq_some_iff.mp hturn
      exact .inr ⟨.run t { ch with broken := false }, trivial, hstep⟩
    · cases hturn
  | drive t d =>
    obtain ⟨call, c, stage, l, -, -, -, rfl⟩ := drive_of_step hs
    exact .inl rfl
  | metrics =>
    rw [step] at hs
    obtain ⟨pool, hstep, rfl⟩ := Option.map_eq_some_iff.mp hs
    exact .inr ⟨.metrics, trivial, hstep⟩

/-- The pool of the service database is a pool whose callers release their own connections. -/
theorem pool_of_reach {ok : State → Act → Prop} {minSize maxSize : Nat} {timeout : Pool.Time}
    (h : (system minSize maxSize timeout).Reach ok s) :
    (Pool.Sync.system minSize maxSize timeout).Reach Pool.Sync.OwnReleases s.pool := by
  apply h.invariant (P := fun s ↦
    (Pool.Sync.system minSize maxSize timeout).Reach Pool.Sync.OwnReleases s.pool)
  · exact .init
  · intro s a s' hpool _ hs
    rcases pool_of_step hs with hsame | ⟨b, hown, hstep⟩
    · rwa [hsame]
    · exact System.Reach.step hpool hown hstep

/-- A connection in somebody's hands is not idle. -/
theorem not_idle_of_held {ok : State → Act → Prop} {minSize maxSize : Nat} {timeout : Pool.Time}
    (h : (system minSize maxSize timeout).Reach ok s) {t : Nat} {c : Addr}
    (hheld : s.held t = some c) : c ∉ s.pool.pool.store.idle := by
  have hinv := Pool.Ledger.OwnershipInv.of_reach (Pool.Sync.ledger_ownReleases (pool_of_reach h))
  apply hinv.not_idle_of_holding (t := t)
  rw [← Pool.Sync.State.inHand_iff]
  exact ⟨_, held_eq_some.mp hheld, rfl⟩

private theorem releasing_of_drive {call : Call} {c : Addr} {l l' : List Addr} {d : Drive}
    {stage : Stage} (h : call.drive c l d = some (stage, l')) (hnot : ¬d.Closes call.op c l) :
    stage = .releasing ∧ c ∈ l' := by
  cases d with
  | statement sql result =>
    rw [Call.drive] at h
    split at h
    · next hallowed =>
      obtain ⟨rfl, rfl⟩ := Prod.mk.inj (Option.some.inj h)
      unfold Drive.Closes at hnot
      obtain ⟨hopens, hnot⟩ := Classical.not_imp.mp hnot
      rw [if_pos hopens]
      refine ⟨?_, List.mem_cons_self ..⟩
      cases hop : call.op with
      | transaction =>
        rw [hop] at hnot
        exact absurd trivial hnot
      | execute own =>
        rw [hop] at hnot
        rw [afterStatement, if_pos]
        by_cases hdone : result = .done
        · right
          simpa [hdone] using hnot
        · exact .inl hdone
      | fetchOne own | fetchAll own => rfl
    · cases h
  | endBody raises => exact absurd trivial hnot
  | commit raises =>
    cases raises with
    | true =>
      rw [Drive.Closes, Classical.not_imp, not_not] at hnot
      rw [Call.drive] at h
      split at h
      · obtain ⟨rfl, rfl⟩ := Prod.mk.inj (Option.some.inj h)
        exact ⟨if_neg hnot.1, hnot.2⟩
      · cases h
    | false => exact absurd trivial hnot
  | rollback raises =>
    cases raises with
    | true =>
      rw [Drive.Closes, not_not] at hnot
      rw [Call.drive] at h
      split at h
      · obtain ⟨rfl, rfl⟩ := Prod.mk.inj (Option.some.inj h)
        exact ⟨rfl, hnot⟩
      · cases h
    | false => exact absurd trivial hnot

end Steps

/-- Some call is about to release a connection that is in a transaction. -/
def ReleasesOpen (s : State) : Prop :=
  ∃ t c call, s.calls[t]? = some call ∧ call.stage = .releasing ∧ s.held t = some c ∧
    c ∈ s.inTransaction

/-- The connections in the pool are clean in every run whose uses of the driver all close, and a use
that does not close takes its call to its release in a transaction. -/
theorem connections_clean (minSize maxSize : Nat) (timeout : Pool.Time) :
    (∀ s, (system minSize maxSize timeout).Reach Closes s → CleanConnections s) ∧
    ∀ s, (system minSize maxSize timeout).Reachable s → ∀ a s', step s a = some s' →
      ¬Closes s a → ReleasesOpen s' := by
  constructor
  · intro s h c hidle hopen
    have howned : TransactionsOwned s := by
      apply h.invariant (P := TransactionsOwned)
      · exact fun c hc ↦ by cases hc
      · exact fun s a s' howned hok hs ↦ owned_of_step howned hok hs
    obtain ⟨t, call, -, -, hheld⟩ := howned c hopen
    exact not_idle_of_held h hheld hidle
  · intro s _ a s' hs hnot
    cases a with
    | drive t d =>
      obtain ⟨call, c, stage, l, ht, hheld, hdrive, rfl⟩ := drive_of_step hs
      have hcall : ¬d.Closes call.op c s.inTransaction := by
        intro hok
        apply hnot
        intro call' hcall' c' hc'
        cases ht.symm.trans hcall'
        cases hheld.symm.trans hc'
        exact hok
      obtain ⟨rfl, hopen⟩ := releasing_of_drive hdrive hcall
      exact ⟨t, c, _, getElem?_set_of_some ht _, rfl, hheld, hopen⟩
    | call | run | metrics => exact absurd trivial hnot

section Example

private def insertUser : Text := "INSERT INTO users VALUES ('u1')".toList

-- Thread 0 acquires the connection at address 6, which is created for it.
private def acquireFresh : List Act :=
  [.run 0 {}, .run 0 { addr := 5 }, .run 0 { addr := 6 }, .run 0 {}]

-- An `INSERT` that violates a constraint, by `execute`.
private def failedInsert : List Act :=
  .call (.execute insertUser) :: acquireFresh ++
    [.drive 0 (.statement insertUser .failed), .run 0 {}]

-- An `INSERT` that violates a constraint, by `transaction()`.
private def rolledBackInsert : List Act :=
  .call .transaction :: acquireFresh ++
    [.drive 0 (.statement insertUser .failed), .drive 0 (.endBody true),
      .drive 0 (.rollback false), .run 0 {}]

/-- A failed `INSERT` puts a connection back into the pool that is in a transaction. -/
theorem connection_returned_open : ∃ s, (system 1 2 30).Reachable s ∧ ¬CleanConnections s := by
  obtain ⟨s, hs, hopen⟩ := System.exists_of_exec (system 1 2 30) (fun _ _ ↦ True) failedInsert
    (fun s ↦ s.pool.pool.store.idle == [6] && s.inTransaction == [6]) (by decide +kernel)
  rw [Bool.and_eq_true, beq_iff_eq, beq_iff_eq] at hopen
  refine ⟨s, hs, fun hclean ↦ hclean 6 ?_ ?_⟩
  · simp [hopen.1]
  · simp [hopen.2]

/-- The transaction of a failed `INSERT` is rolled back before the connection is returned. -/
theorem connections_clean_rolledBack : ∃ s, (system 1 2 30).Reach Closes s ∧
    s.pool.pool.store.idle = [6] ∧ CleanConnections s := by
  obtain ⟨s, hs, hidle⟩ := System.exists_of_exec (system 1 2 30) Closes rolledBackInsert
    (fun s ↦ s.pool.pool.store.idle == [6]) (by decide +kernel)
  exact ⟨s, hs, by simpa using hidle, (connections_clean 1 2 30).1 s hs⟩

end Example
end SalesData.Storage

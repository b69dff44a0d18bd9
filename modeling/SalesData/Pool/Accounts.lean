import SalesData.Pool.Ledger
import Mathlib.Data.List.Count

/-!
# Accounting for open connections

A connection is open from the return of `create_connection` to the call of its `close`. The
list of open connections is kept beside the ledger, with multiplicities, because an object
that the pool has dropped leaves its address to the next one. As long as nobody drops a
connection that he has in charge, each open connection is idle, in use, created and not yet
published, or about to be closed.
-/

namespace SalesData.Pool

open Base

/-- A pool with the connections that are open, and whether `close_all` has been called. -/
structure Audit (σ : Type) where
  state : σ
  opened : List Addr
  asked : Bool

namespace Store

/-- The connections on which `close` was called on the way from one store to another. -/
def closings (s s' : Store) : List Addr := s'.closed.take (s'.closed.length - s.closed.length)

/-- Every record is filed under the address of its own connection. -/
def Keyed (s : Store) : Prop :=
  ∀ a pc, s.inUse.get? a = some (some pc) → pc.connection = a

/-- The pool has no connection any more. -/
def Emptied (s : Store) : Prop := s.available = [] ∧ s.used = []

/-- Creating an object changes no record. -/
@[simp] theorem used_allocate (s : Store) (c : Addr) : (s.allocate c).used = s.used := rfl

/-- Closing changes no record. -/
@[simp] theorem used_close (s : Store) (c : Addr) : (s.close c).used = s.used := rfl

/-- A value of `_in_use` counts when it is a record. -/
def recordCount : Option (Option PoolConnection) → Nat
  | some (some _) => 1
  | _ => 0

/-- Nothing is closed while the list of closed connections does not grow. -/
theorem closings_eq_nil {s s' : Store} (h : s'.closed.length ≤ s.closed.length) :
    s.closings s' = [] := by
  rw [closings, Nat.sub_eq_zero_of_le h, List.take_zero]

/-- Closing one connection closes it alone. -/
theorem closings_cons {s s' : Store} {c : Addr} (h : s'.closed = c :: s.closed) :
    s.closings s' = [c] := by
  rw [closings, h, List.length_cons, Nat.add_sub_cancel_left, List.take_succ_cons, List.take_zero]

/-- A new object at an address makes the list of closed connections no longer. -/
theorem length_closed_allocate (s : Store) (c : Addr) :
    (s.allocate c).closed.length ≤ s.closed.length := List.length_filter_le _ _

private theorem count_records {es : List (Addr × Option PoolConnection)} (a : Addr)
    (hn : (es.map Prod.fst).Nodup) (hk : ∀ k pc, (k, some pc) ∈ es → pc.connection = k) :
    ((es.map Prod.snd).filterMap fun v ↦ v.map (·.connection)).count a =
      recordCount (es.lookup a) := by
  induction es with
  | nil => rfl
  | cons e es ih =>
    obtain ⟨k, v⟩ := e
    rw [List.map_cons, List.nodup_cons] at hn
    have hrest := ih hn.2 fun b pc hb ↦ hk b pc (List.mem_cons_of_mem _ hb)
    by_cases hak : a = k
    · subst hak
      have hnone : es.lookup a = none := by
        apply List.lookup_eq_none_iff.mpr
        intro e he
        have hne : a ≠ e.1 := by
          rintro rfl
          exact hn.1 (List.mem_map.mpr ⟨e, he, rfl⟩)
        simpa using hne
      rw [hnone] at hrest
      cases v with
      | none => simpa [recordCount] using hrest
      | some pc =>
        have hpc := hk a pc (List.mem_cons_self ..)
        simpa [recordCount, hpc] using hrest
    · have hne : (a == k) = false := by simpa using hak
      cases v with
      | none => simpa [List.lookup_cons, hne] using hrest
      | some pc =>
        have hpc := hk k pc (List.mem_cons_self ..)
        simpa [List.lookup_cons, hne, hpc, List.count_cons, Ne.symm hak] using hrest

/-- Where records are filed under their connections, each connection in use counts once. -/
theorem Keyed.count_used {s : Store} (h : s.Keyed) (a : Addr) :
    s.used.count a = recordCount (s.inUse.get? a) :=
  count_records a s.inUse.nodup fun k pc hmem ↦ h k pc (Dict.mem_entries_iff.mp hmem)

/-- Taking an entry away takes its connection out of use. -/
theorem Keyed.drop {s s' : Store} {k : Addr} (h : s.Keyed) (hin : s'.inUse = s.inUse.pop k) :
    s'.Keyed ∧ ∀ a, s'.used.count a = if a = k then 0 else s.used.count a := by
  have hkeyed : s'.Keyed := by
    intro a pc hpc
    rw [hin] at hpc
    exact h a pc (Dict.get?_of_pop hpc).2
  refine ⟨hkeyed, fun a ↦ ?_⟩
  rw [hkeyed.count_used, h.count_used, hin, Dict.get?_pop]
  split <;> rfl

/-- A placeholder takes the connection of its key out of use. -/
theorem Keyed.hold {s s' : Store} {k : Addr} (h : s.Keyed) (hin : s'.inUse = s.inUse.set k none) :
    s'.Keyed ∧ ∀ a, s'.used.count a = if a = k then 0 else s.used.count a := by
  have hkeyed : s'.Keyed := by
    intro a pc hpc
    rw [hin, Dict.get?_set] at hpc
    split at hpc
    · cases hpc
    · exact h a pc hpc
  refine ⟨hkeyed, fun a ↦ ?_⟩
  rw [hkeyed.count_used, h.count_used, hin, Dict.get?_set]
  split <;> rfl

/-- A record that is filed under its connection is one use of it. -/
theorem Keyed.file {s s' : Store} {c : Addr} {pc : PoolConnection} (h : s.Keyed)
    (hin : s'.inUse = s.inUse.set c (some pc)) (hc : pc.connection = c) :
    s'.Keyed ∧ ∀ a, s'.used.count a = if a = c then 1 else s.used.count a := by
  have hkeyed : s'.Keyed := by
    intro a pc' hpc
    rw [hin, Dict.get?_set] at hpc
    split at hpc
    · next hac =>
      obtain rfl := Option.some.inj (Option.some.inj hpc)
      exact hc.trans hac.symm
    · exact h a pc' hpc
  refine ⟨hkeyed, fun a ↦ ?_⟩
  rw [hkeyed.count_used, h.count_used, hin, Dict.get?_set]
  split <;> rfl

/-- Nothing is in use exactly when `_in_use` has no record. -/
theorem used_eq_nil_iff {s : Store} :
    s.used = [] ↔ ∀ a pc, s.inUse.get? a ≠ some (some pc) := by
  constructor
  · intro hnil a pc hpc
    have hmem := mem_used hpc
    rw [hnil] at hmem
    cases hmem
  · intro hnone
    apply List.eq_nil_iff_forall_not_mem.mpr
    intro c hc
    obtain ⟨a, pc, hpc, -⟩ := exists_of_mem_used hc
    exact hnone a pc hpc

/-- A release moves a recorded connection to the idle ones, or closes it. -/
theorem count_release (s : Store) (c : Addr) (broken : Bool) (a : Addr) :
    (s.release c broken).1.idle.count a + (s.closings (s.release c broken).1).count a =
      s.idle.count a + if a = c then recordCount (s.inUse.get? c) else 0 := by
  rcases release_cases s c broken with ⟨pc, hpc, hrel⟩ | ⟨hnone, hrel⟩
  · have hone : recordCount (s.inUse.get? c) = 1 := by rw [hpc]; rfl
    rw [hone]
    cases broken with
    | true =>
      have hclosed : s.closings (s.release c true).1 = [c] := closings_cons (by rw [hrel]; rfl)
      rw [hclosed, idle_release_broken, List.count_singleton]
      simp only [beq_iff_eq, eq_comm (a := c)]
    | false =>
      have hclosed : s.closings (s.release c false).1 = [] :=
        closings_eq_nil (by rw [hrel]; exact Nat.le_refl _)
      have hidle : (s.release c false).1.idle = s.idle ++ [c] := by rw [hrel]; simp [idle]
      rw [hclosed, hidle, List.count_append, List.count_singleton]
      simp only [beq_iff_eq, eq_comm (a := c), List.count_nil, Nat.add_zero]
  · have hzero : recordCount (s.inUse.get? c) = 0 := by
      unfold recordCount
      split
      · next pc hpc => exact absurd hpc (hnone pc)
      · rfl
    have hclosed : s.closings (s.release c broken).1 = [] :=
      closings_eq_nil (by rw [hrel])
    have hidle : (s.release c broken).1.idle = s.idle := by rw [hrel]; rfl
    rw [hzero, hclosed, hidle, ite_self]
    rfl

end Store

/-- Connections that the task has in charge: it is going to publish them or to close them. -/
def Role.charges : Role → List Addr
  | made _ c => [c]
  | closer cs => cs
  | _ => []

/-- The connection that a task created between two of its roles. -/
def Role.created : Role → Role → List Addr
  | reserving _, made _ c => [c]
  | _, _ => []

/-- Only a publication fills an emptied pool. -/
theorem Move.emptied {live : List Addr} {s s' : Store} {r r' : Role} {κ : Kind}
    (hm : Move live s r κ s' r') (hκ : κ ≠ .publish) (h : s.Emptied) : s'.Emptied := by
  have hnone := Store.used_eq_nil_iff.mp h.2
  cases hm with
  | @hit now k c _ htake =>
    have hmem : c ∈ s.idle := (Store.take_hit htake).1.mem_iff.mpr (List.mem_cons_self ..)
    rw [Store.idle, h.1] at hmem
    cases hmem
  | @reserve now k _ htake hk =>
    obtain ⟨-, -, rfl⟩ := Store.take_reserved htake
    refine ⟨h.1, Store.used_eq_nil_iff.mpr fun a pc hpc ↦ ?_⟩
    rw [Store.inUse_reserve, Dict.get?_set] at hpc
    split at hpc
    · cases hpc
    · exact hnone a pc hpc
  | publish => exact absurd rfl hκ
  | @undo k =>
    refine ⟨h.1, Store.used_eq_nil_iff.mpr fun a pc hpc ↦ ?_⟩
    rw [Store.inUse_undo] at hpc
    exact hnone a pc (Dict.get?_of_pop hpc).2
  | @release c broken | @releaseStray c broken =>
    rcases Store.release_cases s c broken with ⟨pc, hpc, -⟩ | ⟨-, hrel⟩
    · exact absurd hpc (hnone c pc)
    · rw [hrel]
      refine ⟨h.1, Store.used_eq_nil_iff.mpr fun a pc hpc ↦ ?_⟩
      exact hnone a pc (Dict.get?_of_pop hpc).2
  | drain => exact ⟨rfl, rfl⟩
  | _ => exact h

namespace Ledger

/-- How often a connection is idle, in use, or in a task's charge. -/
def chargeCount (l : Ledger) (a : Addr) : Nat :=
  tally (fun r ↦ r.charges.count a) l.roles + l.store.idle.count a + l.store.used.count a

/-- How many tasks hold a slot under a placeholder. -/
def placeCount (l : Ledger) (a : Addr) : Nat :=
  tally (fun r ↦ r.placeholders.count a) l.roles

/-- The account of open connections: each of them is idle, in use or in charge, and no address
is two of these at once, or a placeholder's as well. -/
structure AccountInv (l : Ledger) (opened : List Addr) : Prop where
  keyed : l.store.Keyed
  once : ∀ a, l.placeCount a + l.chargeCount a ≤ 1
  covered : ∀ a, opened.count a ≤ l.chargeCount a

/-- An empty pool has opened nothing. -/
theorem accountInv_new (minConn maxConn : Nat) : AccountInv (new minConn maxConn) [] where
  keyed := by simp [Store.Keyed, new, Store.new]
  once := fun _ ↦ Nat.zero_le _
  covered := fun _ ↦ Nat.zero_le _

/-- A dead address is in nobody's charge and no placeholder's. -/
theorem account_of_dead {l : Ledger} {a : Addr} (h : a ∉ l.live) :
    l.placeCount a = 0 ∧ l.chargeCount a = 0 := by
  have hl : l.live.count a = 0 := List.count_eq_zero.mpr h
  rw [live, List.count_append, List.count_append, count_flatMap] at hl
  have hsum : tally (fun r ↦ r.placeholders.count a) l.roles +
      tally (fun r ↦ r.charges.count a) l.roles ≤ tally (fun r ↦ r.refs.count a) l.roles := by
    clear hl
    induction l.roles with
    | nil => exact Nat.le_refl _
    | cons r rs ih =>
      have hr : r.placeholders.count a + r.charges.count a ≤ r.refs.count a := by
        cases r <;> simp [Role.charges, Role.refs, Role.placeholders, Role.conns, List.count_cons]
        omega
      simp only [tally_cons]
      omega
  rw [placeCount, chargeCount]
  omega

/-- How one task's step changes charges and placeholders at every address. -/
theorem account_set {l : Ledger} {t : Nat} {r : Role} (ht : l.roles[t]? = some r) (s' : Store)
    (r' : Role) (a : Addr) :
    (⟨s', l.roles.set t r'⟩ : Ledger).chargeCount a + r.charges.count a +
        l.store.idle.count a + l.store.used.count a =
      l.chargeCount a + r'.charges.count a + s'.idle.count a + s'.used.count a ∧
    (⟨s', l.roles.set t r'⟩ : Ledger).placeCount a + r.placeholders.count a =
      l.placeCount a + r'.placeholders.count a := by
  have hc := tally_set (w := fun r ↦ r.charges.count a) ht r'
  have hp := tally_set (w := fun r ↦ r.placeholders.count a) ht r'
  simp only [chargeCount, placeCount]
  omega

/-- A task answers for its own charges and placeholders. -/
theorem le_account {l : Ledger} {t : Nat} {r : Role} (ht : l.roles[t]? = some r) (a : Addr) :
    r.charges.count a + l.store.idle.count a + l.store.used.count a ≤ l.chargeCount a ∧
      r.placeholders.count a ≤ l.placeCount a := by
  have hc := le_tally_of_getElem? (w := fun r ↦ r.charges.count a) ht
  have hp := le_tally_of_getElem? (w := fun r ↦ r.placeholders.count a) ht
  rw [chargeCount, placeCount]
  omega

/-- What a step has to show: its new store is keyed, what it takes on was free, and it lets
charges go only with the connections that it closes. -/
theorem AccountInv.of_set {l : Ledger} {t : Nat} {r r' : Role} {s' : Store}
    {opened opened' : List Addr} (h : AccountInv l opened) (ht : l.roles[t]? = some r)
    (hkeyed : s'.Keyed)
    (hcount : ∀ a,
      (r'.placeholders.count a + r'.charges.count a + s'.idle.count a + s'.used.count a ≤
          r.placeholders.count a + r.charges.count a + l.store.idle.count a +
            l.store.used.count a ∨
        l.placeCount a + l.chargeCount a = 0 ∧
          r'.placeholders.count a + r'.charges.count a + s'.idle.count a + s'.used.count a ≤ 1) ∧
      (opened'.count a + r.charges.count a + l.store.idle.count a + l.store.used.count a ≤
          opened.count a + r'.charges.count a + s'.idle.count a + s'.used.count a ∨
        opened'.count a = 0)) :
    AccountInv ⟨s', l.roles.set t r'⟩ opened' := by
  refine ⟨hkeyed, fun a ↦ ?_, fun a ↦ ?_⟩
  · have hset := account_set ht s' r' a
    have hone := h.once a
    rcases (hcount a).1 with hle | ⟨hzero, hle⟩
    · omega
    · omega
  · have hset := account_set ht s' r' a
    have hcov := h.covered a
    rcases (hcount a).2 with hle | hzero
    · omega
    · omega

/-- Taking a connection back moves it from `_in_use` to the idle ones, or closes it. -/
theorem AccountInv.release {l : Ledger} {t : Nat} {r : Role} {opened : List Addr}
    (h : AccountInv l opened) (ht : l.roles[t]? = some r) (hr : r.charges = []) (c : Addr)
    (broken : Bool) :
    AccountInv ⟨(l.store.release c broken).1, l.roles.set t .idle⟩
      (opened.diff (l.store.closings (l.store.release c broken).1)) := by
  obtain ⟨hkeyed, hused⟩ := h.keyed.drop (Store.release_frame l.store c broken).1
  have hmoved := Store.count_release l.store c broken
  apply h.of_set ht hkeyed
  intro a
  have hma := hmoved a
  have hua := h.keyed.count_used a
  rw [hused, hr, List.count_diff]
  simp only [Role.placeholders, Role.charges, List.count_nil]
  split at hma
  · next hac =>
    subst hac
    rw [if_pos rfl]
    omega
  · next hac =>
    rw [if_neg hac]
    omega

section Moves

variable {l : Ledger} {t : Nat} {k c : Addr} {opened : List Addr}

/-- Handing out an idle connection files it as in use. -/
theorem AccountInv.hit {s' : Store} {now : Time} (h : AccountInv l opened)
    (ht : l.roles[t]? = some .idle) (htake : l.store.take now k = (s', .hit c)) :
    AccountInv ⟨s', l.roles.set t (.holding c)⟩ opened := by
  obtain ⟨hperm, hin, -, -⟩ := Store.take_hit htake
  obtain ⟨hkeyed, hused⟩ := h.keyed.file hin rfl
  apply h.of_set ht hkeyed
  intro a
  have hidle := hperm.count_eq a
  rw [hused]
  simp only [Role.placeholders, Role.charges, List.count_nil, List.count_cons, beq_iff_eq]
    at hidle ⊢
  by_cases hac : c = a
  · rw [if_pos hac] at hidle
    rw [if_pos hac.symm]
    have hone := h.once a
    have hle := le_account ht a
    omega
  · rw [if_neg hac] at hidle
    rw [if_neg (Ne.symm hac)]
    omega

/-- A reservation takes a dead address as its placeholder. -/
theorem AccountInv.reserve (h : AccountInv l opened) (ht : l.roles[t]? = some .idle)
    (hk : k ∉ l.live) : AccountInv ⟨l.store.reserve k, l.roles.set t (.reserving k)⟩ opened := by
  obtain ⟨hkeyed, hused⟩ := h.keyed.hold (Store.inUse_reserve l.store k)
  apply h.of_set ht hkeyed
  intro a
  have hdead := account_of_dead hk
  have hle := le_account ht k
  rw [hused, Store.idle_reserve]
  simp only [Role.placeholders, Role.charges, List.count_nil, List.count_cons, beq_iff_eq] at hle ⊢
  by_cases hak : a = k
  · subst hak
    simp only [if_pos]
    omega
  · rw [if_neg hak, if_neg (Ne.symm hak)]
    omega

/-- A connection that is created is its task's charge. -/
theorem AccountInv.create (h : AccountInv l opened) (ht : l.roles[t]? = some (.reserving k))
    (hc : c ∉ l.live) :
    AccountInv ⟨l.store.allocate c, l.roles.set t (.made k c)⟩ (c :: opened) := by
  have hkeyed : (l.store.allocate c).Keyed := h.keyed
  have hdead := account_of_dead hc
  have hle := le_account ht c
  apply h.of_set ht hkeyed
  intro a
  rw [Store.idle_allocate, Store.used_allocate]
  simp only [Role.placeholders, Role.charges, List.count_nil, List.count_cons, beq_iff_eq] at hle ⊢
  by_cases hac : c = a
  · subst hac
    rw [if_pos rfl]
    omega
  · rw [if_neg hac]
    omega

/-- Publishing a charge files it under its own address. -/
theorem AccountInv.publish {now : Time} (h : AccountInv l opened)
    (ht : l.roles[t]? = some (.made k c)) :
    AccountInv ⟨l.store.publish now k c, l.roles.set t (.holding c)⟩ opened := by
  have hdrop : Store.Keyed { l.store with inUse := l.store.inUse.pop k } ∧ ∀ a,
      (Store.used { l.store with inUse := l.store.inUse.pop k }).count a =
        if a = k then 0 else l.store.used.count a := h.keyed.drop rfl
  obtain ⟨hkeyed, hused⟩ := hdrop.1.file (Store.inUse_publish l.store now k c) rfl
  apply h.of_set ht hkeyed
  intro a
  have hone := h.once a
  have hle := le_account ht a
  rw [hused, hdrop.2, Store.idle_publish]
  simp only [Role.placeholders, Role.charges, List.count_nil, List.count_cons, beq_iff_eq] at hle ⊢
  -- The new record replaces the charge, and no record was filed at the placeholder's key.
  by_cases hac : a = c
  · rw [if_pos hac.symm] at hle ⊢
    rw [if_pos hac]
    omega
  · rw [if_neg (Ne.symm hac)] at hle ⊢
    rw [if_neg hac]
    by_cases hak : a = k
    · rw [if_pos hak.symm] at hle ⊢
      rw [if_pos hak]
      omega
    · rw [if_neg (Ne.symm hak)] at hle ⊢
      rw [if_neg hak]
      omega

/-- No connection is filed under a placeholder that is given back. -/
theorem AccountInv.undo (h : AccountInv l opened) (ht : l.roles[t]? = some (.reserving k)) :
    AccountInv ⟨l.store.undo k, l.roles.set t .idle⟩ opened := by
  obtain ⟨hkeyed, hused⟩ := h.keyed.drop (Store.inUse_undo l.store k)
  apply h.of_set ht hkeyed
  intro a
  have hone := h.once a
  have hle := le_account ht a
  rw [hused, Store.idle_undo]
  simp only [Role.placeholders, Role.charges, List.count_nil, List.count_cons, beq_iff_eq] at hle ⊢
  by_cases hak : a = k
  · rw [if_pos hak.symm] at hle
    rw [if_pos hak]
    omega
  · rw [if_neg hak]
    omega

/-- A task without charges may end at any time. -/
theorem AccountInv.quit {r : Role} (h : AccountInv l opened) (ht : l.roles[t]? = some r)
    (hr : r.charges = []) : AccountInv ⟨l.store, l.roles.set t .idle⟩ opened := by
  apply h.of_set ht h.keyed
  intro a
  rw [hr]
  simp only [Role.placeholders, Role.charges, List.count_nil]
  omega

/-- Emptying the pool makes every pooled connection the closer's charge. -/
theorem AccountInv.drain (h : AccountInv l opened) (ht : l.roles[t]? = some .idle) :
    AccountInv ⟨l.store.drain.1, l.roles.set t (.closer l.store.drain.2)⟩ opened := by
  have hkeyed : l.store.drain.1.Keyed := by
    intro a pc hpc
    cases hpc
  apply h.of_set ht hkeyed
  intro a
  have hidle : l.store.drain.1.idle = [] := rfl
  have hused : l.store.drain.1.used = [] := rfl
  have hdoomed : l.store.drain.2 = l.store.idle ++ l.store.used := rfl
  rw [hidle, hused, hdoomed]
  simp only [Role.placeholders, Role.charges, List.count_nil, List.count_append]
  omega

/-- The closer lets a charge go with the connection that it closes. -/
theorem AccountInv.close {cs : List Addr} (h : AccountInv l opened)
    (ht : l.roles[t]? = some (.closer (c :: cs))) :
    AccountInv ⟨l.store.close c, l.roles.set t (.closer cs)⟩ (opened.diff [c]) := by
  have hkeyed : (l.store.close c).Keyed := h.keyed
  apply h.of_set ht hkeyed
  intro a
  rw [List.count_diff, Store.idle_close, Store.used_close]
  simp only [Role.placeholders, Role.charges, List.count_nil, List.count_cons]
  omega

private theorem AccountInv.unclosed {l' : Ledger} {s s' : Store} (h : AccountInv l' opened)
    (hle : s'.closed.length ≤ s.closed.length) : AccountInv l' (opened.diff (s.closings s')) := by
  rw [Store.closings_eq_nil hle, List.diff_nil]
  exact h

/-- Every move in which a task lets no charge go unsettled keeps the account. -/
theorem AccountInv.move {r r' : Role} {κ : Kind} {s' : Store} (h : AccountInv l opened)
    (ht : l.roles[t]? = some r) (hm : Move l.live l.store r κ s' r')
    (hkeep : κ = .leak ∨ κ = .finish → r.charges = []) :
    AccountInv ⟨s', l.roles.set t r'⟩
      ((r.created r' ++ opened).diff (l.store.closings s')) := by
  cases hm with
  | hit htake => exact (h.hit ht htake).unclosed (by rw [(Store.take_hit htake).2.2.1])
  | reserve htake hk =>
    obtain ⟨-, -, rfl⟩ := Store.take_reserved htake
    exact (h.reserve ht hk).unclosed (Nat.le_refl _)
  | @create k c hc => exact (h.create ht hc).unclosed (l.store.length_closed_allocate c)
  | publish => exact (h.publish ht).unclosed (Nat.le_refl _)
  | undo => exact (h.undo ht).unclosed (Nat.le_refl _)
  | @release c broken => exact h.release ht rfl c broken
  | @releaseStray c broken => exact h.release ht rfl c broken
  | leak | leakMade | finish => exact (h.quit ht (hkeep (by simp))).unclosed (Nat.le_refl _)
  | abandon | abandonStray => exact (h.quit ht rfl).unclosed (Nat.le_refl _)
  | drain => exact (h.drain ht).unclosed (Nat.le_refl _)
  | @close c cs =>
    rw [show l.store.closings (l.store.close c) = [c] from Store.closings_cons rfl]
    exact h.close ht

end Moves

/-- A turn of task `t`, in which it creates the connections in `made`, keeps every account. -/
def Settles (roles : List Role) (t : Nat) (s : Store) (made : List Addr) (s' : Store)
    (r' : Role) : Prop :=
  ∀ opened, AccountInv ⟨s, roles⟩ opened →
    AccountInv ⟨s', roles.set t r'⟩ ((made ++ opened).diff (s.closings s'))

section Settles

variable {roles : List Role} {t : Nat} {s s' : Store} {r r' : Role} {κ : Kind}

/-- A turn that changes neither the store nor the role settles. -/
theorem Settles.stay (ht : roles[t]? = some r) : Settles roles t s [] s r := by
  intro opened h
  have hself : roles.set t r = roles := by
    obtain ⟨hlt, hr⟩ := List.getElem?_eq_some_iff.mp ht
    rw [← hr, List.set_getElem_self]
  rw [hself, Store.closings_eq_nil (Nat.le_refl _), List.diff_nil]
  exact h

/-- A turn of one move settles, unless it drops a charge. -/
theorem Settles.of_move (ht : roles[t]? = some r)
    (hm : Move (⟨s, roles⟩ : Ledger).live s r κ s' r')
    (hkeep : κ = .leak ∨ κ = .finish → r.charges = []) :
    Settles roles t s (r.created r') s' r' :=
  fun _ h ↦ h.move ht hm hkeep

/-- A connection that is published as soon as it is created. -/
theorem Settles.createPublish {k c : Addr} (now : Time) (ht : roles[t]? = some (.reserving k))
    (hc : c ∉ (⟨s, roles⟩ : Ledger).live) :
    Settles roles t s [c] ((s.allocate c).publish now k c) (.holding c) := by
  intro opened h
  have hmade := h.move ht (.create hc) (by simp)
  have hpublish : Move (⟨s.allocate c, roles.set t (.made k c)⟩ : Ledger).live (s.allocate c)
      (.made k c) .publish ((s.allocate c).publish now k c) (.holding c) := .publish
  have hheld := hmade.move (getElem?_set_of_some ht _) hpublish (by simp)
  rw [List.set_set] at hheld
  have hnone : s.closings (s.allocate c) = [] :=
    Store.closings_eq_nil (s.length_closed_allocate c)
  have hnone₁ : (s.allocate c).closings ((s.allocate c).publish now k c) = [] :=
    Store.closings_eq_nil (Nat.le_refl _)
  have hnone₂ : s.closings ((s.allocate c).publish now k c) = [] :=
    Store.closings_eq_nil (s.length_closed_allocate c)
  simp only [Role.created, hnone, hnone₁, List.nil_append, List.diff_nil] at hheld
  rw [hnone₂, List.diff_nil]
  exact hheld

/-- A snapshot of an empty pool ends the call at once. -/
theorem Settles.drainEmpty (ht : roles[t]? = some .idle) (hnil : s.drain.2 = []) :
    Settles roles t s [] s.drain.1 .idle := by
  intro opened h
  have hdrained := h.move ht .drain (by simp)
  have hended := hdrained.move (getElem?_set_of_some ht _) .finish (fun _ ↦ by rw [hnil]; rfl)
  rw [List.set_set] at hended
  have hnone : s.closings s.drain.1 = [] := Store.closings_eq_nil (Nat.le_refl _)
  have hnone₁ : s.drain.1.closings s.drain.1 = [] := Store.closings_eq_nil (Nat.le_refl _)
  simp only [Role.created, hnone, hnone₁, List.nil_append, List.diff_nil] at hended
  rw [hnone, List.diff_nil]
  exact hended

/-- A snapshot is followed by the first close. -/
theorem Settles.drainClose {c : Addr} {cs : List Addr} (ht : roles[t]? = some .idle)
    (hcons : s.drain.2 = c :: cs) :
    Settles roles t s [] (s.drain.1.close c) (.closer cs) := by
  intro opened h
  have hdrained := h.move ht .drain (by simp)
  rw [hcons] at hdrained
  have hclosed := hdrained.move (getElem?_set_of_some ht _) .close (by simp)
  rw [List.set_set] at hclosed
  have hnone : s.closings s.drain.1 = [] := Store.closings_eq_nil (Nat.le_refl _)
  have hone : s.closings (s.drain.1.close c) = s.drain.1.closings (s.drain.1.close c) := rfl
  simp only [Role.created, hnone, List.nil_append, List.diff_nil] at hclosed
  rw [hone]
  exact hclosed

/-- Growing the pool opens and closes nothing. -/
theorem AccountInv.resize {l : Ledger} {opened : List Addr} (h : AccountInv l opened)
    (sizer : AdaptiveSizer) : AccountInv ⟨{ l.store with sizer := sizer }, l.roles⟩ opened :=
  ⟨h.keyed, h.once, h.covered⟩

/-- Whoever joins with nothing in charge changes no account. -/
theorem AccountInv.join {l : Ledger} {opened : List Addr} (h : AccountInv l opened)
    (hc : r.charges = []) (hp : r.placeholders = []) :
    AccountInv ⟨l.store, l.roles ++ [r]⟩ opened := by
  have hcharge (a : Addr) :
      (⟨l.store, l.roles ++ [r]⟩ : Ledger).chargeCount a = l.chargeCount a := by
    simp [chargeCount, hc]
  have hplace (a : Addr) : (⟨l.store, l.roles ++ [r]⟩ : Ledger).placeCount a = l.placeCount a := by
    simp [placeCount, hp]
  refine ⟨h.keyed, fun a ↦ ?_, fun a ↦ ?_⟩
  · rw [hcharge, hplace]
    exact h.once a
  · rw [hcharge]
    exact h.covered a

/-- When nobody has a charge and the pool is empty, no connection is open. -/
theorem AccountInv.opened_eq_nil {l : Ledger} {opened : List Addr} (h : AccountInv l opened)
    (hc : ∀ r ∈ l.roles, r.charges = []) (he : l.store.Emptied) : opened = [] := by
  apply List.eq_nil_iff_forall_not_mem.mpr
  intro a ha
  have hpos := List.count_pos_iff.mpr ha
  have hcov := h.covered a
  have hzero : tally (fun r ↦ r.charges.count a) l.roles = 0 :=
    tally_eq_zero_iff.mpr fun r hr ↦ by rw [hc r hr, List.count_nil]
  have hidle : l.store.idle = [] := by rw [Store.idle, he.1, List.map_nil]
  rw [chargeCount, hzero, hidle, he.2, List.count_nil] at hcov
  omega

end Settles

/-- Effects without a publication leave an emptied pool empty. -/
theorem Effect.emptied {ok : Kind → Prop} {live : List Addr} {s s' : Store} {r r' : Role}
    (he : Effect ok live s r s' r') (hok : ∀ κ, ok κ → κ ≠ .publish) (h : s.Emptied) :
    s'.Emptied := by
  cases he with
  | stay => exact h
  | move hκ hm => exact hm.emptied (hok _ hκ) h
  | pair hκ hm hκ' hm' => exact (hm' []).emptied (hok _ hκ') (hm.emptied (hok _ hκ) h)
  | raise => exact h

end Ledger
end SalesData.Pool

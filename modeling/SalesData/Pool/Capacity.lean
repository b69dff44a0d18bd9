import SalesData.Pool.Ledger

/-!
# The ledger never exceeds the configured size

Idle connections, connections in use and reservations together stay within the maximum, as
long as nothing empties the pool. The reason is that publishing swaps a reservation that is
still recorded: no other object can share the address of a live placeholder.
-/

namespace SalesData.Pool

open Base

namespace Ledger

/-- Tasks that hold a placeholder at this address. -/
def placeholderCount (l : Ledger) (a : Addr) : Nat :=
  tally (fun r ↦ r.placeholders.count a) l.roles

/-- References to a connection at this address, outside `_in_use`. -/
def connCount (l : Ledger) (a : Addr) : Nat :=
  tally (fun r ↦ r.conns.count a) l.roles + l.store.idle.count a

/-- A dead address is neither a placeholder nor a connection of any task. -/
theorem count_eq_zero_of_not_live {l : Ledger} {a : Addr} (h : a ∉ l.live) :
    l.placeholderCount a = 0 ∧ l.connCount a = 0 := by
  have hl : (l.live).count a = 0 := List.count_eq_zero.mpr h
  have hsum : tally (fun r ↦ r.refs.count a) l.roles =
      l.placeholderCount a + tally (fun r ↦ r.conns.count a) l.roles := by
    rw [placeholderCount]
    induction l.roles with
    | nil => rfl
    | cons r rs ih =>
      simp only [tally_cons, Role.refs, List.count_append] at ih ⊢
      omega
  rw [live, List.count_append, List.count_append, count_flatMap, hsum] at hl
  rw [connCount]
  omega

/-- The admitted steps: everything except a shutdown. -/
def NoShutdown (κ : Kind) : Prop := κ ≠ .drain ∧ κ ≠ .close ∧ κ ≠ .finish

instance (κ : Kind) : Decidable (NoShutdown κ) := by unfold NoShutdown; infer_instance

/-- Capacity invariant: bounded sizes, bounded total, and every placeholder is recorded and
is no other object's address. -/
structure CapacityInv (l : Ledger) : Prop where
  bounded : l.store.sizer.Bounded
  total : l.store.available.length + l.store.inUse.len ≤ l.store.sizer.max
  placeholder : ∀ a, l.placeholderCount a = 0 ∨
    l.placeholderCount a = 1 ∧ l.connCount a = 0 ∧ a ∈ l.store.inUse.keys

/-- An empty pool satisfies the invariant. -/
theorem capacityInv_new {minConn maxConn : Nat} (h : minConn ≤ maxConn) :
    CapacityInv (new minConn maxConn) where
  bounded := AdaptiveSizer.bounded_new h
  total := Nat.zero_le _
  placeholder := fun _ ↦ .inl rfl

/-- How one move changes both counts at every address. -/
theorem count_move {l : Ledger} {t : Nat} {r : Role} (ht : l.roles[t]? = some r)
    (s' : Store) (r' : Role) (a : Addr) :
    (⟨s', l.roles.set t r'⟩ : Ledger).placeholderCount a + r.placeholders.count a =
        l.placeholderCount a + r'.placeholders.count a ∧
      (⟨s', l.roles.set t r'⟩ : Ledger).connCount a + r.conns.count a + l.store.idle.count a =
        l.connCount a + r'.conns.count a + s'.idle.count a := by
  have hp := tally_set (w := fun r ↦ r.placeholders.count a) ht r'
  have hc := tally_set (w := fun r ↦ r.conns.count a) ht r'
  simp only [placeholderCount, connCount]
  omega

/-- A step keeps the placeholder clause when it adds no placeholder, adds no connection at
a placeholder's address, and forgets no placeholder that is left. -/
theorem placeholder_keep {l l' : Ledger} (h : CapacityInv l)
    (hk : ∀ a, l'.placeholderCount a = 0 ∨
      l'.placeholderCount a ≤ l.placeholderCount a ∧
        (l.connCount a = 0 → l'.connCount a = 0) ∧
        (a ∈ l.store.inUse.keys → a ∈ l'.store.inUse.keys)) (a : Addr) :
    l'.placeholderCount a = 0 ∨
      l'.placeholderCount a = 1 ∧ l'.connCount a = 0 ∧ a ∈ l'.store.inUse.keys := by
  by_cases hz : l'.placeholderCount a = 0
  · exact .inl hz
  · obtain ⟨hle, hconn, hkeys⟩ := (hk a).resolve_left hz
    rcases h.placeholder a with h0 | ⟨h1, hc, hin⟩
    · omega
    · exact .inr ⟨by omega, hconn hc, hkeys hin⟩

/-- The placeholder of a reservation is recorded and is nobody's connection. -/
theorem CapacityInv.of_placeholder {l : Ledger} (h : CapacityInv l) {t : Nat} {r : Role}
    {k : Addr} (ht : l.roles[t]? = some r) (hk : r.placeholders = [k]) :
    l.placeholderCount k = 1 ∧ l.connCount k = 0 ∧ k ∈ l.store.inUse.keys := by
  have hle := le_tally_of_getElem? (w := fun r ↦ r.placeholders.count k) ht
  rw [hk, List.count_singleton_self] at hle
  rcases h.placeholder k with hz | hone
  · rw [placeholderCount] at hz
    omega
  · exact hone

private theorem length_release (s : Store) (c : Addr) (broken : Bool) :
    (s.release c broken).1.available.length + (s.release c broken).1.inUse.len ≤
      s.available.length + s.inUse.len := by
  have hpop := Dict.len_pop_le s.inUse c
  rw [← Store.length_idle, ← Store.length_idle, (Store.release_frame s c broken).1]
  rcases Store.idle_release s c broken with h | ⟨h, -, pc, hpc⟩
  · rw [h]
    omega
  · have hk : c ∈ s.inUse.keys := Dict.mem_keys_iff.mpr ⟨_, hpc⟩
    have hpos := List.length_pos_of_mem hk
    rw [Dict.length_keys] at hpos
    rw [h, Dict.len_pop, if_pos hk, List.length_append, List.length_singleton]
    omega

/-- Taking a connection back, acquired or not, keeps the capacity invariant. -/
theorem CapacityInv.release {l : Ledger} {t : Nat} {r : Role} {c : Addr} {broken : Bool}
    (h : CapacityInv l) (ht : l.roles[t]? = some r) (hp : r.placeholders = [])
    (hc : r.conns = [c]) :
    CapacityInv ⟨(l.store.release c broken).1, l.roles.set t .idle⟩ := by
  obtain ⟨hin, hsz⟩ := Store.release_frame l.store c broken
  have hcount := count_move ht (l.store.release c broken).1 .idle
  refine ⟨hsz ▸ h.bounded, ?_, placeholder_keep h fun a ↦ ?_⟩
  · have := length_release l.store c broken
    have := h.total
    dsimp only
    rw [hsz]
    omega
  · have hca := hcount a
    rw [hp, hc] at hca
    simp only [Role.placeholders, Role.conns, List.count_nil, List.count_cons,
      beq_iff_eq] at hca
    -- the released connection is referenced, so it is not a placeholder
    have href : 1 ≤ l.connCount c := by
      have hle := le_tally_of_getElem? (w := fun r ↦ r.conns.count c) ht
      rw [hc, List.count_singleton_self] at hle
      rw [connCount]
      omega
    by_cases hac : c = a
    · subst hac
      rcases h.placeholder c with hz | ⟨-, hconn, -⟩
      · exact .inl (by omega)
      · omega
    · rw [if_neg hac] at hca
      have hidle : (l.store.release c broken).1.idle.count a = l.store.idle.count a := by
        rcases Store.idle_release l.store c broken with h | ⟨h, -⟩
        · rw [h]
        · rw [h, List.count_append, List.count_singleton, if_neg (by simpa using hac),
            Nat.add_zero]
      refine .inr ⟨by omega, fun hz ↦ by omega, fun hkey ↦ ?_⟩
      dsimp only
      rw [hin]
      exact Dict.mem_keys_pop.mpr ⟨hkey, Ne.symm hac⟩

private theorem len_swap {V : Type} (d : Dict Addr V) {k : Addr} (c : Addr) (v : V)
    (hk : k ∈ d.keys) : ((d.pop k).set c v).len ≤ d.len := by
  have hpos := List.length_pos_of_mem hk
  rw [Dict.length_keys] at hpos
  rw [Dict.len_set, Dict.len_pop, if_pos hk]
  split <;> omega

section Moves

variable {l : Ledger} {t : Nat} {k c : Addr}

/-- Handing out an idle connection moves it to `_in_use`. -/
theorem CapacityInv.hit {now : Time} {s' : Store} (h : CapacityInv l)
    (ht : l.roles[t]? = some .idle) (htake : l.store.take now k = (s', .hit c)) :
    CapacityInv ⟨s', l.roles.set t (.holding c)⟩ := by
  obtain ⟨hperm, hin, -, hsz⟩ := Store.take_hit htake
  have htotal := h.total
  have hlen := hperm.length_eq
  simp only [List.length_cons, Store.length_idle] at hlen
  refine ⟨hsz ▸ h.bounded, ?_, placeholder_keep h fun a ↦ .inr ?_⟩
  · dsimp only
    rw [hin, hsz, Dict.len_set]
    split <;> omega
  · have hca := count_move ht s' (.holding c) a
    have hpa := hperm.count_eq a
    simp only [Role.placeholders, Role.conns, List.count_nil, List.count_cons, beq_iff_eq]
      at hca hpa
    refine ⟨by omega, fun hz ↦ by omega, fun hkey ↦ ?_⟩
    dsimp only
    rw [hin]
    exact Dict.mem_keys_set.mpr (.inr hkey)

/-- A reservation is made below the size, under a fresh placeholder. -/
theorem CapacityInv.reserve (h : CapacityInv l) (ht : l.roles[t]? = some .idle)
    (hav : l.store.available = []) (hlt : l.store.inUse.len < l.store.sizer.current)
    (hfresh : k ∉ l.live) : CapacityInv ⟨l.store.reserve k, l.roles.set t (.reserving k)⟩ := by
  refine ⟨h.bounded, ?_, fun a ↦ ?_⟩
  · have := h.bounded.le_max
    dsimp only [Store.reserve]
    rw [hav, Dict.len_set, List.length_nil]
    split <;> omega
  · have hca := count_move ht (l.store.reserve k) (.reserving k) a
    simp only [Role.placeholders, Role.conns, List.count_nil, List.count_cons, beq_iff_eq,
      Store.idle_reserve] at hca
    by_cases hka : k = a
    · subst hka
      obtain ⟨hp0, hc0⟩ := count_eq_zero_of_not_live hfresh
      simp only [if_pos] at hca
      exact .inr ⟨by omega, by omega, Dict.mem_keys_set.mpr (.inl rfl)⟩
    · rw [if_neg hka] at hca
      rcases h.placeholder a with hz | ⟨hone, hconn, hkey⟩
      · exact .inl (by omega)
      · exact .inr ⟨by omega, by omega, Dict.mem_keys_set.mpr (.inr hkey)⟩

/-- A connection is created at no placeholder's address. -/
theorem CapacityInv.create (h : CapacityInv l) (ht : l.roles[t]? = some (.reserving k))
    (hfresh : c ∉ l.live) : CapacityInv ⟨l.store.allocate c, l.roles.set t (.made k c)⟩ := by
  refine ⟨h.bounded, h.total, placeholder_keep h fun a ↦ ?_⟩
  have hca := count_move ht (l.store.allocate c) (.made k c) a
  simp only [Role.placeholders, Role.conns, List.count_nil, List.count_cons, beq_iff_eq,
    Store.idle_allocate] at hca
  by_cases hac : c = a
  · subst hac
    obtain ⟨hp0, -⟩ := count_eq_zero_of_not_live hfresh
    exact .inl (by omega)
  · rw [if_neg hac] at hca
    exact .inr ⟨by omega, fun hz ↦ by omega, id⟩

/-- A connection that is published takes the place of its placeholder. -/
theorem CapacityInv.publish {now : Time} (h : CapacityInv l)
    (ht : l.roles[t]? = some (.made k c)) :
    CapacityInv ⟨l.store.publish now k c, l.roles.set t (.holding c)⟩ := by
  obtain ⟨hone, -, hk⟩ := h.of_placeholder ht rfl
  have htotal := h.total
  refine ⟨h.bounded, ?_, placeholder_keep h fun a ↦ ?_⟩
  · have := len_swap l.store.inUse c (some ⟨now, c, now, .inUse, 0⟩) hk
    dsimp only [Store.publish]
    omega
  · have hca := count_move ht (l.store.publish now k c) (.holding c) a
    simp only [Role.placeholders, Role.conns, List.count_nil, List.count_cons, beq_iff_eq,
      Store.idle_publish] at hca
    by_cases hka : k = a
    · subst hka
      simp only [if_pos] at hca
      exact .inl (by omega)
    · rw [if_neg hka] at hca
      refine .inr ⟨by omega, fun hz ↦ by omega, fun hkey ↦ ?_⟩
      exact Dict.mem_keys_set.mpr (.inr (Dict.mem_keys_pop.mpr ⟨hkey, Ne.symm hka⟩))

/-- A placeholder that is given back is recorded no more. -/
theorem CapacityInv.undo (h : CapacityInv l) (ht : l.roles[t]? = some (.reserving k)) :
    CapacityInv ⟨l.store.undo k, l.roles.set t .idle⟩ := by
  obtain ⟨hone, -, hk⟩ := h.of_placeholder ht rfl
  have htotal := h.total
  refine ⟨h.bounded, ?_, placeholder_keep h fun a ↦ ?_⟩
  · have := Dict.len_pop_le l.store.inUse k
    dsimp only [Store.undo]
    omega
  · have hca := count_move ht (l.store.undo k) .idle a
    simp only [Role.placeholders, Role.conns, List.count_nil, List.count_cons, beq_iff_eq,
      Store.idle_undo] at hca
    by_cases hka : k = a
    · subst hka
      simp only [if_pos] at hca
      exact .inl (by omega)
    · rw [if_neg hka] at hca
      refine .inr ⟨by omega, fun hz ↦ by omega, fun hkey ↦ ?_⟩
      exact Dict.mem_keys_pop.mpr ⟨hkey, Ne.symm hka⟩

/-- A task may end at any time. -/
theorem CapacityInv.quit {r : Role} (h : CapacityInv l) (ht : l.roles[t]? = some r) :
    CapacityInv ⟨l.store, l.roles.set t .idle⟩ := by
  refine ⟨h.bounded, h.total, placeholder_keep h fun a ↦ .inr ?_⟩
  have hca := count_move ht l.store .idle a
  simp only [Role.placeholders, Role.conns, List.count_nil] at hca
  exact ⟨by omega, fun hz ↦ by omega, id⟩

/-- Every move other than a shutdown keeps the capacity invariant. -/
theorem CapacityInv.move {r r' : Role} {κ : Kind} {s' : Store} (h : CapacityInv l)
    (ht : l.roles[t]? = some r) (hok : NoShutdown κ) (hm : Move l.live l.store r κ s' r') :
    CapacityInv ⟨s', l.roles.set t r'⟩ := by
  cases hm with
  | hit htake => exact h.hit ht htake
  | reserve htake hfresh =>
    obtain ⟨hav, hlt, rfl⟩ := Store.take_reserved htake
    exact h.reserve ht hav hlt hfresh
  | create hfresh => exact h.create ht hfresh
  | publish => exact h.publish ht
  | undo => exact h.undo ht
  | leak | leakMade | abandon | abandonStray => exact h.quit ht
  | @release c broken => exact h.release ht rfl rfl
  | @releaseStray c broken => exact h.release ht rfl rfl
  | drain => exact absurd rfl hok.1
  | close => exact absurd rfl hok.2.1
  | finish => exact absurd rfl hok.2.2

end Moves

/-- Every admitted ledger step keeps the capacity invariant. -/
theorem CapacityInv.step {l l' : Ledger} {κ : Kind} (h : CapacityInv l) (hok : NoShutdown κ)
    (hs : Step l κ l') : CapacityInv l' := by
  cases hs with
  | move ht hm => exact h.move ht hok hm
  | join =>
    refine ⟨h.bounded, h.total, placeholder_keep h fun a ↦ .inr ?_⟩
    simp [placeholderCount, connCount, Role.placeholders, Role.conns]
  | @stray c hc =>
    refine ⟨h.bounded, h.total, placeholder_keep h fun a ↦ ?_⟩
    by_cases hca : c = a
    · subst hca
      have hz := List.count_eq_zero.mpr hc
      rw [count_flatMap] at hz
      left
      simpa [placeholderCount, Role.placeholders] using hz
    · right
      simp [placeholderCount, connCount, Role.placeholders, Role.conns, hca]
  | adjust =>
    refine ⟨h.bounded.adjust _ _, ?_, h.placeholder⟩
    simpa using h.total
  | raise ht => exact ⟨h.bounded.raise ht, h.total, h.placeholder⟩

/-- The capacity invariant holds in every ledger that was never shut down. -/
theorem CapacityInv.of_reach {l : Ledger} {minConn maxConn : Nat} (hle : minConn ≤ maxConn)
    (h : Reach NoShutdown minConn maxConn l) : CapacityInv l := by
  induction h with
  | new => exact capacityInv_new hle
  | step _ hok hs ih => exact ih.step hok hs

/-- The configured bounds never change. -/
theorem bounds_of_reach {l : Ledger} {ok : Kind → Prop} {minConn maxConn : Nat}
    (h : Reach ok minConn maxConn l) :
    l.store.sizer.min = minConn ∧ l.store.sizer.max = maxConn := by
  induction h with
  | new => exact ⟨rfl, rfl⟩
  | step _ _ hs ih =>
    cases hs with
    | move _ hm => rw [hm.sizer_eq]; exact ih
    | join | stray => exact ih
    | adjust => simpa using ih
    | raise => exact ih

end Ledger
end SalesData.Pool

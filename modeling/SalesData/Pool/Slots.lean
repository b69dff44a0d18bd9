import SalesData.Pool.Ownership

/-!
# Every key of `_in_use` has a task that answers for it

In a run where no reservation is leaked and no connection is abandoned, the keys of `_in_use`
are exactly the placeholders of acquires that have not published yet and the connections in
their holders' hands. Each missing or extra key would be a slot lost or lent twice.
-/

namespace SalesData.Pool

open Base

namespace Ledger

/-- How many tasks answer for a key. -/
def slotCount (l : Ledger) (a : Addr) : Nat := tally (fun r ↦ r.slots.count a) l.roles

/-- The admitted steps: nothing is leaked, abandoned, released by a stranger or shut down. -/
def Conserving (κ : Kind) : Prop :=
  κ ≠ .stray ∧ κ ≠ .leak ∧ κ ≠ .abandon ∧ κ ≠ .drain

instance (κ : Kind) : Decidable (Conserving κ) := by unfold Conserving; infer_instance

/-- Slot invariant: each key has exactly one task that answers for it. -/
def SlotInv (l : Ledger) : Prop := ∀ a, l.store.inUse.keys.count a = l.slotCount a

/-- Whoever answers for a key owns it. -/
theorem slotCount_le (l : Ledger) (a : Addr) : l.slotCount a ≤ l.ownerCount a := by
  refine Nat.le_trans (tally_le_tally fun r ↦ ?_) (Nat.le_add_right _ _)
  cases r <;> simp [Role.slots, Role.owns, List.count_cons]

/-- A key that some task answers for has exactly one such task. -/
theorem OwnershipInv.slotCount_eq_one {l : Ledger} (h : OwnershipInv l) {t : Nat} {r : Role}
    {a : Addr} (ht : l.roles[t]? = some r) (hr : r.slots = [a]) : l.slotCount a = 1 := by
  have hself := le_tally_of_getElem? (w := fun r ↦ r.slots.count a) ht
  rw [hr, List.count_singleton_self] at hself
  have hle := l.slotCount_le a
  have hone := h.owner a
  rw [slotCount] at hle ⊢
  omega

/-- How one move changes the number of tasks that answer for a key. -/
theorem slot_move {l : Ledger} {t : Nat} {r : Role} (ht : l.roles[t]? = some r) (s' : Store)
    (r' : Role) (a : Addr) :
    (⟨s', l.roles.set t r'⟩ : Ledger).slotCount a + r.slots.count a =
      l.slotCount a + r'.slots.count a :=
  tally_set ht r'

section Moves

variable {l : Ledger} {t : Nat} {r r' : Role} {s' : Store}

/-- A task that answered for no key answers for one that is recorded. -/
theorem SlotInv.hold {k : Addr} {v : Option PoolConnection} (h : SlotInv l)
    (ho' : OwnershipInv ⟨s', l.roles.set t r'⟩) (ht : l.roles[t]? = some r) (hr : r.slots = [])
    (hr' : r'.slots = [k]) (hin : s'.inUse = l.store.inUse.set k v) :
    SlotInv ⟨s', l.roles.set t r'⟩ := by
  intro a
  have hslot := slot_move ht s' r' a
  have hkey := h a
  dsimp only
  rw [hin, Dict.count_keys_set]
  by_cases hak : a = k
  · rw [if_pos hak, ho'.slotCount_eq_one (getElem?_set_of_some ht r') (by rw [hr', hak])]
  · simp only [hr, hr', List.count_nil, List.count_cons, beq_iff_eq] at hslot
    rw [if_neg (Ne.symm hak)] at hslot
    rw [if_neg hak]
    omega

/-- A task drops the key that it answered for. -/
theorem SlotInv.drop {k : Addr} (h : SlotInv l) (ho : OwnershipInv l)
    (ht : l.roles[t]? = some r) (hr : r.slots = [k]) (hr' : r'.slots = [])
    (hin : s'.inUse = l.store.inUse.pop k) : SlotInv ⟨s', l.roles.set t r'⟩ := by
  intro a
  have hslot := slot_move ht s' r' a
  have hkey := h a
  simp only [hr, hr', List.count_cons, List.count_nil, beq_iff_eq] at hslot
  dsimp only
  rw [hin, Dict.count_keys_pop]
  by_cases hak : a = k
  · have := ho.slotCount_eq_one (a := a) ht (by rw [hr, hak])
    rw [if_pos hak.symm] at hslot
    rw [if_pos hak]
    omega
  · rw [if_neg (Ne.symm hak)] at hslot
    rw [if_neg hak]
    omega

/-- A task answers for the connection's own key in place of the placeholder. -/
theorem SlotInv.publish {now : Time} {k c : Addr} (h : SlotInv l) (ho : OwnershipInv l)
    (ho' : OwnershipInv ⟨l.store.publish now k c, l.roles.set t (.holding c)⟩)
    (ht : l.roles[t]? = some (.made k c)) :
    SlotInv ⟨l.store.publish now k c, l.roles.set t (.holding c)⟩ := by
  intro a
  have hslot := slot_move ht (l.store.publish now k c) (.holding c) a
  have hkey := h a
  rw [Store.inUse_publish, Dict.count_keys_set, Dict.count_keys_pop]
  by_cases hac : a = c
  · rw [if_pos hac, ho'.slotCount_eq_one (getElem?_set_of_some ht _) (by rw [hac]; rfl)]
  · simp only [Role.slots, List.count_cons, List.count_nil, beq_iff_eq] at hslot
    rw [if_neg (Ne.symm hac)] at hslot
    rw [if_neg hac]
    by_cases hak : a = k
    · have := ho.slotCount_eq_one (a := a) ht (by rw [hak]; rfl)
      rw [if_pos hak.symm] at hslot
      rw [if_pos hak]
      omega
    · rw [if_neg (Ne.symm hak)] at hslot
      rw [if_neg hak]
      omega

/-- A task goes on and answers for the keys that it answered for. -/
theorem SlotInv.keep (h : SlotInv l) (ht : l.roles[t]? = some r) (hslots : r'.slots = r.slots)
    (hin : s'.inUse = l.store.inUse) : SlotInv ⟨s', l.roles.set t r'⟩ := by
  intro a
  have hslot := slot_move ht s' r' a
  have hkey := h a
  rw [hslots] at hslot
  dsimp only
  rw [hin]
  omega

/-- Every conserving move keeps the slot invariant. -/
theorem SlotInv.move {κ : Kind} (h : SlotInv l) (ho : OwnershipInv l)
    (ho' : OwnershipInv ⟨s', l.roles.set t r'⟩) (ht : l.roles[t]? = some r) (hok : Conserving κ)
    (hm : Move l.live l.store r κ s' r') : SlotInv ⟨s', l.roles.set t r'⟩ := by
  cases hm with
  | hit htake => exact h.hold ho' ht rfl rfl (Store.take_hit htake).2.1
  | reserve htake =>
    obtain ⟨-, -, rfl⟩ := Store.take_reserved htake
    exact h.hold ho' ht rfl rfl (Store.inUse_reserve l.store _)
  | publish => exact h.publish ho ho' ht
  | undo => exact h.drop ho ht rfl rfl (Store.inUse_undo l.store _)
  | release => exact h.drop ho ht rfl rfl (Store.release_frame _ _ _).1
  | create => exact h.keep ht rfl (Store.inUse_allocate l.store _)
  | close => exact h.keep ht rfl (Store.inUse_close l.store _)
  | finish => exact h.keep ht rfl rfl
  | leak | leakMade => exact absurd rfl hok.2.1
  | abandon => exact absurd rfl hok.2.2.1
  | releaseStray | abandonStray => exact absurd rfl hok.1
  | drain => exact absurd rfl hok.2.2.2

end Moves

/-- Every conserving ledger step keeps the slot invariant. -/
theorem SlotInv.step {l l' : Ledger} {κ : Kind} (h : SlotInv l) (ho : OwnershipInv l)
    (ho' : OwnershipInv l') (hok : Conserving κ) (hs : Step l κ l') : SlotInv l' := by
  cases hs with
  | move ht hm => exact h.move ho ho' ht hok hm
  | join =>
    intro a
    simpa [slotCount, Role.slots] using h a
  | stray => exact absurd rfl hok.1
  | adjust | raise => exact h

/-- The slot invariant holds in every conserving ledger. -/
theorem SlotInv.of_reach {l : Ledger} {minConn maxConn : Nat}
    (h : Reach Conserving minConn maxConn l) : OwnershipInv l ∧ SlotInv l := by
  induction h with
  | new => exact ⟨ownershipInv_new _ _, fun _ ↦ rfl⟩
  | step _ hok hs ih =>
    have ho' := ih.1.step hok.1 hs
    exact ⟨ho', ih.2.step ih.1 ho' hok hs⟩

/-- The length of `_in_use` is the number of tasks that answer for one of its keys. -/
theorem SlotInv.len_inUse {l : Ledger} (h : SlotInv l) :
    l.store.inUse.len = tally (fun r ↦ r.slots.length) l.roles := by
  rw [← Dict.length_keys, ← length_flatMap]
  apply List.Perm.length_eq
  apply List.perm_iff_count.mpr
  intro a
  rw [count_flatMap]
  exact h a

end Ledger
end SalesData.Pool

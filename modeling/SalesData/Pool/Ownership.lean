import SalesData.Pool.Ledger

/-!
# Every connection has one owner

Each address belongs to at most one task or to the idle list, a connection that could still
be handed out has not been closed, and what a shutdown is about to close can no longer come
back. Releases of connections that were never acquired are left out here.
-/

namespace SalesData.Pool

open Base

namespace Ledger

/-- How many owners an address has. -/
def ownerCount (l : Ledger) (a : Addr) : Nat :=
  tally (fun r ↦ r.owns.count a) l.roles + l.store.idle.count a

/-- How often a connection could still be handed out: idle, or created and unpublished. -/
def offerCount (l : Ledger) (a : Addr) : Nat :=
  tally (fun r ↦ r.unpublished.count a) l.roles + l.store.idle.count a

/-- `_in_use` records a connection at this address. -/
def Recorded (l : Ledger) (a : Addr) : Prop := ∃ pc, l.store.inUse.get? a = some (some pc)

/-- The admitted steps: every release is by a task that acquired the connection. -/
def OwnReleases (κ : Kind) : Prop := κ ≠ .stray

instance (κ : Kind) : Decidable (OwnReleases κ) := by unfold OwnReleases; infer_instance

/-- Ownership invariant. -/
structure OwnershipInv (l : Ledger) : Prop where
  owner : ∀ a, l.ownerCount a ≤ 1
  key : ∀ a pc, l.store.inUse.get? a = some (some pc) → pc.connection = a
  recorded : ∀ a, l.Recorded a → l.offerCount a = 0 ∧ a ∉ l.store.closed
  closed : ∀ a ∈ l.store.closed, l.offerCount a = 0
  doomed : ∀ r ∈ l.roles, ∀ c ∈ r.doomed, l.offerCount c = 0 ∧ c ∉ l.store.inUse.keys

/-- An empty pool satisfies the invariant. -/
theorem ownershipInv_new (minConn maxConn : Nat) : OwnershipInv (new minConn maxConn) where
  owner := fun _ ↦ Nat.zero_le _
  key := by simp [new, Store.new]
  recorded := by simp [Recorded, new, Store.new]
  closed := by simp [new, Store.new]
  doomed := by simp [new]

/-- Whoever offers a connection owns it. -/
theorem offerCount_le (l : Ledger) (a : Addr) : l.offerCount a ≤ l.ownerCount a := by
  refine Nat.add_le_add_right (tally_le_tally fun r ↦ ?_) _
  cases r <;> simp [Role.unpublished, Role.owns, List.count_cons]

/-- A dead address has no owner. -/
theorem ownerCount_eq_zero {l : Ledger} {a : Addr} (h : a ∉ l.live) : l.ownerCount a = 0 := by
  have hl : l.live.count a = 0 := List.count_eq_zero.mpr h
  rw [live, List.count_append, List.count_append, count_flatMap] at hl
  have : tally (fun r ↦ r.owns.count a) l.roles ≤ tally (fun r ↦ r.refs.count a) l.roles := by
    refine tally_le_tally fun r ↦ ?_
    cases r <;> simp [Role.owns, Role.refs, Role.placeholders, Role.conns]
  rw [ownerCount]
  omega

/-- A dead address is about to be closed by nobody. -/
theorem not_doomed {l : Ledger} {a : Addr} (h : a ∉ l.live) :
    ∀ r ∈ l.roles, a ∉ r.doomed := by
  intro r hr ha
  apply h
  simp only [live, List.mem_append, List.mem_flatMap]
  refine .inl (.inl ⟨r, hr, ?_⟩)
  cases r with
  | closer cs => simpa [Role.refs, Role.placeholders, Role.conns, Role.doomed] using ha
  | _ => simp [Role.doomed] at ha

/-- How one move changes owners and offers at every address. -/
theorem owner_move {l : Ledger} {t : Nat} {r : Role} (ht : l.roles[t]? = some r)
    (s' : Store) (r' : Role) (a : Addr) :
    (⟨s', l.roles.set t r'⟩ : Ledger).ownerCount a + r.owns.count a + l.store.idle.count a =
        l.ownerCount a + r'.owns.count a + s'.idle.count a ∧
      (⟨s', l.roles.set t r'⟩ : Ledger).offerCount a + r.unpublished.count a +
          l.store.idle.count a =
        l.offerCount a + r'.unpublished.count a + s'.idle.count a := by
  have ho := tally_set (w := fun r ↦ r.owns.count a) ht r'
  have hu := tally_set (w := fun r ↦ r.unpublished.count a) ht r'
  simp only [ownerCount, offerCount]
  omega

/-- A dead address is not recorded. -/
theorem OwnershipInv.not_recorded {l : Ledger} (h : OwnershipInv l) {a : Addr}
    (ha : a ∉ l.live) : ¬ l.Recorded a := by
  rintro ⟨pc, hpc⟩
  apply ha
  have hu := Store.mem_used hpc
  rw [h.key a pc hpc] at hu
  exact List.mem_append_right _ hu

/-- An offered connection has no record and is about to be closed by nobody. -/
theorem OwnershipInv.of_offer {l : Ledger} (h : OwnershipInv l) {a : Addr}
    (ha : 0 < l.offerCount a) :
    a ∉ l.store.closed ∧ ¬ l.Recorded a ∧ ∀ r ∈ l.roles, a ∉ r.doomed := by
  refine ⟨fun hc ↦ ?_, fun hr ↦ ?_, fun r hr hd ↦ ?_⟩
  · have := h.closed a hc
    omega
  · have := (h.recorded a hr).1
    omega
  · have := (h.doomed r hr a hd).1
    omega

/-- A recorded connection is about to be closed by nobody. -/
theorem OwnershipInv.recorded_not_doomed {l : Ledger} (h : OwnershipInv l) {a : Addr}
    (ha : l.Recorded a) : ∀ r ∈ l.roles, a ∉ r.doomed := by
  intro r hr hd
  obtain ⟨pc, hpc⟩ := ha
  exact (h.doomed r hr a hd).2 (Dict.mem_keys_iff.mpr ⟨_, hpc⟩)

/-- What a step has to show: it adds no second owner, and every new record, offer, closed
connection or key of `_in_use` is safe. -/
structure Safe (l l' : Ledger) : Prop where
  owner : ∀ a, l'.ownerCount a ≤ 1
  key : ∀ a pc, l'.store.inUse.get? a = some (some pc) → pc.connection = a
  recorded : ∀ a, l'.Recorded a → l.Recorded a ∨ l'.offerCount a = 0 ∧ a ∉ l'.store.closed
  offer : ∀ a, l'.offerCount a ≤ l.offerCount a ∨
    a ∉ l'.store.closed ∧ ¬ l'.Recorded a ∧ ∀ r ∈ l.roles, a ∉ r.doomed
  closed : ∀ a ∈ l'.store.closed, a ∈ l.store.closed ∨
    l'.offerCount a = 0 ∧ ¬ l'.Recorded a
  keys : ∀ a ∈ l'.store.inUse.keys, a ∈ l.store.inUse.keys ∨ ∀ r ∈ l.roles, a ∉ r.doomed
  doomed : ∀ r' ∈ l'.roles, ∀ c ∈ r'.doomed, ∃ r ∈ l.roles, c ∈ r.doomed

/-- A safe step keeps the ownership invariant. -/
theorem OwnershipInv.of_safe {l l' : Ledger} (h : OwnershipInv l) (hs : Safe l l') :
    OwnershipInv l' where
  owner := hs.owner
  key := hs.key
  recorded := by
    intro a ha
    rcases hs.recorded a ha with hr | hnew
    · obtain ⟨hoff, hcl⟩ := h.recorded a hr
      constructor
      · rcases hs.offer a with hle | ⟨-, hn, -⟩
        · omega
        · exact absurd ha hn
      · intro hc
        rcases hs.closed a hc with hc | ⟨-, hn⟩
        · exact hcl hc
        · exact hn ha
    · exact hnew
  closed := by
    intro a ha
    rcases hs.closed a ha with hc | ⟨hz, -⟩
    · have := h.closed a hc
      rcases hs.offer a with hle | ⟨hn, -⟩
      · omega
      · exact absurd ha hn
    · exact hz
  doomed := by
    intro r' hr' c hc
    obtain ⟨r, hr, hcr⟩ := hs.doomed r' hr' c hc
    obtain ⟨hoff, hkey⟩ := h.doomed r hr c hcr
    constructor
    · rcases hs.offer c with hle | ⟨-, -, hn⟩
      · omega
      · exact absurd hcr (hn r hr)
    · intro hk
      rcases hs.keys c hk with hk | hn
      · exact hkey hk
      · exact hn r hr hcr

private theorem doomed_set {l : Ledger} {t : Nat} {r r' : Role} (ht : l.roles[t]? = some r)
    (hsub : ∀ c ∈ r'.doomed, c ∈ r.doomed) :
    ∀ q ∈ l.roles.set t r', ∀ c ∈ q.doomed, ∃ r ∈ l.roles, c ∈ r.doomed := by
  intro q hq c hc
  rcases List.mem_or_eq_of_mem_set hq with hq | rfl
  · exact ⟨q, hq, hc⟩
  · exact ⟨r, List.mem_of_getElem? ht, hsub c hc⟩

private theorem key_set {d e : Dict Addr (Option PoolConnection)} {c : Addr} {now : Time}
    (hd : ∀ a pc, d.get? a = some (some pc) → pc.connection = a)
    (he : ∀ a pc, e.get? a = some (some pc) → d.get? a = some (some pc)) (a : Addr)
    (pc : PoolConnection) (h : (e.set c (some ⟨now, c, now, .inUse, 0⟩)).get? a = some (some pc)) :
    pc.connection = a := by
  rw [Dict.get?_set] at h
  split at h
  · next hac =>
    obtain rfl := Option.some.inj (Option.some.inj h)
    exact hac.symm
  · exact hd a pc (he a pc h)

/-- Handing out an idle connection is safe. -/
theorem OwnershipInv.hit {l : Ledger} {t : Nat} {now : Time} {k c : Addr} {s' : Store}
    (h : OwnershipInv l) (ht : l.roles[t]? = some .idle)
    (htake : l.store.take now k = (s', .hit c)) :
    Safe l ⟨s', l.roles.set t (.holding c)⟩ := by
  obtain ⟨hperm, hin, hcl, -⟩ := Store.take_hit htake
  have hmove := owner_move ht s' (.holding c)
  have hone := h.owner
  have hle := l.offerCount_le
  have hcount (a : Addr) := hperm.count_eq a
  simp only [Role.owns, Role.unpublished, List.count_nil, List.count_cons,
    beq_iff_eq] at hmove hcount
  have hpos : 0 < l.offerCount c := by
    have := hcount c
    simp only [if_pos] at this
    rw [offerCount]
    omega
  obtain ⟨hnc, -, hnd⟩ := h.of_offer hpos
  refine ⟨fun a ↦ ?_, fun a pc ↦ ?_, fun a ha ↦ ?_, fun a ↦ .inl ?_, fun a ha ↦ .inl ?_, ?_, ?_⟩
  · have := hmove a
    have := hcount a
    have := hone a
    omega
  · dsimp only
    rw [hin]
    exact key_set h.key (fun _ _ ↦ id) a pc
  · by_cases hac : c = a
    · subst hac
      have hmc := hmove c
      have hpc := hcount c
      have hoc := hone c
      have hlc := hle c
      simp only [if_pos] at hmc hpc
      exact .inr ⟨by omega, hcl ▸ hnc⟩
    · left
      obtain ⟨pc, hpc⟩ := ha
      dsimp only at hpc
      rw [hin, Dict.get?_set, if_neg (Ne.symm hac)] at hpc
      exact ⟨pc, hpc⟩
  · have := hmove a
    have := hcount a
    omega
  · exact hcl ▸ ha
  · intro a ha
    dsimp only at ha
    rw [hin] at ha
    rcases Dict.mem_keys_set.mp ha with rfl | ha
    · exact .inr hnd
    · exact .inl ha
  · exact doomed_set ht (by simp [Role.doomed])

/-- Reserving a slot under a fresh placeholder is safe. -/
theorem OwnershipInv.reserve {l : Ledger} {t : Nat} {k : Addr} (h : OwnershipInv l)
    (ht : l.roles[t]? = some .idle) (hk : k ∉ l.live) :
    Safe l ⟨l.store.reserve k, l.roles.set t (.reserving k)⟩ := by
  have hmove := owner_move ht (l.store.reserve k) (.reserving k)
  simp only [Role.owns, Role.unpublished, List.count_nil, List.count_cons, beq_iff_eq,
    Store.idle_reserve] at hmove
  have hzero := ownerCount_eq_zero hk
  have hget (a : Addr) (pc : PoolConnection)
      (hpc : (l.store.inUse.set k none).get? a = some (some pc)) :
      l.store.inUse.get? a = some (some pc) := by
    rw [Dict.get?_set] at hpc
    split at hpc
    · simp at hpc
    · exact hpc
  refine ⟨fun a ↦ ?_, fun a pc hpc ↦ h.key a pc (hget a pc hpc), fun a ↦ ?_, fun a ↦ .inl ?_,
    fun a ha ↦ .inl ha, fun a ha ↦ ?_, doomed_set ht (by simp [Role.doomed])⟩
  · have hma := hmove a
    have hoa := h.owner a
    by_cases hka : k = a
    · subst hka
      simp only [if_pos] at hma
      omega
    · rw [if_neg hka] at hma
      omega
  · rintro ⟨pc, hpc⟩
    exact .inl ⟨pc, hget a pc hpc⟩
  · have := hmove a
    omega
  · rcases Dict.mem_keys_set.mp ha with rfl | ha
    · exact .inr (not_doomed hk)
    · exact .inl ha

/-- A connection created at a fresh address is safe. -/
theorem OwnershipInv.create {l : Ledger} {t : Nat} {k c : Addr} (h : OwnershipInv l)
    (ht : l.roles[t]? = some (.reserving k)) (hc : c ∉ l.live) :
    Safe l ⟨l.store.allocate c, l.roles.set t (.made k c)⟩ := by
  have hmove := owner_move ht (l.store.allocate c) (.made k c)
  simp only [Role.owns, Role.unpublished, List.count_nil, List.count_cons, beq_iff_eq,
    Store.idle_allocate] at hmove
  have hzero := ownerCount_eq_zero hc
  refine ⟨fun a ↦ ?_, h.key, fun a ha ↦ .inl ha, fun a ↦ ?_, fun a ha ↦ .inl ?_,
    fun a ha ↦ .inl ha, doomed_set ht (by simp [Role.doomed])⟩
  · have hma := hmove a
    have hoa := h.owner a
    by_cases hca : c = a
    · subst hca
      simp only [if_pos] at hma
      omega
    · rw [if_neg hca] at hma
      omega
  · by_cases hca : c = a
    · subst hca
      exact .inr ⟨by simp [Store.allocate], h.not_recorded hc, not_doomed hc⟩
    · have := hmove a
      rw [if_neg hca] at this
      exact .inl (by omega)
  · exact (List.mem_filter.mp ha).1

/-- Swapping a reservation for its connection is safe. -/
theorem OwnershipInv.publish {l : Ledger} {t : Nat} {now : Time} {k c : Addr}
    (h : OwnershipInv l) (ht : l.roles[t]? = some (.made k c)) :
    Safe l ⟨l.store.publish now k c, l.roles.set t (.holding c)⟩ := by
  have hmove := owner_move ht (l.store.publish now k c) (.holding c)
  simp only [Role.owns, Role.unpublished, List.count_nil, List.count_cons, beq_iff_eq,
    Store.idle_publish] at hmove
  have hpos : 0 < l.offerCount c := by
    have hle := le_tally_of_getElem? (w := fun r ↦ r.unpublished.count c) ht
    have hone : (Role.made k c).unpublished.count c = 1 := List.count_singleton_self
    rw [offerCount]
    omega
  obtain ⟨hnc, -, hnd⟩ := h.of_offer hpos
  have hpop (a : Addr) (pc : PoolConnection)
      (hpc : (l.store.inUse.pop k).get? a = some (some pc)) := (Dict.get?_of_pop hpc).2
  refine ⟨fun a ↦ ?_, key_set h.key hpop, fun a ha ↦ ?_, fun a ↦ .inl ?_, fun a ha ↦ .inl ha,
    fun a ha ↦ ?_, doomed_set ht (by simp [Role.doomed])⟩
  · have := hmove a
    have := h.owner a
    omega
  · by_cases hac : c = a
    · subst hac
      have hmc := hmove c
      have hoc := h.owner c
      have hlc := l.offerCount_le c
      simp only [if_pos] at hmc
      exact .inr ⟨by omega, hnc⟩
    · obtain ⟨pc, hpc⟩ := ha
      dsimp only [Store.publish] at hpc
      rw [Dict.get?_set, if_neg (Ne.symm hac)] at hpc
      exact .inl ⟨pc, hpop a pc hpc⟩
  · have := hmove a
    omega
  · rcases Dict.mem_keys_set.mp ha with rfl | ha
    · exact .inr hnd
    · exact .inl (Dict.mem_keys_pop.mp ha).1

/-- A task that gives up what it owns, with or without freeing its key, is safe. -/
theorem OwnershipInv.drop {l : Ledger} {t : Nat} {r : Role} {s' : Store} (h : OwnershipInv l)
    (ht : l.roles[t]? = some r) (hidle : s'.idle = l.store.idle)
    (hin : s'.inUse = l.store.inUse ∨ ∃ k, s'.inUse = l.store.inUse.pop k)
    (hcl : s'.closed = l.store.closed) : Safe l ⟨s', l.roles.set t .idle⟩ := by
  have hmove := owner_move ht s' .idle
  simp only [Role.owns, Role.unpublished, List.count_nil, hidle] at hmove
  have hget (a : Addr) (v : Option PoolConnection) (ha : s'.inUse.get? a = some v) :
      l.store.inUse.get? a = some v := by
    rcases hin with hin | ⟨k, hin⟩
    · exact hin ▸ ha
    · rw [hin] at ha
      exact (Dict.get?_of_pop ha).2
  refine ⟨fun a ↦ ?_, fun a pc hpc ↦ h.key a pc (hget a _ hpc), ?_, fun a ↦ .inl ?_,
    fun a ha ↦ .inl (hcl ▸ ha), fun a ha ↦ .inl ?_, doomed_set ht (by simp [Role.doomed])⟩
  · have := hmove a
    have := h.owner a
    omega
  · rintro a ⟨pc, hpc⟩
    exact .inl ⟨pc, hget a _ hpc⟩
  · have := hmove a
    omega
  · obtain ⟨v, hv⟩ := Dict.mem_keys_iff.mp ha
    exact Dict.mem_keys_iff.mpr ⟨v, hget a v hv⟩

/-- A recorded connection that goes back to the idle ones is safe. -/
theorem OwnershipInv.giveBack {l : Ledger} {t : Nat} {c : Addr} {s' : Store}
    (h : OwnershipInv l) (ht : l.roles[t]? = some (.holding c)) (hrec : l.Recorded c)
    (hidle : s'.idle = l.store.idle ++ [c]) (hin : s'.inUse = l.store.inUse.pop c)
    (hcl : s'.closed = l.store.closed) : Safe l ⟨s', l.roles.set t .idle⟩ := by
  have hmove := owner_move ht s' .idle
  simp only [Role.owns, Role.unpublished, List.count_nil, hidle, List.count_append,
    List.count_cons, beq_iff_eq] at hmove
  have hget (a : Addr) (v : Option PoolConnection) (ha : s'.inUse.get? a = some v) :
      a ≠ c ∧ l.store.inUse.get? a = some v := Dict.get?_of_pop (hin ▸ ha)
  refine ⟨fun a ↦ ?_, fun a pc hpc ↦ h.key a pc (hget a _ hpc).2, ?_, fun a ↦ ?_,
    fun a ha ↦ .inl (hcl ▸ ha), fun a ha ↦ .inl ?_, doomed_set ht (by simp [Role.doomed])⟩
  · have := hmove a
    have := h.owner a
    omega
  · rintro a ⟨pc, hpc⟩
    exact .inl ⟨pc, (hget a _ hpc).2⟩
  · by_cases hac : c = a
    · subst hac
      refine .inr ⟨hcl ▸ (h.recorded c hrec).2, ?_, h.recorded_not_doomed hrec⟩
      rintro ⟨pc, hpc⟩
      exact (hget c _ hpc).1 rfl
    · have := hmove a
      rw [if_neg hac] at this
      exact .inl (by omega)
  · obtain ⟨v, hv⟩ := Dict.mem_keys_iff.mp ha
    exact Dict.mem_keys_iff.mpr ⟨v, (hget a v hv).2⟩

/-- A broken connection that is evicted and closed is safe. -/
theorem OwnershipInv.evict {l : Ledger} {t : Nat} {c : Addr} {s' : Store} (h : OwnershipInv l)
    (ht : l.roles[t]? = some (.holding c)) (hrec : l.Recorded c)
    (hidle : s'.idle = l.store.idle) (hin : s'.inUse = l.store.inUse.pop c)
    (hcl : s'.closed = c :: l.store.closed) : Safe l ⟨s', l.roles.set t .idle⟩ := by
  have hmove := owner_move ht s' .idle
  simp only [Role.owns, Role.unpublished, List.count_nil, hidle] at hmove
  have hget (a : Addr) (v : Option PoolConnection) (ha : s'.inUse.get? a = some v) :
      a ≠ c ∧ l.store.inUse.get? a = some v := Dict.get?_of_pop (hin ▸ ha)
  refine ⟨fun a ↦ ?_, fun a pc hpc ↦ h.key a pc (hget a _ hpc).2, ?_, fun a ↦ .inl ?_,
    fun a ha ↦ ?_, fun a ha ↦ .inl ?_, doomed_set ht (by simp [Role.doomed])⟩
  · have := hmove a
    have := h.owner a
    omega
  · rintro a ⟨pc, hpc⟩
    exact .inl ⟨pc, (hget a _ hpc).2⟩
  · have := hmove a
    omega
  · dsimp only at ha
    rw [hcl] at ha
    rcases List.mem_cons.mp ha with rfl | ha
    · have := hmove a
      have := (h.recorded a hrec).1
      refine .inr ⟨by omega, ?_⟩
      rintro ⟨pc, hpc⟩
      exact (hget a _ hpc).1 rfl
    · exact .inl ha
  · obtain ⟨v, hv⟩ := Dict.mem_keys_iff.mp ha
    exact Dict.mem_keys_iff.mpr ⟨v, (hget a v hv).2⟩

/-- Taking back a connection that the task holds is safe. -/
theorem OwnershipInv.release {l : Ledger} {t : Nat} {c : Addr} {broken : Bool}
    (h : OwnershipInv l) (ht : l.roles[t]? = some (.holding c)) :
    Safe l ⟨(l.store.release c broken).1, l.roles.set t .idle⟩ := by
  rcases Store.release_cases l.store c broken with ⟨pc, hpc, he⟩ | ⟨_, he⟩
  · cases broken with
    | true =>
      rw [he]
      exact h.evict ht ⟨pc, hpc⟩ rfl rfl rfl
    | false =>
      rw [he]
      exact h.giveBack ht ⟨pc, hpc⟩ (by simp [Store.idle]) rfl rfl
  · rw [he]
    exact h.drop ht rfl (.inr ⟨c, rfl⟩) rfl

/-- A shutdown takes over everything that is idle or in use. -/
theorem OwnershipInv.drain {l : Ledger} {t : Nat} (h : OwnershipInv l)
    (ht : l.roles[t]? = some .idle) :
    OwnershipInv ⟨l.store.drain.1, l.roles.set t (.closer l.store.drain.2)⟩ := by
  have hmove := owner_move ht l.store.drain.1 (.closer l.store.drain.2)
  simp only [Role.owns, Role.unpublished, List.count_nil] at hmove
  have hidle (a : Addr) : l.store.drain.1.idle.count a = 0 := rfl
  refine ⟨fun a ↦ ?_, ?_, ?_, fun a ha ↦ ?_, fun q hq c hc ↦ ⟨?_, ?_⟩⟩
  · have := hmove a
    have := hidle a
    have := h.owner a
    omega
  · simp [Store.drain]
  · simp [Recorded, Store.drain]
  · have := hmove a
    have := hidle a
    have := h.closed a ha
    omega
  · have hmc := hmove c
    have hic := hidle c
    rcases List.mem_or_eq_of_mem_set hq with hq | rfl
    · have := (h.doomed q hq c hc).1
      omega
    · rcases List.mem_append.mp hc with hc | hc
      · -- an idle connection has no other owner, so nobody is about to publish it
        have hpos := List.count_pos_iff.mpr hc
        have hoc := h.owner c
        have hu : tally (fun r ↦ r.unpublished.count c) l.roles ≤
            tally (fun r ↦ r.owns.count c) l.roles :=
          tally_le_tally fun r ↦ by cases r <;> simp [Role.unpublished, Role.owns, List.count_cons]
        simp only [ownerCount] at hoc
        simp only [offerCount] at hmc ⊢
        omega
      · obtain ⟨a, pc, hpc, rfl⟩ := Store.exists_of_mem_used hc
        obtain rfl := h.key a pc hpc
        have := (h.recorded _ ⟨pc, hpc⟩).1
        omega
  · simp [Store.drain]

/-- Closing a doomed connection is safe. -/
theorem OwnershipInv.close {l : Ledger} {t : Nat} {c : Addr} {cs : List Addr}
    (h : OwnershipInv l) (ht : l.roles[t]? = some (.closer (c :: cs))) :
    Safe l ⟨l.store.close c, l.roles.set t (.closer cs)⟩ := by
  have hmove := owner_move ht (l.store.close c) (.closer cs)
  simp only [Role.owns, Role.unpublished, List.count_nil, Store.idle_close] at hmove
  obtain ⟨hoff, hkey⟩ := h.doomed _ (List.mem_of_getElem? ht) c (List.mem_cons_self ..)
  refine ⟨fun a ↦ ?_, h.key, fun a ha ↦ .inl ha, fun a ↦ .inl ?_, fun a ha ↦ ?_,
    fun a ha ↦ .inl ha, doomed_set ht fun a ha ↦ List.mem_cons_of_mem _ ha⟩
  · have := hmove a
    have := h.owner a
    omega
  · have := hmove a
    omega
  · rcases List.mem_cons.mp ha with rfl | ha
    · have := hmove a
      refine .inr ⟨by omega, ?_⟩
      rintro ⟨pc, hpc⟩
      exact hkey (Dict.mem_keys_iff.mpr ⟨_, hpc⟩)
    · exact .inl ha

/-- Every move by a task that acquired what it releases keeps the ownership invariant. -/
theorem OwnershipInv.move {l : Ledger} {t : Nat} {r r' : Role} {κ : Kind} {s' : Store}
    (h : OwnershipInv l) (ht : l.roles[t]? = some r) (hok : OwnReleases κ)
    (hm : Move l.live l.store r κ s' r') : OwnershipInv ⟨s', l.roles.set t r'⟩ := by
  cases hm with
  | hit htake => exact h.of_safe (h.hit ht htake)
  | reserve htake hk =>
    obtain ⟨-, -, rfl⟩ := Store.take_reserved htake
    exact h.of_safe (h.reserve ht hk)
  | create hc => exact h.of_safe (h.create ht hc)
  | publish => exact h.of_safe (h.publish ht)
  | @undo k => exact h.of_safe (h.drop ht rfl (.inr ⟨k, rfl⟩) rfl)
  | leak | leakMade | abandon | finish => exact h.of_safe (h.drop ht rfl (.inl rfl) rfl)
  | release => exact h.of_safe (h.release ht)
  | releaseStray | abandonStray => exact absurd rfl hok
  | drain => exact h.drain ht
  | close => exact h.of_safe (h.close ht)

/-- Every admitted ledger step keeps the ownership invariant. -/
theorem OwnershipInv.step {l l' : Ledger} {κ : Kind} (h : OwnershipInv l) (hok : OwnReleases κ)
    (hs : Step l κ l') : OwnershipInv l' := by
  cases hs with
  | move ht hm => exact h.move ht hok hm
  | join =>
    have ho (a : Addr) : (⟨l.store, l.roles ++ [.idle]⟩ : Ledger).offerCount a =
        l.offerCount a := by simp [offerCount, Role.unpublished]
    refine ⟨fun a ↦ ?_, h.key, fun a ha ↦ ?_, fun a ha ↦ ?_, fun q hq c hc ↦ ?_⟩
    · simpa [ownerCount, Role.owns] using h.owner a
    · rw [ho]
      exact h.recorded a ha
    · rw [ho]
      exact h.closed a ha
    · rw [ho]
      rcases List.mem_append.mp hq with hq | hq
      · exact h.doomed q hq c hc
      · obtain rfl := List.mem_singleton.mp hq
        simp [Role.doomed] at hc
  | stray => exact absurd rfl hok
  | adjust => exact ⟨h.owner, h.key, h.recorded, h.closed, h.doomed⟩
  | raise => exact ⟨h.owner, h.key, h.recorded, h.closed, h.doomed⟩

/-- The ownership invariant holds in every ledger without stray releases. -/
theorem OwnershipInv.of_reach {l : Ledger} {minConn maxConn : Nat}
    (h : Reach OwnReleases minConn maxConn l) : OwnershipInv l := by
  induction h with
  | new => exact ownershipInv_new _ _
  | step _ hok hs ih => exact ih.step hok hs

/-- Two tasks never hold the same connection. -/
theorem OwnershipInv.holder_unique {l : Ledger} (h : OwnershipInv l) {t u : Nat} {c : Addr}
    (ht : l.roles[t]? = some (.holding c)) (hu : l.roles[u]? = some (.holding c)) : t = u := by
  by_contra hne
  have hle := add_le_tally (w := fun r ↦ r.owns.count c) ht hu hne
  have hone : (Role.holding c).owns.count c = 1 := List.count_singleton_self
  have := h.owner c
  rw [ownerCount] at this
  omega

/-- No connection is idle twice. -/
theorem OwnershipInv.idle_nodup {l : Ledger} (h : OwnershipInv l) : l.store.idle.Nodup := by
  apply List.nodup_iff_count_le_one.mpr
  intro a
  have := h.owner a
  rw [ownerCount] at this
  omega

/-- No connection is both idle and in a task's hands. -/
theorem OwnershipInv.not_idle_of_holding {l : Ledger} (h : OwnershipInv l) {t : Nat} {c : Addr}
    (ht : l.roles[t]? = some (.holding c)) : c ∉ l.store.idle := by
  intro hi
  have hle := le_tally_of_getElem? (w := fun r ↦ r.owns.count c) ht
  have hone : (Role.holding c).owns.count c = 1 := List.count_singleton_self
  have hpos := List.count_pos_iff.mpr hi
  have howner := h.owner c
  rw [ownerCount] at howner
  omega

/-- No connection is both idle and in use. -/
theorem OwnershipInv.idle_disjoint {l : Ledger} (h : OwnershipInv l) {c : Addr}
    (hi : c ∈ l.store.idle) : c ∉ l.store.used := by
  intro hu
  obtain ⟨a, pc, hpc, rfl⟩ := Store.exists_of_mem_used hu
  obtain rfl := h.key a pc hpc
  have hz := (h.recorded _ ⟨pc, hpc⟩).1
  have hpos := List.count_pos_iff.mpr hi
  rw [offerCount] at hz
  omega

/-- A connection is open when it is handed out, from the idle list or fresh. -/
theorem OwnershipInv.open_of_handOut {l : Ledger} (h : OwnershipInv l) {t : Nat} {r : Role}
    {κ : Kind} {s' : Store} {c : Addr} (ht : l.roles[t]? = some r)
    (hm : Move l.live l.store r κ s' (.holding c)) :
    c ∉ l.store.closed ∧ c ∉ s'.closed := by
  cases hm with
  | hit htake =>
    obtain ⟨hperm, -, hcl, -⟩ := Store.take_hit htake
    have hpos : 0 < l.store.idle.count c :=
      List.count_pos_iff.mpr (hperm.mem_iff.mpr (List.mem_cons_self ..))
    have hn := (h.of_offer (a := c) (by rw [offerCount]; omega)).1
    exact ⟨hn, hcl ▸ hn⟩
  | @publish now k _ =>
    have hle := le_tally_of_getElem? (w := fun r ↦ r.unpublished.count c) ht
    have hone : (Role.made k c).unpublished.count c = 1 := List.count_singleton_self
    have hn := (h.of_offer (a := c) (by rw [offerCount]; omega)).1
    exact ⟨hn, hn⟩

/-- An address that has no owner is in nobody's hands. -/
theorem not_holding {l : Ledger} {c : Addr} (h : l.ownerCount c = 0) (u : Nat) :
    l.roles[u]? ≠ some (.holding c) := by
  intro hu
  have hle := le_tally_of_getElem? (w := fun r ↦ r.owns.count c) hu
  have hone : (Role.holding c).owns.count c = 1 := List.count_singleton_self
  rw [ownerCount] at h
  omega

/-- A connection that its holder lets go of, other than to the idle list, is nobody's. -/
theorem OwnershipInv.unowned_of_drop {l : Ledger} (h : OwnershipInv l) {t : Nat} {c : Addr}
    (ht : l.roles[t]? = some (.holding c)) {s' : Store} (hidle : s'.idle = l.store.idle) :
    (⟨s', l.roles.set t .idle⟩ : Ledger).ownerCount c = 0 := by
  have ho := (owner_move ht s' .idle c).1
  have hone : (Role.holding c).owns.count c = 1 := List.count_singleton_self
  have hnone : (Role.idle).owns.count c = 0 := rfl
  have howner := h.owner c
  rw [hidle] at ho
  omega

/-- Only a shutdown closes a connection that somebody has in hand. -/
theorem OwnershipInv.close_of_inHand {l : Ledger} (h : OwnershipInv l) {t : Nat} {r r' : Role}
    {κ : Kind} {s' : Store} {c : Addr} {u : Nat} (ht : l.roles[t]? = some r)
    (hok : OwnReleases κ) (hm : Move l.live l.store r κ s' r') (hc : c ∈ s'.closed)
    (hn : c ∉ l.store.closed) (hu : (l.roles.set t r')[u]? = some (.holding c)) :
    κ = .close := by
  cases hm with
  | hit htake =>
    obtain ⟨-, -, hcl, -⟩ := Store.take_hit htake
    exact absurd (hcl ▸ hc) hn
  | reserve htake =>
    obtain ⟨-, -, rfl⟩ := Store.take_reserved htake
    exact absurd hc hn
  | create => exact absurd (List.mem_of_mem_filter hc) hn
  | @release d broken =>
    -- The releaser was the only owner, so nobody has the evicted connection in hand.
    exfalso
    rcases Store.release_cases l.store d broken with ⟨pc, -, hrel⟩ | ⟨-, hrel⟩
    · rw [hrel] at hc
      cases broken with
      | false => exact hn hc
      | true =>
        rcases List.mem_cons.mp hc with rfl | hc
        · have hsame : (l.store.release c true).1.idle = l.store.idle :=
            Store.idle_release_broken l.store c
          exact not_holding (h.unowned_of_drop ht hsame) u hu
        · exact hn hc
    · rw [hrel] at hc
      exact hn hc
  | releaseStray => exact absurd rfl hok
  | close => rfl
  | _ => exact absurd hc hn

/-- A connection that comes into somebody's hands is open. -/
theorem Effect.open_of_handOut {ok : Kind → Prop} {l : Ledger} {t : Nat} {r : Role} {s' : Store}
    {c : Addr} (he : Effect ok l.live l.store r s' (.holding c)) (h : OwnershipInv l)
    (himp : ∀ κ, ok κ → OwnReleases κ) (ht : l.roles[t]? = some r) (hne : r ≠ .holding c) :
    c ∉ s'.closed := by
  cases he with
  | stay => exact absurd rfl hne
  | move _ hm => exact (h.open_of_handOut ht hm).2
  | pair hok hm _ hm' =>
    have h₁ := h.move ht (himp _ hok) hm
    exact (h₁.open_of_handOut (getElem?_set_of_some ht _) (hm' _)).2
  | raise => exact absurd rfl hne

/-- An effect without a step of a shutdown closes no connection that somebody has in hand. -/
theorem Effect.closed_of_inHand {ok : Kind → Prop} {l : Ledger} {t : Nat} {r r' : Role}
    {s' : Store} {c : Addr} {u : Nat} (he : Effect ok l.live l.store r s' r')
    (h : OwnershipInv l) (himp : ∀ κ, ok κ → OwnReleases κ ∧ κ ≠ .close)
    (ht : l.roles[t]? = some r) (hc : c ∈ s'.closed)
    (hu : (l.roles.set t r')[u]? = some (.holding c)) : c ∈ l.store.closed := by
  by_contra hn
  cases he with
  | stay => exact hn hc
  | move hok hm =>
    obtain ⟨hown, hne⟩ := himp _ hok
    exact hne (h.close_of_inHand ht hown hm hc hn hu)
  | raise => exact hn hc
  | @pair κ κ' s₁ _ r₁ _ hok hm hok' hm' =>
    obtain ⟨hown, hne⟩ := himp _ hok
    obtain ⟨hown', hne'⟩ := himp _ hok'
    have h₁ := h.move ht hown hm
    have ht₁ := getElem?_set_of_some ht r₁
    rw [← List.set_set (a := r₁)] at hu
    by_cases hc₁ : c ∈ s₁.closed
    · by_cases hut : u = t
      · rw [hut, getElem?_set_of_some ht₁] at hu
        obtain rfl := Option.some.inj hu
        exact (h₁.open_of_handOut ht₁ (hm' _)).2 hc
      · rw [List.getElem?_set_ne (Ne.symm hut)] at hu
        exact hne (h.close_of_inHand ht hown hm hc₁ hn hu)
    · exact hne' (h₁.close_of_inHand ht₁ hown' (hm' _) hc hc₁ hu)

/-- A move gives no owner to an unowned address at which nothing is created. -/
theorem unowned_of_move {l : Ledger} {t : Nat} {r r' : Role} {κ : Kind} {s' : Store}
    {live : List Addr} {a : Addr} (ht : l.roles[t]? = some r) (hok : OwnReleases κ)
    (hm : Move live l.store r κ s' r') (ha : a ∈ live) (hz : l.ownerCount a = 0) :
    (⟨s', l.roles.set t r'⟩ : Ledger).ownerCount a = 0 := by
  have ho := (owner_move ht s' r' a).1
  have hr : r.owns.count a ≤ tally (fun r ↦ r.owns.count a) l.roles :=
    le_tally_of_getElem? (w := fun r ↦ r.owns.count a) ht
  have hzero := hz
  rw [ownerCount] at hzero
  have hne {b : Addr} (hb : b ∉ live) : b ≠ a := by
    rintro rfl
    exact hb ha
  cases hm with
  | @hit now k c s' htake =>
    obtain ⟨hperm, -⟩ := Store.take_hit htake
    have hc := hperm.count_eq a
    simp only [Role.owns, List.count_nil, List.count_cons, beq_iff_eq] at ho hc
    split at hc <;> simp_all
  | reserve htake hk =>
    obtain ⟨-, -, rfl⟩ := Store.take_reserved htake
    simp only [Role.owns, List.count_nil, List.count_cons, beq_iff_eq, if_neg (hne hk),
      Store.idle_reserve] at ho
    omega
  | create hc =>
    simp only [Role.owns, List.count_nil, List.count_cons, beq_iff_eq, if_neg (hne hc),
      Store.idle_allocate] at ho
    omega
  | @release c broken =>
    simp only [Role.owns, List.count_nil, List.count_cons, beq_iff_eq] at ho hr
    rcases Store.idle_release l.store c broken with hi | ⟨hi, -⟩
    · rw [hi] at ho
      omega
    · rw [hi, List.count_append, List.count_singleton] at ho
      simp only [beq_iff_eq] at ho
      omega
  | releaseStray => exact absurd rfl hok
  | drain =>
    have hi : (l.store.drain.1).idle.count a = 0 := rfl
    simp only [Role.owns, List.count_nil] at ho
    omega
  | _ =>
    simp only [Role.owns, List.count_nil, List.count_cons, Store.idle_undo, Store.idle_publish,
      Store.idle_close] at ho hr
    omega

/-- An effect gives no owner to an unowned address at which nothing is created. -/
theorem Effect.unowned {ok : Kind → Prop} {live : List Addr} {l : Ledger} {t : Nat}
    {r r' : Role} {s' : Store} {a : Addr} (he : Effect ok live l.store r s' r')
    (himp : ∀ κ, ok κ → OwnReleases κ) (ht : l.roles[t]? = some r) (ha : a ∈ live)
    (hz : l.ownerCount a = 0) : (⟨s', l.roles.set t r'⟩ : Ledger).ownerCount a = 0 := by
  cases he with
  | stay | raise =>
    have ho := (owner_move ht l.store r a).1
    show (⟨l.store, l.roles.set t r⟩ : Ledger).ownerCount a = 0
    omega
  | move hok hm => exact unowned_of_move ht (himp _ hok) hm ha hz
  | @pair κ κ' s₁ _ r₁ _ hok hm hok' hm' =>
    have h₁ := unowned_of_move ht (himp _ hok) hm ha hz
    have h₂ := unowned_of_move (getElem?_set_of_some ht r₁) (himp _ hok') (hm' live) ha h₁
    rw [List.set_set] at h₂
    exact h₂

end Ledger
end SalesData.Pool

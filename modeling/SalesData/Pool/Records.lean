import SalesData.Pool.Ownership

/-!
# What `_in_use` records

As long as no new object is placed at a key that a lost placeholder has left behind, every
connection in somebody's hand has its record, every reservation has its key, and a connection
that may still be handed out has no key at all. This fixes how each operation changes the length of
`_in_use`, and with it the number of callers that the pool could serve at once.
-/

namespace SalesData.Pool

open Base

namespace Ledger

/-- A step in which new objects avoid the keys of `_in_use`, too. -/
def occupied (l : Ledger) : List Addr := l.live ++ l.store.inUse.keys

/-- Held connections are recorded, placeholders have keys, connections on offer have none. -/
structure TidyInv (l : Ledger) : Prop where
  offered : ∀ a, 0 < l.offerCount a → a ∉ l.store.inUse.keys
  held : ∀ (t : Nat) (c : Addr), l.roles[t]? = some (.holding c) → l.Recorded c
  reserved : ∀ (t : Nat) (r : Role), l.roles[t]? = some r →
    ∀ k ∈ r.placeholders, k ∈ l.store.inUse.keys

/-- An empty pool is tidy. -/
theorem tidyInv_new (minConn maxConn : Nat) : TidyInv (new minConn maxConn) where
  offered := by simp [new, Store.new]
  held := by simp [new]
  reserved := by simp [new]

/-- Different tasks own different addresses. -/
theorem OwnershipInv.owns_ne {l : Ledger} (h : OwnershipInv l) {t u : Nat} {r q : Role}
    {a c : Addr} (ht : l.roles[t]? = some r) (ha : a ∈ r.owns) (hu : l.roles[u]? = some q)
    (hc : c ∈ q.owns) (hne : u ≠ t) : c ≠ a := by
  rintro rfl
  have hle := add_le_tally (w := fun r ↦ r.owns.count c) ht hu (Ne.symm hne)
  have hr := List.count_pos_iff.mpr ha
  have hq := List.count_pos_iff.mpr hc
  have hone := h.owner c
  rw [ownerCount] at hone
  omega

/-- A task owns its placeholders. -/
theorem placeholders_subset (r : Role) : ∀ k ∈ r.placeholders, k ∈ r.owns := by
  cases r <;> simp [Role.placeholders, Role.owns]

/-- A held connection is live. -/
theorem held_live {l : Ledger} {u : Nat} {c : Addr} (hu : l.roles[u]? = some (.holding c)) :
    c ∈ l.live := by
  apply List.mem_append_left
  apply List.mem_append_left
  exact List.mem_flatMap.mpr ⟨_, List.mem_of_getElem? hu, List.mem_singleton.mpr rfl⟩

/-- A placeholder is live. -/
theorem placeholder_live {l : Ledger} {u : Nat} {q : Role} {k : Addr}
    (hu : l.roles[u]? = some q) (hk : k ∈ q.placeholders) : k ∈ l.live := by
  apply List.mem_append_left
  apply List.mem_append_left
  exact List.mem_flatMap.mpr ⟨_, List.mem_of_getElem? hu, List.mem_append_left _ hk⟩

/-- A tidy ledger stays tidy when one task's step adds offers at free keys only, adds keys that
are not on offer, and keeps what `_in_use` has on other tasks. -/
theorem TidyInv.of_frame {l : Ledger} {t : Nat} {r r' : Role} {s' : Store} (h : TidyInv l)
    (ht : l.roles[t]? = some r)
    (hoffer : ∀ a, 0 < (⟨s', l.roles.set t r'⟩ : Ledger).offerCount a → a ∉ s'.inUse.keys)
    (hself : ∀ c, r' = .holding c → ∃ pc, s'.inUse.get? c = some (some pc))
    (hplace : ∀ k ∈ r'.placeholders, k ∈ s'.inUse.keys)
    (hothers : ∀ u q a, u ≠ t → l.roles[u]? = some q → a ∈ q.owns → a ∈ l.live →
      (l.Recorded a → ∃ pc, s'.inUse.get? a = some (some pc)) ∧
        (a ∈ l.store.inUse.keys → a ∈ s'.inUse.keys)) :
    TidyInv ⟨s', l.roles.set t r'⟩ := by
  refine ⟨hoffer, fun u c hu ↦ ?_, fun u q hu k hk ↦ ?_⟩
  · by_cases hut : u = t
    · rw [hut, getElem?_set_of_some ht] at hu
      exact hself c (Option.some.inj hu)
    · rw [List.getElem?_set_ne (Ne.symm hut)] at hu
      exact (hothers u _ c hut hu (List.mem_singleton.mpr rfl) (held_live hu)).1 (h.held u c hu)
  · by_cases hut : u = t
    · rw [hut, getElem?_set_of_some ht] at hu
      obtain rfl := Option.some.inj hu
      exact hplace k hk
    · rw [List.getElem?_set_ne (Ne.symm hut)] at hu
      exact (hothers u q k hut hu (placeholders_subset q k hk) (placeholder_live hu hk)).2
        (h.reserved u q hu k hk)

private theorem record_set {d : Dict Addr (Option PoolConnection)} {c a : Addr}
    {pc₀ : PoolConnection} (h : ∃ pc, d.get? a = some (some pc)) :
    ∃ pc, (d.set c (some pc₀)).get? a = some (some pc) := by
  rw [Dict.get?_set]
  split
  · exact ⟨pc₀, rfl⟩
  · exact h

private theorem record_pop {d : Dict Addr (Option PoolConnection)} {k a : Addr} (hne : a ≠ k)
    (h : ∃ pc, d.get? a = some (some pc)) : ∃ pc, (d.pop k).get? a = some (some pc) := by
  rw [Dict.get?_pop, if_neg hne]
  exact h

section Moves

variable {l : Ledger} {t : Nat} {k c : Addr}

/-- Handing out an idle connection records it. -/
theorem TidyInv.hit {s' : Store} {now : Time} (h : TidyInv l) (ht : l.roles[t]? = some .idle)
    (ho' : OwnershipInv ⟨s', l.roles.set t (.holding c)⟩)
    (htake : l.store.take now k = (s', .hit c)) : TidyInv ⟨s', l.roles.set t (.holding c)⟩ := by
  obtain ⟨hperm, hin, -, -⟩ := Store.take_hit htake
  have hrec : ∃ pc, s'.inUse.get? c = some (some pc) :=
    ⟨_, by rw [hin, Dict.get?_set, if_pos rfl]⟩
  apply h.of_frame ht
  · intro a ha
    rw [hin, Dict.mem_keys_set]
    rintro (rfl | hk)
    · have := (ho'.recorded a hrec).1
      omega
    · have hidle := hperm.count_eq a
      have hsame := (owner_move ht s' (.holding c) a).2
      simp only [Role.unpublished, List.count_nil] at hsame
      rw [List.count_cons] at hidle
      exact h.offered a (by omega) hk
  · intro d hd
    obtain rfl := Role.holding.inj hd
    exact hrec
  · simp [Role.placeholders]
  · intro u q a _ _ _ _
    rw [hin]
    exact ⟨record_set, fun hk ↦ Dict.mem_keys_set.mpr (.inr hk)⟩

/-- A reservation's key was on nobody's offer. -/
theorem TidyInv.reserve (h : TidyInv l) (ht : l.roles[t]? = some .idle) (hdead : k ∉ l.live) :
    TidyInv ⟨l.store.reserve k, l.roles.set t (.reserving k)⟩ := by
  have hz := ownerCount_eq_zero hdead
  apply h.of_frame ht
  · intro a ha
    have hsame := (owner_move ht (l.store.reserve k) (.reserving k) a).2
    simp only [Role.unpublished, List.count_nil, Store.idle_reserve] at hsame
    rw [Store.inUse_reserve, Dict.mem_keys_set]
    rintro (rfl | hkey)
    · have := l.offerCount_le a
      omega
    · exact h.offered a (by omega) hkey
  · intro c hc
    cases hc
  · intro k' hk'
    rw [List.mem_singleton.mp hk', Store.inUse_reserve]
    exact Dict.mem_keys_set.mpr (.inl rfl)
  · intro u q a _ _ _ hlive
    rw [Store.inUse_reserve]
    refine ⟨fun hrec ↦ ?_, fun hkey ↦ Dict.mem_keys_set.mpr (.inr hkey)⟩
    rw [Dict.get?_set, if_neg]
    · exact hrec
    · rintro rfl
      exact hdead hlive

/-- A new connection is on offer, at an address that is no key. -/
theorem TidyInv.create (h : TidyInv l) (ht : l.roles[t]? = some (.reserving k))
    (hc : c ∉ l.store.inUse.keys) :
    TidyInv ⟨l.store.allocate c, l.roles.set t (.made k c)⟩ := by
  apply h.of_frame ht
  · intro a ha
    have hsame := (owner_move ht (l.store.allocate c) (.made k c) a).2
    simp only [Role.unpublished, List.count_nil, List.count_cons, Store.idle_allocate,
      beq_iff_eq] at hsame
    rw [Store.inUse_allocate]
    by_cases hac : c = a
    · subst hac
      exact hc
    · rw [if_neg hac] at hsame
      exact h.offered a (by omega)
  · intro d hd
    cases hd
  · exact h.reserved t (.reserving k) ht
  · exact fun u q a _ _ _ _ ↦ ⟨id, id⟩

/-- Publishing replaces the placeholder's key, which is its task's own, by a record. -/
theorem TidyInv.publish {now : Time} (h : TidyInv l) (ho : OwnershipInv l)
    (ht : l.roles[t]? = some (.made k c))
    (ho' : OwnershipInv ⟨l.store.publish now k c, l.roles.set t (.holding c)⟩) :
    TidyInv ⟨l.store.publish now k c, l.roles.set t (.holding c)⟩ := by
  have hrec : ∃ pc, (l.store.publish now k c).inUse.get? c = some (some pc) :=
    ⟨_, by rw [Store.inUse_publish, Dict.get?_set, if_pos rfl]⟩
  apply h.of_frame ht
  · intro a ha
    have hsame := (owner_move ht (l.store.publish now k c) (.holding c) a).2
    simp only [Role.unpublished, List.count_nil, Store.idle_publish] at hsame
    rw [Store.inUse_publish, Dict.mem_keys_set]
    rintro (rfl | hkey)
    · have := (ho'.recorded a hrec).1
      omega
    · exact h.offered a (by omega) (Dict.mem_keys_pop.mp hkey).1
  · intro d hd
    obtain rfl := Role.holding.inj hd
    exact hrec
  · simp [Role.placeholders]
  · intro u q a hut hu ha _
    have hne := ho.owns_ne ht (a := k) (by simp [Role.owns]) hu ha hut
    rw [Store.inUse_publish]
    exact ⟨fun hr ↦ record_set (record_pop hne hr),
      fun hk ↦ Dict.mem_keys_set.mpr (.inr (Dict.mem_keys_pop.mpr ⟨hk, hne⟩))⟩

/-- A placeholder that is given back is its task's own. -/
theorem TidyInv.undo (h : TidyInv l) (ho : OwnershipInv l)
    (ht : l.roles[t]? = some (.reserving k)) :
    TidyInv ⟨l.store.undo k, l.roles.set t .idle⟩ := by
  apply h.of_frame ht
  · intro a ha
    have hsame := (owner_move ht (l.store.undo k) .idle a).2
    simp only [Role.unpublished, List.count_nil, Store.idle_undo] at hsame
    rw [Store.inUse_undo]
    intro hkey
    exact h.offered a (by omega) (Dict.mem_keys_pop.mp hkey).1
  · intro d hd
    cases hd
  · simp [Role.placeholders]
  · intro u q a hut hu ha _
    have hne := ho.owns_ne ht (a := k) (by simp [Role.owns]) hu ha hut
    rw [Store.inUse_undo]
    exact ⟨record_pop hne, fun hk ↦ Dict.mem_keys_pop.mpr ⟨hk, hne⟩⟩

/-- A connection that is released leaves its key before it is on offer again. -/
theorem TidyInv.release (h : TidyInv l) (ho : OwnershipInv l)
    (ht : l.roles[t]? = some (.holding c)) (broken : Bool) :
    TidyInv ⟨(l.store.release c broken).1, l.roles.set t .idle⟩ := by
  have hin := (Store.release_frame l.store c broken).1
  apply h.of_frame ht
  · intro a ha
    have hsame := (owner_move ht (l.store.release c broken).1 .idle a).2
    simp only [Role.unpublished, List.count_nil] at hsame
    rw [hin]
    intro hkey
    obtain ⟨hmem, hne⟩ := Dict.mem_keys_pop.mp hkey
    have hidle : (l.store.release c broken).1.idle.count a = l.store.idle.count a := by
      rcases Store.idle_release l.store c broken with hi | ⟨hi, -⟩
      · rw [hi]
      · rw [hi, List.count_append, List.count_singleton, if_neg (by simpa using Ne.symm hne),
          Nat.add_zero]
    exact h.offered a (by omega) hmem
  · intro d hd
    cases hd
  · simp [Role.placeholders]
  · intro u q a hut hu ha _
    have hne := ho.owns_ne ht (a := c) (by simp [Role.owns]) hu ha hut
    rw [hin]
    exact ⟨record_pop hne, fun hk ↦ Dict.mem_keys_pop.mpr ⟨hk, hne⟩⟩

/-- A task may end at any time. -/
theorem TidyInv.quit {r : Role} (h : TidyInv l) (ht : l.roles[t]? = some r) :
    TidyInv ⟨l.store, l.roles.set t .idle⟩ := by
  apply h.of_frame ht
  · intro a ha
    have hsame := (owner_move ht l.store .idle a).2
    simp only [Role.unpublished, List.count_nil] at hsame
    exact h.offered a (by omega)
  · intro d hd
    cases hd
  · simp [Role.placeholders]
  · exact fun u q a _ _ _ _ ↦ ⟨id, id⟩

/-- Closing a connection changes neither keys nor offers. -/
theorem TidyInv.close {cs : List Addr} (h : TidyInv l)
    (ht : l.roles[t]? = some (.closer (c :: cs))) :
    TidyInv ⟨l.store.close c, l.roles.set t (.closer cs)⟩ := by
  apply h.of_frame ht
  · intro a ha
    have hsame := (owner_move ht (l.store.close c) (.closer cs) a).2
    simp only [Role.unpublished, List.count_nil, Store.idle_close] at hsame
    exact h.offered a (by omega)
  · intro d hd
    cases hd
  · simp [Role.placeholders]
  · exact fun u q a _ _ _ _ ↦ ⟨id, id⟩

/-- Every move of a task that releases its own connections keeps a ledger tidy, as long as new
objects avoid the keys of `_in_use`. -/
theorem TidyInv.move {r r' : Role} {κ : Kind} {s' : Store} (h : TidyInv l) (ho : OwnershipInv l)
    (ht : l.roles[t]? = some r) (hok : OwnReleases κ ∧ κ ≠ .drain)
    (hm : Move l.occupied l.store r κ s' r') : TidyInv ⟨s', l.roles.set t r'⟩ := by
  have ho' := ho.move ht hok.1 (hm.mono fun a ha ↦ List.mem_append_left _ ha)
  cases hm with
  | hit htake => exact h.hit ht ho' htake
  | reserve htake hk =>
    obtain ⟨-, -, rfl⟩ := Store.take_reserved htake
    exact h.reserve ht fun hl ↦ hk (List.mem_append_left _ hl)
  | create hc => exact h.create ht fun hkey ↦ hc (List.mem_append_right _ hkey)
  | publish => exact h.publish ho ht ho'
  | undo => exact h.undo ho ht
  | @release c broken => exact h.release ho ht broken
  | leak | leakMade | abandon | finish => exact h.quit ht
  | close => exact h.close ht
  | releaseStray | abandonStray => exact absurd rfl hok.1
  | drain => exact absurd rfl hok.2

end Moves

/-- Effects of tasks that release their own connections keep a ledger tidy. -/
theorem TidyInv.effect {ok : Kind → Prop} {l : Ledger} {t : Nat} {r r' : Role} {s' : Store}
    (h : TidyInv l) (ho : OwnershipInv l) (ht : l.roles[t]? = some r)
    (himp : ∀ κ, ok κ → OwnReleases κ ∧ κ ≠ .drain)
    (he : Effect ok l.occupied l.store r s' r') : TidyInv ⟨s', l.roles.set t r'⟩ := by
  have hself : l.roles.set t r = l.roles := by
    obtain ⟨hlt, hr⟩ := List.getElem?_eq_some_iff.mp ht
    rw [← hr, List.set_getElem_self]
  cases he with
  | stay =>
    rw [hself]
    exact h
  | move hok hm => exact h.move ho ht (himp _ hok) hm
  | @pair κ κ' s₁ _ r₁ _ hok hm hok' hm' =>
    have ho₁ := ho.move ht (himp _ hok).1 (hm.mono fun a ha ↦ List.mem_append_left _ ha)
    have h₁ := (h.move ho ht (himp _ hok) hm).move ho₁ (getElem?_set_of_some ht r₁)
      (himp _ hok') (hm' _)
    rw [List.set_set] at h₁
    exact h₁
  | raise =>
    rw [hself]
    exact ⟨h.offered, h.held, h.reserved⟩

/-- A task that joins with nothing in hand keeps a ledger tidy. -/
theorem TidyInv.join {l : Ledger} (h : TidyInv l) : TidyInv ⟨l.store, l.roles ++ [.idle]⟩ := by
  have hold {u : Nat} {q : Role} (hu : (l.roles ++ [.idle])[u]? = some q) :
      l.roles[u]? = some q ∨ q = .idle := by
    by_cases hlt : u < l.roles.length
    · rw [List.getElem?_append_left hlt] at hu
      exact .inl hu
    · rw [List.getElem?_append_right (by omega)] at hu
      exact .inr (List.mem_singleton.mp (List.mem_of_getElem? hu))
  refine ⟨fun a ha ↦ h.offered a ?_, fun u c hu ↦ ?_, fun u q hu k hk ↦ ?_⟩
  · simpa [offerCount, Role.unpublished] using ha
  · rcases hold hu with hu | hu
    · exact h.held u c hu
    · cases hu
  · rcases hold hu with hu | rfl
    · exact h.reserved u q hu k hk
    · cases hk

/-- Handing out an idle connection takes one key more. -/
theorem TidyInv.len_hit {l : Ledger} (h : TidyInv l) {s' : Store} {now : Time} {k c : Addr}
    (htake : l.store.take now k = (s', .hit c)) :
    s'.inUse.len = l.store.inUse.len + 1 ∧ l.store.available.length = s'.available.length + 1 := by
  obtain ⟨hperm, hin, -, -⟩ := Store.take_hit htake
  have hcount := hperm.count_eq c
  rw [List.count_cons_self] at hcount
  have hkey := h.offered c (by rw [offerCount]; omega)
  have hlen := hperm.length_eq
  rw [List.length_cons, Store.length_idle, Store.length_idle] at hlen
  rw [hin, Dict.len_set, if_neg hkey]
  exact ⟨rfl, hlen⟩

/-- Publishing exchanges one key for another. -/
theorem TidyInv.len_publish {l : Ledger} (h : TidyInv l) {t : Nat} {now : Time} {k c : Addr}
    (ht : l.roles[t]? = some (.made k c)) :
    (l.store.publish now k c).inUse.len = l.store.inUse.len := by
  have hk := h.reserved t _ ht k (List.mem_singleton.mpr rfl)
  have hle := le_tally_of_getElem? (w := fun r ↦ r.unpublished.count c) ht
  have hone : (Role.made k c).unpublished.count c = 1 := List.count_singleton_self
  have hc := h.offered c (by rw [offerCount]; omega)
  have hpos := List.length_pos_of_mem hk
  rw [Dict.length_keys] at hpos
  rw [Store.inUse_publish, Dict.len_set, Dict.len_pop, if_pos hk, if_neg]
  · omega
  · exact fun hmem ↦ hc (Dict.mem_keys_pop.mp hmem).1

/-- Releasing a held connection takes one key away, and the release finds its record. -/
theorem TidyInv.len_release {l : Ledger} (h : TidyInv l) {t : Nat} {c : Addr} (broken : Bool)
    (ht : l.roles[t]? = some (.holding c)) :
    (l.store.release c broken).2 = true ∧
      (l.store.release c broken).1.inUse.len + 1 = l.store.inUse.len ∧
      (l.store.release c broken).1.available.length ≤ l.store.available.length + 1 := by
  obtain ⟨pc, hpc⟩ := h.held t c ht
  have hkey : c ∈ l.store.inUse.keys := Dict.mem_keys_iff.mpr ⟨_, hpc⟩
  have hpos := List.length_pos_of_mem hkey
  rw [Dict.length_keys] at hpos
  have hpop := Dict.len_pop l.store.inUse c
  rw [if_pos hkey] at hpop
  rcases Store.release_cases l.store c broken with ⟨pc', -, hrel⟩ | ⟨hnone, -⟩
  · rw [hrel]
    cases broken with
    | false =>
      refine ⟨rfl, ?_, ?_⟩
      · show (l.store.inUse.pop c).len + 1 = l.store.inUse.len
        omega
      · simp
    | true =>
      refine ⟨rfl, ?_, ?_⟩
      · show (l.store.inUse.pop c).len + 1 = l.store.inUse.len
        omega
      · simp
  · exact absurd hpc (hnone pc)

end Ledger

/-- How many callers the pool could serve at once, from the idle connections or from the slots
below the current size, whichever are more. -/
def Store.spare (s : Store) : Nat := max s.available.length (s.sizer.current - s.inUse.len)

/-- Nothing is spare exactly when nothing is idle and no slot is left. -/
theorem Store.spare_eq_zero {s : Store} :
    s.spare = 0 ↔ s.available = [] ∧ s.sizer.current ≤ s.inUse.len := by
  rw [spare, ← List.length_eq_zero_iff]
  omega

/-- A full pool has nothing to spare. -/
theorem Store.spare_full {s s' : Store} {now : Time} {k : Addr}
    (h : s.take now k = (s', .full)) : s'.spare = 0 := by
  obtain ⟨ha, hle, rfl⟩ := Store.take_full h
  exact Store.spare_eq_zero.mpr ⟨ha, hle⟩

/-- A reservation uses up one spare slot. -/
theorem Store.spare_reserved {s s' : Store} {now : Time} {k : Addr}
    (h : s.take now k = (s', .reserved)) (hk : k ∉ s.inUse.keys) : s'.spare + 1 = s.spare := by
  obtain ⟨ha, hlt, rfl⟩ := Store.take_reserved h
  have hlen : (s.reserve k).inUse.len = s.inUse.len + 1 := by
    rw [Store.inUse_reserve, Dict.len_set, if_neg hk]
  have hav : (s.reserve k).available.length = s.available.length := rfl
  have hsz : (s.reserve k).sizer = s.sizer := rfl
  rw [← List.length_eq_zero_iff] at ha
  rw [spare, spare, hlen, hav, hsz]
  omega

/-- A hit uses up one spare connection, and the slot that it was in. -/
theorem Ledger.TidyInv.spare_hit {l : Ledger} (h : l.TidyInv) {s' : Store} {now : Time}
    {k c : Addr} (htake : l.store.take now k = (s', .hit c)) : s'.spare + 1 = l.store.spare := by
  obtain ⟨hlen, hav⟩ := h.len_hit htake
  obtain ⟨-, -, -, hsz⟩ := Store.take_hit htake
  rw [Store.spare, Store.spare, hlen, hav, hsz]
  omega

/-- Publishing a connection changes nothing for other callers. -/
theorem Ledger.TidyInv.spare_publish {l : Ledger} (h : l.TidyInv) {t : Nat} {now : Time}
    {k c : Addr} (ht : l.roles[t]? = some (.made k c)) :
    (l.store.publish now k c).spare = l.store.spare := by
  have hlen : (l.store.publish now k c).inUse.len = l.store.inUse.len := h.len_publish ht
  have hav : (l.store.publish now k c).available = l.store.available := rfl
  have hsz : (l.store.publish now k c).sizer = l.store.sizer := rfl
  rw [Store.spare, Store.spare, hlen, hav, hsz]

/-- A release lets the pool serve at most one caller more. -/
theorem Ledger.TidyInv.spare_release {l : Ledger} (h : l.TidyInv) {t : Nat} {c : Addr}
    (broken : Bool) (ht : l.roles[t]? = some (.holding c)) :
    (l.store.release c broken).1.spare ≤ l.store.spare + 1 := by
  obtain ⟨-, hlen, hav⟩ := h.len_release broken ht
  have hsz := (Store.release_frame l.store c broken).2
  rw [Store.spare, Store.spare, hsz]
  omega

end SalesData.Pool

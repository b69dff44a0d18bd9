import SalesData.Base.System
import SalesData.Pool.Ownership

/-!
# Rotation of the idle connections

An idle connection is keyed by the time of its last hand-out and by a counter stamped when it
came back, `core/db/pool/async_pool.py:84–91,191–211`, `core/db/pool/sync_pool.py:72–80,150–174`.
As long as the clock does not go back, whoever was idle while `c` was handed out stays in front
of `c`.
-/

namespace SalesData.Pool

open Base

/-- A step hands out `c`: `_in_use` has a record of it now and had none before. -/
structure HandsOut (s s' : Store) (c : Addr) : Prop where
  before : ∀ pc, s.inUse.get? c ≠ some (some pc)
  after : ∃ pc, s'.inUse.get? c = some (some pc)

namespace Store

/-- A hit pops the entry with the least key. -/
theorem take_oldest {s s' : Store} {now : Time} {k c : Addr} (h : s.take now k = (s', .hit c)) :
    ∃ e, e.conn = c ∧ s.available.Perm (e :: s'.available) ∧
      (∀ e' ∈ s.available, e.key ≤ e'.key) ∧ s'.counter = s.counter ∧
      s'.inUse = s.inUse.set c (some ⟨now, c, now, .inUse, 0⟩) := by
  unfold take at h
  split at h
  · next e rest hpop =>
    obtain ⟨rfl, he⟩ := Prod.mk.inj h
    obtain rfl := Taken.hit.inj he
    exact ⟨e, rfl, heappop_perm hpop, fun _ ↦ heappop_le hpop, rfl, rfl⟩
  · split at h
    · exact absurd (Prod.mk.inj h).2 (by simp)
    · exact absurd (Prod.mk.inj h).2 (by simp)

end Store

/-- What one uninterrupted stretch of a task does to the store, with the clock at `now`, and to
the connections that the task has created and not published. -/
inductive Turn (now : Time) (live : List Addr) (s : Store) :
    List Addr → Store → List Addr → Prop
  | hit {k c : Addr} {s' : Store} : s.take now k = (s', .hit c) → Turn now live s [] s' []
  | create {c : Addr} : c ∉ live → Turn now live s [] (s.allocate c) [c]
  | publish {k c : Addr} {us : List Addr} {s' : Store} :
      us = [c] ∨ us = [] ∧ c ∉ live → s'.available = s.available → s'.counter = s.counter →
      s'.inUse = (s.inUse.pop k).set c (some ⟨now, c, now, .inUse, 0⟩) → Turn now live s us s' []
  | giveBack {c : Addr} {pc : PoolConnection} {s' : Store} :
      s.inUse.get? c = some (some pc) →
      s'.available = s.available ++ [⟨pc.createdAt, s.counter, c⟩] → s'.counter = s.counter + 1 →
      s'.inUse = s.inUse.pop c → Turn now live s [] s' []
  | fade {us us' : List Addr} {s' : Store} :
      s'.available = s.available ∨ s'.available = [] → s'.counter = s.counter →
      (∀ a pc, s'.inUse.get? a = some (some pc) → s.inUse.get? a = some (some pc)) →
      us' = us ∨ us' = [] → Turn now live s us s' us'

/-- A release gives a recorded connection back, or makes it fade. -/
theorem turn_release (now : Time) (live : List Addr) (s : Store) (c : Addr) (broken : Bool) :
    Turn now live s [] (s.release c broken).1 [] := by
  have hpop (a : Addr) (pc : PoolConnection) (h : (s.inUse.pop c).get? a = some (some pc)) :
      s.inUse.get? a = some (some pc) := (Dict.get?_of_pop h).2
  rcases Store.release_cases s c broken with ⟨pc, hpc, hrel⟩ | ⟨-, hrel⟩
  · rw [hrel]
    cases broken with
    | true => exact .fade (.inl rfl) rfl hpop (.inl rfl)
    | false => exact .giveBack hpc rfl rfl rfl
  · rw [hrel]
    exact .fade (.inl rfl) rfl hpop (.inl rfl)

private theorem record_of_set {d e : Dict Addr (Option PoolConnection)} {now : Time} {c a : Addr}
    {pc : PoolConnection} (he : ∀ a pc, e.get? a = some (some pc) → d.get? a = some (some pc))
    (h : (e.set c (some ⟨now, c, now, .inUse, 0⟩)).get? a = some (some pc)) :
    d.get? a = some (some pc) ∨ a = c ∧ pc = ⟨now, a, now, .inUse, 0⟩ := by
  rw [Dict.get?_set] at h
  split at h
  · next hac =>
    obtain rfl := Option.some.inj (Option.some.inj h)
    exact .inr ⟨hac, by rw [hac]⟩
  · exact .inl (he a pc h)

/-- A record after a turn is an old one or stamped with the time of the turn. -/
theorem Turn.record {now : Time} {live us us' : List Addr} {s s' : Store}
    (h : Turn now live s us s' us') {a : Addr} {pc : PoolConnection}
    (hpc : s'.inUse.get? a = some (some pc)) :
    s.inUse.get? a = some (some pc) ∨ pc.createdAt = now := by
  cases h with
  | hit htake =>
    obtain ⟨_, rfl, -, -, -, hin⟩ := Store.take_oldest htake
    rw [hin] at hpc
    rcases record_of_set (fun _ _ ↦ id) hpc with hold | ⟨-, rfl⟩
    · exact .inl hold
    · exact .inr rfl
  | create => exact .inl hpc
  | publish _ _ _ hin =>
    rw [hin] at hpc
    rcases record_of_set (fun _ _ hp ↦ (Dict.get?_of_pop hp).2) hpc with hold | ⟨-, rfl⟩
    · exact .inl hold
    · exact .inr rfl
  | giveBack _ _ _ hin =>
    rw [hin] at hpc
    exact .inl (Dict.get?_of_pop hpc).2
  | fade _ _ hrec => exact .inl (hrec a pc hpc)

/-- An entry after a turn is an old one, or takes its stamp from a record. -/
theorem Turn.entry {now : Time} {live us us' : List Addr} {s s' : Store}
    (h : Turn now live s us s' us') {e : Idle} (he : e ∈ s'.available) :
    e ∈ s.available ∨ ∃ pc, s.inUse.get? e.conn = some (some pc) ∧
      e.createdAt = pc.createdAt ∧ e.counter = s.counter := by
  cases h with
  | hit htake =>
    obtain ⟨_, _, hperm, -⟩ := Store.take_oldest htake
    exact .inl (hperm.symm.subset (List.mem_cons_of_mem _ he))
  | create => exact .inl he
  | publish _ hav => exact .inl (hav ▸ he)
  | @giveBack c pc _ hpc hav =>
    rw [hav] at he
    rcases List.mem_append.mp he with he | he
    · exact .inl he
    · rw [List.mem_singleton.mp he]
      exact .inr ⟨pc, hpc, rfl, rfl⟩
  | fade hav =>
    rcases hav with hav | hav
    · exact .inl (hav ▸ he)
    · simp [hav] at he

/-- The entry of a connection that is idle after a turn, and not recorded, has stayed. -/
theorem Turn.stays {now : Time} {live us us' : List Addr} {s s' : Store}
    (h : Turn now live s us s' us') {e : Idle} (he : e ∈ s.available) (hidle : e.conn ∈ s'.idle)
    (hn : ∀ pc, s'.inUse.get? e.conn ≠ some (some pc)) : e ∈ s'.available := by
  cases h with
  | hit htake =>
    obtain ⟨f, rfl, hperm, -, -, hin⟩ := Store.take_oldest htake
    rcases List.mem_cons.mp (hperm.subset he) with rfl | he
    · exact absurd (by rw [hin, Dict.get?_set, if_pos rfl]) (hn _)
    · exact he
  | create => exact he
  | publish _ hav => exact hav ▸ he
  | giveBack _ hav =>
    rw [hav]
    exact List.mem_append_left _ he
  | fade hav =>
    rcases hav with hav | hav
    · exact hav ▸ he
    · simp [Store.idle, hav] at hidle

namespace Ledger

/-- One step of a pool with the clock at `now`. -/
inductive Tick (now : Time) (l : Ledger) : Ledger → Prop
  | turn {t : Nat} {r r' : Role} {s' : Store} : l.roles[t]? = some r →
      Turn now l.live l.store r.unpublished s' r'.unpublished → Tick now l ⟨s', l.roles.set t r'⟩
  | join {r : Role} : r.unpublished = [] → Tick now l ⟨l.store, l.roles ++ [r]⟩
  | resize {sizer : AdaptiveSizer} : Tick now l ⟨{ l.store with sizer := sizer }, l.roles⟩

/-- No connection is on offer twice, or recorded while it is on offer; no stamp lies ahead of the
clock or of the counter. -/
structure Shelf (l : Ledger) (now : Time) : Prop where
  offer : ∀ a, l.offerCount a ≤ 1
  recorded : ∀ a, l.Recorded a → l.offerCount a = 0
  key : ∀ a pc, l.store.inUse.get? a = some (some pc) → pc.connection = a
  entry : ∀ e ∈ l.store.available, e.createdAt ≤ now ∧ e.counter < l.store.counter
  record : ∀ a pc, l.store.inUse.get? a = some (some pc) → pc.createdAt ≤ now

/-- An empty pool is in order. -/
theorem shelf_new (minConn maxConn : Nat) (now : Time) : Shelf (new minConn maxConn) now where
  offer := fun _ ↦ Nat.zero_le _
  recorded := by simp [Recorded, new, Store.new]
  key := by simp [new, Store.new]
  entry := by simp [new, Store.new]
  record := by simp [new, Store.new]

/-- A dead address is neither on offer nor recorded. -/
theorem Shelf.dead {l : Ledger} {now : Time} (h : Shelf l now) {a : Addr} (ha : a ∉ l.live) :
    l.offerCount a = 0 ∧ ¬ l.Recorded a := by
  constructor
  · have hzero := ownerCount_eq_zero ha
    have hle := l.offerCount_le a
    omega
  · rintro ⟨pc, hpc⟩
    apply ha
    have hu := Store.mem_used hpc
    rw [h.key a pc hpc] at hu
    exact List.mem_append_right _ hu

/-- An idle connection is on offer. -/
theorem offerCount_pos_of_idle {l : Ledger} {a : Addr} (ha : a ∈ l.store.idle) :
    0 < l.offerCount a := by
  have := List.count_pos_iff.mpr ha
  rw [offerCount]
  omega

/-- The shelf is in order at a later time, when what became offered has no record, what became an
entry carries old stamps, and what became recorded is stamped with the new time. -/
theorem Shelf.of_frame {l l' : Ledger} {now now' : Time} (h : Shelf l now) (hle : now ≤ now')
    (hoffer : ∀ a, l'.offerCount a ≤ l.offerCount a ∨ l'.offerCount a = 1 ∧ ¬ l'.Recorded a)
    (hentry : ∀ e ∈ l'.store.available,
      e ∈ l.store.available ∨ e.createdAt ≤ now' ∧ e.counter < l'.store.counter)
    (hcounter : l.store.counter ≤ l'.store.counter)
    (hrecord : ∀ a pc, l'.store.inUse.get? a = some (some pc) →
      l.store.inUse.get? a = some (some pc) ∨
        pc = ⟨now', a, now', .inUse, 0⟩ ∧ l'.offerCount a = 0) : Shelf l' now' where
  offer := by
    intro a
    rcases hoffer a with hless | ⟨hone, -⟩
    · exact hless.trans (h.offer a)
    · exact hone.le
  recorded := by
    rintro a ⟨pc, hpc⟩
    rcases hrecord a pc hpc with hold | ⟨-, hzero⟩
    · rcases hoffer a with hless | ⟨-, hn⟩
      · have hzero := h.recorded a ⟨pc, hold⟩
        omega
      · exact absurd ⟨pc, hpc⟩ hn
    · exact hzero
  key := by
    intro a pc hpc
    rcases hrecord a pc hpc with hold | ⟨rfl, -⟩
    · exact h.key a pc hold
    · rfl
  entry := by
    intro e he
    rcases hentry e he with hold | hnew
    · obtain ⟨hstamp, hcount⟩ := h.entry e hold
      exact ⟨hstamp.trans hle, hcount.trans_le hcounter⟩
    · exact hnew
  record := by
    intro a pc hpc
    rcases hrecord a pc hpc with hold | ⟨rfl, -⟩
    · exact (h.record a pc hold).trans hle
    · exact le_refl now'

/-- A turn between `us` and `us'` unpublished connections puts on offer what it makes idle or has
created, and takes from it what it takes from these. -/
def Offers (l l' : Ledger) (us us' : List Addr) : Prop :=
  ∀ a, l'.offerCount a + us.count a + l.store.idle.count a =
    l.offerCount a + us'.count a + l'.store.idle.count a

section Turn

variable {l l' : Ledger} {now now' : Time}

/-- A hit takes its connection off the shelf and stamps the record with the time. -/
theorem Shelf.hit {k c : Addr} (h : Shelf l now) (hle : now ≤ now')
    (hcount : Offers l l' [] []) (htake : l.store.take now' k = (l'.store, .hit c)) :
    Shelf l' now' := by
  obtain ⟨e, rfl, hperm, -, hnext, hin⟩ := Store.take_oldest htake
  have hidle (a : Addr) :
      l.store.idle.count a = l'.store.idle.count a + if e.conn = a then 1 else 0 := by
    have := (hperm.map Idle.conn).count_eq a
    rw [List.map_cons, List.count_cons] at this
    simpa [Store.idle] using this
  simp only [Offers, List.count_nil] at hcount
  refine h.of_frame hle (fun a ↦ .inl ?_) (fun f hf ↦ .inl ?_) hnext.ge fun a pc hpc ↦ ?_
  · have := hcount a
    have := hidle a
    omega
  · exact hperm.symm.subset (List.mem_cons_of_mem _ hf)
  · rw [hin] at hpc
    rcases record_of_set (fun _ _ ↦ id) hpc with hold | ⟨rfl, hnew⟩
    · exact .inl hold
    · refine .inr ⟨hnew, ?_⟩
      have h₁ := hcount e.conn
      have h₂ := hidle e.conn
      have h₃ := h.offer e.conn
      rw [if_pos rfl] at h₂
      omega

/-- A connection that is created at a dead address is on offer once. -/
theorem Shelf.create {c : Addr} (h : Shelf l now) (hle : now ≤ now')
    (hcount : Offers l l' [] [c]) (hc : c ∉ l.live) (hstore : l'.store = l.store.allocate c) :
    Shelf l' now' := by
  obtain ⟨hzero, hn⟩ := h.dead hc
  have hin : l'.store.inUse = l.store.inUse := by rw [hstore, Store.inUse_allocate]
  simp only [Offers, List.count_nil, List.count_singleton, hstore, Store.idle_allocate,
    beq_iff_eq] at hcount
  refine h.of_frame hle (fun a ↦ ?_) (fun f hf ↦ .inl ?_) ?_ fun a pc hpc ↦ .inl (hin ▸ hpc)
  · have hca := hcount a
    by_cases hac : c = a
    · subst hac
      rw [if_pos rfl] at hca
      refine .inr ⟨by omega, ?_⟩
      rw [Recorded, hin]
      exact hn
    · rw [if_neg hac] at hca
      exact .inl (by omega)
  · rw [hstore] at hf
    exact hf
  · rw [hstore]
    exact le_rfl

/-- A connection that is published leaves the offer and is stamped with the time. -/
theorem Shelf.publish {k c : Addr} {us : List Addr} (h : Shelf l now) (hle : now ≤ now')
    (hcount : Offers l l' us []) (hc : us = [c] ∨ us = [] ∧ c ∉ l.live)
    (hav : l'.store.available = l.store.available) (hnext : l'.store.counter = l.store.counter)
    (hin : l'.store.inUse =
      (l.store.inUse.pop k).set c (some ⟨now', c, now', .inUse, 0⟩)) : Shelf l' now' := by
  have hidle : l'.store.idle = l.store.idle := by rw [Store.idle, hav, Store.idle]
  simp only [Offers, List.count_nil, hidle] at hcount
  refine h.of_frame hle (fun a ↦ .inl ?_) (fun f hf ↦ .inl (hav ▸ hf)) hnext.ge fun a pc hpc ↦ ?_
  · have := hcount a
    omega
  · rw [hin] at hpc
    rcases record_of_set (fun _ _ hp ↦ (Dict.get?_of_pop hp).2) hpc with hold | ⟨rfl, hnew⟩
    · exact .inl hold
    · refine .inr ⟨hnew, ?_⟩
      have h₁ := hcount a
      rcases hc with rfl | ⟨rfl, hc⟩
      · have h₂ := h.offer a
        rw [List.count_singleton_self] at h₁
        omega
      · have h₂ := (h.dead hc).1
        rw [List.count_nil] at h₁
        omega

/-- A connection that is given back brings the stamp of its record. -/
theorem Shelf.giveBack {c : Addr} {pc : PoolConnection} (h : Shelf l now) (hle : now ≤ now')
    (hcount : Offers l l' [] []) (hpc : l.store.inUse.get? c = some (some pc))
    (hav : l'.store.available = l.store.available ++ [⟨pc.createdAt, l.store.counter, c⟩])
    (hnext : l'.store.counter = l.store.counter + 1)
    (hin : l'.store.inUse = l.store.inUse.pop c) : Shelf l' now' := by
  have hidle (a : Addr) :
      l'.store.idle.count a = l.store.idle.count a + if c = a then 1 else 0 := by
    rw [Store.idle, hav, List.map_append, List.count_append]
    simp [Store.idle, List.count_singleton]
  simp only [Offers, List.count_nil] at hcount
  refine h.of_frame hle (fun a ↦ ?_) (fun f hf ↦ ?_) (hnext ▸ Nat.le_succ _)
    fun a pc hpc ↦ .inl ?_
  · have h₁ := hcount a
    have h₂ := hidle a
    by_cases hac : c = a
    · subst hac
      have h₃ := h.recorded c ⟨pc, hpc⟩
      rw [if_pos rfl] at h₂
      refine .inr ⟨by omega, ?_⟩
      rintro ⟨p, hp⟩
      rw [hin] at hp
      exact (Dict.get?_of_pop hp).1 rfl
    · rw [if_neg hac] at h₂
      exact .inl (by omega)
  · rw [hav] at hf
    rcases List.mem_append.mp hf with hf | hf
    · exact .inl hf
    · rw [List.mem_singleton.mp hf]
      exact .inr ⟨(h.record c pc hpc).trans hle, by dsimp only; omega⟩
  · rw [hin] at hpc
    exact (Dict.get?_of_pop hpc).2

/-- A shelf from which things only fade is in order. -/
theorem Shelf.fade {us us' : List Addr} (h : Shelf l now) (hle : now ≤ now')
    (hcount : Offers l l' us us')
    (hav : l'.store.available = l.store.available ∨ l'.store.available = [])
    (hnext : l'.store.counter = l.store.counter)
    (hrec : ∀ a pc, l'.store.inUse.get? a = some (some pc) →
      l.store.inUse.get? a = some (some pc))
    (hsub : us' = us ∨ us' = []) : Shelf l' now' := by
  refine h.of_frame hle (fun a ↦ .inl ?_) (fun f hf ↦ .inl ?_) hnext.ge
    fun a pc hpc ↦ .inl (hrec a pc hpc)
  · have hidle : l'.store.idle.count a ≤ l.store.idle.count a := by
      rcases hav with hav | hav
      · rw [Store.idle, hav, Store.idle]
      · simp [Store.idle, hav]
    have hus : us'.count a ≤ us.count a := by
      rcases hsub with rfl | rfl
      · exact le_rfl
      · simp
    have := hcount a
    omega
  · rcases hav with hav | hav
    · exact hav ▸ hf
    · simp [hav] at hf

/-- A task's turn keeps the shelf in order. -/
theorem Shelf.turn {t : Nat} {r r' : Role} {s' : Store} (h : Shelf l now) (hle : now ≤ now')
    (ht : l.roles[t]? = some r)
    (hturn : Turn now' l.live l.store r.unpublished s' r'.unpublished) :
    Shelf ⟨s', l.roles.set t r'⟩ now' := by
  have hcount : Offers l ⟨s', l.roles.set t r'⟩ r.unpublished r'.unpublished :=
    fun a ↦ (owner_move ht s' r' a).2
  generalize r.unpublished = us at hturn hcount
  generalize r'.unpublished = us' at hturn hcount
  cases hturn with
  | hit htake => exact h.hit hle hcount htake
  | create hc => exact h.create hle hcount hc rfl
  | publish hc hav hnext hin => exact h.publish hle hcount hc hav hnext hin
  | giveBack hpc hav hnext hin => exact h.giveBack hle hcount hpc hav hnext hin
  | fade hav hnext hrec hsub => exact h.fade hle hcount hav hnext hrec hsub

end Turn

/-- A step keeps the shelf in order. -/
theorem Shelf.tick {l l' : Ledger} {now now' : Time} (h : Shelf l now) (hle : now ≤ now')
    (htick : l.Tick now' l') : Shelf l' now' := by
  cases htick with
  | turn ht hturn => exact h.turn hle ht hturn
  | @join r hr =>
    have hoffer (a : Addr) :
        (⟨l.store, l.roles ++ [r]⟩ : Ledger).offerCount a = l.offerCount a := by
      simp [offerCount, hr]
    exact h.of_frame hle (fun a ↦ .inl (hoffer a).le) (fun _ hf ↦ .inl hf) le_rfl
      fun _ _ hpc ↦ .inl hpc
  | resize =>
    exact h.of_frame hle (fun a ↦ .inl le_rfl) (fun _ hf ↦ .inl hf) le_rfl fun _ _ hpc ↦ .inl hpc

end Ledger

/-- `d` is idle in front of `c`, wherever `c` is. -/
def Store.Behind (s : Store) (c d : Addr) : Prop :=
  ∃ e ∈ s.available, e.conn = d ∧
    (∀ pc, s.inUse.get? c = some (some pc) → e.createdAt ≤ pc.createdAt) ∧
    ∀ e' ∈ s.available, e'.conn = c → e.key < e'.key

namespace Ledger

/-- An idle connection has no record. -/
theorem Shelf.not_recorded {l : Ledger} {now : Time} (h : Shelf l now) {a : Addr}
    (ha : a ∈ l.store.idle) (pc : PoolConnection) : l.store.inUse.get? a ≠ some (some pc) := by
  intro hpc
  have hpos := offerCount_pos_of_idle ha
  have hzero := h.recorded a ⟨pc, hpc⟩
  omega

/-- Whoever is idle while `c` is handed out is in front of `c`. -/
theorem behind_of_handsOut {l : Ledger} {live us us' : List Addr} {s : Store} {now : Time}
    {c d : Addr} (h : Shelf l now) (hturn : Turn now live s us l.store us')
    (hout : HandsOut s l.store c) (hd : d ∈ l.store.idle) : l.store.Behind c d := by
  obtain ⟨e, he, rfl⟩ := List.mem_map.mp hd
  refine ⟨e, he, rfl, fun pc hpc ↦ ?_, fun e' he' hc ↦ ?_⟩
  · rcases hturn.record hpc with hold | hnow
    · exact absurd hold (hout.before pc)
    · rw [hnow]
      exact (h.entry e he).1
  · obtain ⟨pc, hpc⟩ := hout.after
    exact absurd hpc (h.not_recorded (hc ▸ List.mem_map_of_mem he') pc)

/-- A turn leaves `d` in front of `c` as long as `d` stays idle. -/
theorem Behind.turn {l l' : Ledger} {live us us' : List Addr} {now now' : Time} {c d : Addr}
    (hb : l.store.Behind c d) (h : Shelf l now) (h' : Shelf l' now') (hle : now ≤ now')
    (hturn : Turn now' live l.store us l'.store us') (hd : d ∈ l'.store.idle) :
    l'.store.Behind c d := by
  obtain ⟨e, he, rfl, hrec, hfront⟩ := hb
  obtain ⟨hstamp, hcount⟩ := h.entry e he
  refine ⟨e, hturn.stays he hd (h'.not_recorded hd), rfl, fun pc hpc ↦ ?_, fun e' he' hc ↦ ?_⟩
  · rcases hturn.record hpc with hold | hnow
    · exact hrec pc hold
    · rw [hnow]
      exact hstamp.trans hle
  · rcases hturn.entry he' with hold | ⟨pc, hpc, hcreated, hcounter⟩
    · exact hfront e' hold hc
    · rw [hc] at hpc
      -- equal stamps are told apart by the counter, which is newer than every entry's
      rw [Idle.key, Idle.key, Prod.Lex.toLex_lt_toLex, hcreated, hcounter]
      rcases (hrec pc hpc).lt_or_eq with hlt | heq
      · exact .inl hlt
      · exact .inr ⟨heq, hcount⟩

/-- An idle connection with another one in front of it is not handed out. -/
theorem Behind.not_handsOut {l : Ledger} {t : Nat} {r r' : Role} {s' : Store} {now now' : Time}
    {c d : Addr} (hb : l.store.Behind c d) (h : Shelf l now) (ht : l.roles[t]? = some r)
    (hturn : Turn now' l.live l.store r.unpublished s' r'.unpublished)
    (hc : c ∈ l.store.idle) : ¬ HandsOut l.store s' c := by
  rintro ⟨hbefore, pc, hpc⟩
  generalize hus : r.unpublished = us at hturn
  generalize r'.unpublished = us' at hturn
  cases hturn with
  | hit htake =>
    obtain ⟨f, rfl, hperm, hmin, -, hin⟩ := Store.take_oldest htake
    obtain ⟨e, he, -, -, hfront⟩ := hb
    rw [hin] at hpc
    rcases record_of_set (fun _ _ ↦ id) hpc with hold | ⟨rfl, -⟩
    · exact hbefore pc hold
    · have hf := hperm.symm.subset (List.mem_cons_self ..)
      exact absurd (hfront f hf rfl) (hmin e he).not_gt
  | create => exact hbefore pc hpc
  | @publish k p _ _ hp hav _ hin =>
    rw [hin] at hpc
    rcases record_of_set (fun _ _ hp ↦ (Dict.get?_of_pop hp).2) hpc with hold | ⟨rfl, -⟩
    · exact hbefore pc hold
    · rcases hp with rfl | ⟨-, hdead⟩
      · have hone := le_tally_of_getElem? (w := fun r ↦ r.unpublished.count c) ht
        have hidle := List.count_pos_iff.mpr hc
        have hle := h.offer c
        simp only [hus, List.count_singleton_self] at hone
        rw [offerCount] at hle
        omega
      · exact hdead (List.mem_append_left _ (List.mem_append_right _ hc))
  | giveBack _ _ _ hin =>
    rw [hin] at hpc
    exact hbefore pc (Dict.get?_of_pop hpc).2
  | fade _ _ hrec => exact hbefore pc (hrec c pc hpc)

/-- A step that hands out a connection is the turn of a task. -/
theorem Tick.turn_of_handsOut {l l' : Ledger} {now : Time} {c : Addr} (htick : l.Tick now l')
    (hout : HandsOut l.store l'.store c) :
    ∃ (t : Nat) (r r' : Role), l.roles[t]? = some r ∧
      Turn now l.live l.store r.unpublished l'.store r'.unpublished := by
  obtain ⟨hbefore, pc, hpc⟩ := hout
  cases htick with
  | turn ht hturn => exact ⟨_, _, _, ht, hturn⟩
  | join => exact absurd hpc (hbefore pc)
  | resize => exact absurd hpc (hbefore pc)

/-- A step leaves `d` in front of `c` as long as `d` stays idle. -/
theorem Behind.tick {l l' : Ledger} {now now' : Time} {c d : Addr} (hb : l.store.Behind c d)
    (h : Shelf l now) (hle : now ≤ now') (htick : l.Tick now' l') (hd : d ∈ l'.store.idle) :
    l'.store.Behind c d := by
  have h' := h.tick hle htick
  cases htick with
  | turn _ hturn => exact Behind.turn hb h h' hle hturn hd
  | join => exact hb
  | resize => exact hb

end Ledger

/-- Idle connections are rotated. When `c` was handed out by the step to `s₁` and is handed out
again, from the idle connections, by the step from `s₂`, then no connection was idle all the
time in between; hand-outs of `c` between the two are allowed. -/
def Rotates {σ α : Type} (sys : System (σ × Time) α) (store : σ → Store) : Prop :=
  ∀ (s₀ s₁ s₂ s₃ : σ × Time) (a a' : α) (c d : Addr),
    sys.Reachable s₀ → sys.step s₀ a = some s₁ → HandsOut (store s₀.1) (store s₁.1) c →
    (sys.startAt s₁).Reach (fun s _ ↦ d ∈ (store s.1).idle) s₂ →
    sys.step s₂ a' = some s₃ → c ∈ (store s₂.1).idle → HandsOut (store s₂.1) (store s₃.1) c →
    d ∉ (store s₂.1).idle

/-- A pool whose steps all are ledger steps at the time that its clock shows rotates its
connections. -/
theorem rotates_of_tick {σ α : Type} {sys : System (σ × Time) α} (ledger : σ → Ledger)
    (hinit : (ledger sys.init.1).Shelf sys.init.2)
    (htick : ∀ s a s', sys.step s a = some s' →
      s.2 ≤ s'.2 ∧ (ledger s.1).Tick s'.2 (ledger s'.1)) :
    Rotates sys fun s ↦ (ledger s).store := by
  intro s₀ s₁ s₂ s₃ a a' c d hreach hs₁ hout hidle hs₃ hc hout' hd
  have hshelf : (ledger s₀.1).Shelf s₀.2 :=
    hreach.invariant (P := fun s ↦ (ledger s.1).Shelf s.2) hinit
      fun s b s' hs _ hstep ↦ hs.tick (htick s b s' hstep).1 (htick s b s' hstep).2
  obtain ⟨hle, ht₁⟩ := htick _ _ _ hs₁
  have hshelf₁ := hshelf.tick hle ht₁
  -- from the first hand-out on, `d` is in front of `c` whenever it is idle
  have hrun : (ledger s₂.1).Shelf s₂.2 ∧
      (d ∈ (ledger s₂.1).store.idle → (ledger s₂.1).store.Behind c d) := by
    refine hidle.invariant
      (P := fun s ↦ (ledger s.1).Shelf s.2 ∧
        (d ∈ (ledger s.1).store.idle → (ledger s.1).store.Behind c d))
      ⟨hshelf₁, fun hd₁ ↦ ?_⟩ ?_
    · obtain ⟨t, r, r', -, hturn⟩ := ht₁.turn_of_handsOut hout
      exact Ledger.behind_of_handsOut hshelf₁ hturn hout hd₁
    · rintro s b s' ⟨hs, hb⟩ hds hstep
      obtain ⟨hle', htick'⟩ := htick s b s' hstep
      exact ⟨hs.tick hle' htick', fun hd' ↦ Ledger.Behind.tick (hb hds) hs hle' htick' hd'⟩
  obtain ⟨-, ht₃⟩ := htick _ _ _ hs₃
  obtain ⟨t, r, r', ht, hturn⟩ := ht₃.turn_of_handsOut hout'
  exact Ledger.Behind.not_handsOut (hrun.2 hd) hrun.1 ht hturn hc hout'

end SalesData.Pool

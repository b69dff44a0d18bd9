import SalesData.Base.Dict
import SalesData.Base.Heap
import SalesData.Pool.Adaptive
import Mathlib.Data.Prod.Lex

/-!
# Bookkeeping shared by both pools

What `AsyncConnectionPool` and `SyncConnectionPool` do under their lock, in the same words:
`core/db/pool/async_pool.py:84–158,191–230`, `core/db/pool/sync_pool.py:73–127,150–188`.
Objects are known by their address, Python's `id()`. `closed` is bookkeeping of the model:
the addresses of live connections on which the pool has called `close`.
-/

namespace SalesData.Pool

open Base

/-- An object's `id()`. -/
abbrev Addr := Nat

/-- A reading of `time.monotonic()`; `core/db/pool/base.py:49`. -/
abbrev Time := ℚ

/-- `core/db/pool/base.py:7–24`. -/
inductive ConnectionState where
  | idle
  | inUse
  | creating
  | closing
  | closed
  | broken
  deriving DecidableEq, Repr

/-- The record of a connection in use; `core/db/pool/base.py:27–41`. -/
structure PoolConnection where
  createdAt : Time
  connection : Addr
  checkedOutAt : Time
  state : ConnectionState := .inUse
  consecutiveErrors : Nat := 0
  deriving DecidableEq, Repr

/-- An entry `(created_at, counter, conn)` of the heap `_available`. -/
structure Idle where
  createdAt : Time
  counter : Nat
  conn : Addr
  deriving DecidableEq, Repr

/-- Tuples compare by `created_at`, then by the unique counter. -/
def Idle.key (e : Idle) : ℚ ×ₗ ℕ := toLex (e.createdAt, e.counter)

/-- Calls that create a task, or a thread. `release` stands for a release by a caller that did
not acquire the connection; a holder's own release is a step of the holder. -/
inductive Job where
  | acquire
  | release (c : Addr) (broken : Bool)
  | closeAll
  | warmup (target : Nat)
  deriving DecidableEq, Repr

/-- The fields that both pools guard with their lock. -/
structure Store where
  sizer : AdaptiveSizer
  available : List Idle
  inUse : Dict Addr (Option PoolConnection)
  counter : Nat
  closed : List Addr

namespace Store

/-- An empty pool; `core/db/pool/async_pool.py:41–75`. -/
def new (minConn maxConn : Nat) : Store :=
  ⟨.new minConn maxConn, [], .empty, 0, []⟩

/-- The idle connections. -/
def idle (s : Store) : List Addr := s.available.map Idle.conn

/-- The connections recorded in `_in_use`, reservations left out. -/
def used (s : Store) : List Addr := s.inUse.values.filterMap fun v ↦ v.map (·.connection)

/-- Reserve a slot under a placeholder's address; `core/db/pool/async_pool.py:102–104`. -/
def reserve (s : Store) (k : Addr) : Store := { s with inUse := s.inUse.set k none }

/-- Outcome of one look at the pool under the lock. -/
inductive Taken where
  | hit (c : Addr)
  | reserved
  | full
  deriving DecidableEq, Repr

/-- Hand out an idle connection, else reserve a slot under the placeholder address `k`, else
report that every slot is taken. `core/db/pool/async_pool.py:85–104`. -/
def take (s : Store) (now : Time) (k : Addr) : Store × Taken :=
  match heappop Idle.key s.available with
  | some (e, rest) =>
    ({ s with
      available := rest
      inUse := s.inUse.set e.conn (some ⟨now, e.conn, now, .inUse, 0⟩) }, .hit e.conn)
  | none =>
    if s.inUse.len < s.sizer.current then (s.reserve k, .reserved) else (s, .full)

/-- Give a reserved slot back; `core/db/pool/async_pool.py:138`. -/
def undo (s : Store) (k : Addr) : Store := { s with inUse := s.inUse.pop k }

/-- Swap a reservation for the created connection; `core/db/pool/async_pool.py:143–151`. -/
def publish (s : Store) (now : Time) (k c : Addr) : Store :=
  { s with inUse := (s.inUse.pop k).set c (some ⟨now, c, now, .inUse, 0⟩) }

/-- `close` is called on a connection. -/
def close (s : Store) (c : Addr) : Store := { s with closed := c :: s.closed }

/-- A new object at address `c` is not the closed one that lived there before. -/
def allocate (s : Store) (c : Addr) : Store := { s with closed := s.closed.filter (· != c) }

/-- Take a connection back, and tell whether `_in_use` held a record of it. A recorded one is
closed when it is broken and idle again otherwise. `core/db/pool/async_pool.py:191–211`. -/
def release (s : Store) (c : Addr) (broken : Bool) : Store × Bool :=
  let popped := { s with inUse := s.inUse.pop c }
  match s.inUse.get? c with
  | some (some pc) =>
    if broken then (popped.close c, true)
    else ({ popped with
      available := heappush s.available ⟨pc.createdAt, s.counter, c⟩
      counter := s.counter + 1 }, true)
  | _ => (popped, false)

/-- Empty the pool and list what it held; `core/db/pool/async_pool.py:226–230`. -/
def drain (s : Store) : Store × List Addr :=
  ({ s with available := [], inUse := .empty }, s.idle ++ s.used)

/-- Reserving leaves the idle connections alone. -/
@[simp] theorem idle_reserve (s : Store) (k : Addr) : (s.reserve k).idle = s.idle := rfl

/-- Creating an object leaves the idle connections alone. -/
@[simp] theorem idle_allocate (s : Store) (c : Addr) : (s.allocate c).idle = s.idle := rfl

/-- Publishing leaves the idle connections alone. -/
@[simp] theorem idle_publish (s : Store) (now : Time) (k c : Addr) :
    (s.publish now k c).idle = s.idle := rfl

/-- Giving a slot back leaves the idle connections alone. -/
@[simp] theorem idle_undo (s : Store) (k : Addr) : (s.undo k).idle = s.idle := rfl

/-- Closing leaves the idle connections alone. -/
@[simp] theorem idle_close (s : Store) (c : Addr) : (s.close c).idle = s.idle := rfl

/-- Reserving records the placeholder without a connection. -/
@[simp] theorem inUse_reserve (s : Store) (k : Addr) :
    (s.reserve k).inUse = s.inUse.set k none := rfl

/-- Creating an object leaves `_in_use` alone. -/
@[simp] theorem inUse_allocate (s : Store) (c : Addr) : (s.allocate c).inUse = s.inUse := rfl

/-- Publishing replaces the placeholder by the connection's record. -/
@[simp] theorem inUse_publish (s : Store) (now : Time) (k c : Addr) :
    (s.publish now k c).inUse = (s.inUse.pop k).set c (some ⟨now, c, now, .inUse, 0⟩) := rfl

/-- Giving a slot back removes the placeholder. -/
@[simp] theorem inUse_undo (s : Store) (k : Addr) : (s.undo k).inUse = s.inUse.pop k := rfl

/-- Closing leaves `_in_use` alone. -/
@[simp] theorem inUse_close (s : Store) (c : Addr) : (s.close c).inUse = s.inUse := rfl

/-- A hit moves the oldest idle connection into `_in_use`. -/
theorem take_hit {s s' : Store} {now : Time} {k c : Addr} (h : s.take now k = (s', .hit c)) :
    s.idle.Perm (c :: s'.idle) ∧
      s'.inUse = s.inUse.set c (some ⟨now, c, now, .inUse, 0⟩) ∧
      s'.closed = s.closed ∧ s'.sizer = s.sizer := by
  unfold take at h
  split at h
  · next e rest hpop =>
    obtain ⟨rfl, he⟩ := Prod.mk.inj h
    obtain rfl := Taken.hit.inj he
    exact ⟨(heappop_perm hpop).map Idle.conn, rfl, rfl, rfl⟩
  · split at h
    · exact absurd (Prod.mk.inj h).2 (by simp)
    · exact absurd (Prod.mk.inj h).2 (by simp)

/-- A slot is reserved only when nothing is idle and the size allows one more. -/
theorem take_reserved {s s' : Store} {now : Time} {k : Addr}
    (h : s.take now k = (s', .reserved)) :
    s.available = [] ∧ s.inUse.len < s.sizer.current ∧
      s' = s.reserve k := by
  unfold take at h
  split at h
  · exact absurd (Prod.mk.inj h).2 (by simp)
  · next hpop =>
    split at h
    · next hlt => exact ⟨heappop_eq_none.mp hpop, hlt, (Prod.mk.inj h).1.symm⟩
    · exact absurd (Prod.mk.inj h).2 (by simp)

/-- A full pool has nothing idle and no slot left, and stays as it is. -/
theorem take_full {s s' : Store} {now : Time} {k : Addr} (h : s.take now k = (s', .full)) :
    s.available = [] ∧ s.sizer.current ≤ s.inUse.len ∧ s' = s := by
  unfold take at h
  split at h
  · exact absurd (Prod.mk.inj h).2 (by simp)
  · next hpop =>
    split at h
    · exact absurd (Prod.mk.inj h).2 (by simp)
    · next hlt => exact ⟨heappop_eq_none.mp hpop, Nat.not_lt.mp hlt, (Prod.mk.inj h).1.symm⟩

/-- The three ways a release ends. -/
theorem release_cases (s : Store) (c : Addr) (broken : Bool) :
    (∃ pc, s.inUse.get? c = some (some pc) ∧
      s.release c broken =
        if broken then ({ s with inUse := s.inUse.pop c, closed := c :: s.closed }, true)
        else ({ s with
          inUse := s.inUse.pop c
          available := s.available ++ [⟨pc.createdAt, s.counter, c⟩]
          counter := s.counter + 1 }, true)) ∨
    (∀ pc, s.inUse.get? c ≠ some (some pc)) ∧
      s.release c broken = ({ s with inUse := s.inUse.pop c }, false) := by
  unfold release
  cases hg : s.inUse.get? c with
  | none => exact .inr ⟨by simp, rfl⟩
  | some v =>
    cases v with
    | none => exact .inr ⟨by simp, rfl⟩
    | some pc => exact .inl ⟨pc, rfl, rfl⟩

/-- Releasing touches neither the sizes nor any other key of `_in_use`. -/
theorem release_frame (s : Store) (c : Addr) (broken : Bool) :
    (s.release c broken).1.inUse = s.inUse.pop c ∧
      (s.release c broken).1.sizer = s.sizer := by
  rcases release_cases s c broken with ⟨pc, _, h⟩ | ⟨_, h⟩
  · rw [h]
    cases broken <;> exact ⟨rfl, rfl⟩
  · rw [h]
    exact ⟨rfl, rfl⟩

/-- Only a recorded connection that is not broken becomes idle. -/
theorem idle_release (s : Store) (c : Addr) (broken : Bool) :
    (s.release c broken).1.idle = s.idle ∨
      (s.release c broken).1.idle = s.idle ++ [c] ∧ broken = false ∧
        ∃ pc, s.inUse.get? c = some (some pc) := by
  rcases release_cases s c broken with ⟨pc, hpc, h⟩ | ⟨_, h⟩
  · rw [h]
    cases broken with
    | true => exact .inl rfl
    | false => exact .inr ⟨by simp [idle], rfl, pc, hpc⟩
  · rw [h]
    exact .inl rfl

/-- A connection that is given back as a broken one does not become idle. -/
theorem idle_release_broken (s : Store) (c : Addr) : (s.release c true).1.idle = s.idle := by
  rcases idle_release s c true with hi | ⟨-, hb, -⟩
  · exact hi
  · cases hb

/-- A recorded connection is among the connections in use. -/
theorem mem_used {s : Store} {a : Addr} {pc : PoolConnection}
    (h : s.inUse.get? a = some (some pc)) : pc.connection ∈ s.used := by
  apply List.mem_filterMap.mpr
  exact ⟨some pc, Dict.mem_values_iff.mpr ⟨a, h⟩, rfl⟩

/-- Every connection in use has a record. -/
theorem exists_of_mem_used {s : Store} {c : Addr} (h : c ∈ s.used) :
    ∃ a pc, s.inUse.get? a = some (some pc) ∧ pc.connection = c := by
  obtain ⟨v, hv, hc⟩ := List.mem_filterMap.mp h
  obtain ⟨a, ha⟩ := Dict.mem_values_iff.mp hv
  obtain ⟨pc, rfl, hpc⟩ := Option.map_eq_some_iff.mp hc
  exact ⟨a, pc, ha, hpc⟩

/-- The number of idle connections. -/
theorem length_idle (s : Store) : s.idle.length = s.available.length := List.length_map _

end Store
end SalesData.Pool

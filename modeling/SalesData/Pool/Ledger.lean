import SalesData.Base.Tally
import SalesData.Pool.Store

/-!
# What the pools are for: a ledger of slots and connections

An abstract pool. Each task plays one role at a time, and a role says which addresses the
task answers for; how a task queues, waits or is scheduled is left out. Both pools are
shown to follow this ledger, so its invariants hold of both.
-/

namespace SalesData.Pool

open Base

/-- What a task has in hand. -/
inductive Role where
  /-- Nothing that concerns the pool. -/
  | idle
  /-- A reserved slot under the placeholder `k`. -/
  | reserving (k : Addr)
  /-- A reserved slot and the connection created for it, not yet recorded. -/
  | made (k c : Addr)
  /-- A connection that was handed out and not yet taken back. -/
  | holding (c : Addr)
  /-- A release of a connection that the task never acquired. -/
  | straying (c : Addr)
  /-- A shutdown with connections still to be closed. -/
  | closer (cs : List Addr)
  deriving DecidableEq, Repr

namespace Role

/-- Placeholder objects kept alive by the task. -/
def placeholders : Role → List Addr
  | reserving k | made k _ => [k]
  | _ => []

/-- Connections kept alive by the task. -/
def conns : Role → List Addr
  | made _ c | holding c | straying c => [c]
  | closer cs => cs
  | _ => []

/-- Everything the task keeps alive. -/
def refs (r : Role) : List Addr := r.placeholders ++ r.conns

/-- A created connection that is about to be recorded. -/
def unpublished : Role → List Addr
  | made _ c => [c]
  | _ => []

/-- Addresses that no other task and no idle list may contain. -/
def owns : Role → List Addr
  | reserving k => [k]
  | made k c => [k, c]
  | holding c => [c]
  | _ => []

/-- The key of `_in_use` that the task answers for. -/
def slots : Role → List Addr
  | reserving k | made k _ => [k]
  | holding c => [c]
  | _ => []

/-- Connections that the task is going to close. -/
def doomed : Role → List Addr
  | closer cs => cs
  | _ => []

end Role

/-- The kinds of ledger steps. -/
inductive Kind where
  | join
  | stray
  | take
  | create
  | publish
  | undo
  | leak
  | release
  | abandon
  | drain
  | close
  | finish
  | resize
  deriving DecidableEq, Repr

/-- The call that a task is in, `over` once nothing of it is left to be told apart. -/
inductive Origin where
  | acquire
  | stray
  | shutdown
  | warmup
  | over
  deriving DecidableEq, Repr

/-- One task changes the store and its own role; `live` are the addresses in use. -/
inductive Move (live : List Addr) (s : Store) : Role → Kind → Store → Role → Prop
  | hit {now : Time} {k c : Addr} {s' : Store} :
      s.take now k = (s', .hit c) → Move live s .idle .take s' (.holding c)
  | reserve {now : Time} {k : Addr} {s' : Store} :
      s.take now k = (s', .reserved) → k ∉ live → Move live s .idle .take s' (.reserving k)
  | create {k c : Addr} : c ∉ live → Move live s (.reserving k) .create (s.allocate c) (.made k c)
  | publish {now : Time} {k c : Addr} :
      Move live s (.made k c) .publish (s.publish now k c) (.holding c)
  | undo {k : Addr} : Move live s (.reserving k) .undo (s.undo k) .idle
  | leak {k : Addr} : Move live s (.reserving k) .leak s .idle
  | leakMade {k c : Addr} : Move live s (.made k c) .leak s .idle
  | release {c : Addr} {broken : Bool} :
      Move live s (.holding c) .release (s.release c broken).1 .idle
  | releaseStray {c : Addr} {broken : Bool} :
      Move live s (.straying c) .stray (s.release c broken).1 .idle
  | abandon {c : Addr} : Move live s (.holding c) .abandon s .idle
  | abandonStray {c : Addr} : Move live s (.straying c) .stray s .idle
  | drain : Move live s .idle .drain s.drain.1 (.closer s.drain.2)
  | close {c : Addr} {cs : List Addr} :
      Move live s (.closer (c :: cs)) .close (s.close c) (.closer cs)
  | finish {cs : List Addr} : Move live s (.closer cs) .finish s .idle

/-- No task's move changes the sizes. -/
theorem Move.sizer_eq {live : List Addr} {s s' : Store} {r r' : Role} {κ : Kind}
    (h : Move live s r κ s' r') : s'.sizer = s.sizer := by
  cases h with
  | hit htake => exact (Store.take_hit htake).2.2.2
  | reserve htake =>
    obtain ⟨-, -, rfl⟩ := Store.take_reserved htake
    rfl
  | release | releaseStray => exact (Store.release_frame _ _ _).2
  | _ => rfl

/-- A move that avoids more addresses avoids fewer. -/
theorem Move.mono {live live' : List Addr} {s s' : Store} {r r' : Role} {κ : Kind}
    (h : Move live' s r κ s' r') (hsub : ∀ a ∈ live, a ∈ live') : Move live s r κ s' r' := by
  cases h with
  | hit htake => exact .hit htake
  | reserve htake hk => exact .reserve htake fun hl ↦ hk (hsub _ hl)
  | create hc => exact .create fun hl ↦ hc (hsub _ hl)
  | publish => exact .publish
  | undo => exact .undo
  | leak => exact .leak
  | leakMade => exact .leakMade
  | release => exact .release
  | releaseStray => exact .releaseStray
  | abandon => exact .abandon
  | abandonStray => exact .abandonStray
  | drain => exact .drain
  | close => exact .close
  | finish => exact .finish

/-- The store and the role of every task. -/
structure Ledger where
  store : Store
  roles : List Role

namespace Ledger

/-- A pool without tasks. -/
def new (minConn maxConn : Nat) : Ledger := ⟨.new minConn maxConn, []⟩

/-- The addresses of all live objects. -/
def live (l : Ledger) : List Addr := l.roles.flatMap Role.refs ++ l.store.idle ++ l.store.used

/-- One step of the whole ledger. -/
inductive Step (l : Ledger) : Kind → Ledger → Prop
  | move {t : Nat} {r r' : Role} {κ : Kind} {s' : Store} :
      l.roles[t]? = some r → Move l.live l.store r κ s' r' → Step l κ ⟨s', l.roles.set t r'⟩
  | join : Step l .join ⟨l.store, l.roles ++ [.idle]⟩
  | stray {c : Addr} : c ∉ l.roles.flatMap Role.placeholders →
      Step l .stray ⟨l.store, l.roles ++ [.straying c]⟩
  | adjust {n : Nat} {r : ℚ} :
      Step l .resize ⟨{ l.store with sizer := l.store.sizer.adjust n r }, l.roles⟩
  | raise {target : Nat} : target ≤ l.store.sizer.max →
      Step l .resize ⟨{ l.store with sizer := l.store.sizer.raise target }, l.roles⟩

/-- Ledgers reached from an empty pool by steps of the admitted kinds. -/
inductive Reach (ok : Kind → Prop) (minConn maxConn : Nat) : Ledger → Prop
  | new : Reach ok minConn maxConn (.new minConn maxConn)
  | step {l l' : Ledger} {κ : Kind} :
      Reach ok minConn maxConn l → ok κ → Step l κ l' → Reach ok minConn maxConn l'

/-- What one uninterrupted stretch of a task does to the ledger: nothing, one move, two moves
of which the second creates no object, or a growth of the pool. -/
inductive Effect (ok : Kind → Prop) (live : List Addr) (s : Store) (r : Role) :
    Store → Role → Prop
  | stay : Effect ok live s r s r
  | move {κ : Kind} {s' : Store} {r' : Role} :
      ok κ → Move live s r κ s' r' → Effect ok live s r s' r'
  | pair {κ κ' : Kind} {s₁ s' : Store} {r₁ r' : Role} :
      ok κ → Move live s r κ s₁ r₁ → ok κ' → (∀ live', Move live' s₁ r₁ κ' s' r') →
        Effect ok live s r s' r'
  | raise {target : Nat} : ok .resize → target ≤ s.sizer.max →
      Effect ok live s r { s with sizer := s.sizer.raise target } r

variable {ok ok' : Kind → Prop} {minConn maxConn : Nat}

/-- An effect of one task keeps the ledger reachable. -/
theorem Reach.effect {l : Ledger} {t : Nat} {r r' : Role} {s' : Store}
    (h : Reach ok minConn maxConn l) (ht : l.roles[t]? = some r)
    (he : Effect ok l.live l.store r s' r') :
    Reach ok minConn maxConn ⟨s', l.roles.set t r'⟩ := by
  have hself : l.roles.set t r = l.roles := by
    obtain ⟨hlt, hr⟩ := List.getElem?_eq_some_iff.mp ht
    rw [← hr, List.set_getElem_self]
  cases he with
  | stay =>
    rw [hself]
    exact h
  | move hok hm => exact h.step hok (.move ht hm)
  | pair hok hm hok' hm' =>
    have h₁ := (h.step hok (.move ht hm)).step hok' (.move (getElem?_set_of_some ht _) (hm' _))
    rw [List.set_set] at h₁
    exact h₁
  | raise hok hle =>
    rw [hself]
    exact h.step hok (.raise hle)

/-- A weaker condition admits every ledger. -/
theorem Reach.mono {l : Ledger} (h : Reach ok minConn maxConn l) (himp : ∀ κ, ok κ → ok' κ) :
    Reach ok' minConn maxConn l := by
  induction h with
  | new => exact .new
  | step _ hok hs ih => exact ih.step (himp _ hok) hs

end Ledger
end SalesData.Pool

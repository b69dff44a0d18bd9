import Mathlib.Data.Set.Card
import SalesData.Base.Dict

/-!
# The reference LRU map

A map that knows of every key when it was last used. A new key that finds the map full displaces
the key whose last use is oldest, and nothing else does. A dictionary in order of use represents
such a map: what it lists first is what goes first.
-/

namespace SalesData.Base

/-- What each key holds with the number of its last use; `next` is the number of the next use. -/
structure LruMap (K E : Type) where
  held : K → Option (E × Nat)
  next : Nat

namespace LruMap

variable {K E : Type}

/-- The map that holds nothing. -/
def empty : LruMap K E := ⟨fun _ ↦ none, 0⟩

/-- The key holds `e`. -/
def Holds (m : LruMap K E) (key : K) (e : E) : Prop := ∃ n, m.held key = some (e, n)

/-- The keys that hold something. -/
def keys (m : LruMap K E) : Set K := {key | m.held key ≠ none}

/-- No key was last used before this one. -/
def Oldest (m : LruMap K E) (key : K) : Prop :=
  ∃ e n, m.held key = some (e, n) ∧ ∀ a e' n', m.held a = some (e', n') → n ≤ n'

/-- Storing under `key` displaces `a`: the map is full, `key` is new, and `a` is the oldest. -/
def Displaces (m : LruMap K E) (size : Nat) (key a : K) : Prop :=
  m.held key = none ∧ size ≤ m.keys.ncard ∧ m.Oldest a

/-- The number of the last use of a key. -/
def lastUse (m : LruMap K E) (key : K) : Nat := ((m.held key).map Prod.snd).getD 0

/-- The use of a key that holds something. -/
theorem lastUse_of_held {m : LruMap K E} {key : K} {e : E} {n : Nat}
    (h : m.held key = some (e, n)) : m.lastUse key = n := by
  rw [lastUse, h]
  rfl

/-- A key that holds something. -/
theorem mem_keys_of_held {m : LruMap K E} {key : K} {p : E × Nat} (h : m.held key = some p) :
    key ∈ m.keys := by
  show m.held key ≠ none
  rw [h]
  exact Option.some_ne_none p

variable [DecidableEq K]

open Classical in
/-- Store under a key, in a map of at most `size` keys. -/
noncomputable def put (m : LruMap K E) (size : Nat) (key : K) (e : E) : LruMap K E where
  held a :=
    if a = key then some (e, m.next) else if m.Displaces size key a then none else m.held a
  next := m.next + 1

/-- A key is used. -/
def use (m : LruMap K E) (key : K) : LruMap K E where
  held a := if a = key then (m.held a).map fun p ↦ (p.1, m.next) else m.held a
  next := m.next + 1

/-- A key is removed. -/
def remove (m : LruMap K E) (key : K) : LruMap K E :=
  { m with held := fun a ↦ if a = key then none else m.held a }

/-- The map is emptied. -/
def clear (m : LruMap K E) : LruMap K E := { m with held := fun _ ↦ none }

/-- A lookup uses what it finds, and removes it if it has expired. -/
def look (m : LruMap K E) (key : K) (expired : E → Bool) : LruMap K E :=
  match m.held key with
  | none => m
  | some (e, _) => if expired e then m.remove key else m.use key

/-- What a map holds after a store. -/
theorem holds_put {m : LruMap K E} {size : Nat} {key a : K} {e e' : E} :
    (m.put size key e).Holds a e' ↔
      if a = key then e' = e else m.Holds a e' ∧ ¬ m.Displaces size key a := by
  unfold Holds put
  dsimp only
  split
  · simp [eq_comm]
  · split
    · next hd => simp [hd]
    · next hd => simp [hd]

/-- What a map holds after a removal. -/
theorem holds_remove {m : LruMap K E} {key a : K} {e : E} :
    (m.remove key).Holds a e ↔ a ≠ key ∧ m.Holds a e := by
  unfold Holds remove
  dsimp only
  split
  · next ha => simp [ha]
  · next ha => simp [ha]

/-- A use changes nothing that is held. -/
theorem holds_use {m : LruMap K E} {key a : K} {e : E} : (m.use key).Holds a e ↔ m.Holds a e := by
  unfold Holds use
  dsimp only
  split
  · cases hheld : m.held a with
    | none => simp
    | some p =>
      rcases p with ⟨e', n⟩
      simp
  · rfl

/-- A lookup removes what has expired under its key. -/
theorem holds_look {m : LruMap K E} {key a : K} {e : E} {expired : E → Bool} :
    (m.look key expired).Holds a e ↔ m.Holds a e ∧ (a = key → expired e = false) := by
  unfold look
  split
  · next hnone =>
    refine ⟨fun hheld ↦ ⟨hheld, ?_⟩, And.left⟩
    rintro rfl
    obtain ⟨n, hn⟩ := hheld
    rw [hnone] at hn
    cases hn
  · next found n hfound =>
    have hsame : m.Holds key e → found = e := by
      rintro ⟨k, hk⟩
      rw [hfound] at hk
      cases hk
      rfl
    split
    · next hexpired =>
      rw [holds_remove]
      constructor
      · rintro ⟨hne, hheld⟩
        exact ⟨hheld, fun ha ↦ absurd ha hne⟩
      · rintro ⟨hheld, hlive⟩
        refine ⟨?_, hheld⟩
        rintro rfl
        rw [hsame hheld, hlive rfl] at hexpired
        cases hexpired
    · next hlive =>
      rw [holds_use]
      refine ⟨fun hheld ↦ ⟨hheld, ?_⟩, And.left⟩
      rintro rfl
      rw [← hsame hheld]
      exact Bool.eq_false_iff.mpr hlive

/-- A dictionary in order of use. -/
structure Represents (d : Dict K E) (m : LruMap K E) : Prop where
  held : ∀ key, (m.held key).map Prod.fst = d.get? key
  ordered : d.keys.Pairwise fun a b ↦ m.lastUse a < m.lastUse b
  past : ∀ key e n, m.held key = some (e, n) → n < m.next

namespace Represents

variable {d d' : Dict K E} {m m' : LruMap K E} {key a : K} {e : E}

/-- What a key holds is what the dictionary has for it. -/
theorem holds_iff (h : Represents d m) : m.Holds key e ↔ d.get? key = some e := by
  rw [← h.held key, Holds]
  constructor
  · rintro ⟨n, hn⟩
    rw [hn]
    rfl
  · intro hmap
    obtain ⟨⟨e', n⟩, hn, rfl⟩ := Option.map_eq_some_iff.mp hmap
    exact ⟨n, hn⟩

/-- The dictionary lists the keys of the map. -/
theorem mem_keys (h : Represents d m) : key ∈ m.keys ↔ key ∈ d.keys := by
  rw [Dict.mem_keys_iff]
  constructor
  · intro hne
    obtain ⟨⟨e, n⟩, hn⟩ := Option.ne_none_iff_exists'.mp hne
    exact ⟨e, h.holds_iff.mp ⟨n, hn⟩⟩
  · rintro ⟨e, he⟩ hnone
    obtain ⟨n, hn⟩ := h.holds_iff.mpr he
    rw [hnone] at hn
    cases hn

/-- A key that holds nothing is not listed. -/
theorem not_mem_keys (h : Represents d m) : m.held key = none ↔ key ∉ d.keys := by
  rw [← h.mem_keys]
  exact not_not.symm

/-- The map has as many keys as the dictionary. -/
theorem ncard_keys (h : Represents d m) : m.keys.ncard = d.len := by
  have heq : m.keys = ↑d.keys.toFinset := by
    ext key
    rw [h.mem_keys, List.coe_toFinset]
    rfl
  rw [heq, Set.ncard_coe_finset, List.toFinset_card_of_nodup d.keys_nodup, Dict.length_keys]

/-- The first key of the dictionary is the only oldest one. -/
theorem oldest_iff (h : Represents d m) {first : K} {rest : List K}
    (hkeys : d.keys = first :: rest) : m.Oldest a ↔ a = first := by
  have hordered := h.ordered
  rw [hkeys, List.pairwise_cons] at hordered
  have hmem {b : K} {e : E} {n : Nat} (hb : m.held b = some (e, n)) : b = first ∨ b ∈ rest := by
    have hb : b ∈ d.keys := h.mem_keys.mp (mem_keys_of_held hb)
    rwa [hkeys, List.mem_cons] at hb
  constructor
  · rintro ⟨e, n, ha, hleast⟩
    rcases hmem ha with hfirst | hrest
    · exact hfirst
    · have hfirst : first ∈ m.keys := h.mem_keys.mpr (by rw [hkeys]; exact List.mem_cons_self ..)
      obtain ⟨⟨e', n'⟩, hn'⟩ := Option.ne_none_iff_exists'.mp hfirst
      have hlt := hordered.1 a hrest
      rw [lastUse_of_held ha, lastUse_of_held hn'] at hlt
      exact absurd (hleast first e' n' hn') (Nat.not_le.mpr hlt)
  · rintro rfl
    have hfirst : a ∈ m.keys := h.mem_keys.mpr (by rw [hkeys]; exact List.mem_cons_self ..)
    obtain ⟨⟨e, n⟩, hn⟩ := Option.ne_none_iff_exists'.mp hfirst
    refine ⟨e, n, hn, fun b e' n' hb ↦ ?_⟩
    rcases hmem hb with rfl | hrest
    · rw [hn] at hb
      cases hb
      exact Nat.le_refl _
    · have hlt := hordered.1 b hrest
      rw [lastUse_of_held hn, lastUse_of_held hb] at hlt
      exact hlt.le

/-- A map that is full has exactly one oldest key. -/
theorem existsUnique_oldest (h : Represents d m) {size : Nat} (hpos : 0 < size)
    (hfull : size ≤ m.keys.ncard) : ∃! a, m.Oldest a := by
  rw [h.ncard_keys, ← Dict.length_keys] at hfull
  cases hkeys : d.keys with
  | nil =>
    rw [hkeys, List.length_nil] at hfull
    omega
  | cons first rest =>
    refine ⟨first, (h.oldest_iff hkeys).mpr rfl, fun a ha ↦ ?_⟩
    exact (h.oldest_iff hkeys).mp ha

/-- The empty dictionary is the empty map. -/
theorem empty : Represents (Dict.empty : Dict K E) LruMap.empty where
  held _ := rfl
  ordered := List.Pairwise.nil
  past _ _ _ h := by cases h

/-- Removing a key. -/
theorem remove (h : Represents d m) (key : K) : Represents (d.pop key) (m.remove key) where
  held a := by
    rw [Dict.get?_pop, LruMap.remove]
    dsimp only
    split
    · rfl
    · exact h.held a
  ordered := by
    rw [Dict.keys_pop]
    refine (h.ordered.filter _).imp_of_mem fun {a b} ha hb hlt ↦ ?_
    have hne {b : K} (hb : b ∈ d.keys.filter (· != key)) :
        (m.remove key).lastUse b = m.lastUse b := by
      have hb : b ≠ key := by simpa using (List.mem_filter.mp hb).2
      rw [lastUse, lastUse, LruMap.remove]
      dsimp only
      rw [if_neg hb]
    rw [hne ha, hne hb]
    exact hlt
  past a e n ha := by
    rw [LruMap.remove] at ha
    dsimp only at ha
    split at ha
    · cases ha
    · exact h.past a e n ha

/-- Clearing. -/
theorem clear : Represents (Dict.empty : Dict K E) m.clear where
  held _ := rfl
  ordered := List.Pairwise.nil
  past _ _ _ h := by cases h

/-- A dictionary in which a key has moved to the end with `e` is the map in which the key was used
last. -/
theorem renew (h : Represents d m) (key : K)
    (hget : ∀ a, d'.get? a = if a = key then some e else d.get? a)
    (hkeys : d'.keys = d.keys.filter (· != key) ++ [key])
    (hheld : ∀ a, m'.held a = if a = key then some (e, m.next) else m.held a)
    (hnext : m'.next = m.next + 1) : Represents d' m' where
  held a := by
    rw [hget, hheld]
    split
    · rfl
    · exact h.held a
  ordered := by
    have hkey : m'.lastUse key = m.next := by
      apply lastUse_of_held (e := e)
      rw [hheld, if_pos rfl]
    have hne {b : K} (hb : b ∈ d.keys.filter (· != key)) : m'.lastUse b = m.lastUse b := by
      have hb : b ≠ key := by simpa using (List.mem_filter.mp hb).2
      rw [lastUse, lastUse, hheld, if_neg hb]
    rw [hkeys, List.pairwise_append]
    refine ⟨?_, List.pairwise_singleton _ _, fun b hb c hc ↦ ?_⟩
    · refine (h.ordered.filter _).imp_of_mem fun {a b} ha hb hlt ↦ ?_
      rw [hne ha, hne hb]
      exact hlt
    · rw [List.mem_singleton.mp hc, hne hb, hkey]
      have hb : b ∈ m.keys := h.mem_keys.mpr (List.mem_filter.mp hb).1
      obtain ⟨⟨e', n⟩, hn⟩ := Option.ne_none_iff_exists'.mp hb
      rw [lastUse_of_held hn]
      exact h.past b e' n hn
  past a e' n ha := by
    rw [hheld] at ha
    rw [hnext]
    split at ha
    · cases ha
      exact Nat.lt_succ_self _
    · exact Nat.lt_succ_of_lt (h.past a e' n ha)

/-- A use of a key that holds something. -/
theorem use (h : Represents d m) (hget : d.get? key = some e) :
    Represents (d.moveToEnd key) (m.use key) := by
  apply h.renew key
  · intro a
    rw [Dict.get?_moveToEnd]
    split
    · next ha => rw [ha, hget]
    · rfl
  · exact Dict.keys_moveToEnd hget
  · intro a
    rw [LruMap.use]
    dsimp only
    split
    · next ha =>
      obtain ⟨n, hn⟩ := h.holds_iff.mpr hget
      rw [ha, hn]
      rfl
    · rfl
  · rfl

/-- A lookup of a key that holds nothing. -/
theorem look_of_none (h : Represents d m) (hget : d.get? key = none) (expired : E → Bool) :
    Represents d (m.look key expired) := by
  have hnone := h.held key
  rw [hget, Option.map_eq_none_iff] at hnone
  rw [look, hnone]
  exact h

/-- A lookup of a key that holds something. -/
theorem look_of_some (h : Represents d m) (hget : d.get? key = some e) (expired : E → Bool) :
    Represents (if expired e then d.pop key else d.moveToEnd key) (m.look key expired) := by
  obtain ⟨n, hn⟩ := h.holds_iff.mpr hget
  rw [look, hn]
  dsimp only
  split
  · exact h.remove key
  · exact h.use hget

/-- Storing under a key that holds something. -/
theorem put_of_mem (h : Represents d m) (hmem : key ∈ d.keys) (size : Nat) (e : E) :
    Represents ((d.moveToEnd key).set key e) (m.put size key e) := by
  obtain ⟨old, hget⟩ := Dict.mem_keys_iff.mp hmem
  apply h.renew key
  · intro a
    rw [Dict.get?_set, Dict.get?_moveToEnd]
  · have hmoved : key ∈ (d.moveToEnd key).keys := by
      rw [Dict.keys_moveToEnd hget]
      exact List.mem_append_right _ (List.mem_singleton_self key)
    rw [Dict.keys_set, if_pos hmoved, Dict.keys_moveToEnd hget]
  · intro a
    have hstays : ¬ m.Displaces size key a := fun hd ↦ h.not_mem_keys.mp hd.1 hmem
    rw [LruMap.put]
    dsimp only
    rw [if_neg hstays]
  · rfl

/-- Storing under a new key, for which there is room. -/
theorem put_of_room (h : Represents d m) (hnew : key ∉ d.keys) {size : Nat} (hroom : d.len < size)
    (e : E) : Represents (d.set key e) (m.put size key e) := by
  have hfilter : d.keys.filter (· != key) = d.keys := by
    rw [List.filter_eq_self]
    intro a ha
    simpa using fun heq : a = key ↦ hnew (heq ▸ ha)
  apply h.renew key
  · exact fun a ↦ Dict.get?_set d key a e
  · rw [Dict.keys_set, if_neg hnew, hfilter]
  · intro a
    have hstays : ¬ m.Displaces size key a := by
      intro hd
      have hfull := hd.2.1
      rw [h.ncard_keys] at hfull
      omega
    rw [LruMap.put]
    dsimp only
    rw [if_neg hstays]
  · rfl

/-- Storing under a new key in a full map, for which the first key of the dictionary goes. -/
theorem put_of_full (h : Represents d m) (hnew : key ∉ d.keys) {size : Nat} (hfull : size ≤ d.len)
    {first : K} {rest : List K} (hkeys : d.keys = first :: rest) (e : E) :
    Represents ((d.pop first).set key e) (m.put size key e) := by
  have hout : key ∉ (d.pop first).keys := fun hmem ↦ hnew (Dict.mem_keys_pop.mp hmem).1
  have hfilter : (d.pop first).keys.filter (· != key) = (d.pop first).keys := by
    rw [List.filter_eq_self]
    intro a ha
    simpa using fun heq : a = key ↦ hout (heq ▸ ha)
  apply (h.remove first).renew key
  · exact fun a ↦ Dict.get?_set _ key a e
  · rw [Dict.keys_set, if_neg hout, hfilter]
  · intro a
    have hdisplaces : m.Displaces size key a ↔ a = first := by
      rw [← h.oldest_iff hkeys]
      constructor
      · exact fun hd ↦ hd.2.2
      · intro hoff
        refine ⟨h.not_mem_keys.mpr hnew, ?_, hoff⟩
        rw [h.ncard_keys]
        exact hfull
    rw [LruMap.put, LruMap.remove]
    dsimp only
    simp only [hdisplaces]
  · rfl

end Represents
end LruMap
end SalesData.Base

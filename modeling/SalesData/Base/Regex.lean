import Mathlib.Algebra.GroupWithZero.Nat
import SalesData.Base.Text

/-!
# Regular expressions

Python's `re` on the patterns that a program writes down. The matcher tries the
alternatives in order and backtracks, so the ends of a pattern are a list in order of
preference. `Matches` is what a pattern accepts at a place, without preference.
-/

namespace SalesData.Base

/-- Patterns with at most one capturing group, which lies outside every repetition. -/
inductive Pattern where
  | empty
  /-- One character of a class. -/
  | set (p : Char → Bool)
  /-- `\b`. -/
  | boundary
  /-- `^`. -/
  | start
  | seq (p q : Pattern)
  | alt (p q : Pattern)
  | star (greedy : Bool) (p : Pattern)
  | group (p : Pattern)

/-- A place in a text: the character before it and the text after it. -/
structure Cursor where
  prev : Option Char
  rest : Text
  deriving DecidableEq, Repr

/-- A match: its text, the text of the group and the place behind it. -/
structure Match where
  text : Text
  group : Option Text
  after : Cursor
  deriving DecidableEq, Repr

namespace Cursor

/-- The place in front of a text. -/
def ofText (s : Text) : Cursor := ⟨none, s⟩

/-- The place behind `s`, which the text after the cursor begins with. -/
def advance (c : Cursor) (s : Text) : Cursor := ⟨s.getLast?.or c.prev, c.rest.drop s.length⟩

/-- The empty text moves no cursor. -/
@[simp] theorem advance_nil (c : Cursor) : c.advance [] = c := rfl

/-- Two steps forward are one. -/
theorem advance_append (c : Cursor) (s t : Text) :
    (c.advance s).advance t = c.advance (s ++ t) := by
  simp [advance, List.getLast?_append, Option.or_assoc]

/-- A word character on one side only. -/
def atBoundary (u : Unicode) (c : Cursor) : Bool :=
  c.prev.any u.isWord != c.rest.head?.any u.isWord

end Cursor

namespace Match

/-- A match of nothing. -/
def nothing (c : Cursor) : Match := ⟨[], none, c⟩

/-- A match followed by another one. -/
def append (m n : Match) : Match := ⟨m.text ++ n.text, n.group.or m.group, n.after⟩

end Match

namespace Pattern

/-- One or more. -/
def plus (p : Pattern) : Pattern := seq p (star true p)

/-- One or none. -/
def opt (p : Pattern) : Pattern := alt p empty

/-- Patterns one after the other. -/
def seqs : List Pattern → Pattern
  | [] => empty
  | p :: ps => seq p (seqs ps)

/-- The first of several patterns that leads to a match. -/
def alts : List Pattern → Pattern
  | [] => set fun _ ↦ false
  | [p] => p
  | p :: ps => alt p (alts ps)

/-- The characters of `w`. -/
def lit (w : String) : Pattern := seqs (w.toList.map fun a ↦ set (· == a))

/-- The ASCII characters of `w` under `re.IGNORECASE`. -/
def caseless (w : String) : Pattern :=
  seqs (w.toList.map fun a ↦ set (Text.fold · == Text.fold a))

/-- A class under `re.IGNORECASE`. -/
def caselessSet (p : Char → Bool) : Pattern :=
  set fun a ↦ p (Text.fold a) || p (Text.fold a).toUpper

/-- `\b(p₁|p₂|…)\b`. -/
def whole (ps : List Pattern) : Pattern := seq boundary (seq (group (alts ps)) boundary)

/-- `\b(w₁|w₂|…)\b` under `re.IGNORECASE`. -/
def words (ws : List String) : Pattern := whole (ws.map caseless)

/-- Repetition: every further round consumes something. -/
def rounds (ends : Cursor → List Match) (greedy : Bool) : Nat → Cursor → List Match
  | 0, c => [.nothing c]
  | n + 1, c =>
    let more := (ends c).flatMap fun m ↦
      if m.text = [] then [] else (rounds ends greedy n m.after).map m.append
    if greedy then more ++ [.nothing c] else .nothing c :: more

/-- The matches of a pattern at a place, the preferred one first. -/
def ends (u : Unicode) : Pattern → Cursor → List Match
  | empty, c => [.nothing c]
  | set p, c =>
    match c.rest with
    | [] => []
    | a :: rest => if p a then [⟨[a], none, ⟨some a, rest⟩⟩] else []
  | boundary, c => if c.atBoundary u then [.nothing c] else []
  | start, c => if c.prev = none then [.nothing c] else []
  | seq p q, c => (p.ends u c).flatMap fun m ↦ (q.ends u m.after).map m.append
  | alt p q, c => p.ends u c ++ q.ends u c
  | star greedy p, c => rounds (p.ends u) greedy c.rest.length c
  | group p, c => (p.ends u c).map fun m ↦ { m with group := some m.text }

/-- `pattern.match` at a place; `pattern.match(s)` at the place in front of `s`. -/
def matchAt (u : Unicode) (p : Pattern) (c : Cursor) : Option Match := (p.ends u c).head?

/-- `pattern.search` from a place on. -/
def searchFrom (u : Unicode) (p : Pattern) (prev : Option Char) : Text → Option Match
  | [] => p.matchAt u ⟨prev, []⟩
  | a :: rest => (p.matchAt u ⟨prev, a :: rest⟩).or (searchFrom u p (some a) rest)

/-- `pattern.search(s)`. -/
def search (u : Unicode) (p : Pattern) (s : Text) : Option Match := p.searchFrom u none s

/-- The matches that `finditer` reports at a place: an empty match may be followed by
one that is not empty. -/
def reports (u : Unicode) (p : Pattern) (c : Cursor) : List Match :=
  match p.matchAt u c with
  | none => []
  | some m =>
    if m.text = [] then m :: ((p.ends u c).find? (·.text ≠ [])).toList else [m]

/-- The length of what some matches cover. -/
def consumed (ms : List Match) : Nat := (ms.map (·.text.length)).sum

/-- `finditer` from a place on, behind the characters of the last match. -/
def finditerFrom (u : Unicode) (p : Pattern) : Option Char → Text → Nat → List Match
  | prev, [], 0 => p.reports u ⟨prev, []⟩
  | prev, a :: rest, 0 =>
    let ms := p.reports u ⟨prev, a :: rest⟩
    ms ++ finditerFrom u p (some a) rest (consumed ms - 1)
  | _, a :: rest, n + 1 => finditerFrom u p (some a) rest n
  | _, [], _ + 1 => []

/-- `pattern.finditer(s)`. -/
def finditer (u : Unicode) (p : Pattern) (s : Text) : List Match := p.finditerFrom u none s 0

/-- `pattern.sub("", s)` from a place on: the text that no match covers. -/
def removeFrom (u : Unicode) (p : Pattern) : Option Char → Text → Nat → Text
  | _, [], _ => []
  | prev, a :: rest, 0 =>
    let n := consumed (p.reports u ⟨prev, a :: rest⟩)
    if n = 0 then a :: removeFrom u p (some a) rest 0 else removeFrom u p (some a) rest (n - 1)
  | _, a :: rest, n + 1 => removeFrom u p (some a) rest n

/-- `pattern.sub("", s)`. -/
def remove (u : Unicode) (p : Pattern) (s : Text) : Text := p.removeFrom u none s 0

/-- What a pattern accepts at a place. -/
inductive Matches (u : Unicode) : Pattern → Cursor → Text → Prop
  | empty {c : Cursor} : Matches u .empty c []
  | set {p : Char → Bool} {prev : Option Char} {a : Char} {rest : Text} :
      p a = true → Matches u (.set p) ⟨prev, a :: rest⟩ [a]
  | boundary {c : Cursor} : c.atBoundary u = true → Matches u .boundary c []
  | start {c : Cursor} : c.prev = none → Matches u .start c []
  | seq {p q : Pattern} {c : Cursor} {s t : Text} :
      Matches u p c s → Matches u q (c.advance s) t → Matches u (.seq p q) c (s ++ t)
  | altLeft {p q : Pattern} {c : Cursor} {s : Text} : Matches u p c s → Matches u (.alt p q) c s
  | altRight {p q : Pattern} {c : Cursor} {s : Text} : Matches u q c s → Matches u (.alt p q) c s
  | starNil {g : Bool} {p : Pattern} {c : Cursor} : Matches u (.star g p) c []
  | starCons {g : Bool} {p : Pattern} {c : Cursor} {s t : Text} :
      s ≠ [] → Matches u p c s → Matches u (.star g p) (c.advance s) t →
      Matches u (.star g p) c (s ++ t)
  | group {p : Pattern} {c : Cursor} {s : Text} : Matches u p c s → Matches u (.group p) c s

variable {u : Unicode}

-- A match of `c`: its text lies after the cursor and it ends behind its text.
private def Fits (c : Cursor) (m : Match) : Prop := m.text <+: c.rest ∧ m.after = c.advance m.text

private theorem fits_nothing (c : Cursor) : Fits c (.nothing c) :=
  ⟨List.nil_prefix, rfl⟩

private theorem Fits.append {c : Cursor} {m n : Match} (hm : Fits c m) (hn : Fits m.after n) :
    Fits c (m.append n) := by
  obtain ⟨hpre, hafter⟩ := hm
  obtain ⟨r, hr⟩ := hpre
  have hrest : m.after.rest = r := by
    rw [hafter, Cursor.advance, ← hr, List.drop_left]
  constructor
  · obtain ⟨r', hr'⟩ := hn.1
    refine ⟨r', ?_⟩
    rw [Match.append, List.append_assoc, hr', hrest, hr]
  · rw [Match.append, hn.2, hafter, Cursor.advance_append]

private theorem mem_rounds_succ {f : Cursor → List Match} {g : Bool} {n : Nat} {c : Cursor}
    {m : Match} : m ∈ rounds f g (n + 1) c ↔ m = .nothing c ∨
      ∃ a ∈ f c, a.text ≠ [] ∧ ∃ b ∈ rounds f g n a.after, m = a.append b := by
  have hmore : m ∈ ((f c).flatMap fun m ↦
        if m.text = [] then [] else (rounds f g n m.after).map m.append) ↔
      ∃ a ∈ f c, a.text ≠ [] ∧ ∃ b ∈ rounds f g n a.after, m = a.append b := by
    rw [List.mem_flatMap]
    refine exists_congr fun a ↦ and_congr_right fun _ ↦ ?_
    by_cases ha : a.text = [] <;> simp [ha, eq_comm]
  rw [rounds]
  cases g
  · rw [if_neg (by simp), List.mem_cons, hmore]
  · rw [if_pos rfl, List.mem_append, List.mem_singleton, hmore, or_comm]

private theorem rounds_sound {p : Pattern} {g : Bool}
    (hp : ∀ c, ∀ m ∈ p.ends u c, Fits c m ∧ Matches u p c m.text) (n : Nat) (c : Cursor)
    (m : Match) (hm : m ∈ rounds (p.ends u) g n c) :
    Fits c m ∧ Matches u (.star g p) c m.text := by
  induction n generalizing c m with
  | zero =>
    obtain rfl := List.mem_singleton.mp hm
    exact ⟨fits_nothing c, .starNil⟩
  | succ n ih =>
    rcases mem_rounds_succ.mp hm with rfl | ⟨a, ha, hne, b, hb, rfl⟩
    · exact ⟨fits_nothing c, .starNil⟩
    · obtain ⟨hfa, hma⟩ := hp c a ha
      obtain ⟨hfb, hmb⟩ := ih a.after b hb
      exact ⟨hfa.append hfb, .starCons hne hma (hfa.2 ▸ hmb)⟩

private theorem ends_sound (p : Pattern) (c : Cursor) (m : Match) (hm : m ∈ p.ends u c) :
    Fits c m ∧ Matches u p c m.text := by
  induction p generalizing c m with
  | empty =>
    obtain rfl := List.mem_singleton.mp hm
    exact ⟨fits_nothing c, .empty⟩
  | set p =>
    obtain ⟨prev, rest⟩ := c
    cases rest with
    | nil => simp [ends] at hm
    | cons a rest =>
      simp only [ends] at hm
      split at hm
      · next h =>
        obtain rfl := List.mem_singleton.mp hm
        exact ⟨⟨⟨rest, rfl⟩, rfl⟩, .set h⟩
      · simp at hm
  | boundary =>
    rw [ends] at hm
    split at hm
    · next h =>
      obtain rfl := List.mem_singleton.mp hm
      exact ⟨fits_nothing c, .boundary h⟩
    · simp at hm
  | start =>
    rw [ends] at hm
    split at hm
    · next h =>
      obtain rfl := List.mem_singleton.mp hm
      exact ⟨fits_nothing c, .start h⟩
    · simp at hm
  | seq p q ihp ihq =>
    obtain ⟨a, ha, hm⟩ := List.mem_flatMap.mp hm
    obtain ⟨b, hb, rfl⟩ := List.mem_map.mp hm
    obtain ⟨hfa, hma⟩ := ihp c a ha
    obtain ⟨hfb, hmb⟩ := ihq a.after b hb
    exact ⟨hfa.append hfb, .seq hma (hfa.2 ▸ hmb)⟩
  | alt p q ihp ihq =>
    rcases List.mem_append.mp hm with hm | hm
    · exact ⟨(ihp c m hm).1, .altLeft (ihp c m hm).2⟩
    · exact ⟨(ihq c m hm).1, .altRight (ihq c m hm).2⟩
  | star g p ih => exact rounds_sound ih _ c m hm
  | group p ih =>
    obtain ⟨a, ha, rfl⟩ := List.mem_map.mp hm
    exact ⟨(ih c a ha).1, .group (ih c a ha).2⟩

/-- A match lies after the place, ends behind its text, and is accepted. -/
theorem of_mem_ends {p : Pattern} {c : Cursor} {m : Match} (hm : m ∈ p.ends u c) :
    m.text <+: c.rest ∧ m.after = c.advance m.text ∧ Matches u p c m.text :=
  ⟨(ends_sound p c m hm).1.1, (ends_sound p c m hm).1.2, (ends_sound p c m hm).2⟩

/-- A pattern accepts what the text goes on with. -/
theorem Matches.isPrefix {p : Pattern} {c : Cursor} {t : Text} (h : Matches u p c t) :
    t <+: c.rest := by
  have happend {c : Cursor} {s t : Text} (hs : s <+: c.rest) (ht : t <+: (c.advance s).rest) :
      s ++ t <+: c.rest := by
    obtain ⟨r, hr⟩ := hs
    rw [Cursor.advance, ← hr, List.drop_left] at ht
    rw [← hr]
    exact (List.prefix_append_right_inj s).mpr ht
  induction h with
  | empty | boundary | start | starNil => exact List.nil_prefix
  | set => exact ⟨_, rfl⟩
  | seq _ _ hp hq => exact happend hp hq
  | altLeft _ ih | altRight _ ih | group _ ih => exact ih
  | starCons _ _ _ hp hq => exact happend hp hq

private theorem rounds_complete {p : Pattern} {g : Bool}
    (hp : ∀ c t, Matches u p c t → ∃ m ∈ p.ends u c, m.text = t) {c : Cursor} {t : Text}
    (h : Matches u (.star g p) c t) (n : Nat) (hn : t.length ≤ n) :
    ∃ m ∈ rounds (p.ends u) g n c, m.text = t := by
  generalize hq : Pattern.star g p = q at h
  induction h generalizing n with
  | starNil =>
    cases n with
    | zero => exact ⟨_, List.mem_singleton_self _, rfl⟩
    | succ n => exact ⟨_, mem_rounds_succ.mpr (.inl rfl), rfl⟩
  | @starCons _ _ c s t hne hs _ _ iht =>
    obtain ⟨rfl, rfl⟩ := Pattern.star.inj hq
    obtain ⟨a, ha, rfl⟩ := hp c s hs
    have hpos := List.length_pos_iff.mpr hne
    rw [List.length_append] at hn
    obtain ⟨k, rfl⟩ : ∃ k, n = k + 1 := ⟨n - 1, by omega⟩
    obtain ⟨b, hb, rfl⟩ := iht k (by omega) rfl
    rw [← (ends_sound p c a ha).1.2] at hb
    exact ⟨a.append b, mem_rounds_succ.mpr (.inr ⟨a, ha, hne, b, hb, rfl⟩), rfl⟩
  | _ => cases hq

private theorem ends_complete (p : Pattern) (c : Cursor) (t : Text) (h : Matches u p c t) :
    ∃ m ∈ p.ends u c, m.text = t := by
  induction p generalizing c t with
  | empty =>
    cases h
    exact ⟨.nothing c, by simp [ends], rfl⟩
  | set p =>
    cases h with
    | @set _ prev a rest hp => exact ⟨⟨[a], none, ⟨some a, rest⟩⟩, by simp [ends, hp], rfl⟩
  | boundary =>
    cases h with
    | boundary hb => exact ⟨.nothing c, by simp [ends, hb], rfl⟩
  | start =>
    cases h with
    | start hs => exact ⟨.nothing c, by simp [ends, hs], rfl⟩
  | seq p q ihp ihq =>
    cases h with
    | seq hp hq =>
      obtain ⟨a, ha, rfl⟩ := ihp c _ hp
      obtain ⟨b, hb, rfl⟩ := ihq _ _ ((ends_sound p c a ha).1.2 ▸ hq)
      exact ⟨a.append b, List.mem_flatMap.mpr ⟨a, ha, List.mem_map.mpr ⟨b, hb, rfl⟩⟩, rfl⟩
  | alt p q ihp ihq =>
    cases h with
    | altLeft hp =>
      obtain ⟨m, hm, ht⟩ := ihp c t hp
      exact ⟨m, List.mem_append_left _ hm, ht⟩
    | altRight hq =>
      obtain ⟨m, hm, ht⟩ := ihq c t hq
      exact ⟨m, List.mem_append_right _ hm, ht⟩
  | star g p ih => exact rounds_complete ih h _ h.isPrefix.length_le
  | group p ih =>
    cases h with
    | group hp =>
      obtain ⟨m, hm, ht⟩ := ih c t hp
      exact ⟨_, List.mem_map_of_mem hm, ht⟩

/-- The group of a match is a part of its text. -/
def Within (m : Match) : Prop := ∀ g ∈ m.group, g <:+: m.text

private theorem Within.append {m n : Match} (hm : Within m) (hn : Within n) :
    Within (m.append n) := by
  intro g hg
  simp only [Match.append, Option.mem_def, Option.or_eq_some_iff] at hg
  rcases hg with hg | ⟨-, hg⟩
  · exact (hn g hg).trans (List.suffix_append m.text n.text).isInfix
  · exact (hm g hg).trans (List.prefix_append m.text n.text).isInfix

private theorem rounds_within {p : Pattern} {g : Bool} (hp : ∀ c, ∀ m ∈ p.ends u c, Within m)
    (n : Nat) (c : Cursor) (m : Match) (hm : m ∈ rounds (p.ends u) g n c) : Within m := by
  induction n generalizing c m with
  | zero =>
    obtain rfl := List.mem_singleton.mp hm
    exact fun g hg ↦ by cases hg
  | succ n ih =>
    rcases mem_rounds_succ.mp hm with rfl | ⟨a, ha, -, b, hb, rfl⟩
    · exact fun g hg ↦ by cases hg
    · exact Within.append (hp c a ha) (ih a.after b hb)

/-- What a group captures is a part of the match. -/
theorem within_of_mem_ends {p : Pattern} {c : Cursor} {m : Match} (hm : m ∈ p.ends u c) :
    Within m := by
  induction p generalizing c m with
  | empty =>
    obtain rfl := List.mem_singleton.mp hm
    exact fun g hg ↦ by cases hg
  | set p =>
    simp only [ends] at hm
    split at hm
    · cases hm
    · split at hm
      · obtain rfl := List.mem_singleton.mp hm
        exact fun g hg ↦ by cases hg
      · cases hm
  | boundary | start =>
    simp only [ends] at hm
    split at hm
    · obtain rfl := List.mem_singleton.mp hm
      exact fun g hg ↦ by cases hg
    · cases hm
  | seq p q ihp ihq =>
    obtain ⟨a, ha, hm⟩ := List.mem_flatMap.mp hm
    obtain ⟨b, hb, rfl⟩ := List.mem_map.mp hm
    exact Within.append (ihp ha) (ihq hb)
  | alt p q ihp ihq =>
    rcases List.mem_append.mp hm with hm | hm
    · exact ihp hm
    · exact ihq hm
  | star g p ih => exact rounds_within (fun _ _ h ↦ ih h) _ c m hm
  | group p ih =>
    obtain ⟨a, ha, rfl⟩ := List.mem_map.mp hm
    intro g hg
    obtain rfl := Option.some.inj hg
    exact List.infix_rfl

private theorem mem_ends_of_mem_reports {p : Pattern} {c : Cursor} {m : Match}
    (h : m ∈ p.reports u c) : m ∈ p.ends u c := by
  unfold reports at h
  split at h
  · cases h
  · next m' hm' =>
    have hfirst : m' ∈ p.ends u c := List.mem_of_mem_head? hm'
    split at h
    · rcases List.mem_cons.mp h with rfl | h
      · exact hfirst
      · exact List.mem_of_find?_eq_some (Option.mem_toList.mp h)
    · obtain rfl := List.mem_singleton.mp h
      exact hfirst

private theorem exists_ends_of_mem_finditer {p : Pattern} {s : Text} {m : Match}
    (h : m ∈ p.finditer u s) : ∃ c : Cursor, c.rest <:+: s ∧ m ∈ p.ends u c := by
  have hfrom : ∀ (s : Text) (prev : Option Char) (n : Nat), m ∈ p.finditerFrom u prev s n →
      ∃ c : Cursor, c.rest <:+: s ∧ m ∈ p.ends u c := by
    intro s
    induction s with
    | nil =>
      intro prev n hm
      cases n with
      | zero => exact ⟨_, List.infix_rfl, mem_ends_of_mem_reports hm⟩
      | succ n => cases hm
    | cons a rest ih =>
      intro prev n hm
      have hlater {prev : Option Char} {n : Nat} (hm : m ∈ p.finditerFrom u prev rest n) :
          ∃ c : Cursor, c.rest <:+: a :: rest ∧ m ∈ p.ends u c := by
        obtain ⟨c, hc, hends⟩ := ih prev n hm
        exact ⟨c, hc.trans (List.suffix_cons a rest).isInfix, hends⟩
      cases n with
      | zero =>
        rcases List.mem_append.mp hm with hm | hm
        · exact ⟨_, List.infix_rfl, mem_ends_of_mem_reports hm⟩
        · exact hlater hm
      | succ n => exact hlater hm
  exact hfrom s none 0 h

/-- Every match that `finditer` reports is a part of the text, and so is what its group
captures. -/
theorem group_infix_of_mem_finditer {p : Pattern} {s : Text} {m : Match} {g : Text}
    (h : m ∈ p.finditer u s) (hg : m.group = some g) : g <:+: s := by
  obtain ⟨c, hc, hends⟩ := exists_ends_of_mem_finditer h
  have htext : m.text <+: c.rest := (ends_sound p c m hends).1.1
  exact ((within_of_mem_ends hends g hg).trans htext.isInfix).trans hc

/-- Every match captures something. -/
def Captures (u : Unicode) (p : Pattern) : Prop :=
  ∀ c, ∀ m ∈ p.ends u c, ∃ g, m.group = some g ∧ g ≠ []

/-- Whatever comes before, what a pattern captures stays captured. -/
theorem Captures.seq {p q : Pattern} (h : Captures u q) : Captures u (seq p q) := by
  intro c m hm
  obtain ⟨a, -, hm⟩ := List.mem_flatMap.mp hm
  obtain ⟨b, hb, rfl⟩ := List.mem_map.mp hm
  obtain ⟨g, hg, hne⟩ := h a.after b hb
  exact ⟨g, by simp [Match.append, hg], hne⟩

/-- What `finditer` reports has captured something. -/
theorem Captures.of_mem_finditer {p : Pattern} (h : Captures u p) {s : Text} {m : Match}
    (hm : m ∈ p.finditer u s) : ∃ g, m.group = some g ∧ g ≠ [] := by
  obtain ⟨c, -, hends⟩ := exists_ends_of_mem_finditer hm
  exact h c m hends

/-- A group at the end that begins with a character. -/
theorem captures_group {p : Char → Bool} {q : Pattern} :
    Captures u (seqs [group (seq (set p) q)]) := by
  intro c m hm
  obtain ⟨a, ha, hm⟩ := List.mem_flatMap.mp hm
  obtain ⟨b, hb, rfl⟩ := List.mem_map.mp hm
  obtain rfl := List.mem_singleton.mp hb
  obtain ⟨inner, hinner, rfl⟩ := List.mem_map.mp ha
  obtain ⟨x, hx, hinner⟩ := List.mem_flatMap.mp hinner
  obtain ⟨y, -, rfl⟩ := List.mem_map.mp hinner
  refine ⟨_, rfl, ?_⟩
  simp only [ends] at hx
  split at hx
  · cases hx
  · split at hx
    · obtain rfl := List.mem_singleton.mp hx
      simp [Match.append]
    · cases hx

/-- `match` succeeds where the pattern accepts something. -/
theorem isSome_matchAt {p : Pattern} {c : Cursor} :
    (p.matchAt u c).isSome ↔ ∃ t, Matches u p c t := by
  rw [matchAt, List.isSome_head?, ← List.length_pos_iff, List.length_pos_iff_exists_mem]
  constructor
  · rintro ⟨m, hm⟩
    exact ⟨m.text, (ends_sound p c m hm).2⟩
  · rintro ⟨t, ht⟩
    obtain ⟨m, hm, -⟩ := ends_complete p c t ht
    exact ⟨m, hm⟩

private theorem getLast?_cons_or (x : Char) (a : Text) (prev : Option Char) :
    (x :: a).getLast?.or prev = a.getLast?.or (some x) := by
  cases h : a.getLast? <;> simp [List.getLast?_cons, h]

private theorem isSome_searchFrom {p : Pattern} {prev : Option Char} {s : Text} :
    (p.searchFrom u prev s).isSome ↔
      ∃ a b t, s = a ++ b ∧ Matches u p ⟨a.getLast?.or prev, b⟩ t := by
  induction s generalizing prev with
  | nil =>
    rw [searchFrom, isSome_matchAt]
    constructor
    · rintro ⟨t, ht⟩
      exact ⟨[], [], t, rfl, ht⟩
    · rintro ⟨a, b, t, hab, ht⟩
      obtain ⟨rfl, rfl⟩ := List.append_eq_nil_iff.mp hab.symm
      exact ⟨t, ht⟩
  | cons x s ih =>
    rw [searchFrom, Option.isSome_or, Bool.or_eq_true, isSome_matchAt, ih]
    constructor
    · rintro (⟨t, ht⟩ | ⟨a, b, t, rfl, ht⟩)
      · exact ⟨[], x :: s, t, rfl, ht⟩
      · refine ⟨x :: a, b, t, rfl, ?_⟩
        rwa [getLast?_cons_or]
    · rintro ⟨a, b, t, hab, ht⟩
      cases a with
      | nil =>
        subst hab
        exact .inl ⟨t, ht⟩
      | cons y a =>
        obtain ⟨rfl, rfl⟩ := List.cons.inj hab
        rw [getLast?_cons_or] at ht
        exact .inr ⟨a, b, t, rfl, ht⟩

/-- `search` succeeds when the pattern accepts something somewhere in the text. -/
theorem isSome_search {p : Pattern} {s : Text} :
    (p.search u s).isSome ↔ ∃ a b t, s = a ++ b ∧ Matches u p ⟨a.getLast?, b⟩ t := by
  have h := @isSome_searchFrom u p none s
  simp only [Option.or_none] at h
  exact h

/-- A word boundary matches the empty text, where there is one. -/
theorem matches_boundary {c : Cursor} {t : Text} :
    Matches u .boundary c t ↔ t = [] ∧ c.atBoundary u = true := by
  constructor
  · intro h
    cases h with
    | boundary hb => exact ⟨rfl, hb⟩
  · rintro ⟨rfl, hb⟩
    exact .boundary hb

/-- A group matches what its pattern does. -/
theorem matches_group {p : Pattern} {c : Cursor} {t : Text} :
    Matches u (.group p) c t ↔ Matches u p c t := by
  constructor
  · intro h
    cases h with
    | group hp => exact hp
  · exact .group

/-- A sequence matches one text behind the other. -/
theorem matches_seq {p q : Pattern} {c : Cursor} {r : Text} :
    Matches u (.seq p q) c r ↔
      ∃ s t, r = s ++ t ∧ Matches u p c s ∧ Matches u q (c.advance s) t := by
  constructor
  · intro h
    cases h with
    | seq hp hq => exact ⟨_, _, rfl, hp, hq⟩
  · rintro ⟨s, t, rfl, hp, hq⟩
    exact .seq hp hq

/-- A choice matches what either side does. -/
theorem matches_alt {p q : Pattern} {c : Cursor} {t : Text} :
    Matches u (.alt p q) c t ↔ Matches u p c t ∨ Matches u q c t := by
  constructor
  · intro h
    cases h with
    | altLeft hp => exact .inl hp
    | altRight hq => exact .inr hq
  · rintro (hp | hq)
    · exact .altLeft hp
    · exact .altRight hq

/-- A choice of many matches what one of them does. -/
theorem matches_alts {ps : List Pattern} {c : Cursor} {t : Text} :
    Matches u (alts ps) c t ↔ ∃ p ∈ ps, Matches u p c t := by
  induction ps with
  | nil =>
    constructor
    · intro h
      cases h with
      | set hf => cases hf
    · rintro ⟨p, hp, -⟩
      cases hp
  | cons p ps ih =>
    cases ps with
    | nil => simp [alts]
    | cons q ps =>
      have hcons : alts (p :: q :: ps) = alt p (alts (q :: ps)) := rfl
      rw [hcons, matches_alt, ih]
      simp

/-- A caseless literal accepts its letters in any case. -/
theorem matches_caseless {w : String} {c : Cursor} {t : Text} :
    Matches u (caseless w) c t ↔ t <+: c.rest ∧ t.map Text.fold = w.toList.map Text.fold := by
  rw [caseless]
  generalize w.toList = w
  induction w generalizing c t with
  | nil =>
    rw [List.map_nil, seqs, List.map_nil, List.map_eq_nil_iff]
    constructor
    · intro h
      cases h
      exact ⟨List.nil_prefix, rfl⟩
    · rintro ⟨-, rfl⟩
      exact .empty
  | cons a w ih =>
    rw [List.map_cons, seqs, matches_seq]
    constructor
    · rintro ⟨s, t, rfl, hs, ht⟩
      cases hs with
      | @set _ prev b rest hb =>
        obtain ⟨hpre, hmap⟩ := ih.mp ht
        constructor
        · exact (List.prefix_cons_inj b).mpr hpre
        · rw [List.map_append, hmap, List.map_cons, beq_iff_eq.mp hb]
          rfl
    · rintro ⟨⟨r, hr⟩, hmap⟩
      cases t with
      | nil => simp at hmap
      | cons b t =>
        obtain ⟨prev, rest⟩ := c
        obtain rfl : b :: (t ++ r) = rest := hr
        obtain ⟨hb, ht⟩ := List.cons.inj hmap
        exact ⟨[b], t, rfl, .set (beq_iff_eq.mpr hb), ih.mpr ⟨⟨r, rfl⟩, ht⟩⟩

end Pattern

namespace Text

/-- The letters of `w` stand in `s` in any case, with no word character next to them. -/
def OccursAsWord (u : Unicode) (w : String) (s : Text) : Prop :=
  ∃ a t b, s = a ++ t ++ b ∧ t.map fold = w.toList.map fold ∧
    a.getLast?.any u.isWord = false ∧ b.head?.any u.isWord = false

end Text

namespace Pattern

variable {u : Unicode}

private theorem isWord_of_map_fold {w : String} {t : Text} {a : Char}
    (hw : ∀ c ∈ w.toList, (Text.fold c).isLower = true)
    (ht : t.map Text.fold = w.toList.map Text.fold) (ha : a ∈ t) : u.isWord a = true := by
  have hmem : Text.fold a ∈ w.toList.map Text.fold := ht ▸ List.mem_map_of_mem ha
  obtain ⟨c, hc, hca⟩ := List.mem_map.mp hmem
  exact u.isWord_of_fold a (hca ▸ hw c hc)

private theorem ne_nil_of_map_fold {w : String} {t : Text} (hw : w.toList ≠ [])
    (ht : t.map Text.fold = w.toList.map Text.fold) : t ≠ [] := by
  rintro rfl
  exact hw (List.map_eq_nil_iff.mp ht.symm)

private theorem atBoundary_before {prev : Option Char} {t b : Text} (hne : t ≠ [])
    (ht : ∀ a ∈ t, u.isWord a = true) :
    Cursor.atBoundary u ⟨prev, t ++ b⟩ = true ↔ prev.any u.isWord = false := by
  obtain ⟨a, t, rfl⟩ := List.exists_cons_of_ne_nil hne
  simp [Cursor.atBoundary, ht a List.mem_cons_self]

private theorem atBoundary_after {prev : Option Char} {t b : Text} (hne : t ≠ [])
    (ht : ∀ a ∈ t, u.isWord a = true) :
    Cursor.atBoundary u (Cursor.advance ⟨prev, t ++ b⟩ t) = true ↔
      b.head?.any u.isWord = false := by
  have hlast := ht _ (List.getLast_mem hne)
  simp [Cursor.atBoundary, Cursor.advance, List.getLast?_eq_some_getLast hne, hlast]

/-- The search for whole words finds something exactly when one of them occurs. -/
theorem isSome_search_words {ws : List String} {s : Text}
    (hws : ∀ w ∈ ws, w.toList ≠ [] ∧ ∀ c ∈ w.toList, (Text.fold c).isLower = true) :
    ((words ws).search u s).isSome ↔ ∃ w ∈ ws, Text.OccursAsWord u w s := by
  rw [isSome_search]
  constructor
  · rintro ⟨a, r, _, rfl, h⟩
    obtain ⟨_, _, rfl, hbefore, h⟩ := matches_seq.mp h
    obtain ⟨t, _, rfl, hgroup, hafter⟩ := matches_seq.mp h
    obtain ⟨rfl, hstart⟩ := matches_boundary.mp hbefore
    obtain ⟨rfl, hend⟩ := matches_boundary.mp hafter
    obtain ⟨_, hp, hword⟩ := matches_alts.mp (matches_group.mp hgroup)
    obtain ⟨w, hw, rfl⟩ := List.mem_map.mp hp
    obtain ⟨⟨b, rfl⟩, ht⟩ := matches_caseless.mp hword
    have hne := ne_nil_of_map_fold (hws w hw).1 ht
    have hletters (a) (ha : a ∈ t) := isWord_of_map_fold (u := u) (hws w hw).2 ht ha
    refine ⟨w, hw, a, t, b, (List.append_assoc ..).symm, ht, ?_, ?_⟩
    · exact (atBoundary_before hne hletters).mp hstart
    · exact (atBoundary_after hne hletters).mp hend
  · rintro ⟨w, hw, a, t, b, rfl, ht, ha, hb⟩
    have hne := ne_nil_of_map_fold (hws w hw).1 ht
    have hletters (a) (ha : a ∈ t) := isWord_of_map_fold (u := u) (hws w hw).2 ht ha
    have hword : Matches u (caseless w) ⟨a.getLast?, t ++ b⟩ t :=
      matches_caseless.mpr ⟨⟨b, rfl⟩, ht⟩
    refine ⟨a, t ++ b, [] ++ (t ++ []), List.append_assoc .., .seq ?_ (.seq ?_ ?_)⟩
    · exact .boundary ((atBoundary_before hne hletters).mpr ha)
    · exact .group (matches_alts.mpr ⟨_, List.mem_map_of_mem hw, hword⟩)
    · exact .boundary ((atBoundary_after hne hletters).mpr hb)

end Pattern
end SalesData.Base

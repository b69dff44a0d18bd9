import SalesData.Base.Phrase

/-!
# Patterns without assertions

What such a pattern accepts does not depend on the place. The patterns of phrases, and where a
search finds them.
-/

namespace SalesData.Base.Pattern

variable {u : Unicode}

/-- What a pattern accepts is told by its text alone. -/
def Accepts (u : Unicode) (p : Pattern) (P : Text → Prop) : Prop :=
  ∀ c t, Matches u p c t ↔ t <+: c.rest ∧ P t

namespace Accepts

variable {p q : Pattern} {P Q : Text → Prop}

/-- Two descriptions of the same texts accept alike. -/
theorem congr (h : Accepts u p P) (hPQ : ∀ t, P t ↔ Q t) : Accepts u p Q := by
  intro c t
  rw [h c t, hPQ t]

/-- A caseless literal. -/
theorem caseless (w : String) : Accepts u (caseless w) (Solid.Fits u (.word w)) :=
  fun _ _ ↦ matches_caseless

/-- A literal of one character. -/
theorem lit {w : String} {a : Char} (hw : w.toList = [a]) :
    Accepts u (lit w) (Solid.Fits u (.mark a)) := by
  intro c t
  rw [matches_lit, hw]
  constructor
  · rintro ⟨rfl, h⟩
    exact ⟨h, rfl⟩
  · rintro ⟨h, ht⟩
    obtain rfl : t = [a] := ht
    exact ⟨rfl, h⟩

/-- A repeated class. -/
theorem star_set {greedy : Bool} {f : Char → Bool} :
    Accepts u (.star greedy (.set f)) fun t ↦ ∀ a ∈ t, f a = true :=
  fun _ _ ↦ matches_star_set

/-- One pattern and then the other. -/
theorem seq (hp : Accepts u p P) (hq : Accepts u q Q) :
    Accepts u (.seq p q) fun t ↦ ∃ s r, t = s ++ r ∧ P s ∧ Q r := by
  intro c t
  rw [matches_seq]
  have hrest {s : Text} (hs : s <+: c.rest) (r : Text) :
      r <+: (c.advance s).rest ↔ s ++ r <+: c.rest := by
    obtain ⟨x, hx⟩ := hs
    rw [Cursor.advance, ← hx, List.drop_left]
    exact (List.prefix_append_right_inj s).symm
  constructor
  · rintro ⟨s, r, rfl, hs, hr⟩
    obtain ⟨hsp, hP⟩ := (hp c s).mp hs
    obtain ⟨hrp, hQ⟩ := (hq _ r).mp hr
    exact ⟨(hrest hsp r).mp hrp, s, r, rfl, hP, hQ⟩
  · rintro ⟨hpre, s, r, rfl, hP, hQ⟩
    have hsp : s <+: c.rest := (List.prefix_append s r).trans hpre
    exact ⟨s, r, rfl, (hp c s).mpr ⟨hsp, hP⟩, (hq _ r).mpr ⟨(hrest hsp r).mpr hpre, hQ⟩⟩

/-- A class at least once. -/
theorem plus_set {f : Char → Bool} :
    Accepts u (plus (.set f)) fun t ↦ t ≠ [] ∧ ∀ a ∈ t, f a = true := by
  have hset : Accepts u (.set f) fun t ↦ ∃ a, t = [a] ∧ f a = true := by
    intro c t
    rw [matches_set]
    constructor
    · rintro ⟨a, rfl, ha, hf⟩
      obtain ⟨r, hr⟩ := List.head?_eq_some_iff.mp ha
      exact ⟨⟨r, hr.symm⟩, a, rfl, hf⟩
    · rintro ⟨⟨r, hr⟩, a, rfl, hf⟩
      exact ⟨a, rfl, by rw [← hr]; rfl, hf⟩
  refine (hset.seq star_set).congr fun t ↦ ?_
  constructor
  · rintro ⟨s, r, rfl, ⟨a, rfl, ha⟩, hr⟩
    refine ⟨List.cons_ne_nil a r, fun b hb ↦ ?_⟩
    rcases List.mem_cons.mp hb with rfl | hb
    · exact ha
    · exact hr b hb
  · rintro ⟨hne, hall⟩
    obtain ⟨a, r, rfl⟩ := List.exists_cons_of_ne_nil hne
    exact ⟨[a], r, rfl, ⟨a, rfl, hall a List.mem_cons_self⟩,
      fun b hb ↦ hall b (List.mem_cons_of_mem a hb)⟩

/-- Whitespace that may be absent. -/
theorem optional {greedy : Bool} :
    Accepts u (.star greedy (.set Text.isSpace)) Space.optional.Fits :=
  star_set.congr fun _ ↦ ⟨fun h ↦ ⟨h, trivial⟩, And.left⟩

/-- Whitespace that may not be absent. -/
theorem required : Accepts u (plus (.set Text.isSpace)) Space.required.Fits :=
  plus_set.congr fun _ ↦ ⟨fun h ↦ ⟨h.2, h.1⟩, fun h ↦ ⟨h.2, h.1⟩⟩

/-- The end of a phrase. -/
theorem phrase_nil : Accepts u .empty (Phrase.Fits u []) := by
  intro c t
  rw [matches_empty]
  constructor
  · rintro rfl
    exact ⟨List.nil_prefix, rfl⟩
  · exact And.right

/-- A token in front of a phrase. -/
theorem phrase_cons {s : Pattern} {token : Token} {phrase : Phrase}
    (hs : Accepts u s token.space.Fits) (hp : Accepts u p (token.solid.Fits u))
    (hq : Accepts u q (Phrase.Fits u phrase)) :
    Accepts u (.seq s (.seq p q)) (Phrase.Fits u (token :: phrase)) := by
  refine (hs.seq (hp.seq hq)).congr fun t ↦ ?_
  constructor
  · rintro ⟨g, _, rfl, hg, d, r, rfl, hd, hr⟩
    exact ⟨g, d, r, rfl, hg, hd, hr⟩
  · rintro ⟨g, d, r, rfl, hg, hd, hr⟩
    exact ⟨g, _, rfl, hg, d, r, rfl, hd, hr⟩

/-- The first token of a phrase, without whitespace in front of it. -/
theorem phrase_first {solid : Solid} {phrase : Phrase} (hp : Accepts u p (solid.Fits u))
    (hq : Accepts u q (Phrase.Fits u phrase)) :
    Accepts u (.seq p q) (Phrase.Fits u (⟨.none, solid⟩ :: phrase)) := by
  refine (hp.seq hq).congr fun t ↦ ?_
  constructor
  · rintro ⟨d, r, rfl, hd, hr⟩
    exact ⟨[], d, r, rfl, ⟨fun _ hc ↦ (by cases hc), rfl⟩, hd, hr⟩
  · rintro ⟨g, d, r, rfl, ⟨-, hg⟩, hd, hr⟩
    obtain rfl : g = [] := hg
    exact ⟨d, r, rfl, hd, hr⟩

/-- A phrase of one token. -/
theorem phrase_single {solid : Solid} (hp : Accepts u p (solid.Fits u)) :
    Accepts u p (Phrase.Fits u [⟨.none, solid⟩]) := by
  refine hp.congr fun t ↦ ?_
  constructor
  · intro ht
    exact ⟨[], t, [], by simp, ⟨fun _ hc ↦ (by cases hc), rfl⟩, ht, rfl⟩
  · rintro ⟨g, d, r, rfl, ⟨-, hg⟩, hd, hr⟩
    obtain rfl : g = [] := hg
    obtain rfl : r = [] := hr
    simpa using hd

end Accepts

/-- A search finds a phrase. -/
theorem isSome_search_phrase {p : Pattern} {phrase : Phrase} {s : Text}
    (hp : Accepts u p (phrase.Fits u)) :
    (p.search u s).isSome ↔ phrase.Occurs u false false s := by
  rw [isSome_search]
  constructor
  · rintro ⟨a, r, t, rfl, h⟩
    obtain ⟨⟨b, rfl⟩, hfits⟩ := (hp _ t).mp h
    exact ⟨a, t, b, rfl, hfits, by simp, by simp⟩
  · rintro ⟨a, t, b, rfl, hfits, -, -⟩
    exact ⟨a, t ++ b, t, rfl, (hp _ t).mpr ⟨List.prefix_append t b, hfits⟩⟩

/-- A search between boundaries finds one of several patterns. -/
theorem isSome_search_whole {ps : List Pattern} {s : Text} :
    ((whole ps).search u s).isSome ↔ ∃ p ∈ ps, ∃ a t b, s = a ++ (t ++ b) ∧
      Matches u p ⟨a.getLast?, t ++ b⟩ t ∧ Cursor.atBoundary u ⟨a.getLast?, t ++ b⟩ = true ∧
      Cursor.atBoundary u (Cursor.advance ⟨a.getLast?, t ++ b⟩ t) = true := by
  rw [isSome_search]
  constructor
  · rintro ⟨a, r, _, rfl, h⟩
    obtain ⟨_, _, rfl, hbefore, h⟩ := matches_seq.mp h
    obtain ⟨t, _, rfl, hgroup, hafter⟩ := matches_seq.mp h
    obtain ⟨rfl, hstart⟩ := matches_boundary.mp hbefore
    obtain ⟨rfl, hend⟩ := matches_boundary.mp hafter
    obtain ⟨p, hp, hmatch⟩ := matches_alts.mp (matches_group.mp hgroup)
    obtain ⟨b, hb⟩ := hmatch.isPrefix
    obtain rfl : t ++ b = r := hb
    exact ⟨p, hp, a, t, b, rfl, hmatch, hstart, hend⟩
  · rintro ⟨p, hp, a, t, b, rfl, hmatch, hstart, hend⟩
    refine ⟨a, t ++ b, [] ++ (t ++ []), rfl, .seq (.boundary hstart) (.seq ?_ (.boundary hend))⟩
    exact .group (matches_alts.mpr ⟨p, hp, hmatch⟩)

/-- Some patterns and then some more. -/
theorem matches_seqs_append {ps qs : List Pattern} {c : Cursor} {t : Text} :
    Matches u (seqs (ps ++ qs)) c t ↔
      ∃ s r, t = s ++ r ∧ Matches u (seqs ps) c s ∧ Matches u (seqs qs) (c.advance s) r := by
  induction ps generalizing c t with
  | nil =>
    constructor
    · intro h
      exact ⟨[], t, rfl, .empty, h⟩
    · rintro ⟨s, r, rfl, hs, hr⟩
      obtain rfl := matches_empty.mp hs
      exact hr
  | cons p ps ih =>
    rw [List.cons_append, seqs, matches_seq]
    constructor
    · rintro ⟨s, r, rfl, hs, hr⟩
      obtain ⟨r, r', rfl, hr, hr'⟩ := ih.mp hr
      rw [Cursor.advance_append] at hr'
      exact ⟨s ++ r, r', by rw [List.append_assoc], matches_seq.mpr ⟨s, r, rfl, hs, hr⟩, hr'⟩
    · rintro ⟨s, r', rfl, h, hr'⟩
      obtain ⟨s, r, rfl, hs, hr⟩ := matches_seq.mp h
      rw [← Cursor.advance_append] at hr'
      exact ⟨s, r ++ r', by rw [List.append_assoc], hs, ih.mpr ⟨r, r', rfl, hr, hr'⟩⟩

/-- A search between boundaries finds patterns one after the other. -/
theorem isSome_search_between {ps : List Pattern} {s : Text} :
    ((seqs (boundary :: ps ++ [boundary])).search u s).isSome ↔ ∃ a t b, s = a ++ (t ++ b) ∧
      Matches u (seqs ps) ⟨a.getLast?, t ++ b⟩ t ∧
      Cursor.atBoundary u ⟨a.getLast?, t ++ b⟩ = true ∧
      Cursor.atBoundary u (Cursor.advance ⟨a.getLast?, t ++ b⟩ t) = true := by
  rw [isSome_search]
  constructor
  · rintro ⟨a, r, _, rfl, h⟩
    obtain ⟨_, _, rfl, hbefore, h⟩ := matches_seq.mp h
    obtain ⟨rfl, hstart⟩ := matches_boundary.mp hbefore
    obtain ⟨t, _, rfl, hmatch, h⟩ := matches_seqs_append.mp h
    obtain ⟨_, _, rfl, hafter, -⟩ := matches_seq.mp h
    obtain ⟨rfl, hend⟩ := matches_boundary.mp hafter
    obtain ⟨b, hb⟩ := hmatch.isPrefix
    obtain rfl : t ++ b = r := hb
    exact ⟨a, t, b, rfl, hmatch, hstart, hend⟩
  · rintro ⟨a, t, b, rfl, hmatch, hstart, hend⟩
    refine ⟨a, t ++ b, [] ++ (t ++ ([] ++ [])), rfl, .seq (.boundary hstart) ?_⟩
    exact matches_seqs_append.mpr ⟨t, [], rfl, hmatch, .seq (.boundary hend) .empty⟩

/-- A place in front of a word character is a boundary if no word character is before it. -/
theorem atBoundary_of_head {prev : Option Char} {t b : Text}
    (ht : ∃ c ∈ t.head?, u.isWord c = true) :
    Cursor.atBoundary u ⟨prev, t ++ b⟩ = true ↔ prev.any u.isWord = false := by
  obtain ⟨c, hc, hword⟩ := ht
  obtain ⟨t, rfl⟩ := List.head?_eq_some_iff.mp hc
  simp [Cursor.atBoundary, hword]

/-- A place behind a word character is a boundary if no word character is after it. -/
theorem atBoundary_of_last {prev : Option Char} {t b : Text}
    (ht : ∃ c ∈ t.getLast?, u.isWord c = true) :
    Cursor.atBoundary u (Cursor.advance ⟨prev, t ++ b⟩ t) = true ↔
      b.head?.any u.isWord = false := by
  obtain ⟨c, hc, hword⟩ := ht
  simp [Cursor.atBoundary, Cursor.advance, Option.mem_def.mp hc, hword]

/-- A place behind a mark is a boundary if a word character is after it. -/
theorem atBoundary_of_mark {prev : Option Char} {t b : Text}
    (ht : ∃ c ∈ t.getLast?, u.isWord c = false) :
    Cursor.atBoundary u (Cursor.advance ⟨prev, t ++ b⟩ t) = true ↔
      b.head?.any u.isWord = true := by
  obtain ⟨c, hc, hword⟩ := ht
  simp [Cursor.atBoundary, Cursor.advance, Option.mem_def.mp hc, hword]

/-- A phrase of words and numbers between boundaries has no word character next to it. -/
theorem Accepts.between_iff {p : Pattern} {token : Token} {phrase : Phrase} {s : Text}
    (hp : Accepts u p (Phrase.Fits u (token :: phrase))) (hspace : token.space = .none)
    (hproper : ∀ x ∈ token :: phrase, x.solid.Proper u ∧ ∀ c, x.solid ≠ .mark c) :
    (∃ a t b, s = a ++ (t ++ b) ∧ Matches u p ⟨a.getLast?, t ++ b⟩ t ∧
      Cursor.atBoundary u ⟨a.getLast?, t ++ b⟩ = true ∧
      Cursor.atBoundary u (Cursor.advance ⟨a.getLast?, t ++ b⟩ t) = true) ↔
      Phrase.Occurs u true true (token :: phrase) s := by
  obtain ⟨htoken, hmark⟩ := hproper token List.mem_cons_self
  refine exists_congr fun a ↦ exists_congr fun t ↦ exists_congr fun b ↦
    and_congr_right fun _ ↦ ?_
  rw [hp]
  constructor
  · rintro ⟨⟨-, hfits⟩, hstart, hend⟩
    refine ⟨hfits, fun _ ↦ ?_, fun _ ↦ ?_⟩
    · exact (atBoundary_of_head (hfits.head htoken hmark hspace)).mp hstart
    · exact (atBoundary_of_last (hfits.last (List.cons_ne_nil _ _) hproper)).mp hend
  · rintro ⟨hfits, hfront, hback⟩
    refine ⟨⟨List.prefix_append t b, hfits⟩, ?_, ?_⟩
    · exact (atBoundary_of_head (hfits.head htoken hmark hspace)).mpr (hfront rfl)
    · exact (atBoundary_of_last (hfits.last (List.cons_ne_nil _ _) hproper)).mpr (hback rfl)

end SalesData.Base.Pattern

import SalesData.Base.Regex

/-!
# The preferred match

What `match` returns is the first of the matches of a pattern. `Prefers` is that one, rule by rule;
`Refuses` is the absence of any.
-/

namespace SalesData.Base.Pattern

variable {u : Unicode}

/-- The match that a pattern prefers at a place, with what its group captured. -/
def Prefers (u : Unicode) (p : Pattern) (c : Cursor) (t : Text) (g : Option Text) : Prop :=
  p.matchAt u c = some ⟨t, g, c.advance t⟩

/-- A pattern accepts nothing at a place. -/
def Refuses (u : Unicode) (p : Pattern) (c : Cursor) : Prop := ∀ t, ¬Matches u p c t

/-- A pattern that refuses has no match. -/
theorem Refuses.ends_eq_nil {p : Pattern} {c : Cursor} (h : Refuses u p c) : p.ends u c = [] := by
  apply List.eq_nil_iff_forall_not_mem.mpr
  intro m hm
  exact h m.text (of_mem_ends hm).2.2

/-- A pattern that refuses does not match. -/
theorem Refuses.matchAt_eq_none {p : Pattern} {c : Cursor} (h : Refuses u p c) :
    p.matchAt u c = none := by
  rw [matchAt, h.ends_eq_nil]
  rfl

private theorem length_after {p : Pattern} {c : Cursor} {m : Match} (hm : m ∈ p.ends u c) :
    m.text.length + m.after.rest.length = c.rest.length := by
  obtain ⟨⟨r, hr⟩, hafter, -⟩ := of_mem_ends hm
  rw [hafter, Cursor.advance, ← hr, List.drop_left, List.length_append]

private theorem rounds_fuel {p : Pattern} {greedy : Bool} (n n' : Nat) (c : Cursor)
    (hn : c.rest.length ≤ n) (hn' : c.rest.length ≤ n') :
    rounds (p.ends u) greedy n c = rounds (p.ends u) greedy n' c := by
  have hnone {c : Cursor} (hc : c.rest.length ≤ 0) (n : Nat) :
      ((p.ends u c).flatMap fun m ↦
        if m.text = [] then [] else (rounds (p.ends u) greedy n m.after).map m.append) = [] := by
    apply List.flatMap_eq_nil_iff.mpr
    intro m hm
    have hlength := length_after hm
    exact if_pos (List.eq_nil_of_length_eq_zero (by omega))
  induction n generalizing n' c with
  | zero =>
    cases n' with
    | zero => rfl
    | succ n' =>
      rw [rounds, rounds, hnone hn n']
      cases greedy <;> rfl
  | succ n ih =>
    cases n' with
    | zero =>
      rw [rounds, rounds, hnone hn' n]
      cases greedy <;> rfl
    | succ n' =>
      have hmore : ((p.ends u c).flatMap fun m ↦
            if m.text = [] then [] else (rounds (p.ends u) greedy n m.after).map m.append) =
          (p.ends u c).flatMap fun m ↦
            if m.text = [] then [] else (rounds (p.ends u) greedy n' m.after).map m.append := by
        apply List.flatMap_congr
        intro m hm
        split
        · rfl
        · next hne =>
          have hlength := length_after hm
          have hpos := List.length_pos_iff.mpr hne
          rw [ih n' m.after (by omega) (by omega)]
      rw [rounds, rounds, hmore]

private theorem ends_star (greedy : Bool) (p : Pattern) (c : Cursor) :
    (star greedy p).ends u c =
      let more := (p.ends u c).flatMap fun m ↦
        if m.text = [] then [] else ((star greedy p).ends u m.after).map m.append
      if greedy then more ++ [.nothing c] else .nothing c :: more := by
  have hmore : ((p.ends u c).flatMap fun m ↦
        if m.text = [] then [] else
          (rounds (p.ends u) greedy c.rest.length m.after).map m.append) =
      (p.ends u c).flatMap fun m ↦
        if m.text = [] then [] else ((star greedy p).ends u m.after).map m.append := by
    apply List.flatMap_congr
    intro m hm
    have hlength := length_after hm
    rw [rounds_fuel c.rest.length m.after.rest.length m.after (by omega) (Nat.le_refl _)]
    rfl
  rw [show (star greedy p).ends u c = rounds (p.ends u) greedy c.rest.length c from rfl,
    rounds_fuel _ (c.rest.length + 1) c (Nat.le_refl _) (Nat.le_succ _), rounds, hmore]

private theorem head?_flatMap {α β : Type} {l : List α} {f : α → List β} {a : α} {b : β}
    (ha : l.head? = some a) (hb : (f a).head? = some b) : (l.flatMap f).head? = some b := by
  obtain ⟨rest, rfl⟩ := List.head?_eq_some_iff.mp ha
  rw [List.flatMap_cons, List.head?_append, hb]
  rfl

namespace Prefers

variable {p q : Pattern} {c : Cursor} {s t : Text} {g g' : Option Text}

/-- The empty pattern. -/
theorem empty : Prefers u .empty c [] none := rfl

/-- One character of a class. -/
theorem set {f : Char → Bool} {prev : Option Char} {a : Char} {rest : Text} (h : f a = true) :
    Prefers u (.set f) ⟨prev, a :: rest⟩ [a] none := by
  simp [Prefers, matchAt, ends, h, Cursor.advance]

/-- The start of the text. -/
theorem start (h : c.prev = none) : Prefers u .start c [] none := by
  simp [Prefers, matchAt, ends, h, Match.nothing]

/-- One pattern and then the other. -/
theorem seq (hp : Prefers u p c s g) (hq : Prefers u q (c.advance s) t g') :
    Prefers u (.seq p q) c (s ++ t) (g'.or g) := by
  have hmap : ((q.ends u (c.advance s)).map (Match.append ⟨s, g, c.advance s⟩)).head? =
      some ⟨s ++ t, g'.or g, c.advance (s ++ t)⟩ := by
    rw [List.head?_map, show (q.ends u (c.advance s)).head? = _ from hq, Option.map_some,
      Match.append, Cursor.advance_append]
  exact head?_flatMap hp hmap

/-- The first alternative. -/
theorem alt_left (h : Prefers u p c t g) : Prefers u (.alt p q) c t g := by
  rw [Prefers, matchAt, ends, List.head?_append, show (p.ends u c).head? = _ from h]
  rfl

/-- The second alternative, where the first one accepts nothing. -/
theorem alt_right (hp : Refuses u p c) (hq : Prefers u q c t g) : Prefers u (.alt p q) c t g := by
  rw [Prefers, matchAt, ends, hp.ends_eq_nil]
  exact hq

/-- A group captures its match. -/
theorem group (h : Prefers u p c t g) : Prefers u (.group p) c t (some t) := by
  rw [Prefers, matchAt, ends, List.head?_map, show (p.ends u c).head? = _ from h]
  rfl

/-- No round. -/
theorem star_nil {greedy : Bool} (h : Refuses u p c) : Prefers u (.star greedy p) c [] none := by
  rw [Prefers, matchAt, ends_star, h.ends_eq_nil]
  cases greedy <;> rfl

/-- A greedy repetition takes a round where it can. -/
theorem star_cons (hs : s ≠ []) (hp : Prefers u p c s g)
    (h : Prefers u (.star true p) (c.advance s) t g') :
    Prefers u (.star true p) c (s ++ t) (g'.or g) := by
  have hmap : (if s = [] then [] else
      ((Pattern.star true p).ends u (c.advance s)).map (Match.append ⟨s, g, c.advance s⟩)).head? =
        some ⟨s ++ t, g'.or g, c.advance (s ++ t)⟩ := by
    rw [if_neg hs, List.head?_map,
      show ((Pattern.star true p).ends u (c.advance s)).head? = _ from h, Option.map_some,
      Match.append, Cursor.advance_append]
  rw [Prefers, matchAt, ends_star]
  dsimp only
  rw [if_pos rfl, List.head?_append, head?_flatMap hp hmap]
  rfl

/-- A greedy repetition goes on behind the text of a round. -/
theorem star_cons_append {prev : Option Char} {r : Text} (hs : s ≠ [])
    (hp : Prefers u p ⟨prev, s ++ r⟩ s g)
    (h : Prefers u (.star true p) ⟨s.getLast?.or prev, r⟩ t g') :
    Prefers u (.star true p) ⟨prev, s ++ r⟩ (s ++ t) (g'.or g) := by
  refine star_cons hs hp ?_
  rw [Cursor.advance, List.drop_left]
  exact h

/-- A lazy repetition takes no round where the pattern behind it matches. -/
theorem lazy_nil (hq : Prefers u q c t g) : Prefers u (.seq (.star false p) q) c t g := by
  have hfirst : ((Pattern.star false p).ends u c).head? = some (.nothing c) := by
    rw [ends_star]
    rfl
  have hmap : ((q.ends u (Match.nothing c).after).map (Match.append (.nothing c))).head? =
      some ⟨t, g, c.advance t⟩ := by
    rw [List.head?_map, show (q.ends u (Match.nothing c).after).head? = _ from hq]
    simp [Match.append, Match.nothing]
  exact head?_flatMap hfirst hmap

/-- A lazy repetition takes a round where the pattern behind it does not match. -/
theorem lazy_cons (hs : s ≠ []) (hq : Refuses u q c) (hp : Prefers u p c s g)
    (h : Prefers u (.seq (.star false p) q) (c.advance s) t g') :
    Prefers u (.seq (.star false p) q) c (s ++ t) (g'.or g) := by
  have hends : ((Pattern.star false p).seq q).ends u c =
      (p.ends u c).flatMap fun m ↦ if m.text = [] then [] else
        (((Pattern.star false p).seq q).ends u m.after).map m.append := by
    rw [ends, ends_star]
    dsimp only
    rw [if_neg Bool.false_ne_true, List.flatMap_cons,
      show (Match.nothing c).after = c from rfl, hq.ends_eq_nil, List.map_nil, List.nil_append,
      List.flatMap_assoc]
    apply List.flatMap_congr
    intro m _
    split
    · rfl
    · rw [ends, List.flatMap_map, List.map_flatMap]
      apply List.flatMap_congr
      intro n _
      rw [List.map_map]
      apply List.map_congr_left
      intro k _
      simp [Match.append, Option.or_assoc]
  have hmap : (if s = [] then [] else
      (((Pattern.star false p).seq q).ends u (c.advance s)).map
        (Match.append ⟨s, g, c.advance s⟩)).head? =
        some ⟨s ++ t, g'.or g, c.advance (s ++ t)⟩ := by
    rw [if_neg hs, List.head?_map,
      show (((Pattern.star false p).seq q).ends u (c.advance s)).head? = _ from h,
      Option.map_some, Match.append, Cursor.advance_append]
  rw [Prefers, matchAt, hends]
  exact head?_flatMap hp hmap

end Prefers

/-- The empty pattern matches the empty text. -/
theorem matches_empty {c : Cursor} {t : Text} : Matches u .empty c t ↔ t = [] := by
  constructor
  · intro h
    cases h
    rfl
  · rintro rfl
    exact .empty

/-- The start matches the empty text, with nothing before it. -/
theorem matches_start {c : Cursor} {t : Text} : Matches u .start c t ↔ t = [] ∧ c.prev = none := by
  constructor
  · intro h
    cases h with
    | start hc => exact ⟨rfl, hc⟩
  · rintro ⟨rfl, hc⟩
    exact .start hc

/-- A set matches one of its characters. -/
theorem matches_set {f : Char → Bool} {c : Cursor} {t : Text} :
    Matches u (.set f) c t ↔ ∃ a, t = [a] ∧ c.rest.head? = some a ∧ f a = true := by
  constructor
  · intro h
    cases h with
    | @set _ prev a rest ha => exact ⟨a, rfl, rfl, ha⟩
  · rintro ⟨a, rfl, ha, hf⟩
    obtain ⟨prev, rest⟩ := c
    obtain ⟨r, rfl⟩ := List.head?_eq_some_iff.mp ha
    exact .set hf

/-- A literal accepts its characters. -/
theorem matches_lit {w : String} {c : Cursor} {t : Text} :
    Matches u (lit w) c t ↔ t = w.toList ∧ w.toList <+: c.rest := by
  rw [lit]
  generalize w.toList = w
  induction w generalizing c t with
  | nil =>
    rw [List.map_nil, seqs, matches_empty]
    simp
  | cons a w ih =>
    obtain ⟨prev, rest⟩ := c
    rw [List.map_cons, seqs, matches_seq]
    constructor
    · rintro ⟨s, r, rfl, hs, hr⟩
      obtain ⟨b, rfl, hb, hab⟩ := matches_set.mp hs
      obtain ⟨rest, rfl⟩ := List.head?_eq_some_iff.mp hb
      obtain ⟨rfl, hw⟩ := ih.mp hr
      rw [beq_iff_eq.mp hab]
      exact ⟨rfl, (List.prefix_cons_inj a).mpr hw⟩
    · rintro ⟨rfl, r, rfl⟩
      exact ⟨[a], w, rfl, .set (beq_self_eq_true a), ih.mpr ⟨rfl, List.prefix_append w r⟩⟩

/-- A repeated class accepts runs of its characters. -/
theorem matches_star_set {greedy : Bool} {f : Char → Bool} {c : Cursor} {t : Text} :
    Matches u (.star greedy (.set f)) c t ↔ t <+: c.rest ∧ ∀ a ∈ t, f a = true := by
  constructor
  · intro h
    refine ⟨h.isPrefix, ?_⟩
    generalize hp : Pattern.star greedy (.set f) = p at h
    induction h with
    | starNil => exact fun a ha ↦ absurd ha List.not_mem_nil
    | starCons _ hs _ _ ih =>
      obtain ⟨rfl, rfl⟩ := Pattern.star.inj hp
      obtain ⟨b, rfl, -, hb⟩ := matches_set.mp hs
      intro a ha
      rcases List.mem_cons.mp ha with rfl | ha
      · exact hb
      · exact ih rfl a ha
    | _ => cases hp
  · rintro ⟨⟨r, hr⟩, hall⟩
    obtain ⟨prev, rest⟩ := c
    subst hr
    induction t generalizing prev with
    | nil => exact .starNil
    | cons a t ih =>
      have ha : Matches u (.set f) ⟨prev, a :: t ++ r⟩ [a] := .set (hall a List.mem_cons_self)
      exact .starCons (List.cons_ne_nil a []) ha
        (ih (fun b hb ↦ hall b (List.mem_cons_of_mem a hb)) (some a))

/-- A literal refuses where the text goes on differently. -/
theorem refuses_lit {w : String} {c : Cursor} (h : ¬w.toList <+: c.rest) : Refuses u (lit w) c :=
  fun _ ht ↦ h (matches_lit.mp ht).2

/-- A class refuses where the next character is not in it. -/
theorem refuses_set {f : Char → Bool} {c : Cursor} (h : ∀ a ∈ c.rest.head?, f a = false) :
    Refuses u (.set f) c := by
  intro t ht
  obtain ⟨a, -, ha, hf⟩ := matches_set.mp ht
  rw [h a ha] at hf
  cases hf

/-- A sequence refuses where its first pattern does. -/
theorem Refuses.seq {p q : Pattern} {c : Cursor} (h : Refuses u p c) :
    Refuses u (.seq p q) c := by
  intro r hr
  obtain ⟨s, t, -, hs, -⟩ := matches_seq.mp hr
  exact h s hs

/-- Two alternatives refuse where both do. -/
theorem Refuses.alt {p q : Pattern} {c : Cursor} (hp : Refuses u p c) (hq : Refuses u q c) :
    Refuses u (.alt p q) c := by
  intro t ht
  rcases matches_alt.mp ht with ht | ht
  · exact hp t ht
  · exact hq t ht

/-- A repetition of what is refused accepts nothing else than the empty text. -/
theorem Refuses.eq_nil_of_star {p : Pattern} {c : Cursor} {greedy : Bool} {t : Text}
    (h : Refuses u p c) (ht : Matches u (.star greedy p) c t) : t = [] := by
  cases ht with
  | starNil => rfl
  | starCons _ hs _ => exact absurd hs (h _)

namespace Prefers

/-- A literal. -/
theorem lit {w : String} {prev : Option Char} {r : Text} :
    Prefers u (lit w) ⟨prev, w.toList ++ r⟩ w.toList none := by
  rw [Pattern.lit]
  generalize w.toList = w
  induction w generalizing prev with
  | nil => exact empty
  | cons a w ih =>
    have ha : Prefers u (.set (· == a)) ⟨prev, a :: (w ++ r)⟩ [a] none :=
      set (beq_self_eq_true a)
    exact ha.seq ih

/-- A greedy run ends where the class does. -/
theorem star_set {f : Char → Bool} {prev : Option Char} {s r : Text} (hs : ∀ a ∈ s, f a = true)
    (hr : ∀ a ∈ r.head?, f a = false) :
    Prefers u (.star true (.set f)) ⟨prev, s ++ r⟩ s none := by
  induction s generalizing prev with
  | nil => exact star_nil (refuses_set hr)
  | cons a s ih =>
    have ha : Prefers u (.set f) ⟨prev, a :: s ++ r⟩ [a] none := set (hs a List.mem_cons_self)
    exact star_cons (List.cons_ne_nil a []) ha
      (ih fun b hb ↦ hs b (List.mem_cons_of_mem a hb))

/-- A greedy run of any text. -/
theorem star_takeWhile {f : Char → Bool} {prev : Option Char} {s : Text} :
    Prefers u (.star true (.set f)) ⟨prev, s⟩ (s.takeWhile f) none := by
  induction s generalizing prev with
  | nil => exact star_nil (refuses_set fun _ ha ↦ by cases ha)
  | cons a s ih =>
    cases ha : f a with
    | false =>
      rw [List.takeWhile_cons_of_neg (by simp [ha])]
      refine star_nil (refuses_set fun b hb ↦ ?_)
      cases hb
      exact ha
    | true =>
      rw [List.takeWhile_cons_of_pos ha]
      exact star_cons (List.cons_ne_nil a []) (set ha) ih

/-- A lazy run of any characters ends in front of the first place where the pattern behind it
matches. -/
theorem lazy_until {q : Pattern} {prev : Option Char} {s r t : Text} {g : Option Text}
    (hq : Prefers u q (Cursor.advance ⟨prev, s ++ r⟩ s) t g)
    (hbefore : ∀ a b, s = a ++ b → b ≠ [] →
      Refuses u q (Cursor.advance ⟨prev, s ++ r⟩ a)) :
    Prefers u (.seq (.star false (.set fun _ ↦ true)) q) ⟨prev, s ++ r⟩ (s ++ t) g := by
  induction s generalizing prev with
  | nil => exact lazy_nil hq
  | cons a s ih =>
    have ha : Prefers u (.set fun _ ↦ true) ⟨prev, a :: s ++ r⟩ [a] none := set rfl
    have hstep (x : Text) : Cursor.advance ⟨prev, a :: s ++ r⟩ (a :: x) =
        Cursor.advance ⟨some a, s ++ r⟩ x :=
      (Cursor.advance_append ⟨prev, a :: s ++ r⟩ [a] x).symm
    have hrest := @ih (some a) (by rw [← hstep]; exact hq) fun x b hs hb ↦ by
      rw [← hstep]
      exact hbefore (a :: x) b (by rw [hs, List.cons_append]) hb
    have hfirst : Refuses u q ⟨prev, a :: s ++ r⟩ :=
      hbefore [] (a :: s) rfl (List.cons_ne_nil a s)
    have := lazy_cons (List.cons_ne_nil a []) hfirst ha hrest
    rwa [Option.or_none] at this

end Prefers

private theorem removeFrom_anchored {q : Pattern} (a : Char) (s : Text) (n : Nat) :
    (seq start q).removeFrom u (some a) s n = s.drop n := by
  have hrefuses (a : Char) (s : Text) : Refuses u (seq start q) ⟨some a, s⟩ := by
    apply Refuses.seq
    intro t ht
    cases (matches_start.mp ht).2
  induction s generalizing a n with
  | nil => simp [removeFrom]
  | cons b s ih =>
    cases n with
    | zero =>
      have hreports : (seq start q).reports u ⟨some a, b :: s⟩ = [] := by
        rw [reports, (hrefuses a (b :: s)).matchAt_eq_none]
      rw [removeFrom, hreports]
      simp [consumed, ih]
    | succ n => rw [removeFrom, ih, List.drop_succ_cons]

/-- `sub("", …)` with an anchored pattern removes its match at the start of the text. -/
theorem Prefers.remove {q : Pattern} {s t : Text} {g : Option Text}
    (h : Prefers u (.seq .start q) (.ofText s) t g)
    (hnil : t = [] → ∀ r, Matches u (.seq .start q) (.ofText s) r → r = []) :
    (Pattern.seq .start q).remove u s = s.drop t.length := by
  have hconsumed : consumed ((Pattern.seq .start q).reports u (.ofText s)) = t.length := by
    rw [reports, show (Pattern.seq .start q).matchAt u (.ofText s) = _ from h]
    dsimp only
    split
    · next ht =>
      have hfind : ((Pattern.seq .start q).ends u (.ofText s)).find? (·.text ≠ []) = none := by
        apply List.find?_eq_none.mpr
        intro m hm
        simp [hnil ht m.text (of_mem_ends hm).2.2]
      rw [hfind, ht]
      rfl
    · simp [consumed]
  cases s with
  | nil => simp [Pattern.remove, removeFrom]
  | cons a s =>
    rw [Pattern.remove, removeFrom,
      show (Pattern.seq .start q).reports u ⟨none, a :: s⟩ =
        (Pattern.seq .start q).reports u (.ofText (a :: s)) from rfl, hconsumed]
    cases t with
    | nil => simp [removeFrom_anchored]
    | cons b t => simp [removeFrom_anchored]

end SalesData.Base.Pattern

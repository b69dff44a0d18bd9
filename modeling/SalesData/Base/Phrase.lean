import SalesData.Base.RegexFirst

/-!
# Phrases

Words, numbers and punctuation with whitespace between them, as a caller's search terms describe
them, and where they occur in a text. Neither the case of a letter nor the length of a run of
whitespace matters to that.
-/

namespace SalesData.Base

/-- What stands in front of a token. -/
inductive Space
  | none
  | optional
  | required
  deriving DecidableEq

/-- A word in any case, a number, or one punctuation character. -/
inductive Solid
  | word (w : String)
  | number
  | mark (c : Char)
  deriving DecidableEq

/-- A token and the whitespace in front of it. -/
structure Token where
  space : Space
  solid : Solid
  deriving DecidableEq

/-- A phrase. -/
abbrev Phrase := List Token

/-- Words with whitespace between them. -/
def Phrase.ofWords : List String → Phrase
  | [] => []
  | w :: ws => ⟨.none, .word w⟩ :: ws.map fun w ↦ ⟨.required, .word w⟩

/-- The whitespace that may stand in front of a token. -/
def Space.Fits (space : Space) (g : Text) : Prop :=
  (∀ c ∈ g, Text.isSpace c = true) ∧
    match space with
    | .none => g = []
    | .optional => True
    | .required => g ≠ []

/-- The texts of a token. -/
def Solid.Fits (u : Unicode) (solid : Solid) (t : Text) : Prop :=
  match solid with
  | .word w => t.map Text.fold = w.toList.map Text.fold
  | .number => t ≠ [] ∧ ∀ c ∈ t, u.isDecimal c = true
  | .mark c => t = [c]

/-- The texts of a phrase. -/
def Phrase.Fits (u : Unicode) : Phrase → Text → Prop
  | [], t => t = []
  | token :: tokens, t => ∃ g d r, t = g ++ (d ++ r) ∧ token.space.Fits g ∧ token.solid.Fits u d ∧
    Fits u tokens r

/-- A phrase stands in a text; `ends` says which of its neighbours are word characters. -/
def Phrase.Stands (u : Unicode) (ends : Bool → Bool → Prop) (phrase : Phrase) (s : Text) : Prop :=
  ∃ a t b, s = a ++ (t ++ b) ∧ phrase.Fits u t ∧
    ends (a.getLast?.any u.isWord) (b.head?.any u.isWord)

/-- A phrase stands in a text; with `before` and `after` no word character is next to it. -/
def Phrase.Occurs (u : Unicode) (before after : Bool) (phrase : Phrase) (s : Text) : Prop :=
  phrase.Stands u (fun front back ↦ (before = true → front = false) ∧
    (after = true → back = false)) s

/-- A token has a text, which begins with no whitespace: the word has ASCII letters, and the mark is
neither a word character nor whitespace. -/
def Solid.Proper (u : Unicode) : Solid → Prop
  | .word w => w.toList ≠ [] ∧ ∀ c ∈ w.toList, (Text.fold c).isLower = true
  | .number => True
  | .mark c => u.isWord c = false ∧ Text.isSpace c = false

/-- Two characters differ in case at most: they are letters that are equal when case is ignored, or
letters outside ASCII. -/
def SameLetter (u : Unicode) (c c' : Char) : Prop :=
  c = c' ∨
    (u.isWord c = true ∧ u.isDecimal c = false ∧ u.isWord c' = true ∧ u.isDecimal c' = false ∧
      (Text.fold c = Text.fold c' ∨
        (Text.fold c).isLower = false ∧ (Text.fold c').isLower = false))

/-- A word character is no whitespace. -/
theorem Unicode.isSpace_of_isWord (u : Unicode) {c : Char} (h : u.isWord c = true) :
    Text.isSpace c = false := by
  cases hs : Text.isSpace c with
  | false => rfl
  | true =>
    rw [u.not_isWord_of_isSpace c hs] at h
    cases h

namespace SameLetter

variable {u : Unicode} {c c' : Char}

/-- Letters change back. -/
theorem symm (h : SameLetter u c c') : SameLetter u c' c := by
  rcases h with rfl | ⟨hw, hd, hw', hd', h | ⟨h, h'⟩⟩
  · exact .inl rfl
  · exact .inr ⟨hw', hd', hw, hd, .inl h.symm⟩
  · exact .inr ⟨hw', hd', hw, hd, .inr ⟨h', h⟩⟩

/-- Word characters stay word characters. -/
theorem isWord_eq (h : SameLetter u c c') : u.isWord c = u.isWord c' := by
  rcases h with rfl | ⟨hw, -, hw', -, -⟩
  · rfl
  · rw [hw, hw']

/-- Other characters do not change. -/
theorem eq_of_not_isWord (h : SameLetter u c c') (hc : u.isWord c = false) : c = c' := by
  rcases h with rfl | ⟨hw, -⟩
  · rfl
  · rw [hc] at hw
    cases hw

/-- Digits do not change. -/
theorem eq_of_isDecimal (h : SameLetter u c c') (hc : u.isDecimal c = true) : c = c' := by
  rcases h with rfl | ⟨-, hd, -⟩
  · rfl
  · rw [hc] at hd
    cases hd

/-- ASCII letters change their case only. -/
theorem fold_eq (h : SameLetter u c c') (hc : (Text.fold c).isLower = true) :
    Text.fold c = Text.fold c' := by
  rcases h with rfl | ⟨-, -, -, -, h | ⟨h, -⟩⟩
  · rfl
  · exact h
  · rw [hc] at h
    cases h

/-- Whitespace stays whitespace. -/
theorem isSpace_eq (h : SameLetter u c c') : Text.isSpace c = Text.isSpace c' := by
  rcases h with rfl | ⟨hw, -, hw', -, -⟩
  · rfl
  · rw [u.isSpace_of_isWord hw, u.isSpace_of_isWord hw']

end SameLetter

/-- Two texts differ in the case of letters and in the length of runs of whitespace at most. -/
inductive Variant (u : Unicode) : Text → Text → Prop
  | nil : Variant u [] []
  | char {c c' : Char} {s s' : Text} :
      Text.isSpace c = false → SameLetter u c c' → Variant u s s' → Variant u (c :: s) (c' :: s')
  | run {g g' s s' : Text} :
      g ≠ [] → g' ≠ [] → (∀ c ∈ g, Text.isSpace c = true) → (∀ c ∈ g', Text.isSpace c = true) →
      Variant u s s' → Variant u (g ++ s) (g' ++ s')

namespace Variant

variable {u : Unicode} {s s' : Text}

/-- Variants are mutual. -/
theorem symm (h : Variant u s s') : Variant u s' s := by
  induction h with
  | nil => exact .nil
  | char hc hsame _ ih => exact .char (hsame.isSpace_eq ▸ hc) hsame.symm ih
  | run hg hg' hall hall' _ ih => exact .run hg' hg hall' hall ih

/-- Variants stay variants behind one character. -/
theorem cons (c : Char) (h : Variant u s s') : Variant u (c :: s) (c :: s') := by
  cases hc : Text.isSpace c with
  | false => exact .char hc (.inl rfl) h
  | true =>
    have hrun : ∀ x ∈ [c], Text.isSpace x = true := by simpa using hc
    have := run (List.cons_ne_nil c []) (List.cons_ne_nil c []) hrun hrun h
    exact this

/-- Every text is a variant of itself. -/
theorem refl (s : Text) : Variant u s s := by
  induction s with
  | nil => exact .nil
  | cons c s ih => exact ih.cons c

/-- A text in another case is a variant. -/
theorem of_letters (h : List.Forall₂ (SameLetter u) s s') : Variant u s s' := by
  induction h with
  | nil => exact .nil
  | @cons c c' s s' hsame _ ih =>
    cases hc : Text.isSpace c with
    | false => exact .char hc hsame ih
    | true =>
      obtain rfl := hsame.eq_of_not_isWord (u.not_isWord_of_isSpace c hc)
      exact ih.cons c

/-- A text with other whitespace in the place of a run is a variant. -/
theorem of_run (a : Text) {g g' b : Text} (hg : g ≠ []) (hg' : g' ≠ [])
    (hall : ∀ c ∈ g, Text.isSpace c = true) (hall' : ∀ c ∈ g', Text.isSpace c = true) :
    Variant u (a ++ (g ++ b)) (a ++ (g' ++ b)) := by
  induction a with
  | nil =>
    have h := run hg hg' hall hall' (refl (u := u) b)
    exact h
  | cons c a ih => exact ih.cons c

/-- The word character at the front stays one. -/
theorem head?_any (h : Variant u s s') : s.head?.any u.isWord = s'.head?.any u.isWord := by
  cases h with
  | nil => rfl
  | char hc hsame _ => exact hsame.isWord_eq
  | @run g g' s s' hg hg' hall hall' _ =>
    obtain ⟨c, g, rfl⟩ := List.exists_cons_of_ne_nil hg
    obtain ⟨c', g', rfl⟩ := List.exists_cons_of_ne_nil hg'
    have hc := u.not_isWord_of_isSpace c (hall c List.mem_cons_self)
    have hc' := u.not_isWord_of_isSpace c' (hall' c' List.mem_cons_self)
    simp [hc, hc']

/-- Only the empty text is a variant of it. -/
theorem eq_nil_iff (h : Variant u s s') : s = [] ↔ s' = [] := by
  cases h with
  | nil => simp
  | char _ _ _ => simp
  | run hg hg' _ _ _ => simp [hg, hg']

/-- The word character at the end stays one. -/
theorem getLast?_any (h : Variant u s s') :
    s.getLast?.any u.isWord = s'.getLast?.any u.isWord := by
  have hspaces {g : Text} (hg : g ≠ []) (hall : ∀ c ∈ g, Text.isSpace c = true) :
      g.getLast?.any u.isWord = false := by
    rw [List.getLast?_eq_some_getLast hg, Option.any_some]
    exact u.not_isWord_of_isSpace _ (hall _ (List.getLast_mem hg))
  induction h with
  | nil => rfl
  | @char c c' s s' hc hsame hrest ih =>
    by_cases hs : s = []
    · have hs' := hrest.eq_nil_iff.mp hs
      subst hs hs'
      exact hsame.isWord_eq
    · have hs' := mt hrest.eq_nil_iff.mpr hs
      rw [List.getLast?_cons_of_ne_nil hs, List.getLast?_cons_of_ne_nil hs']
      exact ih
  | @run g g' s s' hg hg' hall hall' hrest ih =>
    by_cases hs : s = []
    · have hs' := hrest.eq_nil_iff.mp hs
      rw [hs, hs', List.append_nil, List.append_nil, hspaces hg hall, hspaces hg' hall']
    · have hs' := mt hrest.eq_nil_iff.mpr hs
      rw [List.getLast?_append_of_ne_nil _ hs, List.getLast?_append_of_ne_nil _ hs']
      exact ih

/-- What begins with no whitespace is split off a variant too. -/
theorem split {a r : Text} (h : Variant u (a ++ r) s')
    (hr : ∀ c ∈ r.head?, Text.isSpace c = false) (hne : r ≠ []) :
    ∃ a' r', s' = a' ++ r' ∧ Variant u a a' ∧ Variant u r r' := by
  generalize hs : a ++ r = s at h
  induction h generalizing a with
  | nil =>
    obtain ⟨rfl, rfl⟩ := List.append_eq_nil_iff.mp hs
    exact absurd rfl hne
  | @char c c' s s' hc hsame hrest ih =>
    cases a with
    | nil =>
      subst hs
      exact ⟨[], _, rfl, .nil, .char hc hsame hrest⟩
    | cons x a =>
      obtain ⟨rfl, rfl⟩ := List.cons.inj hs
      obtain ⟨a', r', rfl, ha, hr'⟩ := ih rfl
      exact ⟨c' :: a', r', rfl, .char hc hsame ha, hr'⟩
  | @run g g' s s' hg hg' hall hall' hrest ih =>
    -- The run lies in front of `r`, which begins with another character.
    rcases List.append_eq_append_iff.mp hs with ⟨b, hb, hbr⟩ | ⟨b, hb, hbs⟩
    · cases b with
      | nil =>
        rw [List.append_nil] at hb
        rw [List.nil_append] at hbr
        subst hb hbr
        exact ⟨g', s', rfl, by simpa using run hg hg' hall hall' .nil, hrest⟩
      | cons x b =>
        have hx := hr x (by rw [hbr]; rfl)
        rw [hall x (by rw [hb]; simp)] at hx
        cases hx
    · obtain ⟨a', r', rfl, ha, hr'⟩ := ih hbs.symm
      refine ⟨g' ++ a', r', by rw [List.append_assoc], ?_, hr'⟩
      rw [hb]
      exact run hg hg' hall hall' ha

/-- Text without whitespace is changed letter by letter. -/
theorem letters {d r : Text} (h : Variant u (d ++ r) s') (hd : ∀ c ∈ d, Text.isSpace c = false) :
    ∃ d' r', s' = d' ++ r' ∧ List.Forall₂ (SameLetter u) d d' ∧ Variant u r r' := by
  induction d generalizing s' with
  | nil => exact ⟨[], s', rfl, .nil, h⟩
  | cons c d ih =>
    generalize hs : c :: d ++ r = s at h
    cases h with
    | nil => cases hs
    | @char x c' s s' hc hsame hrest =>
      obtain ⟨rfl, rfl⟩ := List.cons.inj hs
      obtain ⟨d', r', rfl, hletters, hr⟩ := ih hrest fun y hy ↦ hd y (List.mem_cons_of_mem _ hy)
      exact ⟨c' :: d', r', rfl, .cons hsame hletters, hr⟩
    | @run g g' s s' hg hg' hall hall' hrest =>
      obtain ⟨x, g, rfl⟩ := List.exists_cons_of_ne_nil hg
      obtain ⟨rfl, -⟩ := List.cons.inj hs
      have hc := hd c List.mem_cons_self
      rw [hall c List.mem_cons_self] at hc
      cases hc

/-- Whitespace stays whitespace, and present or absent. -/
theorem spaces {g r : Text} (h : Variant u (g ++ r) s') (hg : ∀ c ∈ g, Text.isSpace c = true)
    (hr : ∀ c ∈ r.head?, Text.isSpace c = false) (hne : r ≠ []) :
    ∃ g' r', s' = g' ++ r' ∧ (∀ c ∈ g', Text.isSpace c = true) ∧ (g = [] ↔ g' = []) ∧
      Variant u r r' := by
  obtain ⟨g', r', rfl, hvariant, hrest⟩ := h.split hr hne
  refine ⟨g', r', rfl, ?_, hvariant.eq_nil_iff, hrest⟩
  clear h hr hne hrest
  induction hvariant with
  | nil => exact hg
  | char hc _ _ _ =>
    rw [hg _ List.mem_cons_self] at hc
    cases hc
  | run _ _ _ hall' _ ih =>
    intro c hc
    rcases List.mem_append.mp hc with hc | hc
    · exact hall' c hc
    · exact ih (fun x hx ↦ hg x (List.mem_append_right _ hx)) c hc

end Variant

namespace Solid

variable {u : Unicode} {solid : Solid} {d d' : Text}

/-- A word is written with ASCII letters. -/
theorem Proper.lower {w : String} (h : (Solid.word w).Proper u) (hfits : (Solid.word w).Fits u d) :
    ∀ c ∈ d, (Text.fold c).isLower = true := by
  intro c hc
  have hmem : Text.fold c ∈ w.toList.map Text.fold := hfits ▸ List.mem_map_of_mem hc
  obtain ⟨x, hx, hxc⟩ := List.mem_map.mp hmem
  exact hxc ▸ h.2 x hx

/-- Words and numbers are made of word characters. -/
theorem Proper.isWord (h : solid.Proper u) (hmark : ∀ c, solid ≠ .mark c)
    (hfits : solid.Fits u d) : ∀ c ∈ d, u.isWord c = true := by
  intro c hc
  cases solid with
  | word w => exact u.isWord_of_fold c (h.lower hfits c hc)
  | number => exact u.isWord_of_isDecimal c (hfits.2 c hc)
  | mark x => exact absurd rfl (hmark x)

/-- The text of a token. -/
theorem Proper.fits (h : solid.Proper u) (hfits : solid.Fits u d) :
    d ≠ [] ∧ ∀ c ∈ d, Text.isSpace c = false := by
  cases solid with
  | word w =>
    refine ⟨?_, fun c hc ↦ u.isSpace_of_isWord (h.isWord (by simp) hfits c hc)⟩
    rintro rfl
    exact h.1 (List.map_eq_nil_iff.mp hfits.symm)
  | number =>
    exact ⟨hfits.1, fun c hc ↦ u.isSpace_of_isWord (h.isWord (by simp) hfits c hc)⟩
  | mark c =>
    obtain rfl : d = [c] := hfits
    refine ⟨List.cons_ne_nil c [], fun x hx ↦ ?_⟩
    rw [List.mem_singleton.mp hx]
    exact h.2

/-- A token in another case. -/
theorem Proper.letters (h : solid.Proper u) (hfits : solid.Fits u d)
    (hletters : List.Forall₂ (SameLetter u) d d') : solid.Fits u d' := by
  cases solid with
  | word w =>
    have hlower := h.lower hfits
    refine Eq.trans ?_ hfits
    clear hfits
    induction hletters with
    | nil => rfl
    | @cons c c' d d' hsame _ ih =>
      rw [List.map_cons, List.map_cons, hsame.fold_eq (hlower c List.mem_cons_self),
        ih fun x hx ↦ hlower x (List.mem_cons_of_mem _ hx)]
  | number =>
    have hsame : d = d' := by
      obtain ⟨-, hdigits⟩ := hfits
      induction hletters with
      | nil => rfl
      | @cons c c' d d' hsame _ ih =>
        rw [hsame.eq_of_isDecimal (hdigits c List.mem_cons_self),
          ih fun x hx ↦ hdigits x (List.mem_cons_of_mem _ hx)]
    exact hsame ▸ hfits
  | mark c =>
    obtain rfl : d = [c] := hfits
    cases hletters with
    | cons hsame hnil =>
      cases hnil
      exact congrArg (· :: []) (hsame.eq_of_not_isWord h.1).symm

end Solid

namespace Phrase

variable {u : Unicode} {phrase : Phrase} {s s' : Text}

/-- A phrase that begins with a word begins with a word character. -/
theorem Fits.head {token : Token} {t : Text} (h : Fits u (token :: phrase) t)
    (hproper : token.solid.Proper u) (hmark : ∀ c, token.solid ≠ .mark c)
    (hspace : token.space = .none) : ∃ c ∈ t.head?, u.isWord c = true := by
  obtain ⟨g, d, r, rfl, hg, hd, -⟩ := h
  rw [hspace] at hg
  obtain rfl : g = [] := hg.2
  obtain ⟨c, d, rfl⟩ := List.exists_cons_of_ne_nil (hproper.fits hd).1
  exact ⟨c, rfl, hproper.isWord hmark hd c List.mem_cons_self⟩

/-- A phrase of words and numbers ends with a word character. -/
theorem Fits.last {t : Text} (h : Fits u phrase t) (hne : phrase ≠ [])
    (hproper : ∀ token ∈ phrase, token.solid.Proper u ∧ ∀ c, token.solid ≠ .mark c) :
    ∃ c ∈ t.getLast?, u.isWord c = true := by
  induction phrase generalizing t with
  | nil => exact absurd rfl hne
  | cons token phrase ih =>
    obtain ⟨g, d, r, rfl, -, hd, hr⟩ := h
    obtain ⟨htoken, hmark⟩ := hproper token List.mem_cons_self
    cases phrase with
    | nil =>
      obtain rfl : r = [] := hr
      have hdne := (htoken.fits hd).1
      refine ⟨d.getLast hdne, ?_, htoken.isWord hmark hd _ (List.getLast_mem hdne)⟩
      rw [List.append_nil, List.getLast?_append_of_ne_nil _ hdne]
      exact List.getLast?_eq_some_getLast hdne
    | cons next phrase =>
      obtain ⟨c, hc, hword⟩ := ih hr (List.cons_ne_nil _ _)
        fun x hx ↦ hproper x (List.mem_cons_of_mem _ hx)
      have hrne : r ≠ [] := by
        rintro rfl
        cases hc
      refine ⟨c, ?_, hword⟩
      rw [List.getLast?_append_of_ne_nil _ (List.append_ne_nil_of_right_ne_nil _ hrne),
        List.getLast?_append_of_ne_nil _ hrne]
      exact hc

/-- A phrase has a variant text where it has a text. -/
theorem fits_variant (hproper : ∀ token ∈ phrase, token.solid.Proper u) {t r : Text}
    (hfits : phrase.Fits u t) (h : Variant u (t ++ r) s') :
    ∃ t' r', s' = t' ++ r' ∧ phrase.Fits u t' ∧ Variant u r r' := by
  induction phrase generalizing t s' with
  | nil =>
    obtain rfl : t = [] := hfits
    exact ⟨[], s', rfl, rfl, h⟩
  | cons token phrase ih =>
    obtain ⟨g, d, t, rfl, hg, hd, ht⟩ := hfits
    obtain ⟨hne, hsolid⟩ := (hproper token List.mem_cons_self).fits hd
    obtain ⟨x, d, rfl⟩ := List.exists_cons_of_ne_nil hne
    rw [List.append_assoc, List.append_assoc] at h
    have hhead : ∀ c ∈ (x :: d ++ (t ++ r)).head?, Text.isSpace c = false := by
      intro c hc
      cases hc
      exact hsolid x List.mem_cons_self
    obtain ⟨g', s₁, rfl, hg', hempty, h₁⟩ := h.spaces hg.1 hhead (List.cons_ne_nil _ _)
    obtain ⟨d', s₂, rfl, hletters, h₂⟩ := h₁.letters hsolid
    obtain ⟨t', r', rfl, ht', hr⟩ := ih (fun token h ↦ hproper token (List.mem_cons_of_mem _ h))
      ht h₂
    refine ⟨g' ++ (d' ++ t'), r', by simp, ⟨g', d', t', rfl, ⟨hg', ?_⟩, ?_, ht'⟩, hr⟩
    · have hspace := hg.2
      revert hspace
      cases token.space with
      | none => exact hempty.mp
      | optional => exact fun _ ↦ trivial
      | required => exact mt hempty.mpr
    · exact (hproper token List.mem_cons_self).letters hd hletters

/-- A phrase begins with a character that is no whitespace. -/
theorem Fits.head?_append {token : Token} {t : Text} (h : Fits u (token :: phrase) t)
    (hproper : token.solid.Proper u) (hspace : token.space = .none) (b : Text) :
    (∀ c ∈ (t ++ b).head?, Text.isSpace c = false) ∧ t ++ b ≠ [] := by
  obtain ⟨g, d, r, rfl, hg, hd, -⟩ := h
  obtain ⟨hne, hsolid⟩ := hproper.fits hd
  obtain ⟨x, d, rfl⟩ := List.exists_cons_of_ne_nil hne
  rw [hspace] at hg
  obtain rfl : g = [] := hg.2
  refine ⟨?_, List.cons_ne_nil _ _⟩
  intro c hc
  cases hc
  exact hsolid x List.mem_cons_self

/-- A phrase stands in a variant of a text. -/
theorem Stands.variant {ends : Bool → Bool → Prop} {token : Token}
    (hproper : ∀ x ∈ token :: phrase, x.solid.Proper u) (hspace : token.space = .none)
    (hs : Stands u ends (token :: phrase) s) (h : Variant u s s') :
    Stands u ends (token :: phrase) s' := by
  obtain ⟨a, t, b, rfl, hfits, hends⟩ := hs
  have hhead := hfits.head?_append (hproper token List.mem_cons_self) hspace b
  obtain ⟨a', s₁, rfl, hva, h₁⟩ := h.split hhead.1 hhead.2
  obtain ⟨t', b', rfl, hfits', hvb⟩ := fits_variant hproper hfits h₁
  refine ⟨a', t', b', rfl, hfits', ?_⟩
  rw [← hva.getLast?_any, ← hvb.head?_any]
  exact hends

/-- No phrase stands in whitespace. -/
theorem not_stands_spaces {ends : Bool → Bool → Prop} {token : Token}
    (hproper : token.solid.Proper u) (hspace : token.space = .none)
    (hs : ∀ c ∈ s, Text.isSpace c = true) : ¬Stands u ends (token :: phrase) s := by
  rintro ⟨a, t, b, rfl, hfits, -⟩
  obtain ⟨hhead, hne⟩ := hfits.head?_append hproper hspace b
  obtain ⟨c, r, hr⟩ := List.exists_cons_of_ne_nil hne
  have hc := hhead c (by rw [hr]; rfl)
  rw [hs c (by rw [hr]; simp)] at hc
  cases hc

end Phrase
end SalesData.Base

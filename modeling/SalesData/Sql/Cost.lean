import SalesData.Base.RegexAccepts
import SalesData.Sql.Policy

/-!
# Cost classes

The markers of `classify_cost` (`core/db/sql_policy.py:60–69,111–129`) as whole words in any case
with any whitespace between them, and the class that they call for.
-/

namespace SalesData.Sql

open Base Pattern

/-- The markers of a statement that is at least normal. -/
def normalPhrases : List (List String) :=
  [["JOIN"], ["GROUP", "BY"], ["ORDER", "BY"], ["HAVING"], ["DISTINCT"], ["UNION"]]

/-- The markers of an expensive statement that are words. -/
def expensivePhrases : List (List String) :=
  [["CROSS", "JOIN"], ["GROUP", "BY"], ["WINDOW"], ["RECURSIVE"]]

/-- `OVER (`. -/
def overParen : Phrase := [⟨.none, .word "OVER"⟩, ⟨.optional, .mark '('⟩]

/-- `SELECT *`. -/
def selectAll : Phrase := [⟨.none, .word "SELECT"⟩, ⟨.required, .mark '*'⟩]

/-- `LIMIT` with a number. -/
def limitNumber : Phrase := [⟨.none, .word "LIMIT"⟩, ⟨.required, .number⟩]

section Markers

variable (u : Unicode) (sql : Text)

/-- Some normal marker stands in the statement. -/
def HasNormalMarker : Prop := ∃ ws ∈ normalPhrases, (Phrase.ofWords ws).Occurs u true true sql

/-- Some expensive marker other than `OVER (` stands in the statement. -/
def HasExpensiveWords : Prop :=
  ∃ ws ∈ expensivePhrases, (Phrase.ofWords ws).Occurs u true true sql

/-- `OVER (` stands in the statement, whatever follows the parenthesis. -/
def HasOver : Prop := overParen.Occurs u true false sql

/-- `OVER (` stands in the statement, and a word character right behind the parenthesis. -/
def HasOverWord : Prop :=
  overParen.Stands u (fun front back ↦ front = false ∧ back = true) sql

/-- `SELECT *` without a limit; `whole` says if `SELECT` has to be a whole word. -/
def UnlimitedSelectAll (whole : Bool) : Prop :=
  selectAll.Occurs u whole false sql ∧ ¬limitNumber.Occurs u true true sql

/-- What makes a statement expensive, `OVER (` apart. -/
def OtherwiseExpensive (whole : Bool) : Prop :=
  HasExpensiveWords u sql ∨ HasNormalMarker u sql ∧ UnlimitedSelectAll u sql whole

/-- The class that the markers call for, with what counts as `OVER (`. -/
def MarkedWith (whole : Bool) (paren : Prop) : Cost → Prop
  | .expensive => paren ∨ OtherwiseExpensive u sql whole
  | .normal => ¬(paren ∨ OtherwiseExpensive u sql whole) ∧
      (HasNormalMarker u sql ∨ UnlimitedSelectAll u sql whole)
  | .fast => ¬(paren ∨ OtherwiseExpensive u sql whole) ∧
      ¬(HasNormalMarker u sql ∨ UnlimitedSelectAll u sql whole)

/-- The class that the markers of a statement call for. -/
def Marked (whole : Bool) (cost : Cost) : Prop := MarkedWith u sql whole (HasOver u sql) cost

end Markers

section Patterns

variable {u : Unicode} {sql : Text}

private theorem proper_word {w : String}
    (h : (!w.toList.isEmpty && w.toList.all fun c ↦ (Text.fold c).isLower) = true) :
    (Solid.word w).Proper u := by
  simpa [Solid.Proper] using h

private theorem proper_of_all (phrases : List (List String))
    (h : phrases.all (fun ws ↦ !ws.isEmpty && ws.all fun w ↦
      !w.toList.isEmpty && w.toList.all fun c ↦ (Text.fold c).isLower) = true)
    {ws : List String} (hws : ws ∈ phrases) :
    ∃ token phrase, Phrase.ofWords ws = token :: phrase ∧ token.space = .none ∧
      ∀ x ∈ token :: phrase, x.solid.Proper u ∧ ∀ c, x.solid ≠ .mark c := by
  have hall := List.all_eq_true.mp h ws hws
  rw [Bool.and_eq_true] at hall
  obtain ⟨hne, hwords⟩ := hall
  cases ws with
  | nil => cases hne
  | cons w ws =>
    refine ⟨_, _, rfl, rfl, ?_⟩
    intro x hx
    obtain ⟨v, hv, hxv⟩ : ∃ v ∈ w :: ws, x.solid = .word v := by
      rcases List.mem_cons.mp hx with rfl | hx
      · exact ⟨w, List.mem_cons_self, rfl⟩
      · obtain ⟨v, hv, rfl⟩ := List.mem_map.mp hx
        exact ⟨v, List.mem_cons_of_mem _ hv, rfl⟩
    rw [hxv]
    exact ⟨proper_word (List.all_eq_true.mp hwords v hv), fun c hc ↦ (by cases hc)⟩

private theorem proper_markers {ws : List String} (h : ws ∈ normalPhrases ++ expensivePhrases) :
    ∃ token phrase, Phrase.ofWords ws = token :: phrase ∧ token.space = .none ∧
      ∀ x ∈ token :: phrase, x.solid.Proper u ∧ ∀ c, x.solid ≠ .mark c :=
  proper_of_all (normalPhrases ++ expensivePhrases) (by decide) h

private theorem proper_overParen : ∀ x ∈ overParen, x.solid.Proper u := by
  intro x hx
  rcases List.mem_pair.mp hx with rfl | rfl
  · exact proper_word (by decide)
  · exact ⟨u.isWord_ascii '(' (by decide), by decide⟩

private theorem proper_selectAll : ∀ x ∈ selectAll, x.solid.Proper u := by
  intro x hx
  rcases List.mem_pair.mp hx with rfl | rfl
  · exact proper_word (by decide)
  · exact ⟨u.isWord_ascii '*' (by decide), by decide⟩

private theorem proper_limitNumber :
    ∀ x ∈ limitNumber, x.solid.Proper u ∧ ∀ c, x.solid ≠ .mark c := by
  intro x hx
  rcases List.mem_pair.mp hx with rfl | rfl
  · exact ⟨proper_word (by decide), fun c hc ↦ (by cases hc)⟩
  · exact ⟨trivial, fun c hc ↦ (by cases hc)⟩

-- The pattern of one or two words.
private def wordsPattern : List String → Pattern
  | [w] => caseless w
  | [v, w] => seqs [caseless v, plus (set Text.isSpace), caseless w]
  | _ => set fun _ ↦ false

private theorem accepts_wordsPattern {ws : List String}
    (h : ws ∈ normalPhrases ++ expensivePhrases) :
    Accepts u (wordsPattern ws) ((Phrase.ofWords ws).Fits u) := by
  have htwo (v w : String) : Accepts u (wordsPattern [v, w]) ((Phrase.ofWords [v, w]).Fits u) :=
    .phrase_first (.caseless v) (.phrase_cons .required (.caseless w) .phrase_nil)
  have hone (w : String) : Accepts u (wordsPattern [w]) ((Phrase.ofWords [w]).Fits u) :=
    .phrase_single (.caseless w)
  have hlength : ∀ ws ∈ normalPhrases ++ expensivePhrases, ws.length = 1 ∨ ws.length = 2 := by
    decide
  rcases hlength ws h with h1 | h2
  · obtain ⟨w, rfl⟩ := List.length_eq_one_iff.mp h1
    exact hone w
  · obtain ⟨v, w, rfl⟩ := List.length_eq_two.mp h2
    exact htwo v w

private theorem stands_words {ws : List String} (h : ws ∈ normalPhrases ++ expensivePhrases) :
    (∃ a t b, sql = a ++ (t ++ b) ∧ Matches u (wordsPattern ws) ⟨a.getLast?, t ++ b⟩ t ∧
      Cursor.atBoundary u ⟨a.getLast?, t ++ b⟩ = true ∧
      Cursor.atBoundary u (Cursor.advance ⟨a.getLast?, t ++ b⟩ t) = true) ↔
      (Phrase.ofWords ws).Occurs u true true sql := by
  obtain ⟨token, phrase, hws, hspace, hproper⟩ := proper_markers (u := u) h
  have haccepts := accepts_wordsPattern (u := u) h
  rw [hws] at haccepts ⊢
  exact haccepts.between_iff hspace hproper

private def overPattern : Pattern :=
  seqs [caseless "OVER", star true (set Text.isSpace), lit "("]

private theorem accepts_overPattern : Accepts u overPattern (overParen.Fits u) :=
  .phrase_first (.caseless "OVER") (.phrase_cons .optional (.lit rfl) .phrase_nil)

private theorem last_overParen {t : Text} (h : overParen.Fits u t) :
    ∃ c ∈ t.getLast?, u.isWord c = false := by
  obtain ⟨g, d, _, rfl, -, -, g', d', r, rfl, -, hd', hr⟩ := h
  obtain rfl : r = [] := hr
  obtain rfl : d' = ['('] := hd'
  refine ⟨'(', ?_, u.isWord_ascii '(' (by decide)⟩
  simp

private theorem stands_over :
    (∃ a t b, sql = a ++ (t ++ b) ∧ Matches u overPattern ⟨a.getLast?, t ++ b⟩ t ∧
      Cursor.atBoundary u ⟨a.getLast?, t ++ b⟩ = true ∧
      Cursor.atBoundary u (Cursor.advance ⟨a.getLast?, t ++ b⟩ t) = true) ↔
      HasOverWord u sql := by
  have htoken := proper_overParen (u := u) _ List.mem_cons_self
  have hmark (c : Char) : Solid.word "OVER" ≠ .mark c := fun hc ↦ by cases hc
  refine exists_congr fun a ↦ exists_congr fun t ↦ exists_congr fun b ↦
    and_congr_right fun _ ↦ ?_
  rw [accepts_overPattern]
  constructor
  · rintro ⟨⟨-, hfits⟩, hstart, hend⟩
    exact ⟨hfits, (atBoundary_of_head (hfits.head htoken hmark rfl)).mp hstart,
      (atBoundary_of_mark (last_overParen hfits)).mp hend⟩
  · rintro ⟨hfits, hfront, hback⟩
    exact ⟨⟨List.prefix_append t b, hfits⟩,
      (atBoundary_of_head (hfits.head htoken hmark rfl)).mpr hfront,
      (atBoundary_of_mark (last_overParen hfits)).mpr hback⟩

/-- The search for normal markers is exact. -/
theorem isSome_search_normalMarkers :
    (normalMarkers.search u sql).isSome ↔ HasNormalMarker u sql := by
  rw [show normalMarkers = whole (normalPhrases.map wordsPattern) from rfl, isSome_search_whole]
  constructor
  · rintro ⟨p, hp, hstands⟩
    obtain ⟨ws, hws, rfl⟩ := List.mem_map.mp hp
    exact ⟨ws, hws, (stands_words (List.mem_append_left _ hws)).mp hstands⟩
  · rintro ⟨ws, hws, hoccurs⟩
    exact ⟨_, List.mem_map_of_mem hws, (stands_words (List.mem_append_left _ hws)).mpr hoccurs⟩

/-- The search for expensive markers wants a word character behind `OVER (`. -/
theorem isSome_search_expensiveMarkers :
    (expensiveMarkers.search u sql).isSome ↔ HasOverWord u sql ∨ HasExpensiveWords u sql := by
  rw [show expensiveMarkers = whole ((expensivePhrases.take 3).map wordsPattern ++
    overPattern :: (expensivePhrases.drop 3).map wordsPattern) from rfl, isSome_search_whole]
  constructor
  · rintro ⟨p, hp, hstands⟩
    have hwords {ws : List String} (hws : ws ∈ expensivePhrases) (h : p = wordsPattern ws) :
        HasOverWord u sql ∨ HasExpensiveWords u sql := by
      subst h
      exact .inr ⟨ws, hws, (stands_words (List.mem_append_right _ hws)).mp hstands⟩
    rcases List.mem_append.mp hp with hp | hp
    · obtain ⟨ws, hws, h⟩ := List.mem_map.mp hp
      exact hwords (List.mem_of_mem_take hws) h.symm
    · rcases List.mem_cons.mp hp with rfl | hp
      · exact .inl (stands_over.mp hstands)
      · obtain ⟨ws, hws, h⟩ := List.mem_map.mp hp
        exact hwords (List.mem_of_mem_drop hws) h.symm
  · rintro (hover | ⟨ws, hws, hoccurs⟩)
    · exact ⟨overPattern, by simp, stands_over.mpr hover⟩
    · refine ⟨wordsPattern ws, ?_, (stands_words (List.mem_append_right _ hws)).mpr hoccurs⟩
      rw [← List.take_append_drop 3 expensivePhrases, List.mem_append] at hws
      rcases hws with hws | hws
      · exact List.mem_append_left _ (List.mem_map_of_mem hws)
      · exact List.mem_append_right _ (List.mem_cons_of_mem _ (List.mem_map_of_mem hws))

/-- The search for `SELECT *` is exact. -/
theorem isSome_search_selectStar :
    (selectStar.search u sql).isSome ↔ selectAll.Occurs u false false sql := by
  apply isSome_search_phrase
  exact .phrase_first (.caseless "SELECT") (.phrase_cons .required (.lit rfl) .phrase_nil)

/-- The search for a limit is exact. -/
theorem isSome_search_hasLimit :
    ((hasLimit u).search u sql).isSome ↔ limitNumber.Occurs u true true sql := by
  have haccepts : Accepts u (seqs [caseless "LIMIT", plus (set Text.isSpace),
      plus (set u.isDecimal)]) (limitNumber.Fits u) :=
    .phrase_first (.caseless "LIMIT") (.phrase_cons .required .plus_set .phrase_nil)
  rw [show hasLimit u = seqs (boundary :: [caseless "LIMIT", plus (set Text.isSpace),
    plus (set u.isDecimal)] ++ [boundary]) from rfl, isSome_search_between]
  exact haccepts.between_iff rfl proper_limitNumber

end Patterns

section Variants

variable {u : Unicode} {sql sql' : Text}

/-- A whole `OVER (` is one before a word character too. -/
theorem HasOverWord.hasOver (h : HasOverWord u sql) : HasOver u sql := by
  obtain ⟨a, t, b, rfl, hfits, hfront, -⟩ := h
  exact ⟨a, t, b, rfl, hfits, fun _ ↦ hfront, fun hback ↦ (by cases hback)⟩

private theorem occurs_variant {ws : List String} (hws : ws ∈ normalPhrases ++ expensivePhrases)
    (h : (Phrase.ofWords ws).Occurs u true true sql) (hv : Variant u sql sql') :
    (Phrase.ofWords ws).Occurs u true true sql' := by
  obtain ⟨token, phrase, hphrase, hspace, hproper⟩ := proper_markers (u := u) hws
  rw [hphrase] at h ⊢
  exact Phrase.Stands.variant (fun x hx ↦ (hproper x hx).1) hspace h hv

private theorem HasNormalMarker.variant (h : HasNormalMarker u sql) (hv : Variant u sql sql') :
    HasNormalMarker u sql' := by
  obtain ⟨ws, hws, hoccurs⟩ := h
  exact ⟨ws, hws, occurs_variant (List.mem_append_left _ hws) hoccurs hv⟩

private theorem HasExpensiveWords.variant (h : HasExpensiveWords u sql)
    (hv : Variant u sql sql') : HasExpensiveWords u sql' := by
  obtain ⟨ws, hws, hoccurs⟩ := h
  exact ⟨ws, hws, occurs_variant (List.mem_append_right _ hws) hoccurs hv⟩

private theorem HasOverWord.variant (h : HasOverWord u sql) (hv : Variant u sql sql') :
    HasOverWord u sql' :=
  Phrase.Stands.variant proper_overParen rfl h hv

private theorem UnlimitedSelectAll.variant {whole : Bool} (h : UnlimitedSelectAll u sql whole)
    (hv : Variant u sql sql') : UnlimitedSelectAll u sql' whole := by
  obtain ⟨hselect, hlimit⟩ := h
  refine ⟨Phrase.Stands.variant proper_selectAll rfl hselect hv, fun h' ↦ hlimit ?_⟩
  exact Phrase.Stands.variant (fun x hx ↦ (proper_limitNumber x hx).1) rfl h' hv.symm

/-- Neither case nor the length of a run of whitespace matters to the markers. -/
theorem markedWith_variant {whole : Bool} {cost : Cost} (hv : Variant u sql sql') :
    MarkedWith u sql whole (HasOverWord u sql) cost ↔
      MarkedWith u sql' whole (HasOverWord u sql') cost := by
  have hover : HasOverWord u sql ↔ HasOverWord u sql' := ⟨(·.variant hv), (·.variant hv.symm)⟩
  have hwords : HasExpensiveWords u sql ↔ HasExpensiveWords u sql' :=
    ⟨(·.variant hv), (·.variant hv.symm)⟩
  have hnormal : HasNormalMarker u sql ↔ HasNormalMarker u sql' :=
    ⟨(·.variant hv), (·.variant hv.symm)⟩
  have hselect : UnlimitedSelectAll u sql whole ↔ UnlimitedSelectAll u sql' whole :=
    ⟨(·.variant hv), (·.variant hv.symm)⟩
  have hother : OtherwiseExpensive u sql whole ↔ OtherwiseExpensive u sql' whole :=
    or_congr hwords (and_congr hnormal hselect)
  cases cost with
  | expensive => exact or_congr hover hother
  | normal => exact and_congr (not_congr (or_congr hover hother)) (or_congr hnormal hselect)
  | fast =>
    exact and_congr (not_congr (or_congr hover hother)) (not_congr (or_congr hnormal hselect))

end Variants

section Class

variable (u : Unicode) (sql : Text)

/-- No marker stands in a blank statement. -/
theorem no_markers_of_isSpace (h : ∀ c ∈ sql, Text.isSpace c = true) :
    ¬HasOverWord u sql ∧ ¬HasExpensiveWords u sql ∧ ¬HasNormalMarker u sql ∧
      ¬UnlimitedSelectAll u sql false := by
  have hmarkers {ws : List String} (hws : ws ∈ normalPhrases ++ expensivePhrases) :
      ¬(Phrase.ofWords ws).Occurs u true true sql := by
    obtain ⟨token, phrase, hphrase, hspace, hproper⟩ := proper_markers (u := u) hws
    rw [hphrase]
    exact Phrase.not_stands_spaces (hproper token List.mem_cons_self).1 hspace h
  refine ⟨?_, ?_, ?_, ?_⟩
  · exact Phrase.not_stands_spaces (proper_overParen _ List.mem_cons_self) rfl h
  · rintro ⟨ws, hws, hoccurs⟩
    exact hmarkers (List.mem_append_right _ hws) hoccurs
  · rintro ⟨ws, hws, hoccurs⟩
    exact hmarkers (List.mem_append_left _ hws) hoccurs
  · rintro ⟨hoccurs, -⟩
    exact Phrase.not_stands_spaces (proper_selectAll _ List.mem_cons_self) rfl h hoccurs

/-- The class that the searches call for: `OVER (` before a word character, any `SELECT`. -/
theorem classifyCost_markedWith (cost : Cost) :
    classifyCost u sql = cost ↔ MarkedWith u sql false (HasOverWord u sql) cost := by
  have hexpensive := @isSome_search_expensiveMarkers u sql
  have hnormal := @isSome_search_normalMarkers u sql
  have hwide : (selectStar.search u sql).isSome && !((hasLimit u).search u sql).isSome ↔
      UnlimitedSelectAll u sql false := by
    rw [Bool.and_eq_true, Bool.not_eq_true', ← Bool.not_eq_true, isSome_search_selectStar,
      isSome_search_hasLimit, UnlimitedSelectAll]
  unfold classifyCost
  by_cases hblank : Text.strip sql = []
  · obtain ⟨hover, hwords, hnormal, hselect⟩ :=
      no_markers_of_isSpace u sql (Text.isSpace_of_strip hblank)
    rw [if_pos hblank]
    cases cost <;> simp [MarkedWith, OtherwiseExpensive, hover, hwords, hnormal, hselect]
  · rw [if_neg hblank]
    -- The code is a decision on three answers; what remains is propositional.
    generalize (expensiveMarkers.search u sql).isSome = expensive at hexpensive
    generalize (normalMarkers.search u sql).isSome = normal at hnormal
    generalize ((selectStar.search u sql).isSome && !((hasLimit u).search u sql).isSome) = wide
      at hwide
    have hmarked : MarkedWith u sql false (HasOverWord u sql) cost ↔ match cost with
        | .expensive => expensive = true ∨ normal = true ∧ wide = true
        | .normal => ¬(expensive = true ∨ normal = true ∧ wide = true) ∧
            (normal = true ∨ wide = true)
        | .fast => ¬(expensive = true ∨ normal = true ∧ wide = true) ∧
            ¬(normal = true ∨ wide = true) := by
      rw [hexpensive, hnormal, hwide]
      cases cost <;> simp only [MarkedWith, OtherwiseExpensive, or_assoc]
    rw [hmarked]
    cases expensive <;> cases normal <;> cases wide <;> cases cost <;> simp

private theorem UnlimitedSelectAll.weaken {u : Unicode} {sql : Text} {whole : Bool}
    (h : UnlimitedSelectAll u sql whole) : UnlimitedSelectAll u sql false := by
  obtain ⟨⟨a, t, b, rfl, hfits, -, -⟩, hlimit⟩ := h
  exact ⟨⟨a, t, b, rfl, hfits, fun h ↦ (by cases h), fun h ↦ (by cases h)⟩, hlimit⟩

private theorem markedWith_of_exact {whole : Bool}
    (hover : HasOver u sql → HasOverWord u sql ∨ OtherwiseExpensive u sql false)
    (hselect : ¬HasOver u sql → ¬HasExpensiveWords u sql → UnlimitedSelectAll u sql false →
      UnlimitedSelectAll u sql whole) (cost : Cost) :
    MarkedWith u sql false (HasOverWord u sql) cost ↔ Marked u sql whole cost := by
  have hunlimited (ho : ¬HasOver u sql) (he : ¬HasExpensiveWords u sql) :
      UnlimitedSelectAll u sql false ↔ UnlimitedSelectAll u sql whole :=
    ⟨hselect ho he, UnlimitedSelectAll.weaken⟩
  have hexpensive : HasOverWord u sql ∨ OtherwiseExpensive u sql false ↔
      HasOver u sql ∨ OtherwiseExpensive u sql whole := by
    by_cases ho : HasOver u sql
    · exact iff_of_true (hover ho) (.inl ho)
    · refine or_congr (iff_of_false (mt HasOverWord.hasOver ho) ho) ?_
      by_cases he : HasExpensiveWords u sql
      · exact iff_of_true (.inl he) (.inl he)
      · exact or_congr_right (and_congr_right fun _ ↦ hunlimited ho he)
  have hatLeast (h : ¬(HasOver u sql ∨ OtherwiseExpensive u sql whole)) :
      HasNormalMarker u sql ∨ UnlimitedSelectAll u sql false ↔
        HasNormalMarker u sql ∨ UnlimitedSelectAll u sql whole :=
    or_congr_right (hunlimited (fun ho ↦ h (.inl ho)) fun he ↦ h (.inr (.inl he)))
  cases cost with
  | expensive => exact hexpensive
  | normal =>
    rw [MarkedWith, Marked, MarkedWith, hexpensive]
    exact and_congr_right hatLeast
  | fast =>
    rw [MarkedWith, Marked, MarkedWith, hexpensive]
    exact and_congr_right fun h ↦ not_congr (hatLeast h)

/-- Neither case nor the length of a run of whitespace matters to the class. -/
theorem classifyCost_variant {sql' : Text} (hv : Variant u sql sql') :
    classifyCost u sql' = classifyCost u sql := by
  rw [classifyCost_markedWith, ← markedWith_variant hv, ← classifyCost_markedWith]

/-- The class is the one that the markers call for exactly when some `OVER (` in the statement is
followed by a word character, or is not needed for the class, and when `SELECT *` is not taken out
of a longer word that is not to count. -/
theorem classifyCost_marked_iff (u : Unicode) (sql : Text) :
    (∀ whole, (∀ cost, classifyCost u sql = cost ↔ Marked u sql whole cost) ↔
      (HasOver u sql → HasOverWord u sql ∨ OtherwiseExpensive u sql false) ∧
      (¬HasOver u sql → ¬HasExpensiveWords u sql → UnlimitedSelectAll u sql false →
        UnlimitedSelectAll u sql whole)) ∧
      (∀ sql', List.Forall₂ (SameLetter u) sql sql' →
        classifyCost u sql' = classifyCost u sql) ∧
      ∀ a g g' b, sql = a ++ (g ++ b) → g ≠ [] → g' ≠ [] → (∀ c ∈ g, Text.isSpace c = true) →
        (∀ c ∈ g', Text.isSpace c = true) →
        classifyCost u (a ++ (g' ++ b)) = classifyCost u sql := by
  refine ⟨fun whole ↦ ⟨fun h ↦ ⟨fun ho ↦ ?_, fun ho he hselect ↦ ?_⟩, ?_⟩, ?_, ?_⟩
  · have hcost := (h .expensive).mpr (.inl ho)
    exact (classifyCost_markedWith u sql .expensive).mp hcost
  · by_cases hnormal : HasNormalMarker u sql
    · have hcost := (classifyCost_markedWith u sql .expensive).mpr (.inr (.inr ⟨hnormal, hselect⟩))
      rcases (h .expensive).mp hcost with h | h | h
      · exact absurd h ho
      · exact absurd h he
      · exact h.2
    · have hcost : classifyCost u sql = .normal := by
        refine (classifyCost_markedWith u sql .normal).mpr ⟨?_, .inr hselect⟩
        rintro (h | h | h)
        · exact ho h.hasOver
        · exact he h
        · exact hnormal h.1
      exact ((h .normal).mp hcost).2.resolve_left hnormal
  · rintro ⟨hover, hselect⟩ cost
    rw [classifyCost_markedWith, markedWith_of_exact u sql hover hselect]
  · intro sql' hletters
    exact classifyCost_variant u sql (.of_letters hletters)
  · rintro a g g' b rfl hg hg' hall hall'
    exact classifyCost_variant u _ (.of_run a hg hg' hall hall')

/-- A window over everything is missed. -/
theorem classifyCost_overEverything :
    classifyCost .basic "SELECT a, SUM(b) OVER () FROM t".toList = .fast ∧
      ∀ whole, Marked .basic "SELECT a, SUM(b) OVER () FROM t".toList whole .expensive ∧
        ¬∀ cost, classifyCost .basic "SELECT a, SUM(b) OVER () FROM t".toList = cost ↔
          Marked .basic "SELECT a, SUM(b) OVER () FROM t".toList whole cost := by
  have hfast : classifyCost .basic "SELECT a, SUM(b) OVER () FROM t".toList = .fast := by
    decide +kernel
  have hover : HasOver .basic "SELECT a, SUM(b) OVER () FROM t".toList := by
    refine ⟨"SELECT a, SUM(b) ".toList, "OVER (".toList, ") FROM t".toList, by decide, ?_,
      fun _ ↦ by decide, fun h ↦ by cases h⟩
    refine ⟨[], "OVER".toList, " (".toList, by decide, ⟨List.all_eq_true.mp rfl, rfl⟩, rfl, ?_⟩
    exact ⟨" ".toList, "(".toList, [], by decide, ⟨List.all_eq_true.mp rfl, trivial⟩, rfl, rfl⟩
  refine ⟨hfast, fun whole ↦ ⟨.inl hover, fun h ↦ ?_⟩⟩
  have hcost := (h .expensive).mpr (.inl hover)
  rw [hfast] at hcost
  cases hcost

end Class

end SalesData.Sql

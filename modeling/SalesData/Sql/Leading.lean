import SalesData.Base.RegexFirst
import SalesData.Sql.Policy

/-!
# Comments in front of a statement

What `_first_keyword` makes of a text that begins with whitespace and comments
(`core/db/sql_policy.py:31–32,72–78`). Whitespace is taken from the front of the text and behind a
block comment, but not behind a line comment.
-/

namespace SalesData.Sql

open Base Pattern

/-- A run of whitespace, possibly empty. -/
abbrev Gap := {s : Text // ∀ c ∈ s, Text.isSpace c = true}

/-- A comment that ends: at the end of its line, or at the next `*/`. -/
inductive Comment
  | line (body : Text) (h : '\n' ∉ body)
  | block (body : Text) (h : ¬['*', '/'] <:+: body)

/-- The text of a comment. -/
def Comment.text : Comment → Text
  | line body _ => '-' :: '-' :: (body ++ ['\n'])
  | block body _ => '/' :: '*' :: (body ++ ['*', '/'])

/-- A comment and the whitespace behind it. -/
structure Lead where
  comment : Comment
  gap : Gap

/-- The text of a comment and the whitespace behind it. -/
def Lead.text (lead : Lead) : Text := lead.comment.text ++ lead.gap.1

/-- What follows the comments: code, or a line comment up to the end of the text. -/
inductive Rest
  | code (s : Text) (hspace : ∀ c ∈ s.head?, Text.isSpace c = false)
    (hline : ¬['-', '-'] <+: s) (hblock : ¬['/', '*'] <+: s)
  | comment (body : Text) (h : '\n' ∉ body)

namespace Rest

/-- The text behind the comments. -/
def text : Rest → Text
  | code s _ _ _ => s
  | comment body _ => '-' :: '-' :: body

/-- The letters that the code begins with, in upper case. -/
def keyword : Rest → Text
  | code s _ _ _ => (s.takeWhile Char.isAlpha).map Char.toUpper
  | comment _ _ => []

end Rest

/-- A text taken apart: whitespace, comments with whitespace between them, and the rest. -/
structure Statement where
  gap : Gap
  leads : List Lead
  rest : Rest

/-- The text itself. -/
def Statement.text (stmt : Statement) : Text :=
  stmt.gap.1 ++ (stmt.leads.flatMap Lead.text ++ stmt.rest.text)

/-- A line comment with whitespace behind it. -/
def Lead.stops (lead : Lead) : Bool :=
  match lead.comment with
  | .line _ _ => decide (lead.gap.1 ≠ [])
  | .block _ _ => false

/-- Some line comment is followed by whitespace and then by another comment. -/
def Hides (leads : List Lead) : Prop := ∃ lead ∈ leads.dropLast, lead.stops = true

instance (leads : List Lead) : Decidable (Hides leads) :=
  inferInstanceAs (Decidable (∃ lead ∈ leads.dropLast, lead.stops = true))

/-- What `_LEADING_COMMENT_RE` leaves behind the comments that it takes. -/
def remainder (rest : Rest) : List Lead → Text
  | [] => rest.text
  | lead :: leads =>
    if lead.stops then lead.gap.1 ++ (leads.flatMap Lead.text ++ rest.text)
    else remainder rest leads

private def lineComment : Pattern :=
  seqs [lit "--", star true (set (· != '\n')), lit "\n"]

private def blockComment : Pattern :=
  seqs [lit "/*", star false (set fun _ ↦ true), lit "*/", star true (set Text.isSpace)]

private theorem leadingCommentRe_eq : leadingCommentRe =
    seq start (seq (star true (set Text.isSpace))
      (seq (star true (alt lineComment blockComment)) empty)) := rfl

section Rounds

variable {u : Unicode} {prev : Option Char}

/-- Neither comments nor what follows them begins with whitespace. -/
theorem head?_leads (rest : Rest) (leads : List Lead) :
    ∀ c ∈ (leads.flatMap Lead.text ++ rest.text).head?, Text.isSpace c = false := by
  cases leads with
  | nil =>
    cases rest with
    | code s hspace hline hblock => exact hspace
    | comment body h =>
      intro c hc
      cases hc
      decide
  | cons lead leads =>
    obtain ⟨comment, gap⟩ := lead
    intro c hc
    cases comment <;> cases hc <;> decide

private theorem refuses_block {s : Text} (h : ¬['/', '*'] <+: s) :
    Refuses u blockComment ⟨prev, s⟩ := by
  have hopen : Refuses u (lit "/*") ⟨prev, s⟩ := refuses_lit h
  exact hopen.seq

private theorem refuses_line {s : Text} (h : ¬['-', '-'] <+: s) :
    Refuses u lineComment ⟨prev, s⟩ := by
  have hdashes : Refuses u (lit "--") ⟨prev, s⟩ := refuses_lit h
  exact hdashes.seq

private theorem refuses_gap {c : Char} {s : Text} (h : Text.isSpace c = true) :
    Refuses u (alt lineComment blockComment) ⟨prev, c :: s⟩ := by
  refine (refuses_line ?_).alt (refuses_block ?_)
  · rintro ⟨r, hr⟩
    cases hr
    revert h
    decide
  · rintro ⟨r, hr⟩
    cases hr
    revert h
    decide

private theorem newline_mem {s t : Text} (h : Matches u lineComment ⟨prev, s⟩ t) : '\n' ∈ s := by
  obtain ⟨r, rfl⟩ := h.isPrefix
  obtain ⟨_, s, rfl, -, hs⟩ := matches_seq.mp h
  obtain ⟨_, s, rfl, -, hs⟩ := matches_seq.mp hs
  obtain ⟨_, s, rfl, hnewline, -⟩ := matches_seq.mp hs
  obtain ⟨rfl, -⟩ := matches_lit.mp hnewline
  simp

private theorem refuses_rest (rest : Rest) :
    Refuses u (alt lineComment blockComment) ⟨prev, rest.text⟩ := by
  cases rest with
  | code s hspace hline hblock => exact (refuses_line hline).alt (refuses_block hblock)
  | comment body h =>
    refine Refuses.alt ?_ (refuses_block ?_)
    · intro t ht
      have hmem := newline_mem ht
      simp only [Rest.text, List.mem_cons] at hmem
      rcases hmem with hmem | hmem | hmem
      · cases hmem
      · cases hmem
      · exact h hmem
    · rintro ⟨r, hr⟩
      cases hr

private theorem not_prefix_close {body a b r : Text} (hbody : ¬['*', '/'] <:+: body)
    (hsplit : body = a ++ b) (hb : b ≠ []) : ¬['*', '/'] <+: b ++ ('*' :: '/' :: r) := by
  rintro ⟨r', hr⟩
  cases b with
  | nil => exact hb rfl
  | cons x b =>
    cases b with
    | nil => cases hr
    | cons y b =>
      cases hr
      exact hbody ⟨a, b, by rw [hsplit]; simp⟩

private theorem prefers_line {body : Text} (h : '\n' ∉ body) (r : Text) :
    Prefers u lineComment ⟨prev, (Comment.line body h).text ++ r⟩ (Comment.line body h).text
      none := by
  have htext : (Comment.line body h).text ++ r = '-' :: '-' :: (body ++ '\n' :: r) := by
    simp [Comment.text]
  rw [htext]
  have hdashes : Prefers u (lit "--") ⟨prev, '-' :: '-' :: (body ++ '\n' :: r)⟩ ['-', '-']
    none := .lit
  have hbody : Prefers u (star true (set (· != '\n'))) ⟨some '-', body ++ '\n' :: r⟩ body
      none := by
    apply Prefers.star_set
    · rintro a ha
      rw [bne_iff_ne]
      rintro rfl
      exact h ha
    · intro a ha
      cases ha
      rfl
  have hnewline : Prefers u (lit "\n") (Cursor.advance ⟨some '-', body ++ '\n' :: r⟩ body)
      ['\n'] none := by
    rw [Cursor.advance, List.drop_left]
    exact .lit
  exact hdashes.seq (hbody.seq (hnewline.seq .empty))

private theorem prefers_block {body r : Text} (h : ¬['*', '/'] <:+: body) (gap : Gap)
    (hr : ∀ c ∈ r.head?, Text.isSpace c = false) :
    Prefers u blockComment ⟨prev, Lead.text ⟨.block body h, gap⟩ ++ r⟩
      (Lead.text ⟨.block body h, gap⟩) none := by
  obtain ⟨gap, hgap⟩ := gap
  have htext : Lead.text ⟨.block body h, gap, hgap⟩ =
      '/' :: '*' :: (body ++ '*' :: '/' :: gap) := by
    simp [Lead.text, Comment.text]
  have hall : Lead.text ⟨.block body h, gap, hgap⟩ ++ r =
      '/' :: '*' :: (body ++ '*' :: '/' :: (gap ++ r)) := by
    simp [htext]
  rw [hall, htext]
  have hopen : Prefers u (lit "/*") ⟨prev, '/' :: '*' :: (body ++ '*' :: '/' :: (gap ++ r))⟩
    ['/', '*'] none := .lit
  have hclose (prev : Option Char) :
      Prefers u (lit "*/") ⟨prev, '*' :: '/' :: (gap ++ r)⟩ ['*', '/'] none := .lit
  have hspaces : Prefers u (star true (set Text.isSpace)) ⟨some '/', gap ++ r⟩ gap none :=
    .star_set hgap hr
  have hend : Prefers u (seqs [lit "*/", star true (set Text.isSpace)])
      (Cursor.advance ⟨some '*', body ++ '*' :: '/' :: (gap ++ r)⟩ body)
      ('*' :: '/' :: gap) none := by
    rw [Cursor.advance, List.drop_left]
    have hboth := (hclose (body.getLast?.or (some '*'))).seq (hspaces.seq .empty)
    rw [List.append_nil] at hboth
    exact hboth
  refine hopen.seq (.lazy_until hend ?_)
  intro a b hsplit hb
  have hrest (prev : Option Char) :
      (Cursor.advance ⟨prev, body ++ '*' :: '/' :: (gap ++ r)⟩ a).rest =
        b ++ '*' :: '/' :: (gap ++ r) := by
    rw [Cursor.advance, hsplit, List.append_assoc, List.drop_left]
  apply Refuses.seq
  apply refuses_lit
  rw [hrest]
  exact not_prefix_close h hsplit hb

private theorem prefers_comments (rest : Rest) (leads : List Lead) (prev : Option Char) :
    ∃ t, Prefers u (star true (alt lineComment blockComment))
        ⟨prev, leads.flatMap Lead.text ++ rest.text⟩ t none ∧
      leads.flatMap Lead.text ++ rest.text = t ++ remainder rest leads ∧
      (t = [] → leads = []) := by
  induction leads generalizing prev with
  | nil => exact ⟨[], .star_nil (refuses_rest rest), rfl, fun _ ↦ rfl⟩
  | cons lead leads ih =>
    obtain ⟨comment, gap⟩ := lead
    rw [List.flatMap_cons, List.append_assoc, remainder]
    cases comment with
    | line body h =>
      have hne : (Comment.line body h).text ≠ [] := List.cons_ne_nil _ _
      obtain ⟨gap, hgap⟩ := gap
      rw [Lead.text, List.append_assoc]
      have hfirst : Prefers u (alt lineComment blockComment)
          ⟨prev, (Comment.line body h).text ++ (gap ++ (leads.flatMap Lead.text ++ rest.text))⟩
          (Comment.line body h).text none := (prefers_line h _).alt_left
      cases gap with
      | nil =>
        obtain ⟨t, ht, hsplit, -⟩ := ih ((Comment.line body h).text.getLast?.or prev)
        refine ⟨_, hfirst.star_cons_append hne ht, ?_,
          fun hnil ↦ absurd (List.append_eq_nil_iff.mp hnil).1 hne⟩
        rw [List.nil_append, hsplit, if_neg (by simp [Lead.stops]), List.append_assoc]
      | cons c gap =>
        have hstops := @refuses_gap u ((Comment.line body h).text.getLast?.or prev) c
          (gap ++ (leads.flatMap Lead.text ++ rest.text)) (hgap c List.mem_cons_self)
        refine ⟨_, hfirst.star_cons_append hne (.star_nil hstops), ?_,
          fun hnil ↦ absurd (List.append_eq_nil_iff.mp hnil).1 hne⟩
        rw [List.append_nil, if_pos (by simp [Lead.stops])]
    | block body h =>
      have hne : Lead.text ⟨.block body h, gap⟩ ≠ [] := List.cons_ne_nil _ _
      have hline : Refuses u lineComment
          ⟨prev, Lead.text ⟨.block body h, gap⟩ ++ (leads.flatMap Lead.text ++ rest.text)⟩ := by
        apply refuses_line
        rintro ⟨r, hr⟩
        cases hr
      have hfirst := Prefers.alt_right hline (prefers_block h gap (head?_leads rest leads))
      obtain ⟨t, ht, hsplit, -⟩ := ih ((Lead.text ⟨.block body h, gap⟩).getLast?.or prev)
      refine ⟨_, hfirst.star_cons_append hne ht, ?_,
        fun hnil ↦ absurd (List.append_eq_nil_iff.mp hnil).1 hne⟩
      rw [hsplit, if_neg (by simp [Lead.stops]), List.append_assoc]

/-- What is left when `_LEADING_COMMENT_RE` is taken away. -/
theorem remove_leadingCommentRe (stmt : Statement) :
    leadingCommentRe.remove u stmt.text = remainder stmt.rest stmt.leads := by
  obtain ⟨⟨gap, hgap⟩, leads, rest⟩ := stmt
  obtain ⟨t, ht, hsplit, hnone⟩ :=
    prefers_comments (u := u) rest leads (gap.getLast?.or none)
  have hhead := head?_leads rest leads
  have hspaces : Prefers u (star true (set Text.isSpace))
      (.ofText (gap ++ (leads.flatMap Lead.text ++ rest.text))) gap none :=
    .star_set hgap hhead
  have hcomments : Prefers u (star true (alt lineComment blockComment))
      (Cursor.advance (.ofText (gap ++ (leads.flatMap Lead.text ++ rest.text))) gap) t none := by
    rw [Cursor.advance, Cursor.ofText, List.drop_left]
    exact ht
  have hbehind := hspaces.seq (hcomments.seq .empty)
  have hstart : Prefers u start
      (.ofText (gap ++ (leads.flatMap Lead.text ++ rest.text))) [] none := .start rfl
  have hall := hstart.seq hbehind
  rw [List.nil_append, List.append_nil] at hall
  rw [Statement.text, leadingCommentRe_eq, hall.remove ?_]
  · rw [hsplit, ← List.append_assoc, List.drop_left]
  · intro hempty r hr
    obtain ⟨rfl, rfl⟩ := List.append_eq_nil_iff.mp hempty
    obtain rfl := hnone rfl
    obtain ⟨_, _, rfl, hr0, hr⟩ := matches_seq.mp hr
    obtain ⟨rfl, -⟩ := matches_start.mp hr0
    obtain ⟨r1, _, rfl, hr1, hr⟩ := matches_seq.mp hr
    obtain ⟨r2, _, rfl, hr2, hr⟩ := matches_seq.mp hr
    obtain rfl := matches_empty.mp hr
    obtain rfl := (refuses_set hhead).eq_nil_of_star hr1
    obtain rfl := (refuses_rest rest).eq_nil_of_star hr2
    rfl

end Rounds

section Words

variable {u : Unicode}

private theorem not_letter {gap s r r' : Text} {a : Char}
    (hgap : ∀ c ∈ gap, Text.isSpace c = true) (hs : ∀ c ∈ s.head?, Text.isSpace c = false)
    (hletter : ∀ c ∈ s.head?, c.isAlpha = false) (hr : ∀ c ∈ r, Text.isSpace c = true)
    (h : r ++ a :: r' = gap ++ s) : a.isAlpha = false := by
  induction gap generalizing r with
  | nil =>
    cases r with
    | nil => exact hletter a (by rw [← show _ = s from h]; rfl)
    | cons b r =>
      have hb := hs b (by rw [← show _ = s from h]; rfl)
      rw [hr b List.mem_cons_self] at hb
      cases hb
  | cons c gap ih =>
    cases r with
    | nil =>
      obtain ⟨rfl, -⟩ := List.cons.inj h
      exact Unicode.not_isAlpha_of_isSpace (hgap a List.mem_cons_self)
    | cons b r =>
      exact ih (fun x hx ↦ hgap x (List.mem_cons_of_mem _ hx))
        (fun x hx ↦ hr x (List.mem_cons_of_mem _ hx)) (List.cons.inj h).2

/-- `_FIRST_WORD_RE` skips whitespace and takes the letters behind it. -/
theorem group_firstWordRe {gap s : Text} (hgap : ∀ c ∈ gap, Text.isSpace c = true)
    (hs : ∀ c ∈ s.head?, Text.isSpace c = false) :
    ((firstWordRe.matchAt u (.ofText (gap ++ s))).bind (·.group)).getD [] =
      s.takeWhile Char.isAlpha := by
  by_cases hletter : ∀ c ∈ s.head?, c.isAlpha = false
  · have hnone : s.takeWhile Char.isAlpha = [] := by
      cases s with
      | nil => rfl
      | cons a s =>
        apply List.takeWhile_cons_of_neg
        rw [hletter a rfl]
        exact Bool.false_ne_true
    have hrefuses : Refuses u firstWordRe (.ofText (gap ++ s)) := by
      intro t ht
      obtain ⟨r, hr⟩ := ht.isPrefix
      obtain ⟨_, _, rfl, hstart, ht⟩ := matches_seq.mp ht
      obtain ⟨rfl, -⟩ := matches_start.mp hstart
      obtain ⟨spaces, _, rfl, hspaces, ht⟩ := matches_seq.mp ht
      obtain ⟨word, _, rfl, hword, ht⟩ := matches_seq.mp ht
      obtain rfl := matches_empty.mp ht
      obtain ⟨_, more, rfl, hfirst, -⟩ := matches_seq.mp (matches_group.mp hword)
      obtain ⟨a, rfl, -, ha⟩ := matches_set.mp hfirst
      have htext : spaces ++ a :: (more ++ r) = gap ++ s := by
        rw [← show _ = gap ++ s from hr]
        simp
      have hnot := not_letter hgap hs hletter (matches_star_set.mp hspaces).2 htext
      rw [show a.isAlpha = true from ha] at hnot
      cases hnot
    rw [hrefuses.matchAt_eq_none, hnone]
    rfl
  · obtain ⟨a, ha, hle⟩ : ∃ a ∈ s.head?, a.isAlpha = true := by
      push Not at hletter
      obtain ⟨a, ha, hne⟩ := hletter
      exact ⟨a, ha, by simpa using hne⟩
    obtain ⟨s, rfl⟩ := List.head?_eq_some_iff.mp ha
    have hspaces : Prefers u (star true (set Text.isSpace)) (.ofText (gap ++ a :: s)) gap none :=
      .star_set hgap hs
    have hfirst (prev : Option Char) :
        Prefers u (set Char.isAlpha) ⟨prev, a :: s⟩ [a] none := .set hle
    have hmore : Prefers u (star true (set Char.isAlpha)) ⟨some a, s⟩
        (s.takeWhile Char.isAlpha) none := .star_takeWhile
    have hword : Prefers u (group (plus (set Char.isAlpha)))
        (Cursor.advance (.ofText (gap ++ a :: s)) gap)
        (a :: s.takeWhile Char.isAlpha) (some (a :: s.takeWhile Char.isAlpha)) := by
      rw [Cursor.advance, Cursor.ofText, List.drop_left]
      exact ((hfirst _).seq hmore).group
    have hall : Prefers u firstWordRe (.ofText (gap ++ a :: s)) _ _ :=
      (Prefers.start rfl).seq (hspaces.seq (hword.seq .empty))
    rw [show firstWordRe.matchAt u (.ofText (gap ++ a :: s)) = _ from hall,
      List.takeWhile_cons_of_pos hle]
    rfl

/-- The first keyword is the run of letters that the comments leave in front. -/
theorem firstKeyword_eq_of_split {sql gap s : Text}
    (hsplit : leadingCommentRe.remove u sql = gap ++ s)
    (hgap : ∀ c ∈ gap, Text.isSpace c = true) (hs : ∀ c ∈ s.head?, Text.isSpace c = false) :
    firstKeyword u sql = (s.takeWhile Char.isAlpha).map Char.toUpper := by
  rw [← group_firstWordRe (u := u) hgap hs, firstKeyword, hsplit]
  cases firstWordRe.matchAt u (.ofText (gap ++ s)) <;> rfl

end Words

section Keywords

variable {u : Unicode}

/-- Without comments nothing is hidden. -/
theorem not_hides_nil : ¬Hides [] := by
  rintro ⟨_, hmem, -⟩
  cases hmem

/-- A single comment hides nothing. -/
theorem not_hides_single (lead : Lead) : ¬Hides [lead] := by
  rintro ⟨_, hmem, -⟩
  cases hmem

/-- What a comment in front of others hides. -/
theorem hides_cons (lead next : Lead) (leads : List Lead) :
    Hides (lead :: next :: leads) ↔ lead.stops = true ∨ Hides (next :: leads) := by
  unfold Hides
  rw [List.dropLast_cons_cons]
  simp

private theorem keyword_eq (rest : Rest) :
    (rest.text.takeWhile Char.isAlpha).map Char.toUpper = rest.keyword := by
  cases rest with
  | code s hspace hline hblock => rfl
  | comment body h => rfl

private theorem takeWhile_leads (rest : Rest) (lead : Lead) (leads : List Lead) :
    ((lead :: leads).flatMap Lead.text ++ rest.text).takeWhile Char.isAlpha = [] := by
  obtain ⟨comment, gap⟩ := lead
  cases comment <;> rfl

/-- What is left is whitespace and then the code, or a comment that stayed. -/
theorem remainder_split (rest : Rest) (leads : List Lead) :
    ∃ gap s, remainder rest leads = gap ++ s ∧ (∀ c ∈ gap, Text.isSpace c = true) ∧
      (∀ c ∈ s.head?, Text.isSpace c = false) ∧
      (s.takeWhile Char.isAlpha).map Char.toUpper =
        if Hides leads then [] else rest.keyword := by
  induction leads with
  | nil =>
    refine ⟨[], rest.text, rfl, fun c hc ↦ (by cases hc), head?_leads rest [], ?_⟩
    rw [if_neg not_hides_nil, keyword_eq]
  | cons lead leads ih =>
    rw [remainder]
    split
    · next hstops =>
      refine ⟨lead.gap.1, _, rfl, lead.gap.2, head?_leads rest leads, ?_⟩
      cases leads with
      | nil =>
        rw [if_neg (not_hides_single lead)]
        exact keyword_eq rest
      | cons next leads =>
        rw [if_pos ((hides_cons lead next leads).mpr (.inl hstops)), takeWhile_leads]
        rfl
    · next hstops =>
      obtain ⟨gap, s, hsplit, hgap, hs, hkeyword⟩ := ih
      refine ⟨gap, s, hsplit, hgap, hs, ?_⟩
      cases leads with
      | nil => exact hkeyword
      | cons next leads =>
        simp only [hides_cons, hstops, Bool.false_eq_true, false_or]
        exact hkeyword

/-- The first keyword is found, or hidden behind a comment that stayed. -/
theorem firstKeyword_text (stmt : Statement) :
    firstKeyword u stmt.text = if Hides stmt.leads then [] else stmt.rest.keyword := by
  obtain ⟨gap, s, hsplit, hgap, hs, hkeyword⟩ := remainder_split stmt.rest stmt.leads
  rw [← hkeyword]
  exact firstKeyword_eq_of_split ((remove_leadingCommentRe stmt).trans hsplit) hgap hs

/-- Without comments the first keyword is that of the code. -/
theorem firstKeyword_rest (rest : Rest) : firstKeyword u rest.text = rest.keyword := by
  have h := firstKeyword_text (u := u) ⟨⟨[], fun c hc ↦ by cases hc⟩, [], rest⟩
  rwa [if_neg not_hides_nil] at h

/-- The keyword behind any whitespace and comments is found exactly when there is none or no line
comment is followed by whitespace and another comment; a `SELECT` is then classified as it is
without them, and only then. -/
theorem firstKeyword_iff (u : Unicode) (stmt : Statement) :
    (firstKeyword u stmt.text = stmt.rest.keyword ↔
      stmt.rest.keyword = [] ∨ ¬Hides stmt.leads) ∧
    (stmt.rest.keyword = "SELECT".toList →
      (classifyOperation u stmt.text = classifyOperation u stmt.rest.text ↔
        ¬Hides stmt.leads)) := by
  have htext := firstKeyword_text (u := u) stmt
  constructor
  · rw [htext]
    by_cases hhides : Hides stmt.leads
    · rw [if_pos hhides]
      constructor
      · exact fun h ↦ .inl h.symm
      · rintro (h | h)
        · exact h.symm
        · exact absurd hhides h
    · simp [hhides]
  · intro hselect
    have hrest : classifyOperation u stmt.rest.text = .read :=
      classifyOperation_eq_read.mpr (.inl ((firstKeyword_rest stmt.rest).trans hselect))
    rw [hrest, classifyOperation_eq_read, htext, hselect]
    by_cases hhides : Hides stmt.leads
    · rw [if_pos hhides]
      simp [hhides]
    · simp [hhides]

-- Two line comments, the second one indented.
private def indented : Statement where
  gap := ⟨[], fun c hc ↦ by cases hc⟩
  leads :=
    [⟨.line " totals".toList (by decide), ⟨"  ".toList, List.all_eq_true.mp rfl⟩⟩,
      ⟨.line " by day".toList (by decide), ⟨[], fun c hc ↦ by cases hc⟩⟩]
  rest := .code "SELECT 1".toList (fun c hc ↦ by cases hc; rfl) (by decide) (by decide)

/-- A `SELECT` behind them has no keyword. -/
theorem firstKeyword_indented :
    indented.text = "-- totals\n  -- by day\nSELECT 1".toList ∧
      firstKeyword .basic indented.text = [] ∧ indented.rest.keyword = "SELECT".toList ∧
      firstKeyword .basic indented.text ≠ indented.rest.keyword ∧
      classifyOperation .basic indented.text ≠ classifyOperation .basic indented.rest.text := by
  decide +kernel

end Keywords

end SalesData.Sql

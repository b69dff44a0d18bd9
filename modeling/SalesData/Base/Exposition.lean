import Mathlib.Data.List.Basic
import Mathlib.Data.List.Nodup
import SalesData.Base.Text

/-!
# The text exposition format

Prometheus's line format: a family of samples is one group of lines below its `# TYPE` line,
and in a label value backslash, quote and line feed are escaped. `parse` reads a text strictly:
each sample stands in the group of its family, no type line is repeated, and no sample could
be one of another family. Timestamps and samples without a type are not read.
-/

namespace SalesData.Base.Exposition

/-- The types of families. -/
inductive FamilyType
  | counter | gauge | histogram | summary | untyped
  deriving DecidableEq, Repr

namespace FamilyType

/-- The word for a type. -/
def word : FamilyType → Text
  | counter => "counter".toList
  | gauge => "gauge".toList
  | histogram => "histogram".toList
  | summary => "summary".toList
  | untyped => "untyped".toList

/-- The type that a word names. -/
def ofWord (word : Text) : Option FamilyType :=
  [counter, gauge, histogram, summary, untyped].find? (·.word == word)

/-- What a sample's name may add to that of its family. -/
def suffixes : FamilyType → List Text
  | histogram => ["_bucket".toList, "_sum".toList, "_count".toList]
  | summary => [[], "_sum".toList, "_count".toList]
  | _ => [[]]

/-- Words are distinct. -/
@[simp] theorem ofWord_word (type : FamilyType) : ofWord type.word = some type := by
  cases type <;> decide

/-- A word has no blank and no line feed. -/
theorem word_chars (type : FamilyType) : ' ' ∉ type.word ∧ '\n' ∉ type.word := by
  cases type <;> decide

end FamilyType

/-- One sample; the value is left as its text. -/
structure Sample where
  name : Text
  labels : List (Text × Text)
  value : Text
  deriving DecidableEq, Repr

/-- A family with its samples in order. -/
structure Family where
  name : Text
  type : FamilyType
  samples : List Sample
  deriving DecidableEq, Repr

/-- `[a-zA-Z_:][a-zA-Z0-9_:]*`. -/
def isName : Text → Bool
  | [] => false
  | c :: cs => (c.isAlpha || c == '_' || c == ':') &&
      cs.all fun c ↦ c.isAlphanum || c == '_' || c == ':'

/-- `[a-zA-Z_][a-zA-Z0-9_]*`. -/
def isLabelName : Text → Bool
  | [] => false
  | c :: cs => (c.isAlpha || c == '_') && cs.all fun c ↦ c.isAlphanum || c == '_'

/-- A character of a metric name or of a label name. -/
def isNameChar (c : Char) : Bool := c.isAlphanum || c == '_' || c == ':'

/-- The escape of a character in a label value. -/
def escapeChar (c : Char) : Text :=
  if c = '\\' then ['\\', '\\'] else if c = '"' then ['\\', '"']
  else if c = '\n' then ['\\', 'n'] else [c]

/-- A label value as it is written. -/
def escape (value : Text) : Text := value.flatMap escapeChar

/-- The character that an escape stands for. -/
def unescape (c : Char) : Option Char :=
  if c = '\\' then some '\\' else if c = '"' then some '"'
  else if c = 'n' then some '\n' else none

/-- Needs no escape. -/
def isPlain (c : Char) : Bool := c != '\\' && c != '"' && c != '\n'

/-- One label as it is written. -/
def labelText (label : Text × Text) : Text := label.1 ++ '=' :: '"' :: escape label.2 ++ ['"']

/-- The labels as they are written. -/
def labelsText (labels : List (Text × Text)) : Text :=
  if labels = [] then [] else '{' :: List.intercalate [','] (labels.map labelText) ++ ['}']

/-- The line of a sample. -/
def Sample.text (sample : Sample) : Text :=
  sample.name ++ labelsText sample.labels ++ ' ' :: sample.value

/-- What begins a type line. -/
def typePrefix : Text := "# TYPE ".toList

/-- The type line of a family. -/
def typeText (name : Text) (type : FamilyType) : Text := typePrefix ++ name ++ ' ' :: type.word

/-- The lines of a family. -/
def Family.lines (family : Family) : List Text :=
  typeText family.name family.type :: family.samples.map Sample.text

/-- A sample of this name belongs to the family. -/
def Family.owns (family : Family) (name : Text) : Bool :=
  family.type.suffixes.any fun suffix ↦ family.name ++ suffix == name

/-- Neither family's name is a sample's name in the other. -/
def Family.apart (f g : Family) : Bool := f.name != g.name && !f.owns g.name && !g.owns f.name

/-! ## Reading a text -/

/-- Where a reader is in the line of a sample. -/
inductive Phase
  | name
  | label (acc : Text)
  | equals (label : Text)
  | value (label acc : Text)
  | escape (label acc : Text)
  | between
  | closed
  | number
  deriving DecidableEq, Repr

/-- A reader of a sample's line, with what it has read. -/
structure Scan where
  sample : Sample
  phase : Phase
  deriving DecidableEq, Repr

/-- A reader takes one character. -/
def Scan.step (s : Scan) (c : Char) : Option Scan :=
  match s.phase with
  | .name =>
    if c = '{' then some { s with phase := .label [] }
    else if c = ' ' then some { s with phase := .number }
    else some { s with sample := { s.sample with name := s.sample.name ++ [c] } }
  | .label acc =>
    if c = '=' then some { s with phase := .equals acc }
    else if c = '}' then if acc = [] then some { s with phase := .closed } else none
    else some { s with phase := .label (acc ++ [c]) }
  | .equals label => if c = '"' then some { s with phase := .value label [] } else none
  | .value label acc =>
    if c = '"' then some
      ⟨{ s.sample with labels := s.sample.labels ++ [(label, acc)] }, .between⟩
    else if c = '\\' then some { s with phase := .escape label acc }
    else some { s with phase := .value label (acc ++ [c]) }
  | .escape label acc =>
    (unescape c).map fun d ↦ { s with phase := .value label (acc ++ [d]) }
  | .between =>
    if c = ',' then some { s with phase := .label [] }
    else if c = '}' then some { s with phase := .closed } else none
  | .closed => if c = ' ' then some { s with phase := .number } else none
  | .number =>
    if c = ' ' then none
    else some { s with sample := { s.sample with value := s.sample.value ++ [c] } }

/-- Valid names, distinct labels and a value. -/
def Sample.valid (sample : Sample) : Bool :=
  isName sample.name && sample.labels.all (isLabelName ·.1) &&
    decide (sample.labels.map Prod.fst).Nodup && sample.value != []

/-- The sample of a line. -/
def parseSample (line : Text) : Option Sample :=
  match line.foldlM Scan.step ⟨⟨[], [], []⟩, .name⟩ with
  | some ⟨sample, .number⟩ => if sample.valid then some sample else none
  | _ => none

/-- What a type line declares, after its prefix. -/
def parseType (rest : Text) : Option (Text × FamilyType) :=
  let name := rest.takeWhile (· != ' ')
  if isName name then
    (FamilyType.ofWord (rest.drop (name.length + 1))).map fun type ↦ (name, type)
  else none

/-- A new family after others. -/
def declare (families : List Family) (family : Family) : Option (List Family) :=
  if families.all (·.apart family) then some (families ++ [family]) else none

/-- A sample in the group of the last family. -/
def addSample (families : List Family) (sample : Sample) : Option (List Family) :=
  match families.getLast? with
  | some family =>
    if family.owns sample.name then
      some (families.dropLast ++ [{ family with samples := family.samples ++ [sample] }])
    else none
  | none => none

/-- Read one line: a type line, an empty line or comment, or a sample. -/
def addLine (families : List Family) (line : Text) : Option (List Family) :=
  if typePrefix.isPrefixOf line then
    (parseType (line.drop typePrefix.length)).bind fun d ↦ declare families ⟨d.1, d.2, []⟩
  else if line.head?.all (· == '#') then some families
  else (parseSample line).bind (addSample families)

/-- The lines of a text in which a line feed ends every line. -/
def splitLines : Text → Text → Option (List Text)
  | acc, [] => if acc = [] then some [] else none
  | acc, c :: cs =>
    if c = '\n' then (splitLines [] cs).map (acc :: ·) else splitLines (acc ++ [c]) cs

/-- The families of a text. -/
def parse (text : Text) : Option (List Family) :=
  (splitLines [] text).bind (·.foldlM addLine [])

/-- Lines as a text. -/
def unlines (lines : List Text) : Text := lines.flatMap (· ++ ['\n'])

/-! ## Label values -/

/-- Plain characters are written as they are. -/
theorem escapeChar_of_isPlain {c : Char} (h : isPlain c = true) : escapeChar c = [c] := by
  simp only [isPlain, Bool.and_eq_true, bne_iff_ne] at h
  simp only [escapeChar, h.1.1, h.1.2, h.2, if_false]

/-- Plain values are written as they are. -/
theorem escape_of_isPlain {value : Text} (h : value.all isPlain = true) :
    escape value = value := by
  induction value with
  | nil => rfl
  | cons c cs ih =>
    rw [List.all_cons, Bool.and_eq_true] at h
    rw [escape, List.flatMap_cons, escapeChar_of_isPlain h.1]
    exact congrArg (c :: ·) (ih h.2)

/-- No label value is written with a line feed. -/
theorem not_mem_escape (value : Text) : '\n' ∉ escape value := by
  intro hmem
  obtain ⟨c, -, hc⟩ := List.mem_flatMap.mp hmem
  unfold escapeChar at hc
  split at hc
  · revert hc
    decide
  · split at hc
    · revert hc
      decide
    · split at hc
      · revert hc
        decide
      · next hne => exact hne (List.mem_singleton.mp hc).symm

private theorem scan_escapeChar (sample : Sample) (label acc : Text) (c : Char) :
    (escapeChar c).foldlM Scan.step ⟨sample, .value label acc⟩ =
      some ⟨sample, .value label (acc ++ [c])⟩ := by
  by_cases hslash : c = '\\'
  · subst hslash
    rfl
  · by_cases hquote : c = '"'
    · subst hquote
      rfl
    · by_cases hfeed : c = '\n'
      · subst hfeed
        rfl
      · simp [escapeChar, Scan.step, hslash, hquote, hfeed]

/-- A written label value is read as it was. -/
theorem scan_escape (sample : Sample) (label acc value : Text) :
    (escape value).foldlM Scan.step ⟨sample, .value label acc⟩ =
      some ⟨sample, .value label (acc ++ value)⟩ := by
  induction value generalizing acc with
  | nil => simp [escape]
  | cons c cs ih =>
    rw [escape, List.flatMap_cons, List.foldlM_append, scan_escapeChar]
    show (escape cs).foldlM Scan.step _ = _
    rw [ih, List.append_assoc]
    rfl

/-! ## Names -/

/-- Every character of a metric name is one of its characters. -/
theorem isNameChar_of_isName {name : Text} (h : isName name = true) :
    ∀ c ∈ name, isNameChar c = true := by
  cases name with
  | nil => cases h
  | cons d ds =>
    simp only [isName, Bool.and_eq_true, List.all_eq_true] at h
    intro c hc
    rcases List.mem_cons.mp hc with rfl | hc
    · have hd := h.1
      simp only [Bool.or_eq_true] at hd
      simp only [isNameChar, Char.isAlphanum, Bool.or_eq_true]
      tauto
    · exact h.2 c hc

/-- Every character of a label name is one of a metric name. -/
theorem isNameChar_of_isLabelName {name : Text} (h : isLabelName name = true) :
    ∀ c ∈ name, isNameChar c = true := by
  apply isNameChar_of_isName
  cases name with
  | nil => cases h
  | cons d ds =>
    simp only [isLabelName, Bool.and_eq_true, List.all_eq_true] at h
    simp only [isName, Bool.and_eq_true, List.all_eq_true]
    refine ⟨?_, ?_⟩
    · rw [h.1, Bool.true_or]
    · intro c hc
      rw [h.2 c hc, Bool.true_or]

/-- Characters of a name are no delimiters. -/
theorem ne_of_isNameChar {c d : Char} (hd : isNameChar d = false) (hc : isNameChar c = true) :
    c ≠ d := by
  rintro rfl
  rw [hc] at hd
  cases hd

/-- A delimiter is in no name. -/
theorem not_mem_of_isName {name : Text} {d : Char} (h : isName name = true)
    (hd : isNameChar d = false) : d ∉ name :=
  fun hmem ↦ ne_of_isNameChar hd (isNameChar_of_isName h d hmem) rfl

private theorem scan_name (sample : Sample) (name : Text)
    (h : ∀ c ∈ name, isNameChar c = true) :
    name.foldlM Scan.step ⟨sample, .name⟩ =
      some ⟨{ sample with name := sample.name ++ name }, .name⟩ := by
  induction name generalizing sample with
  | nil => simp
  | cons c cs ih =>
    have hc := h c List.mem_cons_self
    have hbrace : c ≠ '{' := ne_of_isNameChar (by decide) hc
    have hblank : c ≠ ' ' := ne_of_isNameChar (by decide) hc
    have hstep : Scan.step ⟨sample, .name⟩ c =
        some ⟨{ sample with name := sample.name ++ [c] }, .name⟩ := by
      simp [Scan.step, hbrace, hblank]
    rw [List.foldlM_cons, hstep]
    show cs.foldlM Scan.step _ = _
    rw [ih _ fun d hd ↦ h d (List.mem_cons_of_mem c hd)]
    simp

private theorem scan_labelName (sample : Sample) (acc name : Text)
    (h : ∀ c ∈ name, isNameChar c = true) :
    name.foldlM Scan.step ⟨sample, .label acc⟩ = some ⟨sample, .label (acc ++ name)⟩ := by
  induction name generalizing acc with
  | nil => simp
  | cons c cs ih =>
    have hc := h c List.mem_cons_self
    have hequals : c ≠ '=' := ne_of_isNameChar (by decide) hc
    have hbrace : c ≠ '}' := ne_of_isNameChar (by decide) hc
    have hstep : Scan.step ⟨sample, .label acc⟩ c = some ⟨sample, .label (acc ++ [c])⟩ := by
      simp [Scan.step, hequals, hbrace]
    rw [List.foldlM_cons, hstep]
    show cs.foldlM Scan.step _ = _
    rw [ih _ fun d hd ↦ h d (List.mem_cons_of_mem c hd), List.append_assoc]
    rfl

private theorem scan_number (sample : Sample) (value : Text) (h : ' ' ∉ value) :
    value.foldlM Scan.step ⟨sample, .number⟩ =
      some ⟨{ sample with value := sample.value ++ value }, .number⟩ := by
  induction value generalizing sample with
  | nil => simp
  | cons c cs ih =>
    have hblank : c ≠ ' ' := fun he ↦ h (he ▸ List.mem_cons_self)
    have hstep : Scan.step ⟨sample, .number⟩ c =
        some ⟨{ sample with value := sample.value ++ [c] }, .number⟩ := by
      simp [Scan.step, hblank]
    rw [List.foldlM_cons, hstep]
    show cs.foldlM Scan.step _ = _
    rw [ih _ fun hmem ↦ h (List.mem_cons_of_mem c hmem)]
    simp

/-! ## Samples -/

private theorem scan_label (sample : Sample) {label : Text × Text}
    (h : isLabelName label.1 = true) :
    (labelText label).foldlM Scan.step ⟨sample, .label []⟩ =
      some ⟨{ sample with labels := sample.labels ++ [label] }, .between⟩ := by
  rw [labelText, List.append_assoc, List.foldlM_append,
    scan_labelName sample [] label.1 (isNameChar_of_isLabelName h)]
  show (escape label.2 ++ ['"']).foldlM Scan.step ⟨sample, .value label.1 []⟩ = _
  rw [List.foldlM_append, scan_escape]
  rfl

private theorem intercalate_cons (sep t : Text) {ts : List Text} (h : ts ≠ []) :
    List.intercalate sep (t :: ts) = t ++ sep ++ List.intercalate sep ts := by
  cases ts with
  | nil => exact absurd rfl h
  | cons u us => simp [List.intercalate, List.intersperse]

/-- The labels between their braces are read as they were. -/
theorem scan_labels (sample : Sample) {labels : List (Text × Text)} (hne : labels ≠ [])
    (h : ∀ label ∈ labels, isLabelName label.1 = true) :
    (List.intercalate [','] (labels.map labelText) ++ ['}']).foldlM Scan.step
        ⟨sample, .label []⟩ =
      some ⟨{ sample with labels := sample.labels ++ labels }, .closed⟩ := by
  induction labels generalizing sample with
  | nil => exact absurd rfl hne
  | cons label labels ih =>
    have hlabel := scan_label sample (h label List.mem_cons_self)
    by_cases hlast : labels = []
    · subst hlast
      rw [List.map_cons, List.map_nil, List.intercalate_singleton, List.foldlM_append, hlabel]
      rfl
    · rw [List.map_cons, intercalate_cons _ _ (by simpa using hlast), List.append_assoc,
        List.append_assoc, List.foldlM_append, hlabel]
      show (List.intercalate [','] (labels.map labelText) ++ ['}']).foldlM Scan.step
        ⟨_, .label []⟩ = _
      rw [ih _ hlast fun other hother ↦ h other (List.mem_cons_of_mem label hother)]
      simp

/-- A sample that a line can hold. -/
structure Sample.WellFormed (sample : Sample) : Prop where
  name : isName sample.name = true
  labels : ∀ label ∈ sample.labels, isLabelName label.1 = true
  distinct : (sample.labels.map Prod.fst).Nodup
  nonempty : sample.value ≠ []
  unbroken : ' ' ∉ sample.value ∧ '\n' ∉ sample.value

/-- A written sample is read as it was. -/
theorem parseSample_text {sample : Sample} (h : sample.WellFormed) :
    parseSample sample.text = some sample := by
  have hscan : sample.text.foldlM Scan.step ⟨⟨[], [], []⟩, .name⟩ = some ⟨sample, .number⟩ := by
    rw [Sample.text, List.append_assoc, List.foldlM_append,
      scan_name _ _ (isNameChar_of_isName h.name)]
    show (labelsText sample.labels ++ ' ' :: sample.value).foldlM Scan.step
      ⟨⟨sample.name, [], []⟩, .name⟩ = _
    unfold labelsText
    split
    · next hnone =>
      show sample.value.foldlM Scan.step ⟨⟨sample.name, [], []⟩, .number⟩ = _
      rw [scan_number _ _ h.unbroken.1, ← hnone]
      rfl
    · next hsome =>
      show (List.intercalate [','] (sample.labels.map labelText) ++ ['}'] ++
        ' ' :: sample.value).foldlM Scan.step ⟨⟨sample.name, [], []⟩, .label []⟩ = _
      rw [List.foldlM_append, scan_labels _ hsome h.labels]
      show sample.value.foldlM Scan.step ⟨⟨sample.name, [] ++ sample.labels, []⟩, .number⟩ = _
      rw [scan_number _ _ h.unbroken.1]
      rfl
  have hvalid : sample.valid = true := by
    simp only [Sample.valid, Bool.and_eq_true, List.all_eq_true, decide_eq_true_eq, bne_iff_ne]
    exact ⟨⟨⟨h.name, h.labels⟩, h.distinct⟩, h.nonempty⟩
  rw [parseSample, hscan]
  exact if_pos hvalid

/-! ## Lines -/

private theorem splitLines_append (acc line rest : Text) (h : '\n' ∉ line) :
    splitLines acc (line ++ '\n' :: rest) = (splitLines [] rest).map ((acc ++ line) :: ·) := by
  induction line generalizing acc with
  | nil => simp [splitLines]
  | cons c cs ih =>
    have hfeed : c ≠ '\n' := fun he ↦ h (he ▸ List.mem_cons_self)
    rw [List.cons_append, splitLines, if_neg hfeed,
      ih _ fun hmem ↦ h (List.mem_cons_of_mem c hmem), List.append_assoc]
    rfl

/-- Lines without line feeds are read off the text that they make. -/
theorem splitLines_unlines {lines : List Text} (h : ∀ line ∈ lines, '\n' ∉ line) :
    splitLines [] (unlines lines) = some lines := by
  induction lines with
  | nil => rfl
  | cons line lines ih =>
    have htail : unlines (line :: lines) = line ++ '\n' :: unlines lines := by
      simp [unlines]
    rw [htail, splitLines_append [] line _ (h line List.mem_cons_self),
      ih fun other hother ↦ h other (List.mem_cons_of_mem line hother)]
    rfl

private theorem not_mem_labelText {label : Text × Text} (h : isLabelName label.1 = true) :
    '\n' ∉ labelText label := by
  have hname : '\n' ∉ label.1 := fun hmem ↦
    ne_of_isNameChar (d := '\n') (by decide) (isNameChar_of_isLabelName h _ hmem) rfl
  simp [labelText, hname, not_mem_escape]

private theorem not_mem_intercalate {parts : List Text} (h : ∀ part ∈ parts, '\n' ∉ part) :
    '\n' ∉ List.intercalate [','] parts := by
  induction parts with
  | nil => simp [List.intercalate]
  | cons part parts ih =>
    have hpart := h part List.mem_cons_self
    by_cases hlast : parts = []
    · subst hlast
      rwa [List.intercalate_singleton]
    · have hrest := ih fun other hother ↦ h other (List.mem_cons_of_mem part hother)
      rw [intercalate_cons _ _ hlast]
      simp [hpart, hrest]

/-- The line of a sample is one line. -/
theorem not_mem_text {sample : Sample} (h : sample.WellFormed) : '\n' ∉ sample.text := by
  have hname : '\n' ∉ sample.name := not_mem_of_isName h.name (by decide)
  have hlabels : '\n' ∉ labelsText sample.labels := by
    unfold labelsText
    split
    · simp
    · have hparts : '\n' ∉ List.intercalate [','] (sample.labels.map labelText) := by
        apply not_mem_intercalate
        intro part hpart
        obtain ⟨label, hlabel, rfl⟩ := List.mem_map.mp hpart
        exact not_mem_labelText (h.labels label hlabel)
      simp [hparts]
  simp [Sample.text, hname, hlabels, h.unbroken.2]

/-- A type line is one line. -/
theorem not_mem_typeText {name : Text} (h : isName name = true) (type : FamilyType) :
    '\n' ∉ typeText name type := by
  have hname : '\n' ∉ name := not_mem_of_isName h (by decide)
  have hprefix : '\n' ∉ typePrefix := by decide
  simp [typeText, hname, hprefix, (FamilyType.word_chars type).2]

/-! ## Families -/

/-- A family that a group of lines can hold. -/
structure Family.WellFormed (family : Family) : Prop where
  name : isName family.name = true
  samples : ∀ sample ∈ family.samples, sample.WellFormed
  owned : ∀ sample ∈ family.samples, family.owns sample.name = true

/-- The declaration of a type line is read as it was. -/
theorem parseType_text {name : Text} (h : isName name = true) (type : FamilyType) :
    parseType (name ++ ' ' :: type.word) = some (name, type) := by
  have htake : (name ++ ' ' :: type.word).takeWhile (· != ' ') = name := by
    have hall : ∀ c ∈ name, (c != ' ') = true := by
      intro c hc
      simpa using ne_of_isNameChar (d := ' ') (by decide) (isNameChar_of_isName h c hc)
    rw [List.takeWhile_append_of_pos hall, List.takeWhile_cons]
    simp
  have hdrop : (name ++ ' ' :: type.word).drop (name.length + 1) = type.word := by
    rw [List.drop_append]
    simp
  simp [parseType, htake, hdrop, h]

/-- A type line opens a group. -/
theorem addLine_typeText {families : List Family} {name : Text} (h : isName name = true)
    (type : FamilyType) :
    addLine families (typeText name type) = declare families ⟨name, type, []⟩ := by
  have hprefix : typePrefix.isPrefixOf (typeText name type) = true := by
    rw [List.isPrefixOf_iff_prefix, typeText, List.append_assoc]
    exact List.prefix_append _ _
  rw [addLine, if_pos hprefix, typeText, List.append_assoc, List.drop_left,
    parseType_text h type]
  rfl

/-- A sample's line goes to the group before it. -/
theorem addLine_text {families : List Family} {sample : Sample} (h : sample.WellFormed) :
    addLine families sample.text = addSample families sample := by
  obtain ⟨c, cs, hname⟩ : ∃ c cs, sample.name = c :: cs := by
    cases hname : sample.name with
    | nil =>
      have := h.name
      rw [hname] at this
      cases this
    | cons c cs => exact ⟨c, cs, rfl⟩
  have hhash : c ≠ '#' := by
    apply ne_of_isNameChar (by decide)
    exact isNameChar_of_isName h.name c (hname ▸ List.mem_cons_self)
  have hhead : sample.text.head? = some c := by
    rw [Sample.text, hname]
    rfl
  have hprefix : ¬ typePrefix.isPrefixOf sample.text = true := by
    rw [List.isPrefixOf_iff_prefix]
    rintro ⟨rest, hrest⟩
    rw [← hrest] at hhead
    exact hhash (Option.some.inj hhead).symm
  rw [addLine, if_neg hprefix, hhead, parseSample_text h]
  simp [hhash]

private theorem foldlM_samples (families : List Family) (family : Family)
    (samples : List Sample) (h : ∀ sample ∈ samples, sample.WellFormed)
    (howned : ∀ sample ∈ samples, family.owns sample.name = true) :
    (samples.map Sample.text).foldlM addLine (families ++ [family]) =
      some (families ++ [{ family with samples := family.samples ++ samples }]) := by
  induction samples generalizing family with
  | nil => simp
  | cons sample samples ih =>
    have hadd : addLine (families ++ [family]) sample.text =
        some (families ++ [{ family with samples := family.samples ++ [sample] }]) := by
      rw [addLine_text (h sample List.mem_cons_self)]
      simp [addSample, howned sample List.mem_cons_self]
    rw [List.map_cons, List.foldlM_cons, hadd]
    show (samples.map Sample.text).foldlM addLine _ = _
    rw [ih { family with samples := family.samples ++ [sample] }
      (fun other hother ↦ h other (List.mem_cons_of_mem sample hother))
      (fun other hother ↦ howned other (List.mem_cons_of_mem sample hother))]
    simp

/-- The lines of a family that is apart from those before it add that family. -/
theorem foldlM_lines {families : List Family} {family : Family} (h : family.WellFormed)
    (hapart : ∀ other ∈ families, other.apart family = true) :
    family.lines.foldlM addLine families = some (families ++ [family]) := by
  have hdeclare : declare families ⟨family.name, family.type, []⟩ =
      some (families ++ [⟨family.name, family.type, []⟩]) := by
    apply if_pos
    rw [List.all_eq_true]
    exact hapart
  rw [Family.lines, List.foldlM_cons, addLine_typeText h.name, hdeclare]
  show (family.samples.map Sample.text).foldlM addLine _ = _
  rw [foldlM_samples families ⟨family.name, family.type, []⟩ _ h.samples h.owned]
  rfl

/-- Families with well-formed samples that are apart from each other are read off the text that
their lines make. -/
theorem parse_unlines {families : List Family} (h : ∀ family ∈ families, family.WellFormed)
    (hapart : families.Pairwise fun f g ↦ f.apart g = true) :
    parse (unlines (families.flatMap Family.lines)) = some families := by
  have hfeed : ∀ line ∈ families.flatMap Family.lines, '\n' ∉ line := by
    intro line hline
    obtain ⟨family, hfamily, hline⟩ := List.mem_flatMap.mp hline
    have hwell := h family hfamily
    rcases List.mem_cons.mp hline with rfl | hline
    · exact not_mem_typeText hwell.name family.type
    · obtain ⟨sample, hsample, rfl⟩ := List.mem_map.mp hline
      exact not_mem_text (hwell.samples sample hsample)
  have hfold : ∀ before, (before ++ families).Pairwise (fun f g ↦ f.apart g = true) →
      (families.flatMap Family.lines).foldlM addLine before = some (before ++ families) := by
    clear hfeed hapart
    induction families with
    | nil => simp
    | cons family families ih =>
      intro before hpairwise
      have hbefore : ∀ other ∈ before, other.apart family = true := fun other hother ↦
        (List.pairwise_append.mp hpairwise).2.2 other hother family List.mem_cons_self
      rw [List.flatMap_cons, List.foldlM_append, foldlM_lines (h family List.mem_cons_self) hbefore]
      show (families.flatMap Family.lines).foldlM addLine (before ++ [family]) = _
      rw [ih (fun other hother ↦ h other (List.mem_cons_of_mem family hother)), List.append_assoc]
      · rfl
      · rw [List.append_assoc]
        exact hpairwise
  rw [parse, splitLines_unlines hfeed]
  exact hfold [] hapart

end SalesData.Base.Exposition

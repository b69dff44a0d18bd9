import SalesData.Base.Text

/-!
# CSV

Python's `csv` with the dialect `excel` and lines that end in `\n`: rows are written with quotes
where a field needs them, and read by the state machine of the library, character by character and
line by line. Whether a `\r` alone needs quotes differs between versions of the library.
-/

namespace SalesData.Base.Csv

/-! ## Writing -/

variable (quotesReturn : Bool)

/-- The characters for which a field is put in quotes. -/
def isSpecial (c : Char) : Bool :=
  c == ',' || c == '"' || c == '\n' || (quotesReturn && c == '\r')

/-- The text of a field between quotes: quotes are doubled. -/
def double : Text → Text
  | [] => []
  | c :: f => if c = '"' then '"' :: '"' :: double f else c :: double f

/-- A field in quotes. -/
def quote (f : Text) : Text := '"' :: (double f ++ ['"'])

/-- A field, in quotes where it needs them (`QUOTE_MINIMAL`). -/
def writeField (f : Text) : Text := if f.any (isSpecial quotesReturn) then quote f else f

/-- A field and those behind it, with the end of the line. -/
def writeFields (f : Text) : List Text → Text
  | [] => writeField quotesReturn f ++ ['\n']
  | f' :: fs => writeField quotesReturn f ++ ',' :: writeFields f' fs

/-- `writerow`; a row of one empty field is told from an empty row. -/
def writeRow : List Text → Text
  | [] => ['\n']
  | [[]] => quote [] ++ ['\n']
  | f :: fs => writeFields quotesReturn f fs

/-- Rows one after the other. -/
def write (rows : List (List Text)) : Text := rows.flatMap (writeRow quotesReturn)

/-! ## Reading -/

/-- The states of the parser. -/
inductive State
  | startRecord | startField | inField | inQuotedField | quoteInQuotedField | eatCrnl
  deriving DecidableEq, Repr

/-- A parser within a row: the field that it reads and those before. -/
structure Parser where
  state : State
  field : Text
  fields : List Text

namespace Parser

/-- A parser before a row. -/
def new : Parser := ⟨.startRecord, [], []⟩

/-- The field is over. -/
def save (p : Parser) (state : State) : Parser := ⟨state, [], p.fields ++ [p.field]⟩

/-- The field goes on. -/
def add (p : Parser) (c : Char) (state : State) : Parser := ⟨state, p.field ++ [c], p.fields⟩

/-- A character where a field may begin. -/
def begin (p : Parser) (c : Char) : Parser :=
  if c = '\n' ∨ c = '\r' then p.save .eatCrnl
  else if c = '"' then { p with state := .inQuotedField }
  else if c = ',' then p.save .startField
  else p.add c .inField

/-- One character; `none` is an error. -/
def step (p : Parser) (c : Char) : Option Parser :=
  match p.state with
  | .startRecord => some (if c = '\n' ∨ c = '\r' then { p with state := .eatCrnl } else p.begin c)
  | .startField => some (p.begin c)
  | .inField =>
    some (if c = '\n' ∨ c = '\r' then p.save .eatCrnl
      else if c = ',' then p.save .startField
      else p.add c .inField)
  | .inQuotedField =>
    some (if c = '"' then { p with state := .quoteInQuotedField } else p.add c .inQuotedField)
  | .quoteInQuotedField =>
    some (if c = '"' then p.add c .inQuotedField
      else if c = ',' then p.save .startField
      else if c = '\n' ∨ c = '\r' then p.save .eatCrnl
      else p.add c .inField)
  | .eatCrnl => if c = '\n' ∨ c = '\r' then some p else none

/-- The end of a line. -/
def endLine (p : Parser) : Parser :=
  match p.state with
  | .startRecord => p
  | .startField | .inField | .quoteInQuotedField => p.save .startRecord
  | .inQuotedField => p
  | .eatCrnl => { p with state := .startRecord }

/-- The end of the text: what is left of a row. -/
def finish (p : Parser) : List (List Text) :=
  if p.field ≠ [] ∨ p.state = .inQuotedField then [(p.save .startRecord).fields] else []

/-- Reading from within a row. A line ends behind its `\n`, the last one with the text. -/
def readFrom (p : Parser) : Text → Option (List (List Text))
  | [] => some p.finish
  | c :: text =>
    match p.step c with
    | none => none
    | some p =>
      if c = '\n' ∨ text = [] then
        if p.endLine.state = .startRecord then
          (readFrom new text).map (p.endLine.fields :: ·)
        else readFrom p.endLine text
      else readFrom p text

end Parser

/-- The rows of a text; `none` is an error. -/
def read (text : Text) : Option (List (List Text)) := Parser.new.readFrom text

/-! ## What is written is read -/

namespace Parser

/-- A character within a line. -/
theorem readFrom_cons {p p' : Parser} {c : Char} {text : Text} (h : p.step c = some p')
    (hc : c ≠ '\n') (htext : text ≠ []) : p.readFrom (c :: text) = p'.readFrom text := by
  rw [readFrom, h]
  exact if_neg (by simp [hc, htext])

/-- The end of a row. -/
theorem readFrom_newline {p p' : Parser} {text : Text} (h : p.step '\n' = some p')
    (hstate : p'.state = .eatCrnl) :
    p.readFrom ('\n' :: text) = (read text).map (p'.fields :: ·) := by
  have hend : p'.endLine = { p' with state := .startRecord } := by
    unfold endLine
    rw [hstate]
  rw [readFrom, h]
  dsimp only
  rw [if_pos (.inl rfl), hend]
  exact if_pos rfl

/-- A line end in quotes. -/
theorem readFrom_quoted_newline {p : Parser} {text : Text} (hstate : p.state = .inQuotedField) :
    p.readFrom ('\n' :: text) = (p.add '\n' .inQuotedField).readFrom text := by
  have hstep : p.step '\n' = some (p.add '\n' .inQuotedField) := by
    unfold step
    rw [hstate]
    rfl
  rw [readFrom, hstep]
  dsimp only
  rw [if_pos (.inl rfl)]
  exact if_neg (by simp [endLine, add])

/-- The text of a field in quotes, up to the closing quote. -/
theorem readFrom_double (f : Text) {p : Parser} {text : Text} (hstate : p.state = .inQuotedField)
    (htext : text ≠ []) :
    p.readFrom (double f ++ '"' :: text) =
      (⟨.quoteInQuotedField, p.field ++ f, p.fields⟩ : Parser).readFrom text := by
  induction f generalizing p with
  | nil =>
    have hstep : p.step '"' = some { p with state := .quoteInQuotedField } := by
      unfold step
      rw [hstate]
      rfl
    rw [List.append_nil]
    exact readFrom_cons hstep (by decide) htext
  | cons c f ih =>
    rw [double]
    split
    · next hc =>
      subst hc
      have hclose : p.step '"' = some { p with state := .quoteInQuotedField } := by
        unfold step
        rw [hstate]
        rfl
      have hreopen : (⟨.quoteInQuotedField, p.field, p.fields⟩ : Parser).step '"' =
          some (p.add '"' .inQuotedField) := rfl
      rw [List.cons_append, List.cons_append,
        readFrom_cons hclose (by decide) (List.cons_ne_nil _ _),
        readFrom_cons hreopen (by decide) (by simp), ih rfl]
      simp [add]
    · next hc =>
      have hadd : p.step c = some (p.add c .inQuotedField) := by
        unfold step
        rw [hstate]
        exact congrArg some (if_neg hc)
      by_cases hnewline : c = '\n'
      · subst hnewline
        rw [List.cons_append, readFrom_quoted_newline hstate, ih rfl]
        simp [add]
      · rw [List.cons_append, readFrom_cons hadd hnewline (by simp), ih rfl]
        simp [add]

/-- A field that needs no quotes, behind its first character. -/
theorem readFrom_plain {f : Text} {p : Parser} {text : Text} (hstate : p.state = .inField)
    (hf : ∀ c ∈ f, c ≠ ',' ∧ c ≠ '\n' ∧ c ≠ '\r') (htext : text ≠ []) :
    p.readFrom (f ++ text) = (⟨.inField, p.field ++ f, p.fields⟩ : Parser).readFrom text := by
  induction f generalizing p with
  | nil =>
    obtain ⟨state, field, fields⟩ := p
    subst hstate
    rw [List.append_nil]
    rfl
  | cons c f ih =>
    obtain ⟨hcomma, hnewline, hreturn⟩ := hf c List.mem_cons_self
    have hadd : p.step c = some (p.add c .inField) := by
      unfold step
      rw [hstate]
      simp [hcomma, hnewline, hreturn]
    rw [List.cons_append, readFrom_cons hadd hnewline (by simp [htext]),
      ih rfl fun c hc ↦ hf c (List.mem_cons_of_mem _ hc)]
    simp [add]

/-- Where a field may begin. -/
def Fresh (p : Parser) : Prop := (p.state = .startRecord ∨ p.state = .startField) ∧ p.field = []

/-- Where a field may end. -/
def Closed (p : Parser) : Prop := p.state ≠ .inQuotedField ∧ p.state ≠ .eatCrnl

/-- A comma ends a field. -/
theorem Closed.step_comma {p : Parser} (h : p.Closed) :
    p.step ',' = some (p.save .startField) := by
  unfold step
  cases hstate : p.state with
  | inQuotedField => exact absurd hstate h.1
  | eatCrnl => exact absurd hstate h.2
  | startRecord | startField | inField | quoteInQuotedField => rfl

/-- The end of a line ends a field; where no field has begun it ends an empty row. -/
theorem Closed.step_newline {p : Parser} (h : p.Closed) (hstate : p.state ≠ .startRecord) :
    p.step '\n' = some (p.save .eatCrnl) := by
  unfold step
  cases hp : p.state with
  | startRecord => exact absurd hp hstate
  | inQuotedField => exact absurd hp h.1
  | eatCrnl => exact absurd hp h.2
  | startField | inField | quoteInQuotedField => rfl

/-- A character that neither ends nor quotes a field. -/
theorem Fresh.step_plain {p : Parser} {c : Char} (h : p.Fresh) (hcomma : c ≠ ',') (hquote : c ≠ '"')
    (hnewline : c ≠ '\n') (hreturn : c ≠ '\r') : p.step c = some (p.add c .inField) := by
  unfold step begin
  rcases h.1 with hstate | hstate <;> rw [hstate] <;> simp [hcomma, hquote, hnewline, hreturn]

/-- A quote before a field. -/
theorem Fresh.step_quote {p : Parser} (h : p.Fresh) :
    p.step '"' = some { p with state := .inQuotedField } := by
  unfold step
  rcases h.1 with hstate | hstate <;> rw [hstate] <;> rfl

/-- A field as it is written, in the versions of the library that read it. -/
theorem readFrom_writeField {quotesReturn : Bool} {f : Text}
    (hf : quotesReturn = true ∨ '\r' ∉ f) {p : Parser} (hp : p.Fresh) :
    ∃ q : Parser, q.Closed ∧ q.field = f ∧ q.fields = p.fields ∧
      (q.state = .startRecord → p.state = .startRecord ∧ f = []) ∧
      ∀ text ≠ [], p.readFrom (writeField quotesReturn f ++ text) = q.readFrom text := by
  unfold writeField
  split
  · refine ⟨⟨.quoteInQuotedField, f, p.fields⟩, ⟨by simp, by simp⟩, rfl, rfl, (by cases ·),
      fun text htext ↦ ?_⟩
    rw [quote, List.cons_append, List.append_assoc,
      readFrom_cons hp.step_quote (by decide) (by simp),
      List.singleton_append, readFrom_double f rfl htext]
    dsimp only
    rw [hp.2, List.nil_append]
  · next hplain =>
    have hchars : ∀ c ∈ f, c ≠ ',' ∧ c ≠ '"' ∧ c ≠ '\n' ∧ c ≠ '\r' := by
      intro c hc
      have hspecial : isSpecial quotesReturn c = false := by
        rw [Bool.eq_false_iff]
        exact fun h ↦ hplain (List.any_eq_true.mpr ⟨c, hc, h⟩)
      simp only [isSpecial, Bool.or_eq_false_iff, beq_eq_false_iff_ne, Bool.and_eq_false_iff]
        at hspecial
      obtain ⟨⟨⟨hcomma, hquote⟩, hnewline⟩, hreturn⟩ := hspecial
      refine ⟨hcomma, hquote, hnewline, ?_⟩
      rcases hreturn with hreturn | hreturn
      · rintro rfl
        rcases hf with hf | hf
        · rw [hf] at hreturn
          cases hreturn
        · exact hf hc
      · exact hreturn
    cases f with
    | nil =>
      refine ⟨p, ?_, hp.2, rfl, fun h ↦ ⟨h, rfl⟩, fun text _ ↦ rfl⟩
      rcases hp.1 with hstate | hstate
      · exact ⟨by rw [hstate]; decide, by rw [hstate]; decide⟩
      · exact ⟨by rw [hstate]; decide, by rw [hstate]; decide⟩
    | cons c f =>
      obtain ⟨hcomma, hquote, hnewline, hreturn⟩ := hchars c List.mem_cons_self
      refine ⟨⟨.inField, c :: f, p.fields⟩, ⟨by simp, by simp⟩, rfl, rfl, (by cases ·),
        fun text htext ↦ ?_⟩
      rw [List.cons_append,
        readFrom_cons (hp.step_plain hcomma hquote hnewline hreturn) hnewline (by simp [htext]),
        readFrom_plain rfl _ htext]
      · simp [add, hp.2]
      · intro c' hc'
        obtain ⟨hcomma', -, hnewline', hreturn'⟩ := hchars c' (List.mem_cons_of_mem _ hc')
        exact ⟨hcomma', hnewline', hreturn'⟩

end Parser

variable {quotesReturn : Bool}

/-- The fields of a row. -/
theorem readFrom_writeFields (f : Text) (fs : List Text) {p : Parser} (hp : p.Fresh)
    (hfs : ∀ g ∈ f :: fs, quotesReturn = true ∨ '\r' ∉ g)
    (hne : p.state = .startField ∨ f ≠ [] ∨ fs ≠ []) (text : Text) :
    p.readFrom (writeFields quotesReturn f fs ++ text) =
      (read text).map ((p.fields ++ f :: fs) :: ·) := by
  induction fs generalizing f p with
  | nil =>
    obtain ⟨q, hclosed, hfield, hfields, hrecord, hread⟩ :=
      Parser.readFrom_writeField (hfs f List.mem_cons_self) hp
    have hstate : q.state ≠ .startRecord := by
      intro hq
      obtain ⟨hp', hnil⟩ := hrecord hq
      rcases hne with hne | hne | hne
      · rw [hp'] at hne
        cases hne
      · exact hne hnil
      · exact hne rfl
    rw [writeFields, List.append_assoc, List.singleton_append, hread _ (List.cons_ne_nil _ _),
      Parser.readFrom_newline (hclosed.step_newline hstate) rfl]
    simp [Parser.save, hfield, hfields]
  | cons f' fs ih =>
    obtain ⟨q, hclosed, hfield, hfields, -, hread⟩ :=
      Parser.readFrom_writeField (hfs f List.mem_cons_self) hp
    have hmore : writeFields quotesReturn f' fs ++ text ≠ [] := by
      cases fs <;> simp [writeFields]
    rw [writeFields, List.append_assoc, List.cons_append, hread _ (List.cons_ne_nil _ _),
      Parser.readFrom_cons hclosed.step_comma (by decide) hmore,
      ih f' ⟨.inr rfl, rfl⟩ (fun g hg ↦ hfs g (List.mem_cons_of_mem _ hg)) (.inl rfl)]
    simp [Parser.save, hfield, hfields]

/-- One row. -/
theorem read_writeRow (row : List Text) (hrow : ∀ f ∈ row, quotesReturn = true ∨ '\r' ∉ f)
    (text : Text) : read (writeRow quotesReturn row ++ text) = (read text).map (row :: ·) := by
  have hnew : Parser.new.Fresh := ⟨.inl rfl, rfl⟩
  match row with
  | [] =>
    have hstep : Parser.new.step '\n' = some ⟨.eatCrnl, [], []⟩ := rfl
    exact Parser.readFrom_newline hstep rfl
  | [[]] =>
    have hquoted : quote [] ++ ['\n'] ++ text = '"' :: '"' :: '\n' :: text := rfl
    rw [writeRow, hquoted, read, Parser.readFrom_cons rfl (by decide) (List.cons_ne_nil _ _),
      Parser.readFrom_cons rfl (by decide) (List.cons_ne_nil _ _),
      Parser.readFrom_newline rfl rfl]
    rfl
  | (c :: f) :: fs =>
    exact readFrom_writeFields _ _ hnew hrow (.inr (.inl (List.cons_ne_nil _ _))) text
  | [] :: f' :: fs =>
    exact readFrom_writeFields _ _ hnew hrow (.inr (.inr (List.cons_ne_nil _ _))) text

/-- What is written is read. -/
theorem read_write (rows : List (List Text))
    (hrows : ∀ row ∈ rows, ∀ f ∈ row, quotesReturn = true ∨ '\r' ∉ f) :
    read (write quotesReturn rows) = some rows := by
  induction rows with
  | nil => rfl
  | cons row rows ih =>
    rw [write, List.flatMap_cons, read_writeRow row (hrows row List.mem_cons_self)]
    rw [write] at ih
    rw [ih fun row' h ↦ hrows row' (List.mem_cons_of_mem _ h)]
    rfl

end SalesData.Base.Csv

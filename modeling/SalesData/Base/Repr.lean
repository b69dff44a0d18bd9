import SalesData.Base.Json

/-!
# Python's `repr`

How Python writes `None` (here `null`), booleans, integers, strings, lists of these, and a tuple of
them. A string is put in the quotes that it does not contain, if there are any. Which characters
beyond ASCII are printable is a table of the interpreter; a lone surrogate is no character here.

A tuple is read off the end of a text: from the last parenthesis backwards, brackets are counted
outside of strings, and a string ends at its quote unless a backslash stands in front of it.
-/

namespace SalesData.Base

/-- The values. -/
inductive Literal where
  | null
  | bool (b : Bool)
  | int (n : Int)
  | str (s : Text)
  | list (items : List Literal)

namespace Literal

section Strings

variable (isPrintable : Char → Bool)

/-- `\xXX`, `\uXXXX` or `\UXXXXXXXX`, whichever is the first to be long enough. -/
def hexEscape (n : Nat) : Text :=
  if n < 0x100 then ['\\', 'x', Json.hexDigit (n / 16), Json.hexDigit (n % 16)]
  else if n < 0x10000 then
    ['\\', 'u', Json.hexDigit (n / 4096), Json.hexDigit (n / 256 % 16),
      Json.hexDigit (n / 16 % 16), Json.hexDigit (n % 16)]
  else
    ['\\', 'U', Json.hexDigit (n / 65536 / 4096), Json.hexDigit (n / 65536 / 256 % 16),
      Json.hexDigit (n / 65536 / 16 % 16), Json.hexDigit (n / 65536 % 16),
      Json.hexDigit (n % 65536 / 4096), Json.hexDigit (n % 65536 / 256 % 16),
      Json.hexDigit (n % 65536 / 16 % 16), Json.hexDigit (n % 65536 % 16)]

/-- One character of a string in `quote`s. -/
def escape (quote c : Char) : Text :=
  if c = quote ∨ c = '\\' then ['\\', c]
  else if c = '\t' then ['\\', 't']
  else if c = '\n' then ['\\', 'n']
  else if c = '\r' then ['\\', 'r']
  else if c.toNat < 32 ∨ c.toNat = 127 then hexEscape c.toNat
  else if c.toNat < 127 ∨ isPrintable c = true then [c]
  else hexEscape c.toNat

/-- The quote that a string is put in. -/
def quoteOf (s : Text) : Char := if '\'' ∈ s ∧ '"' ∉ s then '"' else '\''

/-- `str.__repr__`. -/
def reprStr (s : Text) : Text :=
  quoteOf s :: (s.flatMap (escape isPrintable (quoteOf s)) ++ [quoteOf s])

mutual

/-- `repr`. -/
def repr : Literal → Text
  | null => "None".toList
  | bool b => if b then "True".toList else "False".toList
  | int n => Json.dumpsInt n
  | str s => reprStr isPrintable s
  | list items => '[' :: (reprItems items ++ [']'])

/-- The items of a list or a tuple. -/
def reprItems : List Literal → Text
  | [] => []
  | [item] => repr item
  | item :: items => repr item ++ ", ".toList ++ reprItems items

end

/-- `str` of a tuple. -/
def reprTuple : List Literal → Text
  | [item] => '(' :: (repr isPrintable item ++ ",)".toList)
  | items => '(' :: (reprItems isPrintable items ++ [')'])

end Strings

section Backward

/-- A quote of either kind. -/
def isQuote (c : Char) : Bool := c == '\'' || c == '"'

/-- The text in front of a tuple, both from the end: `depth` brackets and maybe a string are open
to the right. -/
def dropTuple : Nat → Option Char → Text → Text
  | _, _, [] => []
  | depth, some quote, c :: rest =>
    if c = quote ∧ rest.head? ≠ some '\\' then dropTuple depth none rest
    else dropTuple depth (some quote) rest
  | depth, none, c :: rest =>
    if isQuote c then dropTuple depth (some c) rest
    else if c = ')' ∨ c = ']' then dropTuple (depth + 1) none rest
    else if c = '(' ∨ c = '[' then if depth ≤ 1 then rest else dropTuple (depth - 1) none rest
    else dropTuple depth none rest

variable {isPrintable : Char → Bool}

private theorem not_isQuote_hexDigit : ∀ n < 16, isQuote (Json.hexDigit n) = false := by decide

private theorem not_isQuote_hexEscape {n : Nat} (h : n < 0x110000) :
    ∀ c ∈ hexEscape n, isQuote c = false := by
  have hdigit (m : Nat) (hm : m < 16) := not_isQuote_hexDigit m hm
  unfold hexEscape
  split
  · simp only [List.forall_mem_cons, List.not_mem_nil, false_imp_iff, implies_true, and_true]
    exact ⟨by decide, by decide, hdigit _ (by omega), hdigit _ (by omega)⟩
  · split
    · simp only [List.forall_mem_cons, List.not_mem_nil, false_imp_iff, implies_true, and_true]
      exact ⟨by decide, by decide, hdigit _ (by omega), hdigit _ (by omega), hdigit _ (by omega),
        hdigit _ (by omega)⟩
    · simp only [List.forall_mem_cons, List.not_mem_nil, false_imp_iff, implies_true, and_true]
      exact ⟨by decide, by decide, hdigit _ (by omega), hdigit _ (by omega), hdigit _ (by omega),
        hdigit _ (by omega), hdigit _ (by omega), hdigit _ (by omega), hdigit _ (by omega),
        hdigit _ (by omega)⟩

private theorem toNat_lt (c : Char) : c.toNat < 0x110000 := by
  have hvalid := c.valid
  rw [UInt32.isValidChar, Nat.isValidChar] at hvalid
  show c.val.toNat < _
  omega

/-- Within its string a character is escaped, or it is not the quote. -/
theorem escape_cases (isPrintable : Char → Bool) (quote c : Char) (hquote : isQuote quote = true) :
    escape isPrintable quote c = ['\\', quote] ∨
      ∀ d ∈ escape isPrintable quote c, d ≠ quote := by
  have hplain {text : Text} (h : ∀ d ∈ text, isQuote d = false) : ∀ d ∈ text, d ≠ quote := by
    rintro d hd rfl
    rw [h d hd] at hquote
    cases hquote
  unfold escape
  split
  · next h =>
    by_cases hc : c = quote
    · left
      rw [hc]
    · right
      obtain rfl := h.resolve_left hc
      exact hplain (by simp [isQuote])
  · next h =>
    rw [not_or] at h
    right
    split
    · exact hplain (by simp [isQuote])
    · split
      · exact hplain (by simp [isQuote])
      · split
        · exact hplain (by simp [isQuote])
        · split
          · exact hplain (not_isQuote_hexEscape (toNat_lt c))
          · split
            · simpa using h.1
            · exact hplain (not_isQuote_hexEscape (toNat_lt c))

private theorem dropTuple_inside {depth : Nat} {quote : Char} {text rest : Text}
    (h : ∀ d ∈ text, d ≠ quote) :
    dropTuple depth (some quote) (text ++ rest) = dropTuple depth (some quote) rest := by
  induction text with
  | nil => rfl
  | cons c text ih =>
    rw [List.cons_append, dropTuple, if_neg (fun hc ↦ h c List.mem_cons_self hc.1)]
    exact ih fun d hd ↦ h d (List.mem_cons_of_mem c hd)

private theorem dropTuple_escape {depth : Nat} {quote c : Char} {rest : Text}
    (hquote : isQuote quote = true) :
    dropTuple depth (some quote) ((escape isPrintable quote c).reverse ++ rest) =
      dropTuple depth (some quote) rest := by
  rcases escape_cases isPrintable quote c hquote with h | h
  · have hslash : '\\' ≠ quote := by
      rintro rfl
      cases hquote
    rw [h]
    show dropTuple depth (some quote) (quote :: '\\' :: rest) = _
    rw [dropTuple, if_neg (by simp), dropTuple, if_neg (fun hc ↦ hslash hc.1)]
  · exact dropTuple_inside fun d hd ↦ h d (List.mem_reverse.mp hd)

private theorem dropTuple_content {depth : Nat} {quote : Char} (s : Text) {rest : Text}
    (hquote : isQuote quote = true) :
    dropTuple depth (some quote) ((s.flatMap (escape isPrintable quote)).reverse ++ rest) =
      dropTuple depth (some quote) rest := by
  induction s generalizing rest with
  | nil => rfl
  | cons c s ih =>
    rw [List.flatMap_cons, List.reverse_append, List.append_assoc, ih, dropTuple_escape hquote]

/-- The quote that is chosen for a text is a quote. -/
theorem isQuote_quoteOf (s : Text) : isQuote (quoteOf s) = true := by
  unfold quoteOf
  split
  · rfl
  · rfl

/-- What stands in front of an item: no backslash. -/
def Opens (rest : Text) : Prop := rest.head? ≠ some '\\'

/-- A string is passed as a whole. -/
theorem dropTuple_reprStr {depth : Nat} {s rest : Text} (h : Opens rest) :
    dropTuple depth none ((reprStr isPrintable s).reverse ++ rest) = dropTuple depth none rest := by
  have hquote := isQuote_quoteOf s
  have htext : (reprStr isPrintable s).reverse ++ rest = quoteOf s ::
      ((s.flatMap (escape isPrintable (quoteOf s))).reverse ++ quoteOf s :: rest) := by
    simp [reprStr]
  rw [htext, dropTuple, if_pos hquote, dropTuple_content s hquote, dropTuple, if_pos ⟨rfl, h⟩]

/-- Neither a quote nor a bracket. -/
def isPlain (c : Char) : Bool :=
  !isQuote c && c != '(' && c != '[' && c != ')' && c != ']'

/-- Characters that mean nothing to the scan. -/
theorem dropTuple_plain {depth : Nat} {text rest : Text} (h : text.all isPlain = true) :
    dropTuple depth none (text ++ rest) = dropTuple depth none rest := by
  induction text with
  | nil => rfl
  | cons c text ih =>
    rw [List.all_cons, Bool.and_eq_true] at h
    have hc := h.1
    simp only [isPlain, Bool.and_eq_true, Bool.not_eq_true', bne_iff_ne] at hc
    obtain ⟨⟨⟨⟨hquote, hparen⟩, hbracket⟩, hparen'⟩, hbracket'⟩ := hc
    rw [List.cons_append, dropTuple, hquote, if_neg (by simp), if_neg (by tauto),
      if_neg (by tauto)]
    exact ih h.2

private theorem plain_of_isDigit {c : Char} (h : c.isDigit = true) : isPlain c = true := by
  have hne (d : Char) (hd : d.isDigit = false) : c ≠ d := by
    rintro rfl
    rw [hd] at h
    cases h
  simp [isPlain, isQuote, hne '\'' rfl, hne '"' rfl, hne '(' rfl, hne '[' rfl, hne ')' rfl,
    hne ']' rfl]

private theorem plain_dumpsInt (n : Int) : (Json.dumpsInt n).all isPlain = true := by
  have hdigits : (Nat.toDigits 10 n.natAbs).all isPlain = true := by
    rw [List.all_eq_true]
    intro c hc
    exact plain_of_isDigit (Nat.isDigit_of_mem_toDigits (by decide) (by decide) hc)
  unfold Json.dumpsInt
  split
  · rw [List.all_cons, hdigits]
    rfl
  · exact hdigits

mutual

/-- A value is passed as a whole. -/
theorem dropTuple_repr (v : Literal) {depth : Nat} {rest : Text} (hdepth : 0 < depth)
    (h : Opens rest) :
    dropTuple depth none ((repr isPrintable v).reverse ++ rest) = dropTuple depth none rest := by
  cases v with
  | null => exact dropTuple_plain rfl
  | bool b =>
    cases b with
    | false => exact dropTuple_plain rfl
    | true => exact dropTuple_plain rfl
  | int n =>
    rw [repr]
    apply dropTuple_plain
    rw [List.all_reverse]
    exact plain_dumpsInt n
  | str s =>
    rw [repr]
    exact dropTuple_reprStr h
  | list items =>
    have htext : (repr isPrintable (list items)).reverse ++ rest =
        ']' :: ((reprItems isPrintable items).reverse ++ '[' :: rest) := by
      simp [repr]
    rw [htext, dropTuple, if_neg (by decide), if_pos (by simp),
      dropTuple_reprItems items (by omega) (by simp [Opens]), dropTuple, if_neg (by decide),
      if_neg (by decide), if_pos (by simp), if_neg (by omega), Nat.add_sub_cancel]

/-- Items are passed one by one. -/
theorem dropTuple_reprItems (items : List Literal) {depth : Nat} {rest : Text} (hdepth : 0 < depth)
    (h : Opens rest) :
    dropTuple depth none ((reprItems isPrintable items).reverse ++ rest) =
      dropTuple depth none rest := by
  match items with
  | [] => rfl
  | [item] =>
    rw [reprItems]
    exact dropTuple_repr item hdepth h
  | item :: next :: items =>
    have htext : (reprItems isPrintable (item :: next :: items)).reverse ++ rest =
        (reprItems isPrintable (next :: items)).reverse ++
          (' ' :: ',' :: ((repr isPrintable item).reverse ++ rest)) := by
      simp [reprItems]
    rw [htext, dropTuple_reprItems (next :: items) hdepth (by simp [Opens])]
    have hblank : [' ', ','].all isPlain = true := rfl
    exact (dropTuple_plain hblank).trans (dropTuple_repr item hdepth h)

end

/-- A tuple is read off the end of any text. -/
theorem dropTuple_reprTuple (items : List Literal) (rest : Text) :
    dropTuple 0 none ((reprTuple isPrintable items).reverse ++ rest) = rest := by
  have hopen (text : Text) : dropTuple 1 none ('(' :: text) = text := by
    rw [dropTuple, if_neg (by decide), if_neg (by decide), if_pos (by simp), if_pos (by simp)]
  match items with
  | [] => rfl
  | [item] =>
    have htext : (reprTuple isPrintable [item]).reverse ++ rest =
        ')' :: ',' :: ((repr isPrintable item).reverse ++ '(' :: rest) := by
      simp [reprTuple]
    rw [htext, dropTuple, if_neg (by decide), if_pos (by simp), dropTuple, if_neg (by decide),
      if_neg (by decide), if_neg (by decide), dropTuple_repr item (by simp) (by simp [Opens]),
      hopen]
  | item :: next :: items =>
    have htext : (reprTuple isPrintable (item :: next :: items)).reverse ++ rest =
        ')' :: ((reprItems isPrintable (item :: next :: items)).reverse ++ '(' :: rest) := by
      simp [reprTuple]
    rw [htext, dropTuple, if_neg (by decide), if_pos (by simp),
      dropTuple_reprItems (item :: next :: items) (by simp) (by simp [Opens]), hopen]

/-- What stands in front of a tuple at the end of a text, and the tuple's own text. -/
theorem append_reprTuple_inj {a b : Text} {items items' : List Literal}
    (h : a ++ reprTuple isPrintable items = b ++ reprTuple isPrintable items') :
    a = b ∧ reprTuple isPrintable items = reprTuple isPrintable items' := by
  have hrev := congrArg List.reverse h
  rw [List.reverse_append, List.reverse_append] at hrev
  have hfront : a.reverse = b.reverse := by
    rw [← dropTuple_reprTuple items a.reverse, hrev, dropTuple_reprTuple]
  have hab : a = b := List.reverse_injective hfront
  subst hab
  exact ⟨rfl, List.append_cancel_left h⟩

end Backward

section Forward

variable {isPrintable : Char → Bool}

/-- The first character of a string that is written out, and what is behind it. -/
def readChar : Text → Option (Char × Text)
  | '\\' :: 'x' :: a :: b :: rest => (Json.unhex '0' '0' a b).map fun n ↦ (Char.ofNat n, rest)
  | '\\' :: 'u' :: a :: b :: c :: d :: rest =>
    (Json.unhex a b c d).map fun n ↦ (Char.ofNat n, rest)
  | '\\' :: 'U' :: a :: b :: c :: d :: e :: f :: g :: h :: rest =>
    (Json.unhex a b c d).bind fun high ↦
      (Json.unhex e f g h).map fun low ↦ (Char.ofNat (high * 65536 + low), rest)
  | '\\' :: 't' :: rest => some ('\t', rest)
  | '\\' :: 'n' :: rest => some ('\n', rest)
  | '\\' :: 'r' :: rest => some ('\r', rest)
  | '\\' :: c :: rest => some (c, rest)
  | c :: rest => some (c, rest)
  | [] => none

private theorem readChar_hexEscape (c : Char) (rest : Text) :
    readChar (hexEscape c.toNat ++ rest) = some (c, rest) := by
  have hlt := toNat_lt c
  unfold hexEscape
  split
  · next h =>
    have hunhex := Json.unhex_hexDigits (show c.toNat < 0x10000 by omega)
    rw [show c.toNat / 4096 = 0 by omega, show c.toNat / 256 % 16 = 0 by omega,
      show c.toNat / 16 % 16 = c.toNat / 16 by omega] at hunhex
    have hzero : Json.hexDigit 0 = '0' := rfl
    rw [hzero] at hunhex
    simp [readChar, hunhex, Char.ofNat_toNat]
  · split
    · next h =>
      simp [readChar, Json.unhex_hexDigits h, Char.ofNat_toNat]
    · have hhigh := Json.unhex_hexDigits (show c.toNat / 65536 < 0x10000 by omega)
      have hlow := Json.unhex_hexDigits (show c.toNat % 65536 < 0x10000 by omega)
      have hsum : c.toNat / 65536 * 65536 + c.toNat % 65536 = c.toNat := by omega
      show (Json.unhex _ _ _ _).bind (fun high ↦ (Json.unhex _ _ _ _).map fun low ↦
        (Char.ofNat (high * 65536 + low), rest)) = _
      rw [hhigh, hlow, Option.bind_some, Option.map_some, hsum, Char.ofNat_toNat]

private theorem readChar_plain {c : Char} (h : c ≠ '\\') (rest : Text) :
    readChar (c :: rest) = some (c, rest) := by
  unfold readChar
  split
  all_goals simp_all

private theorem readChar_escaped {c : Char}
    (h : c ≠ 'x' ∧ c ≠ 'u' ∧ c ≠ 'U' ∧ c ≠ 't' ∧ c ≠ 'n' ∧ c ≠ 'r') (rest : Text) :
    readChar ('\\' :: c :: rest) = some (c, rest) := by
  obtain ⟨hx, hu, hU, ht, hn, hr⟩ := h
  unfold readChar
  split
  case h_8 c' rest' _ _ _ _ _ _ hother heq =>
    obtain ⟨rfl, rfl⟩ := List.cons.inj heq
    exact absurd rfl (hother c rest rfl)
  all_goals simp_all

/-- A character is read as it is written. -/
theorem readChar_escape (isPrintable : Char → Bool) {quote : Char} (hquote : isQuote quote = true)
    (c : Char) (rest : Text) :
    readChar (escape isPrintable quote c ++ rest) = some (c, rest) := by
  unfold escape
  split
  · next h =>
    have hletter : c ≠ 'x' ∧ c ≠ 'u' ∧ c ≠ 'U' ∧ c ≠ 't' ∧ c ≠ 'n' ∧ c ≠ 'r' := by
      rcases h with rfl | rfl
      · refine ⟨?_, ?_, ?_, ?_, ?_, ?_⟩
        all_goals
          rintro rfl
          cases hquote
      · decide
    exact readChar_escaped hletter rest
  · next h =>
    rw [not_or] at h
    split
    · next hc =>
      rw [hc]
      rfl
    · split
      · next hc =>
        rw [hc]
        rfl
      · split
        · next hc =>
          rw [hc]
          rfl
        · split
          · exact readChar_hexEscape c rest
          · split
            · exact readChar_plain h.2 rest
            · exact readChar_hexEscape c rest

private theorem content_inj {quote : Char} (hquote : isQuote quote = true) (s s' : Text)
    {r r' : Text} (h : s.flatMap (escape isPrintable quote) ++ quote :: r =
      s'.flatMap (escape isPrintable quote) ++ quote :: r') : s = s' ∧ r = r' := by
  have hslash : quote ≠ '\\' := by
    rintro rfl
    cases hquote
  have hends (c : Char) (rest rest' : Text) :
      quote :: rest ≠ escape isPrintable quote c ++ rest' := by
    intro heq
    have hread := readChar_escape isPrintable hquote c rest'
    rw [← heq, readChar_plain hslash] at hread
    obtain rfl : quote = c := (Prod.mk.inj (Option.some.inj hread)).1
    have hescape : escape isPrintable quote quote = ['\\', quote] := if_pos (.inl rfl)
    rw [hescape] at heq
    exact hslash (List.cons.inj heq).1
  induction s generalizing s' with
  | nil =>
    cases s' with
    | nil => exact ⟨rfl, (List.cons.inj h).2⟩
    | cons c s' =>
      rw [List.flatMap_cons, List.append_assoc] at h
      exact absurd h (hends c _ _)
  | cons c s ih =>
    rw [List.flatMap_cons, List.append_assoc] at h
    cases s' with
    | nil => exact absurd h.symm (hends c _ _)
    | cons c' s' =>
      rw [List.flatMap_cons, List.append_assoc] at h
      have hread := congrArg readChar h
      rw [readChar_escape isPrintable hquote, readChar_escape isPrintable hquote] at hread
      obtain ⟨rfl, hrest⟩ := Prod.mk.inj (Option.some.inj hread)
      obtain ⟨rfl, hr⟩ := ih s' hrest
      exact ⟨rfl, hr⟩

/-- A string is read off the front of a text. -/
theorem reprStr_append_inj {s s' r r' : Text}
    (h : reprStr isPrintable s ++ r = reprStr isPrintable s' ++ r') : s = s' ∧ r = r' := by
  simp only [reprStr, List.cons_append, List.append_assoc, List.nil_append] at h
  obtain ⟨hquote, hcontent⟩ := List.cons.inj h
  rw [← hquote] at hcontent
  exact content_inj (isQuote_quoteOf s) s s' hcontent

/-- An integer at the front of a text, and what is behind it. -/
def readInt : Text → Int × Text
  | '-' :: text =>
    (-(Nat.ofDigitChars 10 (text.takeWhile Char.isDigit) 0 : Nat), text.dropWhile Char.isDigit)
  | text =>
    ((Nat.ofDigitChars 10 (text.takeWhile Char.isDigit) 0 : Nat), text.dropWhile Char.isDigit)

/-- An integer is read as it is written. -/
theorem readInt_dumpsInt (n : Int) {rest : Text} (h : ∀ c ∈ rest.head?, c.isDigit = false) :
    readInt (Json.dumpsInt n ++ rest) = (n, rest) := by
  have hdigits : ∀ c ∈ Nat.toDigits 10 n.natAbs, c.isDigit = true := fun c hc ↦
    Nat.isDigit_of_mem_toDigits (by decide) (by decide) hc
  obtain ⟨htake, hdrop⟩ := Json.scan_digits hdigits h
  unfold Json.dumpsInt
  split
  · next hneg =>
    rw [List.cons_append, readInt, htake, hdrop, Nat.ofDigitChars_ten_toDigits]
    congr 1
    omega
  · next hnonneg =>
    have hsign : ∀ text, Nat.toDigits 10 n.natAbs ++ rest ≠ '-' :: text := by
      intro text heq
      cases hd : Nat.toDigits 10 n.natAbs with
      | nil => exact Nat.toDigits_ne_nil hd
      | cons c ds =>
        rw [hd] at heq hdigits
        have hc := hdigits c List.mem_cons_self
        rw [(List.cons.inj heq).1] at hc
        cases hc
    rw [readInt, htake, hdrop, Nat.ofDigitChars_ten_toDigits]
    · congr 1
      omega
    · exact hsign

/-- A value ends in front of this text. -/
def Stops (rest : Text) : Prop := ∀ c ∈ rest.head?, c = ',' ∨ c = ']' ∨ c = ')'

-- The kinds of values, by the first character of their texts.
private def kind (c : Char) : Nat :=
  if c = 'N' then 0 else if c = 'T' then 1 else if c = 'F' then 2
  else if c = '[' then 3 else if isQuote c then 4 else if c.isDigit ∨ c = '-' then 5 else 6

private def kindOf : Literal → Nat
  | null => 0
  | bool b => if b then 1 else 2
  | int _ => 5
  | str _ => 4
  | list _ => 3

private theorem kind_of_isDigit {c : Char} (h : c.isDigit = true) : kind c = 5 := by
  have hne (d : Char) (hd : d.isDigit = false) : c ≠ d := by
    rintro rfl
    rw [hd] at h
    cases h
  simp [kind, isQuote, h, hne '\'' rfl, hne '"' rfl, hne 'N' rfl, hne 'T' rfl, hne 'F' rfl,
    hne '[' rfl]

private theorem kind_repr (isPrintable : Char → Bool) (v : Literal) :
    ∃ c text, repr isPrintable v = c :: text ∧ kind c = kindOf v := by
  cases v with
  | null => exact ⟨'N', _, rfl, rfl⟩
  | bool b =>
    cases b with
    | false => exact ⟨'F', _, rfl, rfl⟩
    | true => exact ⟨'T', _, rfl, rfl⟩
  | int n =>
    rw [repr]
    unfold Json.dumpsInt
    split
    · exact ⟨'-', _, rfl, rfl⟩
    · cases hd : Nat.toDigits 10 n.natAbs with
      | nil => exact absurd hd Nat.toDigits_ne_nil
      | cons c ds =>
        refine ⟨c, ds, rfl, kind_of_isDigit ?_⟩
        have hmem : c ∈ Nat.toDigits 10 n.natAbs := by
          rw [hd]
          exact List.mem_cons_self
        exact Nat.isDigit_of_mem_toDigits (by decide) (by decide) hmem
  | str s =>
    refine ⟨quoteOf s, _, rfl, ?_⟩
    unfold quoteOf
    split
    · rfl
    · rfl
  | list items => exact ⟨'[', _, rfl, rfl⟩

private theorem stops_close {close : Char} (hclose : close = ']' ∨ close = ')') (rest : Text) :
    Stops (close :: rest) := by
  intro c hc
  rw [← Option.some.inj hc]
  exact .inr hclose

private theorem stops_comma (rest : Text) : Stops (", ".toList ++ rest) := by
  intro c hc
  exact .inl (Option.some.inj hc).symm

private theorem stops_single : Stops ",)".toList := fun _ hc ↦ .inl (Option.some.inj hc).symm

private theorem not_isDigit_of_stops {rest : Text} (h : Stops rest) :
    ∀ c ∈ rest.head?, c.isDigit = false := by
  intro c hc
  rcases h c hc with rfl | rfl | rfl
  · rfl
  · rfl
  · rfl

private theorem reprItems_cons (v w : Literal) (items : List Literal) :
    reprItems isPrintable (v :: w :: items) =
      repr isPrintable v ++ ", ".toList ++ reprItems isPrintable (w :: items) := rfl

private theorem kind_close {close : Char} (hclose : close = ']' ∨ close = ')') (v : Literal)
    (rest rest' : Text) : close :: rest ≠ repr isPrintable v ++ rest' := by
  intro heq
  obtain ⟨c, text, htext, hkind⟩ := kind_repr isPrintable v
  rw [htext, List.cons_append] at heq
  rw [← (List.cons.inj heq).1] at hkind
  have hlt : kindOf v < 6 := by
    cases v with
    | null => decide
    | bool b => cases b <;> decide
    | int | str | list => simp [kindOf]
  rcases hclose with rfl | rfl
  · exact absurd hkind (Nat.ne_of_gt hlt)
  · exact absurd hkind (Nat.ne_of_gt hlt)

mutual

/-- A value is read off the front of a text. -/
theorem repr_append_inj (v w : Literal) {r r' : Text} (hr : Stops r) (hr' : Stops r')
    (h : repr isPrintable v ++ r = repr isPrintable w ++ r') : v = w ∧ r = r' := by
  have hkind : kindOf v = kindOf w := by
    obtain ⟨c, text, htext, hv⟩ := kind_repr isPrintable v
    obtain ⟨c', text', htext', hw⟩ := kind_repr isPrintable w
    rw [htext, htext'] at h
    rw [← hv, ← hw, (List.cons.inj h).1]
  cases v with
  | null =>
    cases w with
    | null => exact ⟨rfl, List.append_cancel_left h⟩
    | bool b => cases b <;> cases hkind
    | int | str | list => cases hkind
  | bool b =>
    cases w with
    | bool b' =>
      obtain rfl : b = b' := by
        cases b <;> cases b' <;> first | rfl | cases hkind
      exact ⟨rfl, List.append_cancel_left h⟩
    | null | int | str | list => cases b <;> cases hkind
  | int n =>
    cases w with
    | int n' =>
      have hread := congrArg readInt h
      rw [repr, repr, readInt_dumpsInt n (not_isDigit_of_stops hr),
        readInt_dumpsInt n' (not_isDigit_of_stops hr')] at hread
      obtain ⟨rfl, rfl⟩ := Prod.mk.inj hread
      exact ⟨rfl, rfl⟩
    | bool b => cases b <;> cases hkind
    | null | str | list => cases hkind
  | str s =>
    cases w with
    | str s' =>
      rw [repr, repr] at h
      obtain ⟨rfl, rfl⟩ := reprStr_append_inj h
      exact ⟨rfl, rfl⟩
    | bool b => cases b <;> cases hkind
    | null | int | list => cases hkind
  | list items =>
    cases w with
    | list items' =>
      simp only [repr, List.cons_append, List.append_assoc, List.nil_append] at h
      obtain ⟨rfl, rfl⟩ := reprItems_append_inj items items' (.inl rfl) (List.cons.inj h).2
      exact ⟨rfl, rfl⟩
    | bool b => cases b <;> cases hkind
    | null | int | str => cases hkind

/-- Items are read up to the bracket that closes them. -/
theorem reprItems_append_inj (vs ws : List Literal) {close : Char} {r r' : Text}
    (hclose : close = ']' ∨ close = ')')
    (h : reprItems isPrintable vs ++ close :: r = reprItems isPrintable ws ++ close :: r') :
    vs = ws ∧ r = r' := by
  have hcomma : close ≠ ',' := by
    rcases hclose with rfl | rfl
    · decide
    · decide
  match vs, ws with
  | [], [] => exact ⟨rfl, (List.cons.inj h).2⟩
  | [], [w] => exact absurd h (kind_close hclose w _ _)
  | [], w :: w' :: ws =>
    rw [reprItems_cons, List.append_assoc, List.append_assoc] at h
    exact absurd h (kind_close hclose w _ _)
  | [v], [] => exact absurd h.symm (kind_close hclose v _ _)
  | v :: v' :: vs, [] =>
    rw [reprItems_cons, List.append_assoc, List.append_assoc] at h
    exact absurd h.symm (kind_close hclose v _ _)
  | [v], [w] =>
    obtain ⟨rfl, hr⟩ := repr_append_inj v w (stops_close hclose r) (stops_close hclose r') h
    exact ⟨rfl, (List.cons.inj hr).2⟩
  | [v], w :: w' :: ws =>
    rw [reprItems_cons, List.append_assoc, List.append_assoc] at h
    have hr := (repr_append_inj v w (stops_close hclose r) (stops_comma _) h).2
    exact absurd (List.cons.inj hr).1 hcomma
  | v :: v' :: vs, [w] =>
    rw [reprItems_cons, List.append_assoc, List.append_assoc] at h
    have hr := (repr_append_inj v w (stops_comma _) (stops_close hclose r') h).2
    exact absurd (List.cons.inj hr).1.symm hcomma
  | v :: v' :: vs, w :: w' :: ws =>
    rw [reprItems_cons, reprItems_cons, List.append_assoc, List.append_assoc, List.append_assoc,
      List.append_assoc] at h
    obtain ⟨rfl, hr⟩ := repr_append_inj v w (stops_comma _) (stops_comma _) h
    obtain ⟨hitems, hrest⟩ :=
      reprItems_append_inj (v' :: vs) (w' :: ws) hclose (List.append_cancel_left hr)
    exact ⟨by rw [hitems], hrest⟩

end

/-- A tuple is known by its text. -/
theorem reprTuple_inj {vs ws : List Literal}
    (h : reprTuple isPrintable vs = reprTuple isPrintable ws) : vs = ws := by
  match vs, ws with
  | [], [] => rfl
  | [], [w] => exact absurd (List.cons.inj h).2 (kind_close (.inr rfl) w [] _)
  | [v], [] => exact absurd (List.cons.inj h).2.symm (kind_close (.inr rfl) v [] _)
  | [], w :: w' :: ws =>
    have htail := (List.cons.inj h).2
    rw [reprItems_cons, List.append_assoc, List.append_assoc] at htail
    exact absurd htail (kind_close (.inr rfl) w [] _)
  | v :: v' :: vs, [] =>
    have htail := (List.cons.inj h).2
    rw [reprItems_cons, List.append_assoc, List.append_assoc] at htail
    exact absurd htail.symm (kind_close (.inr rfl) v [] _)
  | [v], [w] =>
    rw [(repr_append_inj v w stops_single stops_single (List.cons.inj h).2).1]
  | [v], w :: w' :: ws =>
    have htail := (List.cons.inj h).2
    rw [reprItems_cons, List.append_assoc, List.append_assoc] at htail
    have hrest := (repr_append_inj v w stops_single (stops_comma _) htail).2
    cases (List.cons.inj (List.cons.inj hrest).2).1
  | v :: v' :: vs, [w] =>
    have htail := (List.cons.inj h).2
    rw [reprItems_cons, List.append_assoc, List.append_assoc] at htail
    have hrest := (repr_append_inj v w (stops_comma _) stops_single htail).2
    cases (List.cons.inj (List.cons.inj hrest).2).1
  | v :: v' :: vs, w :: w' :: ws =>
    exact (reprItems_append_inj (v :: v' :: vs) (w :: w' :: ws) (.inr rfl) (List.cons.inj h).2).1

/-- A text with a tuple at its end is known by the text in front and the tuple. -/
theorem eq_of_append_reprTuple {a b : Text} {vs ws : List Literal}
    (h : a ++ reprTuple isPrintable vs = b ++ reprTuple isPrintable ws) : a = b ∧ vs = ws := by
  obtain ⟨hab, htuple⟩ := append_reprTuple_inj h
  exact ⟨hab, reprTuple_inj htuple⟩

end Forward

end Literal
end SalesData.Base

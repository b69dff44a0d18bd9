import Mathlib.Data.List.TakeWhile
import SalesData.Base.Dict
import SalesData.Base.Text

/-!
# JSON texts

Python's `json.dumps` and `json.loads` with their defaults: only ASCII in the text, a blank behind
every comma and colon, and the names `NaN` and `Infinity` for the floats that have no numeral.
Floats are opaque: `Floats` says how they are written and read. A text with a lone surrogate is
refused, since a character is a Unicode scalar value here.
-/

namespace SalesData.Base

/-- What `json.loads` makes: an object is a `dict` with text keys, in order. -/
inductive Json (F : Type) where
  | null
  | bool (b : Bool)
  | int (n : Int)
  | float (f : F)
  | str (s : Text)
  | list (items : List (Json F))
  | dict (items : List (Text × Json F))

namespace Json

section Strings

/-- A hexadecimal digit, in lower case. -/
def hexDigit (n : Nat) : Char := "0123456789abcdef".toList.getD n '0'

/-- `\uXXXX`. -/
def unicodeEscape (n : Nat) : Text :=
  ['\\', 'u', hexDigit (n / 4096), hexDigit (n / 256 % 16), hexDigit (n / 16 % 16),
    hexDigit (n % 16)]

/-- The escapes with a letter of their own, with what they stand for. -/
def shortEscapes : List (Char × Char) :=
  [('"', '"'), ('\\', '\\'), ('n', '\n'), ('r', '\r'), ('t', '\t'), ('f', '\x0c'), ('b', '\x08')]

/-- How a character is written: beyond the Basic Multilingual Plane as two surrogates. -/
def escapeChar (c : Char) : Text :=
  match shortEscapes.find? (·.2 == c) with
  | some (letter, _) => ['\\', letter]
  | none =>
    if 32 ≤ c.toNat ∧ c.toNat < 127 then [c]
    else if c.toNat < 0x10000 then unicodeEscape c.toNat
    else
      unicodeEscape (0xD800 + (c.toNat - 0x10000) / 1024) ++
        unicodeEscape (0xDC00 + (c.toNat - 0x10000) % 1024)

/-- A text in quotes. -/
def dumpsStr (s : Text) : Text := '"' :: (s.flatMap escapeChar ++ ['"'])

/-- The value of a hexadecimal digit, in either case. -/
def unhexDigit (c : Char) : Option Nat :=
  if '0' ≤ c ∧ c ≤ '9' then some (c.toNat - 48)
  else if 'a' ≤ c ∧ c ≤ 'f' then some (c.toNat - 87)
  else if 'A' ≤ c ∧ c ≤ 'F' then some (c.toNat - 55)
  else none

/-- The value of four hexadecimal digits. -/
def unhex (a b c d : Char) : Option Nat :=
  match unhexDigit a, unhexDigit b, unhexDigit c, unhexDigit d with
  | some a, some b, some c, some d => some (a * 4096 + b * 256 + c * 16 + d)
  | _, _, _, _ => none

/-- What an escape with a letter stands for. -/
def unescape (c : Char) : Option Char :=
  if c = '/' then some '/' else (shortEscapes.find? (·.1 == c)).map Prod.snd

/-- The text up to the closing quote, and what stands behind it. -/
def scanStr : Text → Option (Text × Text)
  | [] => none
  | '"' :: rest => some ([], rest)
  | '\\' :: 'u' :: a :: b :: c :: d :: rest =>
    match unhex a b c d with
    | none => none
    | some n =>
      if 0xD800 ≤ n ∧ n < 0xDC00 then
        match rest with
        | '\\' :: 'u' :: e :: f :: g :: h :: rest =>
          match unhex e f g h with
          | none => none
          | some m =>
            if 0xDC00 ≤ m ∧ m < 0xE000 then
              (scanStr rest).map fun (s, rest) ↦
                (Char.ofNat (0x10000 + (n - 0xD800) * 1024 + (m - 0xDC00)) :: s, rest)
            else none
        | _ => none
      else if 0xDC00 ≤ n ∧ n < 0xE000 then none
      else (scanStr rest).map fun (s, rest) ↦ (Char.ofNat n :: s, rest)
  | '\\' :: c :: rest =>
    match unescape c with
    | none => none
    | some c => (scanStr rest).map fun (s, rest) ↦ (c :: s, rest)
  | c :: rest =>
    if c.toNat < 32 then none else (scanStr rest).map fun (s, rest) ↦ (c :: s, rest)

/-- Digits are read as they are written. -/
theorem unhexDigit_hexDigit : ∀ n < 16, unhexDigit (hexDigit n) = some n := by decide

/-- Four digits are read as they are written. -/
theorem unhex_hexDigits {n : Nat} (h : n < 0x10000) :
    unhex (hexDigit (n / 4096)) (hexDigit (n / 256 % 16)) (hexDigit (n / 16 % 16))
      (hexDigit (n % 16)) = some n := by
  unfold unhex
  rw [unhexDigit_hexDigit _ (by omega), unhexDigit_hexDigit _ (by omega),
    unhexDigit_hexDigit _ (by omega), unhexDigit_hexDigit _ (by omega)]
  simp only [Option.some.injEq]
  omega

/-- An escape of a character that is no surrogate. -/
theorem scanStr_unicodeEscape {c : Char} (h : c.toNat < 0x10000) (rest : Text) :
    scanStr (unicodeEscape c.toNat ++ rest) =
      (scanStr rest).map fun (s, rest) ↦ (c :: s, rest) := by
  have hvalid : c.toNat < 0xD800 ∨ 0xDFFF < c.toNat ∧ c.toNat < 0x110000 := c.valid
  unfold unicodeEscape
  simp only [List.cons_append, List.nil_append]
  rw [scanStr]
  simp only [unhex_hexDigits h]
  rw [if_neg (by omega), if_neg (by omega), Char.ofNat_toNat]

/-- A surrogate pair. -/
theorem scanStr_surrogates {c : Char} (h : 0x10000 ≤ c.toNat) (rest : Text) :
    scanStr (unicodeEscape (0xD800 + (c.toNat - 0x10000) / 1024) ++
        (unicodeEscape (0xDC00 + (c.toNat - 0x10000) % 1024) ++ rest)) =
      (scanStr rest).map fun (s, rest) ↦ (c :: s, rest) := by
  have hvalid : c.toNat < 0xD800 ∨ 0xDFFF < c.toNat ∧ c.toNat < 0x110000 := c.valid
  obtain ⟨high, hhigh⟩ : ∃ high, high = 0xD800 + (c.toNat - 0x10000) / 1024 := ⟨_, rfl⟩
  obtain ⟨low, hlow⟩ : ∃ low, low = 0xDC00 + (c.toNat - 0x10000) % 1024 := ⟨_, rfl⟩
  have hsum : 0x10000 + (high - 0xD800) * 1024 + (low - 0xDC00) = c.toNat := by omega
  rw [← hhigh, ← hlow]
  unfold unicodeEscape
  simp only [List.cons_append, List.nil_append]
  rw [scanStr]
  simp only [unhex_hexDigits (show high < 0x10000 by omega),
    unhex_hexDigits (show low < 0x10000 by omega)]
  rw [if_pos (by omega), if_pos (by omega), hsum, Char.ofNat_toNat]

/-- A character is read as it is written. -/
theorem scanStr_escapeChar (c : Char) (rest : Text) :
    scanStr (escapeChar c ++ rest) = (scanStr rest).map fun (s, rest) ↦ (c :: s, rest) := by
  unfold escapeChar
  cases hshort : shortEscapes.find? (·.2 == c) with
  | some pair =>
    obtain ⟨letter, c'⟩ := pair
    have hmem := List.mem_of_find?_eq_some hshort
    have heq := List.find?_some hshort
    simp only [beq_iff_eq] at heq
    subst heq
    simp only [shortEscapes, List.mem_cons, Prod.mk.injEq, List.not_mem_nil, or_false] at hmem
    rcases hmem with ⟨rfl, rfl⟩ | ⟨rfl, rfl⟩ | ⟨rfl, rfl⟩ | ⟨rfl, rfl⟩ | ⟨rfl, rfl⟩ | ⟨rfl, rfl⟩ |
      ⟨rfl, rfl⟩ <;> simp [scanStr, unescape, shortEscapes]
  | none =>
    have hnone := List.find?_eq_none.mp hshort
    dsimp only
    split
    · next hplain =>
      have hquote : c ≠ '"' := by
        rintro rfl
        exact hnone ('"', '"') (by decide) rfl
      have hslash : c ≠ '\\' := by
        rintro rfl
        exact hnone ('\\', '\\') (by decide) rfl
      rw [List.singleton_append, scanStr]
      · rw [if_neg (by omega)]
      · exact hquote
      · exact fun _ _ _ _ _ h ↦ absurd h hslash
      · exact fun _ _ h ↦ absurd h hslash
    · split
      · next hsmall => exact scanStr_unicodeEscape hsmall rest
      · next hlarge =>
        rw [List.append_assoc]
        exact scanStr_surrogates (by omega) rest

/-- A text in quotes is read as it is written. -/
theorem scanStr_dumpsStr (s rest : Text) :
    scanStr (s.flatMap escapeChar ++ '"' :: rest) = some (s, rest) := by
  induction s with
  | nil => rw [List.flatMap_nil, List.nil_append, scanStr]
  | cons c s ih =>
    rw [List.flatMap_cons, List.append_assoc, scanStr_escapeChar, ih]
    rfl

end Strings

section Numbers

/-- Some digits. -/
def AllDigits (ds : Text) : Prop := ds ≠ [] ∧ ∀ c ∈ ds, c.isDigit = true

/-- A numeral of a float: an integer part without leading zeros, then a fraction or an exponent. -/
def IsNumeral (t : Text) : Prop :=
  ∃ sign ds frac exp, t = sign ++ (ds ++ (frac ++ exp)) ∧ (sign = [] ∨ sign = ['-']) ∧
    (ds = ['0'] ∨ AllDigits ds ∧ ds.head? ≠ some '0') ∧
    (frac = [] ∨ ∃ ds', frac = '.' :: ds' ∧ AllDigits ds') ∧
    (exp = [] ∨ ∃ s ds', exp = 'e' :: s :: ds' ∧ (s = '+' ∨ s = '-') ∧ AllDigits ds') ∧
    (frac ≠ [] ∨ exp ≠ [])

end Numbers

end Json

/-- Floats as `json` writes and reads them. -/
structure Floats (F : Type) where
  repr : F → Text
  parse : Text → F
  parse_repr : ∀ f, parse (repr f) = f
  isNumeral : ∀ f, Json.IsNumeral (repr f) ∨
    repr f ∈ ["NaN".toList, "Infinity".toList, "-Infinity".toList]

namespace Json

section Numbers

variable {F : Type} (floats : Floats F)

/-- `int.__repr__`. -/
def dumpsInt (n : Int) : Text :=
  if n < 0 then '-' :: Nat.toDigits 10 n.natAbs else Nat.toDigits 10 n.natAbs

/-- The integer part of a numeral. -/
def scanInt : Text → Option (Text × Text)
  | '0' :: rest => some (['0'], rest)
  | text =>
    if text.takeWhile Char.isDigit = [] then none
    else some (text.takeWhile Char.isDigit, text.dropWhile Char.isDigit)

/-- The fraction of a numeral, or nothing. -/
def scanFrac : Text → Text × Text
  | '.' :: rest =>
    if rest.takeWhile Char.isDigit = [] then ([], '.' :: rest)
    else ('.' :: rest.takeWhile Char.isDigit, rest.dropWhile Char.isDigit)
  | text => ([], text)

/-- An optional sign. -/
def scanSign : Text → Text × Text
  | '+' :: rest => (['+'], rest)
  | '-' :: rest => (['-'], rest)
  | text => ([], text)

/-- The exponent of a numeral, or nothing. -/
def scanExp : Text → Text × Text
  | e :: rest =>
    let (sign, digits) := scanSign rest
    if (e = 'e' ∨ e = 'E') ∧ digits.takeWhile Char.isDigit ≠ [] then
      (e :: (sign ++ digits.takeWhile Char.isDigit), digits.dropWhile Char.isDigit)
    else ([], e :: rest)
  | [] => ([], [])

/-- A number: an integer, if it has neither a fraction nor an exponent. -/
def scanNumber (text : Text) : Option (Json F × Text) :=
  let (sign, text) := match text with
    | '-' :: rest => (['-'], rest)
    | text => ([], text)
  (scanInt text).map fun (ds, text) ↦
    let (frac, text) := scanFrac text
    let (exp, text) := scanExp text
    if frac = [] ∧ exp = [] then
      let n : Int := Nat.ofDigitChars 10 ds 0
      (.int (if sign = [] then n else -n), text)
    else (.float (floats.parse (sign ++ (ds ++ (frac ++ exp)))), text)

/-- A number ends in front of this text. -/
def Ends (rest : Text) : Prop :=
  ∀ c ∈ rest.head?, c.isDigit = false ∧ c ≠ '.' ∧ c ≠ 'e' ∧ c ≠ 'E'

/-- Digits end where the text behind them begins. -/
theorem scan_digits {ds rest : Text} (hds : ∀ c ∈ ds, c.isDigit = true)
    (hrest : ∀ c ∈ rest.head?, c.isDigit = false) :
    (ds ++ rest).takeWhile Char.isDigit = ds ∧ (ds ++ rest).dropWhile Char.isDigit = rest := by
  induction ds with
  | nil =>
    cases rest with
    | nil => exact ⟨rfl, rfl⟩
    | cons c rest => simp [hrest c rfl]
  | cons c ds ih =>
    obtain ⟨htake, hdrop⟩ := ih fun d hd ↦ hds d (List.mem_cons_of_mem c hd)
    simp [hds c (List.mem_cons_self ..), htake, hdrop]

/-- The integer part is read as it is written. -/
theorem scanInt_append {ds rest : Text} (hds : ds = ['0'] ∨ AllDigits ds ∧ ds.head? ≠ some '0')
    (hrest : ∀ c ∈ rest.head?, c.isDigit = false) : scanInt (ds ++ rest) = some (ds, rest) := by
  rcases hds with rfl | ⟨⟨hne, hall⟩, hhead⟩
  · rfl
  · obtain ⟨htake, hdrop⟩ := scan_digits hall hrest
    rw [scanInt, htake, hdrop, if_neg hne]
    intro rest' heq
    cases ds with
    | nil => exact hne rfl
    | cons c ds =>
      obtain ⟨rfl, -⟩ := List.cons.inj heq
      exact hhead rfl

/-- The fraction is read as it is written. -/
theorem scanFrac_append {frac rest : Text}
    (hfrac : frac = [] ∨ ∃ ds, frac = '.' :: ds ∧ AllDigits ds)
    (hrest : ∀ c ∈ rest.head?, c.isDigit = false ∧ c ≠ '.') :
    scanFrac (frac ++ rest) = (frac, rest) := by
  rcases hfrac with rfl | ⟨ds, rfl, hne, hall⟩
  · cases rest with
    | nil => rfl
    | cons c rest =>
      rw [List.nil_append, scanFrac]
      intro rest' heq
      obtain ⟨rfl, -⟩ := List.cons.inj heq
      exact (hrest _ rfl).2 rfl
  · obtain ⟨htake, hdrop⟩ := scan_digits hall fun c hc ↦ (hrest c hc).1
    rw [List.cons_append, scanFrac, htake, hdrop, if_neg hne]

/-- The exponent is read as it is written. -/
theorem scanExp_append {exp rest : Text}
    (hexp : exp = [] ∨ ∃ s ds, exp = 'e' :: s :: ds ∧ (s = '+' ∨ s = '-') ∧ AllDigits ds)
    (hrest : Ends rest) : scanExp (exp ++ rest) = (exp, rest) := by
  rcases hexp with rfl | ⟨s, ds, rfl, hs, hne, hall⟩
  · cases rest with
    | nil => rfl
    | cons c rest =>
      obtain ⟨-, -, he, hE⟩ := hrest c rfl
      simp [scanExp, he, hE]
  · obtain ⟨htake, hdrop⟩ := scan_digits hall fun c hc ↦ (hrest c hc).1
    rcases hs with rfl | rfl
    · simp [scanExp, scanSign, htake, hdrop, hne]
    · simp [scanExp, scanSign, htake, hdrop, hne]

/-- The decimal digits of a number have no leading zero. -/
theorem toDigits_canonical (n : Nat) : Nat.toDigits 10 n = ['0'] ∨
    AllDigits (Nat.toDigits 10 n) ∧ (Nat.toDigits 10 n).head? ≠ some '0' := by
  by_cases hzero : n = 0
  · rw [hzero]
    exact .inl rfl
  · refine .inr ⟨⟨Nat.toDigits_ne_nil, fun c hc ↦ ?_⟩, ?_⟩
    · exact Nat.isDigit_of_mem_toDigits (by decide) (by decide) hc
    · induction n using Nat.strongRecOn with
      | ind n ih =>
        rw [Nat.toDigits_eq_if (by decide)]
        split
        · have hdigit : ∀ m < 10, m ≠ 0 → m.digitChar ≠ '0' := by decide
          simpa using hdigit n (by omega) hzero
        · have hhead := ih (n / 10) (by omega) (by omega)
          rw [List.head?_append]
          cases hfirst : (Nat.toDigits 10 (n / 10)).head? with
          | none => exact absurd (List.head?_eq_none_iff.mp hfirst) Nat.toDigits_ne_nil
          | some c =>
            rw [hfirst] at hhead
            exact hhead

/-- A number of these parts, read off a text. -/
theorem scanNumber_parts {sign ds frac exp rest : Text} (hsign : sign = [] ∨ sign = ['-'])
    (hds : ds = ['0'] ∨ AllDigits ds ∧ ds.head? ≠ some '0')
    (hfrac : frac = [] ∨ ∃ ds', frac = '.' :: ds' ∧ AllDigits ds')
    (hexp : exp = [] ∨ ∃ s ds', exp = 'e' :: s :: ds' ∧ (s = '+' ∨ s = '-') ∧ AllDigits ds')
    (hrest : Ends rest) :
    scanNumber floats (sign ++ (ds ++ (frac ++ (exp ++ rest)))) = some
      (if frac = [] ∧ exp = [] then
        .int (if sign = [] then (Nat.ofDigitChars 10 ds 0 : Int) else -Nat.ofDigitChars 10 ds 0)
      else .float (floats.parse (sign ++ (ds ++ (frac ++ exp)))), rest) := by
  -- Neither what follows the exponent nor what follows the fraction goes on with a digit.
  have hafter : ∀ c ∈ (exp ++ rest).head?, c.isDigit = false ∧ c ≠ '.' := by
    intro c hc
    rcases hexp with rfl | ⟨s, ds', rfl, -⟩
    · exact ⟨(hrest c hc).1, (hrest c hc).2.1⟩
    · obtain rfl := Option.some.inj hc
      exact ⟨rfl, by decide⟩
  have hdigits : ∀ c ∈ (frac ++ (exp ++ rest)).head?, c.isDigit = false := by
    intro c hc
    rcases hfrac with rfl | ⟨ds', rfl, -⟩
    · exact (hafter c hc).1
    · obtain rfl := Option.some.inj hc
      rfl
  have hscan : (scanInt (ds ++ (frac ++ (exp ++ rest)))).map (fun (ds, text) ↦
      let (frac, text) := scanFrac text
      let (exp, text) := scanExp text
      if frac = [] ∧ exp = [] then
        let n : Int := Nat.ofDigitChars 10 ds 0
        ((.int (if sign = [] then n else -n) : Json F), text)
      else (.float (floats.parse (sign ++ (ds ++ (frac ++ exp)))), text)) = some
        (if frac = [] ∧ exp = [] then
          .int (if sign = [] then (Nat.ofDigitChars 10 ds 0 : Int) else -Nat.ofDigitChars 10 ds 0)
        else .float (floats.parse (sign ++ (ds ++ (frac ++ exp)))), rest) := by
    rw [scanInt_append hds hdigits, Option.map_some]
    simp only [scanFrac_append hfrac hafter, scanExp_append hexp hrest]
    split
    · rfl
    · rfl
  rw [← hscan]
  rcases hsign with rfl | rfl
  · have hhead : ∀ rest', ds ++ (frac ++ (exp ++ rest)) ≠ '-' :: rest' := by
      intro rest' heq
      rcases hds with rfl | ⟨⟨hne, hall⟩, -⟩
      · cases heq
      · cases ds with
        | nil => exact hne rfl
        | cons c ds =>
          obtain ⟨rfl, -⟩ := List.cons.inj heq
          have hdigit := hall _ (List.mem_cons_self ..)
          cases hdigit
    rw [List.nil_append, scanNumber]
    exact hhead
  · rfl

/-- An integer is read as it is written. -/
theorem scanNumber_dumpsInt (n : Int) {rest : Text} (hrest : Ends rest) :
    scanNumber floats (dumpsInt n ++ rest) = some (.int n, rest) := by
  have hread (sign : Text) (hsign : sign = [] ∨ sign = ['-']) :=
    scanNumber_parts floats hsign (toDigits_canonical n.natAbs) (.inl rfl : ([] : Text) = [] ∨ _)
      (.inl rfl : ([] : Text) = [] ∨ _) hrest
  unfold dumpsInt
  split
  · next hneg =>
    rw [List.cons_append]
    refine (hread ['-'] (.inr rfl)).trans ?_
    simp only [and_self, if_true, Nat.ofDigitChars_ten_toDigits]
    rw [if_neg (by simp)]
    congr 3
    omega
  · next hnonneg =>
    refine (hread [] (.inl rfl)).trans ?_
    simp only [and_self, if_true, Nat.ofDigitChars_ten_toDigits]
    congr 3
    omega

/-- A numeral of a float is read as it is written. -/
theorem scanNumber_numeral {t rest : Text} (ht : IsNumeral t) (hrest : Ends rest) :
    scanNumber floats (t ++ rest) = some (.float (floats.parse t), rest) := by
  obtain ⟨sign, ds, frac, exp, rfl, hsign, hds, hfrac, hexp, hne⟩ := ht
  rw [List.append_assoc, List.append_assoc, List.append_assoc,
    scanNumber_parts floats hsign hds hfrac hexp hrest, if_neg]
  rintro ⟨rfl, rfl⟩
  rcases hne with hne | hne
  · exact hne rfl
  · exact hne rfl

end Numbers

section Values

variable {F : Type} (floats : Floats F)

mutual

/-- `json.dumps`. -/
def dumps : Json F → Text
  | .null => ['n', 'u', 'l', 'l']
  | .bool true => ['t', 'r', 'u', 'e']
  | .bool false => ['f', 'a', 'l', 's', 'e']
  | .int n => dumpsInt n
  | .float f => floats.repr f
  | .str s => dumpsStr s
  | .list [] => ['[', ']']
  | .list (v :: vs) => '[' :: (dumps v ++ dumpsItems vs)
  | .dict [] => ['{', '}']
  | .dict ((k, v) :: ps) => '{' :: (dumpsStr k ++ ':' :: ' ' :: (dumps v ++ dumpsPairs ps))

/-- The items of a list behind the first one. -/
def dumpsItems : List (Json F) → Text
  | [] => [']']
  | v :: vs => ',' :: ' ' :: (dumps v ++ dumpsItems vs)

/-- The items of a dictionary behind the first one. -/
def dumpsPairs : List (Text × Json F) → Text
  | [] => ['}']
  | (k, v) :: ps => ',' :: ' ' :: (dumpsStr k ++ ':' :: ' ' :: (dumps v ++ dumpsPairs ps))

end

mutual

/-- No dictionary has a key twice. -/
def Distinct : Json F → Prop
  | .list vs => DistinctItems vs
  | .dict ps => (ps.map Prod.fst).Nodup ∧ DistinctPairs ps
  | _ => True

/-- No dictionary in a list has a key twice. -/
def DistinctItems : List (Json F) → Prop
  | [] => True
  | v :: vs => Distinct v ∧ DistinctItems vs

/-- No dictionary under one of the keys has a key twice. -/
def DistinctPairs : List (Text × Json F) → Prop
  | [] => True
  | (_, v) :: ps => Distinct v ∧ DistinctPairs ps

end

/-- White space. -/
def isBlank (c : Char) : Bool := c == ' ' || c == '\t' || c == '\n' || c == '\r'

/-- The text behind white space. -/
def skip (text : Text) : Text := text.dropWhile isBlank

/-- The values with a name. -/
def words : List (Text × Json F) :=
  [(['n', 'u', 'l', 'l'], .null), (['t', 'r', 'u', 'e'], .bool true),
    (['f', 'a', 'l', 's', 'e'], .bool false),
    ("NaN".toList, .float (floats.parse "NaN".toList)),
    ("Infinity".toList, .float (floats.parse "Infinity".toList)),
    ("-Infinity".toList, .float (floats.parse "-Infinity".toList))]

/-- A value with a name. -/
def scanWord (text : Text) : Option (Json F × Text) :=
  (words floats).findSome? fun (word, v) ↦ (word.isPrefixOf? text).map (v, ·)

/-- The items of a `dict` of these items. -/
def merge (ps : List (Text × Json F)) : List (Text × Json F) := (Dict.ofEntries ps).entries

mutual

/-- The value read back: a dictionary has each key once. -/
def collapse : Json F → Json F
  | .list vs => .list (collapseItems vs)
  | .dict ps => .dict (merge (collapsePairs ps))
  | .null => .null
  | .bool b => .bool b
  | .int n => .int n
  | .float f => .float f
  | .str s => .str s

/-- The items of a list read back. -/
def collapseItems : List (Json F) → List (Json F)
  | [] => []
  | v :: vs => collapse v :: collapseItems vs

/-- The items of a dictionary read back. -/
def collapsePairs : List (Text × Json F) → List (Text × Json F)
  | [] => []
  | (k, v) :: ps => (k, collapse v) :: collapsePairs ps

end

mutual

/-- A value at the front of a text. -/
def scanValue : Nat → Text → Option (Json F × Text)
  | 0, _ => none
  | n + 1, text =>
    match text with
    | '"' :: rest => (scanStr rest).map fun (s, rest) ↦ (.str s, rest)
    | '[' :: rest =>
      match skip rest with
      | ']' :: rest => some (.list [], rest)
      | rest =>
        (scanValue n rest).bind fun (v, rest) ↦
          (scanItems n rest).map fun (vs, rest) ↦ (.list (v :: vs), rest)
    | '{' :: rest =>
      match skip rest with
      | '}' :: rest => some (.dict [], rest)
      | rest =>
        (scanPair n rest).bind fun (p, rest) ↦
          (scanPairs n rest).map fun (ps, rest) ↦ (.dict (merge (p :: ps)), rest)
    | text => (scanNumber floats text).or (scanWord floats text)

/-- The items of a list behind the first one. -/
def scanItems : Nat → Text → Option (List (Json F) × Text)
  | 0, _ => none
  | n + 1, text =>
    match skip text with
    | ']' :: rest => some ([], rest)
    | ',' :: rest =>
      (scanValue n (skip rest)).bind fun (v, rest) ↦
        (scanItems n rest).map fun (vs, rest) ↦ (v :: vs, rest)
    | _ => none

/-- A key with its value. -/
def scanPair : Nat → Text → Option ((Text × Json F) × Text)
  | 0, _ => none
  | n + 1, text =>
    match text with
    | '"' :: rest =>
      (scanStr rest).bind fun (k, rest) ↦
        match skip rest with
        | ':' :: rest => (scanValue n (skip rest)).map fun (v, rest) ↦ ((k, v), rest)
        | _ => none
    | _ => none

/-- The items of a dictionary behind the first one. -/
def scanPairs : Nat → Text → Option (List (Text × Json F) × Text)
  | 0, _ => none
  | n + 1, text =>
    match skip text with
    | '}' :: rest => some ([], rest)
    | ',' :: rest =>
      (scanPair n (skip rest)).bind fun (p, rest) ↦
        (scanPairs n rest).map fun (ps, rest) ↦ (p :: ps, rest)
    | _ => none

end

/-- `json.loads`; `none` is a `JSONDecodeError`. Every step of the scan takes a character, so that
the length of the text is steps enough. -/
def loads (text : Text) : Option (Json F) :=
  match scanValue floats (text.length + 1) (skip text) with
  | some (v, rest) => if skip rest = [] then some v else none
  | none => none

/-- What a value begins with: no white space, and no end of a list or dictionary. -/
def Begins (t : Text) : Prop := ∃ c rest, t = c :: rest ∧ skip t = t ∧ c ≠ ']' ∧ c ≠ '}'

private theorem begins_cons {c : Char} {rest : Text} (hblank : isBlank c = false) (hlist : c ≠ ']')
    (hdict : c ≠ '}') : Begins (c :: rest) :=
  ⟨c, rest, rfl, by simp [skip, hblank], hlist, hdict⟩

private theorem begins_digits {ds rest : Text}
    (hds : ds = ['0'] ∨ AllDigits ds ∧ ds.head? ≠ some '0') : Begins (ds ++ rest) := by
  rcases hds with rfl | ⟨⟨hne, hall⟩, -⟩
  · exact begins_cons rfl (by decide) (by decide)
  · cases ds with
    | nil => exact absurd rfl hne
    | cons c ds =>
      have hdigit := hall c (List.mem_cons_self ..)
      apply begins_cons
      · unfold isBlank
        simp only [Bool.or_eq_false_iff, beq_eq_false_iff_ne, ne_eq]
        refine ⟨⟨⟨?_, ?_⟩, ?_⟩, ?_⟩ <;> rintro rfl <;> cases hdigit
      · rintro rfl
        cases hdigit
      · rintro rfl
        cases hdigit

/-- A value begins as one. -/
theorem begins_dumps (v : Json F) (rest : Text) : Begins (dumps floats v ++ rest) := by
  have hminus (rest : Text) : Begins ('-' :: rest) := begins_cons rfl (by decide) (by decide)
  cases v with
  | null =>
    rw [dumps]
    exact begins_cons rfl (by decide) (by decide)
  | bool b =>
    cases b with
    | true =>
      rw [dumps]
      exact begins_cons rfl (by decide) (by decide)
    | false =>
      rw [dumps]
      exact begins_cons rfl (by decide) (by decide)
  | int n =>
    rw [dumps, dumpsInt]
    split
    · exact hminus _
    · exact begins_digits (toDigits_canonical _)
  | float f =>
    rw [dumps]
    rcases floats.isNumeral f with ⟨sign, ds, frac, exp, heq, hsign, hds, -⟩ | hword
    · rw [heq]
      rcases hsign with rfl | rfl
      · rw [List.nil_append, List.append_assoc]
        exact begins_digits hds
      · exact hminus _
    · simp only [List.mem_cons, List.not_mem_nil, or_false] at hword
      rcases hword with heq | heq | heq
      · rw [heq]
        exact begins_cons rfl (by decide) (by decide)
      · rw [heq]
        exact begins_cons rfl (by decide) (by decide)
      · rw [heq]
        exact hminus _
  | str s =>
    rw [dumps]
    exact begins_cons rfl (by decide) (by decide)
  | list vs =>
    cases vs with
    | nil =>
      rw [dumps]
      exact begins_cons rfl (by decide) (by decide)
    | cons =>
      rw [dumps]
      exact begins_cons rfl (by decide) (by decide)
  | dict ps =>
    cases ps with
    | nil =>
      rw [dumps]
      exact begins_cons rfl (by decide) (by decide)
    | cons =>
      rw [dumps]
      exact begins_cons rfl (by decide) (by decide)

/-- A value has a text. -/
theorem length_dumps_pos (v : Json F) : 0 < (dumps floats v).length := by
  obtain ⟨c, rest, heq, -⟩ := begins_dumps floats v []
  rw [List.append_nil] at heq
  rw [heq]
  exact Nat.succ_pos _

/-- The items of a list end a number. -/
theorem ends_dumpsItems (vs : List (Json F)) (rest : Text) :
    Ends (dumpsItems floats vs ++ rest) := by
  intro c hc
  cases vs with
  | nil =>
    rw [dumpsItems] at hc
    obtain rfl := Option.some.inj hc
    decide
  | cons v vs =>
    rw [dumpsItems] at hc
    obtain rfl := Option.some.inj hc
    decide

/-- The items of a dictionary end a number. -/
theorem ends_dumpsPairs (ps : List (Text × Json F)) (rest : Text) :
    Ends (dumpsPairs floats ps ++ rest) := by
  intro c hc
  cases ps with
  | nil =>
    rw [dumpsPairs] at hc
    obtain rfl := Option.some.inj hc
    decide
  | cons p ps =>
    rw [dumpsPairs] at hc
    obtain rfl := Option.some.inj hc
    decide

/-- Reading back keeps the keys of a dictionary. -/
theorem map_fst_collapsePairs (ps : List (Text × Json F)) :
    (collapsePairs ps).map Prod.fst = ps.map Prod.fst := by
  induction ps with
  | nil => rfl
  | cons p ps ih =>
    rw [collapsePairs, List.map_cons, List.map_cons, ih]

mutual

/-- A value without repeated keys is read back as it was. -/
theorem collapse_of_distinct : ∀ v : Json F, Distinct v → collapse v = v
  | .list vs, h => by
    rw [collapse, collapseItems_of_distinct vs h]
  | .dict ps, ⟨hkeys, h⟩ => by
    rw [collapse, collapsePairs_of_distinct ps h, merge,
      Dict.entries_ofEntries hkeys]
  | .null, _ | .bool _, _ | .int _, _ | .float _, _ | .str _, _ => by rw [collapse]

/-- Items without repeated keys are read back as they were. -/
theorem collapseItems_of_distinct : ∀ vs : List (Json F), DistinctItems vs → collapseItems vs = vs
  | [], _ => rfl
  | v :: vs, ⟨hv, hvs⟩ => by
    rw [collapseItems, collapse_of_distinct v hv, collapseItems_of_distinct vs hvs]

/-- Values under keys without repeated keys are read back as they were. -/
theorem collapsePairs_of_distinct :
    ∀ ps : List (Text × Json F), DistinctPairs ps → collapsePairs ps = ps
  | [], _ => rfl
  | (k, v) :: ps, ⟨hv, hps⟩ => by
    rw [collapsePairs, collapse_of_distinct v hv, collapsePairs_of_distinct ps hps]

end

/-- A number is a value. -/
theorem scanValue_of_number {text : Text} {r : Json F × Text} (n : Nat)
    (h : scanNumber floats text = some r) : scanValue floats (n + 1) text = some r := by
  unfold scanValue
  split
  · cases h
  · cases h
  · cases h
  · rw [h]
    rfl

/-- A value with a name is read as it is written. -/
theorem scanValue_word {word : Text} {v : Json F} (h : (word, v) ∈ words floats) (n : Nat)
    (rest : Text) : scanValue floats (n + 1) (word ++ rest) = some (v, rest) := by
  simp only [words, List.mem_cons, Prod.mk.injEq, List.not_mem_nil, or_false] at h
  rcases h with ⟨rfl, rfl⟩ | ⟨rfl, rfl⟩ | ⟨rfl, rfl⟩ | ⟨rfl, rfl⟩ | ⟨rfl, rfl⟩ | ⟨rfl, rfl⟩
  · rfl
  · rfl
  · rfl
  · rfl
  · rfl
  · rfl

/-- White space in front of a value is skipped. -/
theorem Begins.skip_blank {t : Text} (h : Begins t) : skip (' ' :: t) = t := by
  obtain ⟨c, rest, -, hskip, -⟩ := h
  exact hskip

/-- A list that is not empty. -/
theorem scanValue_list {t : Text} (h : Begins t) (n : Nat) :
    scanValue floats (n + 1) ('[' :: t) = (scanValue floats n t).bind fun (v, rest) ↦
      (scanItems floats n rest).map fun (vs, rest) ↦ (.list (v :: vs), rest) := by
  obtain ⟨c, rest, rfl, hskip, hlist, -⟩ := h
  rw [scanValue]
  simp only [hskip]
  split
  · next heq => exact absurd (List.cons.inj heq).1 hlist
  · rfl

/-- One more item of a list. -/
theorem scanItems_cons {t : Text} (h : Begins t) (n : Nat) :
    scanItems floats (n + 1) (',' :: ' ' :: t) = (scanValue floats n t).bind fun (v, rest) ↦
      (scanItems floats n rest).map fun (vs, rest) ↦ (v :: vs, rest) := by
  rw [scanItems]
  have hcomma : skip (',' :: ' ' :: t) = ',' :: ' ' :: t := rfl
  simp only [hcomma, h.skip_blank]

/-- A key with its value. -/
theorem scanPair_dumpsStr {t : Text} (h : Begins t) (n : Nat) (k : Text) :
    scanPair floats (n + 1) (dumpsStr k ++ ':' :: ' ' :: t) =
      (scanValue floats n t).map fun (v, rest) ↦ ((k, v), rest) := by
  have hkey := scanStr_dumpsStr k (':' :: ' ' :: t)
  have hcolon : skip (':' :: ' ' :: t) = ':' :: ' ' :: t := rfl
  rw [dumpsStr, List.cons_append, List.append_assoc, List.singleton_append, scanPair]
  simp only [hkey, Option.bind_some, hcolon, h.skip_blank]

/-- A dictionary that is not empty. -/
theorem scanValue_dict (n : Nat) (k t : Text) :
    scanValue floats (n + 1) ('{' :: (dumpsStr k ++ t)) =
      (scanPair floats n (dumpsStr k ++ t)).bind fun (p, rest) ↦
        (scanPairs floats n rest).map fun (ps, rest) ↦ (.dict (merge (p :: ps)), rest) := by
  rw [scanValue]
  have hquote : skip (dumpsStr k ++ t) = dumpsStr k ++ t := rfl
  simp only [hquote]
  rfl

/-- One more item of a dictionary. -/
theorem scanPairs_cons (n : Nat) (k t : Text) :
    scanPairs floats (n + 1) (',' :: ' ' :: (dumpsStr k ++ t)) =
      (scanPair floats n (dumpsStr k ++ t)).bind fun (p, rest) ↦
        (scanPairs floats n rest).map fun (ps, rest) ↦ (p :: ps, rest) := by
  rw [scanPairs]
  rfl

mutual

/-- A value is read back as it was written, its dictionaries collapsed. -/
theorem scanValue_dumps : ∀ (v : Json F) (n : Nat) (rest : Text), (dumps floats v).length ≤ n →
    Ends rest → scanValue floats n (dumps floats v ++ rest) = some (collapse v, rest)
  | v, 0, _, hlen, _ => by
    have hpos := length_dumps_pos floats v
    omega
  | .null, n + 1, rest, _, _ => by
    rw [dumps, collapse]
    exact scanValue_word floats (by simp [words]) n rest
  | .bool true, n + 1, rest, _, _ => by
    rw [dumps, collapse]
    exact scanValue_word floats (by simp [words]) n rest
  | .bool false, n + 1, rest, _, _ => by
    rw [dumps, collapse]
    exact scanValue_word floats (by simp [words]) n rest
  | .int i, n + 1, rest, _, hrest => by
    rw [dumps, collapse]
    exact scanValue_of_number floats n (scanNumber_dumpsInt floats i hrest)
  | .float f, n + 1, rest, _, hrest => by
    rw [dumps, collapse]
    rcases floats.isNumeral f with hnumeral | hword
    · rw [scanValue_of_number floats n (scanNumber_numeral floats hnumeral hrest),
        floats.parse_repr]
    · have hmem : (floats.repr f, Json.float f) ∈ words floats := by
        have hf : Json.float f = .float (floats.parse (floats.repr f)) := by rw [floats.parse_repr]
        rw [hf]
        simp only [List.mem_cons, List.not_mem_nil, or_false] at hword
        rcases hword with heq | heq | heq
        · rw [heq]
          simp [words]
        · rw [heq]
          simp [words]
        · rw [heq]
          simp [words]
      exact scanValue_word floats hmem n rest
  | .str s, n + 1, rest, _, _ => by
    rw [dumps, collapse, dumpsStr, List.cons_append, List.append_assoc, List.singleton_append,
      scanValue, scanStr_dumpsStr, Option.map_some]
  | .list [], n + 1, rest, _, _ => by
    rw [dumps, collapse, collapseItems]
    rfl
  | .list (v :: vs), n + 1, rest, hlen, _ => by
    rw [dumps, List.length_cons, List.length_append] at hlen
    have hpos := length_dumps_pos floats v
    have hv := scanValue_dumps v n _ (by omega) (ends_dumpsItems floats vs rest)
    have hvs := scanItems_dumpsItems vs n rest (by omega)
    rw [dumps, List.cons_append, List.append_assoc, scanValue_list floats (begins_dumps floats v _),
      hv, Option.bind_some]
    dsimp only
    rw [hvs, Option.map_some, collapse, collapseItems]
  | .dict [], n + 1, rest, _, _ => by
    rw [dumps, collapse, collapsePairs]
    rfl
  | .dict ((k, v) :: ps), n + 1, rest, hlen, _ => by
    simp only [dumps, List.length_cons, List.length_append] at hlen
    obtain ⟨m, rfl⟩ : ∃ m, n = m + 1 := ⟨n - 1, by omega⟩
    have hv := scanValue_dumps v m _ (by omega) (ends_dumpsPairs floats ps rest)
    have hps := scanPairs_dumpsPairs ps (m + 1) rest (by omega)
    rw [dumps, List.cons_append, List.append_assoc, scanValue_dict, List.cons_append,
      List.cons_append, List.append_assoc, scanPair_dumpsStr floats (begins_dumps floats v _),
      hv, Option.map_some, Option.bind_some]
    dsimp only
    rw [hps, Option.map_some, collapse, collapsePairs]

/-- The items of a list are read back as they were written. -/
theorem scanItems_dumpsItems : ∀ (vs : List (Json F)) (n : Nat) (rest : Text),
    (dumpsItems floats vs).length ≤ n →
    scanItems floats n (dumpsItems floats vs ++ rest) = some (collapseItems vs, rest)
  | [], 0, _, hlen => by
    rw [dumpsItems] at hlen
    cases hlen
  | [], n + 1, rest, _ => by
    rw [dumpsItems, collapseItems]
    rfl
  | v :: vs, n, rest, hlen => by
    simp only [dumpsItems, List.length_cons, List.length_append] at hlen
    obtain ⟨m, rfl⟩ : ∃ m, n = m + 1 := ⟨n - 1, by omega⟩
    have hv := scanValue_dumps v m _ (by omega) (ends_dumpsItems floats vs rest)
    have hvs := scanItems_dumpsItems vs m rest (by omega)
    rw [dumpsItems, List.cons_append, List.cons_append, List.append_assoc,
      scanItems_cons floats (begins_dumps floats v _), hv, Option.bind_some]
    dsimp only
    rw [hvs, Option.map_some, collapseItems]

/-- The items of a dictionary are read back as they were written. -/
theorem scanPairs_dumpsPairs : ∀ (ps : List (Text × Json F)) (n : Nat) (rest : Text),
    (dumpsPairs floats ps).length ≤ n →
    scanPairs floats n (dumpsPairs floats ps ++ rest) = some (collapsePairs ps, rest)
  | [], 0, _, hlen => by
    rw [dumpsPairs] at hlen
    cases hlen
  | [], n + 1, rest, _ => by
    rw [dumpsPairs, collapsePairs]
    rfl
  | (k, v) :: ps, n, rest, hlen => by
    simp only [dumpsPairs, List.length_cons, List.length_append] at hlen
    obtain ⟨m, rfl⟩ : ∃ m, n = m + 2 := ⟨n - 2, by omega⟩
    have hv := scanValue_dumps v m _ (by omega) (ends_dumpsPairs floats ps rest)
    have hps := scanPairs_dumpsPairs ps (m + 1) rest (by omega)
    rw [dumpsPairs, List.cons_append, List.cons_append, List.append_assoc, scanPairs_cons,
      List.cons_append, List.cons_append, List.append_assoc,
      scanPair_dumpsStr floats (begins_dumps floats v _), hv, Option.map_some, Option.bind_some]
    dsimp only
    rw [hps, Option.map_some, collapsePairs]

end

/-- What has been written is read back. -/
theorem loads_dumps (v : Json F) : loads floats (dumps floats v) = some (collapse v) := by
  obtain ⟨c, rest, -, hskip, -⟩ := begins_dumps floats v []
  rw [List.append_nil] at hskip
  have hscan := scanValue_dumps floats v ((dumps floats v).length + 1) [] (Nat.le_succ _)
    fun c hc ↦ by cases hc
  rw [List.append_nil] at hscan
  rw [loads, hskip, hscan]
  rfl

end Values

end Json
end SalesData.Base

import Mathlib.Data.List.Basic
import Mathlib.Data.List.TakeWhile

/-!
# Text

Python's `str` as a list of code points, with the character classes that its string
methods and its regular expressions test. Beyond ASCII the tables belong to the
interpreter: `Unicode` holds the ones that the program reaches, with the laws that every
version of them keeps.
-/

namespace SalesData.Base

/-- Python's `str`. -/
abbrev Text := List Char

/-- Texts that compare equal are equal. -/
instance : LawfulBEq Text := inferInstanceAs (LawfulBEq (List Char))

namespace Text

/-- `str.isspace` for one character; `\s` in a regular expression. -/
def isSpace (c : Char) : Bool :=
  (9 ≤ c.toNat && c.toNat ≤ 13) || (28 ≤ c.toNat && c.toNat ≤ 32) || c.toNat == 0x85 ||
  c.toNat == 0xA0 || c.toNat == 0x1680 || (0x2000 ≤ c.toNat && c.toNat ≤ 0x200A) ||
  c.toNat == 0x2028 || c.toNat == 0x2029 || c.toNat == 0x202F || c.toNat == 0x205F ||
  c.toNat == 0x3000

/-- `str.strip()`. -/
def strip (s : Text) : Text :=
  ((s.dropWhile isSpace).reverse.dropWhile isSpace).reverse

/-- Only whitespace is stripped to nothing. -/
theorem isSpace_of_strip {s : Text} (h : strip s = []) : ∀ c ∈ s, isSpace c = true := by
  rw [strip, List.reverse_eq_nil_iff, List.dropWhile_eq_nil_iff] at h
  intro c hc
  rw [← List.takeWhile_append_dropWhile (p := isSpace) (l := s), List.mem_append] at hc
  rcases hc with hc | hc
  · exact List.mem_takeWhile_imp hc
  · exact h c (List.mem_reverse.mpr hc)

/-- `re.IGNORECASE` compares the lower-case forms of letters. Besides the ASCII letters,
four letters are equal to an ASCII one: long s, the Kelvin sign and the two Turkish i. -/
def fold (c : Char) : Char :=
  if c.toNat = 0x17F then 's' else if c.toNat = 0x212A then 'k'
  else if c.toNat = 0x130 ∨ c.toNat = 0x131 then 'i' else c.toLower

end Text

/-- The interpreter's character tables. -/
structure Unicode where
  /-- `str.isalnum` or the underscore; `\w` in a regular expression. -/
  isWord : Char → Bool
  /-- `str.isdecimal`; `\d` in a regular expression. -/
  isDecimal : Char → Bool
  /-- `str.lower`, which depends on the context of a letter. -/
  lower : Text → Text
  isWord_ascii : ∀ c : Char, c.toNat < 128 → isWord c = (c.isAlphanum || c == '_')
  isDecimal_ascii : ∀ c : Char, c.toNat < 128 → isDecimal c = c.isDigit
  isWord_of_fold : ∀ c : Char, (Text.fold c).isLower = true → isWord c = true
  isWord_of_isDecimal : ∀ c : Char, isDecimal c = true → isWord c = true
  not_isWord_of_isSpace : ∀ c : Char, Text.isSpace c = true → isWord c = false
  lower_ascii : ∀ s : Text, (∀ c ∈ s, c.toNat < 128) → lower s = s.map Char.toLower

namespace Unicode

private theorem isUpper_iff {c : Char} : c.isUpper = true ↔ 65 ≤ c.toNat ∧ c.toNat ≤ 90 := by
  have hdef : c.isUpper = decide ('A'.val ≤ c.val ∧ c.val ≤ 'Z'.val) := rfl
  rw [hdef, decide_eq_true_eq, UInt32.le_iff_toNat_le, UInt32.le_iff_toNat_le]
  exact Iff.rfl

private theorem isLower_iff {c : Char} : c.isLower = true ↔ 97 ≤ c.toNat ∧ c.toNat ≤ 122 := by
  have hdef : c.isLower = (decide ('a'.val ≤ c.val) && decide (c.val ≤ 'z'.val)) := rfl
  rw [hdef, Bool.and_eq_true, decide_eq_true_eq, decide_eq_true_eq, UInt32.le_iff_toNat_le,
    UInt32.le_iff_toNat_le]
  exact Iff.rfl

private theorem isDigit_iff {c : Char} : c.isDigit = true ↔ 48 ≤ c.toNat ∧ c.toNat ≤ 57 := by
  have hdef : c.isDigit = (decide ('0'.val ≤ c.val) && decide (c.val ≤ '9'.val)) := rfl
  rw [hdef, Bool.and_eq_true, decide_eq_true_eq, decide_eq_true_eq, UInt32.le_iff_toNat_le,
    UInt32.le_iff_toNat_le]
  exact Iff.rfl

private theorem toLower_of_not_isUpper {c : Char} (h : c.isUpper = false) : c.toLower = c := by
  have hdef : c.isUpper = decide ('A'.val ≤ c.val ∧ c.val ≤ 'Z'.val) := rfl
  rw [hdef, decide_eq_false_iff_not] at h
  exact dif_neg h

private theorem isAlphanum_eq (c : Char) :
    c.isAlphanum = (c.isUpper || c.isLower || c.isDigit) := rfl

/-- The letters outside ASCII that are equal to an ASCII letter when case is ignored. -/
def foldsToAscii (c : Char) : Bool :=
  c.toNat == 0x17F || c.toNat == 0x212A || c.toNat == 0x130 || c.toNat == 0x131

private theorem isAlphanum_of_fold {c : Char} (h : (Text.fold c).isLower = true)
    (hc : foldsToAscii c = false) : c.isAlphanum = true := by
  simp only [foldsToAscii, Bool.or_eq_false_iff, beq_eq_false_iff_ne] at hc
  obtain ⟨⟨⟨h1, h2⟩, h3⟩, h4⟩ := hc
  rw [Text.fold, if_neg h1, if_neg h2, if_neg (by tauto)] at h
  cases hu : c.isUpper with
  | true => simp [isAlphanum_eq, hu]
  | false =>
    rw [toLower_of_not_isUpper hu] at h
    simp [isAlphanum_eq, h]

private theorem not_isAlphanum_of_isSpace {c : Char} (h : Text.isSpace c = true) :
    c.isAlphanum = false ∧ c ≠ '_' ∧ foldsToAscii c = false := by
  simp only [Text.isSpace, Bool.or_eq_true, Bool.and_eq_true, decide_eq_true_eq,
    beq_iff_eq] at h
  refine ⟨?_, ?_, ?_⟩
  · rw [Bool.eq_false_iff, ne_eq, isAlphanum_eq, Bool.or_eq_true, Bool.or_eq_true, isUpper_iff,
      isLower_iff, isDigit_iff]
    omega
  · rintro rfl
    revert h
    decide
  · simp only [foldsToAscii, Bool.or_eq_false_iff, beq_eq_false_iff_ne]
    omega

/-- Whitespace has no letters. -/
theorem not_isAlpha_of_isSpace {c : Char} (h : Text.isSpace c = true) : c.isAlpha = false := by
  have hdef : c.isAlphanum = (c.isAlpha || c.isDigit) := rfl
  have hnot := (not_isAlphanum_of_isSpace h).1
  rw [hdef, Bool.or_eq_false_iff] at hnot
  exact hnot.1

/-- Tables without any other character outside ASCII. -/
def basic : Unicode where
  isWord c := c.isAlphanum || c == '_' || foldsToAscii c
  isDecimal := Char.isDigit
  lower := List.map Char.toLower
  isWord_ascii c h := by
    have : foldsToAscii c = false := by
      simp only [foldsToAscii, Bool.or_eq_false_iff, beq_eq_false_iff_ne]
      omega
    rw [this, Bool.or_false]
  isDecimal_ascii c _ := rfl
  isWord_of_fold c h := by
    cases hc : foldsToAscii c with
    | true => simp
    | false => simp [isAlphanum_of_fold h hc]
  isWord_of_isDecimal c h := by
    simp [isAlphanum_eq, h]
  not_isWord_of_isSpace c h := by
    obtain ⟨ha, hu, hf⟩ := not_isAlphanum_of_isSpace h
    simp [ha, hu, hf]
  lower_ascii s _ := rfl

end Unicode
end SalesData.Base

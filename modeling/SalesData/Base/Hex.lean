import SalesData.Base.Text

/-!
# Hexadecimal text

`bytes.hex` and `bytes.fromhex`. Reading takes digits of either case and skips ASCII whitespace
between two bytes, but not inside one.
-/

namespace SalesData.Base.Hex

/-- The lower-case digit of a number below 16. -/
def digit (n : Nat) : Char :=
  ['0', '1', '2', '3', '4', '5', '6', '7', '8', '9', 'a', 'b', 'c', 'd', 'e', 'f'].getD n '0'

/-- The number of a digit. -/
def value (c : Char) : Option Nat :=
  if 48 ≤ c.toNat ∧ c.toNat ≤ 57 then some (c.toNat - 48)
  else if 97 ≤ c.toNat ∧ c.toNat ≤ 102 then some (c.toNat - 87)
  else if 65 ≤ c.toNat ∧ c.toNat ≤ 70 then some (c.toNat - 55)
  else none

/-- ASCII whitespace. -/
def isBlank (c : Char) : Bool := (9 ≤ c.toNat && c.toNat ≤ 13) || c.toNat == 32

/-- `bytes.hex`. -/
def hex : List UInt8 → Text
  | [] => []
  | b :: bytes => digit (b.toNat / 16) :: digit (b.toNat % 16) :: hex bytes

/-- `bytes.fromhex`; `none` is a `ValueError`. -/
def fromHex : Text → Option (List UInt8)
  | [] => some []
  | [c] => if isBlank c then some [] else none
  | c :: d :: s =>
    if isBlank c then fromHex (d :: s)
    else
      match value c, value d with
      | some top, some bottom => (fromHex s).map (.ofNat (16 * top + bottom) :: ·)
      | _, _ => none

/-- A digit is read back. -/
theorem value_digit {n : Nat} (h : n < 16) : value (digit n) = some n := by
  have hall : ∀ n : Fin 16, value (digit n) = some n := by decide
  exact hall ⟨n, h⟩

/-- A digit is no whitespace. -/
theorem isBlank_digit {n : Nat} (h : n < 16) : isBlank (digit n) = false := by
  have hall : ∀ n : Fin 16, isBlank (digit n) = false := by decide
  exact hall ⟨n, h⟩

private theorem halves (b : UInt8) : b.toNat / 16 < 16 ∧ b.toNat % 16 < 16 ∧
    UInt8.ofNat (16 * (b.toNat / 16) + b.toNat % 16) = b := by
  have hb := b.toNat_lt
  refine ⟨by omega, by omega, ?_⟩
  rw [Nat.div_add_mod]
  exact UInt8.ofNat_toNat

/-- Bytes are read back. -/
theorem fromHex_hex (bytes : List UInt8) : fromHex (hex bytes) = some bytes := by
  induction bytes with
  | nil => rfl
  | cons b bytes ih =>
    obtain ⟨htop, hbottom, hbyte⟩ := halves b
    simp [hex, fromHex, isBlank_digit htop, value_digit htop, value_digit hbottom, ih, hbyte]

/-- Only whitespace and digits are read. -/
theorem mem_of_fromHex {s : Text} {bytes : List UInt8} (h : fromHex s = some bytes) :
    ∀ c ∈ s, isBlank c = true ∨ (value c).isSome = true := by
  induction s using fromHex.induct generalizing bytes with
  | case1 => simp
  | case2 c hc => simp [hc]
  | case3 c hc => simp [fromHex, hc] at h
  | case4 c d s hc ih =>
    rw [fromHex, if_pos hc] at h
    intro x hx
    rcases List.mem_cons.mp hx with rfl | hx
    · exact .inl hc
    · exact ih h x hx
  | case5 c d s hc top bottom hbottom htop ih =>
    rw [fromHex, if_neg hc, htop, hbottom] at h
    obtain ⟨rest, hrest, -⟩ := Option.map_eq_some_iff.mp h
    intro x hx
    rcases List.mem_cons.mp hx with rfl | hx
    · exact .inr (by rw [htop]; rfl)
    · rcases List.mem_cons.mp hx with rfl | hx
      · exact .inr (by rw [hbottom]; rfl)
      · exact ih hrest x hx
  | case6 c d s hc hnone =>
    rw [fromHex, if_neg hc] at h
    split at h
    · next htop hbottom => exact absurd hbottom (hnone _ _ htop)
    · cases h

/-- What is read is ASCII. -/
theorem lt_of_fromHex {s : Text} {bytes : List UInt8} (h : fromHex s = some bytes) :
    ∀ c ∈ s, c.toNat < 128 := by
  intro c hc
  rcases mem_of_fromHex h c hc with hblank | hvalue
  · simp [isBlank] at hblank
    omega
  · revert hvalue
    unfold value
    split
    · omega
    · split
      · omega
      · split
        · omega
        · simp

/-- What is read has no character but whitespace and digits. -/
theorem not_mem_of_fromHex {s : Text} {bytes : List UInt8} {c : Char} (h : fromHex s = some bytes)
    (hc : isBlank c = false ∧ value c = none) : c ∉ s := by
  intro hmem
  rcases mem_of_fromHex h c hmem with hblank | hvalue
  · rw [hc.1] at hblank
    cases hblank
  · rw [hc.2] at hvalue
    cases hvalue

end SalesData.Base.Hex

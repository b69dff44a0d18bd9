import SalesData.Auth.Callers
import SalesData.Base.Hex

/-!
# Passwords

`core/auth/passwords.py` over an arbitrary PBKDF2. A stored text that has no `$` is no digest; one
whose salt is not hexadecimal makes the check raise.
-/

namespace SalesData.Auth.Passwords

open Base Hex

/-- A code point of a `str`: a character, or a lone surrogate, which an escape can write. -/
inductive CodePoint where
  | char (c : Char)
  | surrogate (n : Fin 0x800)
  deriving DecidableEq, Repr

/-- The code point has an encoding. -/
def CodePoint.isChar : CodePoint → Bool
  | char _ => true
  | surrogate _ => false

/-- `str.encode()`; `none` is a `UnicodeEncodeError`. -/
def encode : List CodePoint → Option (List UInt8)
  | [] => some []
  | .char c :: s => (encode s).map (String.utf8EncodeChar c ++ ·)
  | .surrogate _ :: _ => none

/-- What `secrets.token_hex(16)` draws. -/
structure Token where
  bytes : List UInt8
  length_bytes : bytes.length = 16

/-- What a call raises. -/
inductive Raised where
  | unicodeEncodeError
  | valueError
  | typeError
  deriving DecidableEq, Repr

/-- `secrets.compare_digest`, which takes no text outside ASCII. -/
def compareDigest (a b : Text) : Except Raised Bool :=
  if (a ++ b).any (128 ≤ ·.toNat) then .error .typeError else .ok (a == b)

section Check

variable (pbkdf2 : List UInt8 → List UInt8 → List UInt8) (token : Token)
  (password : List CodePoint)

/-- `hash_password` (`passwords.py:21–36`). -/
def hashPassword (salt : Option Text) : Except Raised Text :=
  let salt := match salt with
    | some (c :: s) => c :: s
    | _ => hex token.bytes
  match encode password with
  | none => .error .unicodeEncodeError
  | some key =>
    match fromHex salt with
    | none => .error .valueError
    | some bytes => .ok (salt ++ '$' :: hex (pbkdf2 key bytes))

/-- `verify_password` (`passwords.py:39–50`). -/
def verifyPassword (storedHash : Text) : Except Raised Bool :=
  if '$' ∈ storedHash then
    let salt := storedHash.takeWhile (· ≠ '$')
    match hashPassword pbkdf2 token password (some salt) with
    | .error exc => .error exc
    | .ok hashed => compareDigest hashed storedHash
  else .ok false

/-- A stored text is the digest of a password: hexadecimal salt, `$`, and PBKDF2 of both. -/
def IsDigest (storedHash : Text) : Prop :=
  ∃ salt bytes key, salt ≠ [] ∧ fromHex salt = some bytes ∧ encode password = some key ∧
    storedHash = salt ++ '$' :: hex (pbkdf2 key bytes)

/-- The check answers, and with `True` for a digest of the password only. -/
def Exact (storedHash : Text) : Prop :=
  ∃ ok, verifyPassword pbkdf2 token password storedHash = .ok ok ∧
    (ok = true ↔ IsDigest pbkdf2 password storedHash)

/-- What is hashed is verified, whatever salt is drawn. -/
def RoundTrip : Prop :=
  ∀ fresh, ∃ hashed, hashPassword pbkdf2 fresh password none = .ok hashed ∧
    verifyPassword pbkdf2 token password hashed = .ok true

end Check

/-- The text in front of `$` is a salt that the check can take: empty, or hexadecimal. -/
def SaltOk (storedHash : Text) : Prop :=
  storedHash.takeWhile (· ≠ '$') = [] ∨ (fromHex (storedHash.takeWhile (· ≠ '$'))).isSome = true

variable {pbkdf2 : List UInt8 → List UInt8 → List UInt8} {token : Token}
  {password : List CodePoint} {storedHash : Text}

/-- Lone surrogates have no encoding. -/
theorem isSome_encode : (encode password).isSome = true ↔ ∀ p ∈ password, p.isChar = true := by
  induction password with
  | nil => simp [encode]
  | cons p password ih =>
    cases p with
    | char c => simpa [encode, CodePoint.isChar] using ih
    | surrogate n => simp [encode, CodePoint.isChar]

/-- Hexadecimal text has no `$`. -/
theorem dollar_not_mem {salt : Text} {bytes : List UInt8} (h : fromHex salt = some bytes) :
    '$' ∉ salt :=
  not_mem_of_fromHex h (by decide)

/-- The text in front of the first `$`. -/
theorem takeWhile_salt {salt : Text} (digest : Text) (h : '$' ∉ salt) :
    (salt ++ '$' :: digest).takeWhile (· ≠ '$') = salt := by
  rw [List.takeWhile_append_of_pos]
  · simp
  · intro c hc
    simp only [decide_eq_true_eq]
    rintro rfl
    exact h hc

/-- Digits are ASCII. -/
theorem hex_ascii (bytes : List UInt8) : ∀ c ∈ hex bytes, c.toNat < 128 :=
  lt_of_fromHex (fromHex_hex bytes)

/-- Texts in ASCII are compared. -/
theorem compareDigest_ascii {a b : Text} (ha : ∀ c ∈ a, c.toNat < 128)
    (hb : ∀ c ∈ b, c.toNat < 128) : compareDigest a b = .ok (a == b) := by
  have hany : (a ++ b).any (128 ≤ ·.toNat) = false := by
    rw [List.any_eq_false]
    intro c hc
    rw [decide_eq_true_eq]
    rcases List.mem_append.mp hc with hc | hc
    · exact Nat.not_le.mpr (ha c hc)
    · exact Nat.not_le.mpr (hb c hc)
  rw [compareDigest, hany]
  rfl

/-- The salt of a digest is the text in front of its first `$`. -/
theorem IsDigest.of_takeWhile (h : IsDigest pbkdf2 password storedHash) :
    '$' ∈ storedHash ∧ storedHash.takeWhile (· ≠ '$') ≠ [] ∧
      ∃ bytes key, fromHex (storedHash.takeWhile (· ≠ '$')) = some bytes ∧
        encode password = some key ∧
        storedHash = storedHash.takeWhile (· ≠ '$') ++ '$' :: hex (pbkdf2 key bytes) := by
  obtain ⟨salt, bytes, key, hne, hbytes, hkey, rfl⟩ := h
  have hsalt := takeWhile_salt (hex (pbkdf2 key bytes)) (dollar_not_mem hbytes)
  rw [hsalt]
  exact ⟨by simp, hne, bytes, key, hbytes, hkey, rfl⟩

/-- A salt is hashed as it is. -/
theorem hashPassword_of_salt {salt : Text} (hne : salt ≠ []) {key bytes : List UInt8}
    (hkey : encode password = some key) (hbytes : fromHex salt = some bytes) :
    hashPassword pbkdf2 token password (some salt) =
      .ok (salt ++ '$' :: hex (pbkdf2 key bytes)) := by
  obtain ⟨c, s, rfl⟩ := List.exists_cons_of_ne_nil hne
  simp only [hashPassword, hkey, hbytes]

/-- No salt, or an empty one, is replaced by a fresh one. -/
theorem hashPassword_fresh {salt : Option Text} (hempty : salt.getD [] = []) {key : List UInt8}
    (hkey : encode password = some key) :
    hashPassword pbkdf2 token password salt =
      .ok (hex token.bytes ++ '$' :: hex (pbkdf2 key token.bytes)) := by
  have hsalt : salt = none ∨ salt = some [] := by
    cases salt with
    | none => exact .inl rfl
    | some salt => exact .inr (congrArg some hempty)
  rcases hsalt with rfl | rfl
  · simp only [hashPassword, hkey, fromHex_hex]
  · simp only [hashPassword, hkey, fromHex_hex]

/-- A fresh salt is not empty. -/
theorem hex_token_ne_nil (token : Token) : hex token.bytes ≠ [] := by
  have hlength := token.length_bytes
  cases hbytes : token.bytes with
  | nil => simp [hbytes] at hlength
  | cons b bytes => simp [hex]

private theorem ascii_hashed {salt : Text} {bytes key : List UInt8}
    (hbytes : fromHex salt = some bytes) :
    ∀ c ∈ salt ++ '$' :: hex (pbkdf2 key bytes), c.toNat < 128 := by
  intro c hc
  rcases List.mem_append.mp hc with hc | hc
  · exact lt_of_fromHex hbytes c hc
  · rcases List.mem_cons.mp hc with rfl | hc
    · decide
    · exact hex_ascii _ c hc

/-- Without `$` the answer is `False`. -/
theorem verifyPassword_of_no_dollar (h : '$' ∉ storedHash) :
    verifyPassword pbkdf2 token password storedHash = .ok false := by
  rw [verifyPassword, if_neg h]

/-- A lone surrogate in the password is raised. -/
theorem verifyPassword_of_surrogate (h : '$' ∈ storedHash) (hpassword : encode password = none) :
    verifyPassword pbkdf2 token password storedHash = .error .unicodeEncodeError := by
  rw [verifyPassword, if_pos h]
  simp only [hashPassword, hpassword]

/-- A salt that is not hexadecimal is raised. -/
theorem verifyPassword_of_salt_error (h : '$' ∈ storedHash) {key : List UInt8}
    (hkey : encode password = some key) (hne : storedHash.takeWhile (· ≠ '$') ≠ [])
    (hsalt : fromHex (storedHash.takeWhile (· ≠ '$')) = none) :
    verifyPassword pbkdf2 token password storedHash = .error .valueError := by
  rw [verifyPassword, if_pos h]
  obtain ⟨c, s, hcs⟩ := List.exists_cons_of_ne_nil hne
  rw [hcs] at hsalt ⊢
  simp only [hashPassword, hkey, hsalt]

/-- An empty salt is never found. -/
theorem verifyPassword_of_empty_salt (hascii : ∀ c ∈ storedHash, c.toNat < 128)
    (h : '$' ∈ storedHash) {key : List UInt8} (hkey : encode password = some key)
    (hsalt : storedHash.takeWhile (· ≠ '$') = []) :
    verifyPassword pbkdf2 token password storedHash = .ok false := by
  have hne : hex token.bytes ++ '$' :: hex (pbkdf2 key token.bytes) ≠ storedHash := by
    rintro rfl
    rw [takeWhile_salt _ (dollar_not_mem (fromHex_hex token.bytes))] at hsalt
    exact hex_token_ne_nil token hsalt
  rw [verifyPassword, if_pos h]
  have hhash : hashPassword pbkdf2 token password (some []) = _ := hashPassword_fresh rfl hkey
  simp only [hsalt, hhash]
  rw [compareDigest_ascii (ascii_hashed (fromHex_hex token.bytes)) hascii, beq_false_of_ne hne]

/-- With a hexadecimal salt the digests are compared. -/
theorem verifyPassword_of_salt (hascii : ∀ c ∈ storedHash, c.toNat < 128)
    (h : '$' ∈ storedHash) {key bytes : List UInt8} (hkey : encode password = some key)
    (hne : storedHash.takeWhile (· ≠ '$') ≠ [])
    (hsalt : fromHex (storedHash.takeWhile (· ≠ '$')) = some bytes) :
    verifyPassword pbkdf2 token password storedHash =
      .ok (storedHash.takeWhile (· ≠ '$') ++ '$' :: hex (pbkdf2 key bytes) == storedHash) := by
  rw [verifyPassword, if_pos h]
  simp only [hashPassword_of_salt hne hkey hsalt]
  rw [compareDigest_ascii (ascii_hashed hsalt) hascii]

/-- The check is exact where it meets no salt that is not hexadecimal. -/
theorem exact_iff (hascii : ∀ c ∈ storedHash, c.toNat < 128) :
    Exact pbkdf2 token password storedHash ↔
      ('$' ∈ storedHash → (∀ p ∈ password, p.isChar = true) ∧ SaltOk storedHash) := by
  by_cases hdollar : '$' ∈ storedHash
  · rw [← isSome_encode]
    cases hkey : encode password with
    | none =>
      refine iff_of_false ?_ fun h ↦ (by cases (h hdollar).1)
      rintro ⟨ok, hok, -⟩
      rw [verifyPassword_of_surrogate hdollar hkey] at hok
      cases hok
    | some key =>
      by_cases hne : storedHash.takeWhile (· ≠ '$') = []
      · refine iff_of_true ⟨false, verifyPassword_of_empty_salt hascii hdollar hkey hne, ?_⟩
          fun _ ↦ ⟨rfl, .inl hne⟩
        exact iff_of_false (by simp) fun h ↦ h.of_takeWhile.2.1 hne
      · cases hsalt : fromHex (storedHash.takeWhile (· ≠ '$')) with
        | none =>
          refine iff_of_false ?_ fun h ↦ ?_
          · rintro ⟨ok, hok, -⟩
            rw [verifyPassword_of_salt_error hdollar hkey hne hsalt] at hok
            cases hok
          · rcases (h hdollar).2 with h | h
            · exact hne h
            · rw [hsalt] at h
              cases h
        | some bytes =>
          refine iff_of_true ⟨_, verifyPassword_of_salt hascii hdollar hkey hne hsalt, ?_⟩
            fun _ ↦ ⟨rfl, .inr (by rw [hsalt]; rfl)⟩
          rw [beq_iff_eq]
          constructor
          · intro heq
            exact ⟨_, bytes, key, hne, hsalt, hkey, heq.symm⟩
          · intro h
            obtain ⟨-, -, bytes', key', hbytes, hkey', heq⟩ := h.of_takeWhile
            rw [hsalt] at hbytes
            rw [hkey] at hkey'
            cases hbytes
            cases hkey'
            exact heq.symm
  · refine iff_of_true ⟨false, verifyPassword_of_no_dollar hdollar, ?_⟩ fun h ↦ absurd h hdollar
    exact iff_of_false (by simp) fun h ↦ hdollar h.of_takeWhile.1

/-- What is hashed is verified, unless the password has no encoding. -/
theorem roundTrip_iff :
    RoundTrip pbkdf2 token password ↔ ∀ p ∈ password, p.isChar = true := by
  rw [← isSome_encode]
  constructor
  · intro h
    obtain ⟨hashed, hhash, -⟩ := h token
    cases hkey : encode password with
    | none => simp [hashPassword, hkey] at hhash
    | some key => rfl
  · intro h fresh
    obtain ⟨key, hkey⟩ := Option.isSome_iff_exists.mp h
    refine ⟨_, hashPassword_fresh rfl hkey, ?_⟩
    have hread := fromHex_hex fresh.bytes
    have hsalt := takeWhile_salt (hex (pbkdf2 key fresh.bytes)) (dollar_not_mem hread)
    have hverify := @verifyPassword_of_salt pbkdf2 token password
      (hex fresh.bytes ++ '$' :: hex (pbkdf2 key fresh.bytes)) (ascii_hashed hread) (by simp)
      key fresh.bytes hkey (by rw [hsalt]; exact hex_token_ne_nil fresh) (by rw [hsalt, hread])
    rw [hverify, hsalt, beq_self_eq_true]

/-- Where a password is text, this is the check of `Auth.verifyPassword`. -/
theorem verifyPassword_toOption (password : Text) :
    (verifyPassword pbkdf2 token (password.map .char) storedHash).toOption =
      Auth.verifyPassword (fun password salt ↦ do
        let key ← encode (password.map .char)
        let bytes ← fromHex salt
        return hex (pbkdf2 key bytes)) password storedHash := by
  obtain ⟨key, hkey⟩ : ∃ key, encode (password.map .char) = some key := by
    rw [← Option.isSome_iff_exists, isSome_encode]
    intro p hp
    obtain ⟨c, -, rfl⟩ := List.mem_map.mp hp
    rfl
  unfold Auth.verifyPassword
  dsimp only
  by_cases hdollar : '$' ∈ storedHash
  · rw [if_neg (not_not.mpr hdollar)]
    by_cases hascii : ∀ c ∈ storedHash, c.toNat < 128
    · have hany : storedHash.any (128 ≤ ·.toNat) = false := by
        simpa [List.any_eq_false] using hascii
      rw [hany, if_neg Bool.false_ne_true]
      by_cases hne : storedHash.takeWhile (· ≠ '$') = []
      · rw [verifyPassword_of_empty_salt hascii hdollar hkey hne, if_pos hne]
        rfl
      · rw [if_neg hne]
        cases hsalt : fromHex (storedHash.takeWhile (· ≠ '$')) with
        | none =>
          rw [verifyPassword_of_salt_error hdollar hkey hne hsalt]
          simp only [Auth.hashPassword, hkey, hsalt]
          rfl
        | some bytes =>
          rw [verifyPassword_of_salt hascii hdollar hkey hne hsalt]
          simp only [Auth.hashPassword, hkey, hsalt]
          rfl
    · have hany : storedHash.any (128 ≤ ·.toNat) = true := by
        simpa using hascii
      rw [hany, if_pos rfl, verifyPassword, if_pos hdollar]
      dsimp only
      split
      · rfl
      · rw [compareDigest, List.any_append, hany, Bool.or_true]
        rfl
  · rw [if_pos hdollar, verifyPassword_of_no_dollar hdollar]
    rfl

/-- The check is exact where the text in front of `$` is a salt, and what is hashed is verified:
both for every password that has an encoding. -/
theorem verifyPassword_exact_iff (pbkdf2 : List UInt8 → List UInt8 → List UInt8) (token : Token)
    (password : List CodePoint) (storedHash : Text) (hascii : ∀ c ∈ storedHash, c.toNat < 128) :
    (Exact pbkdf2 token password storedHash ↔
      ('$' ∈ storedHash → (∀ p ∈ password, p.isChar = true) ∧ SaltOk storedHash)) ∧
      (RoundTrip pbkdf2 token password ↔ ∀ p ∈ password, p.isChar = true) :=
  ⟨exact_iff hascii, roundTrip_iff⟩

private def zeros : Token := ⟨List.replicate 16 0, by decide⟩

/-- A digest of a legacy scheme, with a salt that is not hexadecimal. -/
theorem verifyPassword_exact_legacy :
    (Exact (fun key salt ↦ key ++ salt) zeros [.char 'a'] "md5$0cc1".toList ↔
      ('$' ∈ "md5$0cc1".toList → (∀ p ∈ [CodePoint.char 'a'], p.isChar = true) ∧
        SaltOk "md5$0cc1".toList)) ∧
      (RoundTrip (fun key salt ↦ key ++ salt) zeros [.char 'a'] ↔
        ∀ p ∈ [CodePoint.char 'a'], p.isChar = true) :=
  verifyPassword_exact_iff _ zeros [.char 'a'] "md5$0cc1".toList (by simp)

/-- The check raises on it. -/
theorem verifyPassword_legacy :
    verifyPassword (fun key salt ↦ key ++ salt) zeros [.char 'a'] "md5$0cc1".toList =
        .error .valueError ∧
      ¬Exact (fun key salt ↦ key ++ salt) zeros [.char 'a'] "md5$0cc1".toList := by
  have hraised : verifyPassword (fun key salt ↦ key ++ salt) zeros [.char 'a']
      "md5$0cc1".toList = .error .valueError := rfl
  refine ⟨hraised, ?_⟩
  rintro ⟨ok, hok, -⟩
  rw [hraised] at hok
  cases hok

end SalesData.Auth.Passwords

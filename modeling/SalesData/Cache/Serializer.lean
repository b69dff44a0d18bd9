import Mathlib.Tactic.Linarith
import SalesData.Base.Json

/-!
# Rows as JSON

What `cache_result` writes of rows and what comes back from the text
(`core/caching/query_result_cache.py:16–31` and `139`,
`core/caching/query_cache_coordinator.py:170`), and the length that `_apply_result_limits` counts
(`core/services/query_service.py:189`). Decimals are opaque like floats.
-/

namespace SalesData.Cache

open Base Json

/-- A number in at least `width` digits. -/
def pad (width n : Nat) : Text :=
  List.replicate (width - (Nat.toDigits 10 n).length) '0' ++ Nat.toDigits 10 n

/-- `datetime.date`. -/
structure Date where
  year : Nat
  month : Nat
  day : Nat
  deriving DecidableEq, Repr

/-- `date.isoformat()`. -/
def Date.isoformat (d : Date) : Text := pad 4 d.year ++ '-' :: (pad 2 d.month ++ '-' :: pad 2 d.day)

/-- `datetime.time`, with its offset from UTC in microseconds. -/
structure TimeOfDay where
  hour : Nat
  minute : Nat
  second : Nat
  microsecond : Nat
  utcOffset : Option Int
  deriving DecidableEq, Repr

/-- The microseconds, unless there are none. -/
def fractionText (microsecond : Nat) : Text :=
  if microsecond = 0 then [] else '.' :: pad 6 microsecond

/-- An offset from UTC: its seconds are left out if there are none. -/
def offsetText (offset : Int) : Text :=
  let n := offset.natAbs
  (if offset < 0 then '-' else '+') :: (pad 2 (n / 3600000000) ++ ':' ::
    (pad 2 (n / 60000000 % 60) ++
      if n % 60000000 = 0 then []
      else ':' :: (pad 2 (n / 1000000 % 60) ++ fractionText (n % 1000000))))

/-- `time.isoformat()`. -/
def TimeOfDay.isoformat (t : TimeOfDay) : Text :=
  pad 2 t.hour ++ ':' :: (pad 2 t.minute ++ ':' :: (pad 2 t.second ++
    (fractionText t.microsecond ++ (t.utcOffset.map offsetText).getD [])))

/-- `datetime.isoformat(sep)`. -/
def isoformat (sep : Char) (d : Date) (t : TimeOfDay) : Text := d.isoformat ++ sep :: t.isoformat

section Bytes

/-- A byte inside the quotes of `repr(bytes)`. -/
def reprByte (quote : Char) (b : UInt8) : Text :=
  let c := Char.ofNat b.toNat
  if c = quote ∨ c = '\\' then ['\\', c]
  else if c = '\t' then ['\\', 't']
  else if c = '\n' then ['\\', 'n']
  else if c = '\r' then ['\\', 'r']
  else if b < 32 ∨ 127 ≤ b then ['\\', 'x', hexDigit (b.toNat / 16), hexDigit (b.toNat % 16)]
  else [c]

/-- `repr(bytes)`. -/
def reprBytes (data : List UInt8) : Text :=
  let quote := if 39 ∈ data ∧ 34 ∉ data then '"' else '\''
  'b' :: quote :: (data.flatMap (reprByte quote) ++ [quote])

/-- The bytes that a character still needs, the range of the next one, and the bits so far. -/
structure Pending where
  need : Nat
  low : Nat
  high : Nat
  bits : Nat

/-- Between two characters. -/
def Pending.idle : Pending := ⟨0, 0, 0, 0⟩

/-- What the first byte of a character asks for, if it asks for more. -/
def Pending.ofLead (b : Nat) : Option Pending :=
  if 0xC2 ≤ b ∧ b ≤ 0xDF then some ⟨1, 0x80, 0xBF, b % 32⟩
  else if b = 0xE0 then some ⟨2, 0xA0, 0xBF, 0⟩
  else if b = 0xED then some ⟨2, 0x80, 0x9F, 13⟩
  else if 0xE1 ≤ b ∧ b ≤ 0xEF then some ⟨2, 0x80, 0xBF, b % 16⟩
  else if b = 0xF0 then some ⟨3, 0x90, 0xBF, 0⟩
  else if 0xF1 ≤ b ∧ b ≤ 0xF3 then some ⟨3, 0x80, 0xBF, b % 8⟩
  else if b = 0xF4 then some ⟨3, 0x80, 0x8F, 4⟩
  else none

/-- `bytes.decode("utf-8", errors="replace")` from a place in a text: U+FFFD stands for a byte that
begins no character, and for the bytes of a character that breaks off. -/
def decodeFrom (p : Pending) : List UInt8 → Text
  | [] => if p.need = 0 then [] else ['\uFFFD']
  | b :: data =>
    if p.need ≠ 0 ∧ p.low ≤ b.toNat ∧ b.toNat ≤ p.high then
      let bits := p.bits * 64 + b.toNat % 64
      if p.need = 1 then Char.ofNat bits :: decodeFrom .idle data
      else decodeFrom ⟨p.need - 1, 0x80, 0xBF, bits⟩ data
    else
      (if p.need = 0 then [] else ['\uFFFD']) ++
        match Pending.ofLead b.toNat with
        | some p => decodeFrom p data
        | none => (if b < 0x80 then Char.ofNat b.toNat else '\uFFFD') :: decodeFrom .idle data

/-- `bytes.decode("utf-8", errors="replace")`. -/
def decode (data : List UInt8) : Text := decodeFrom .idle data

example : decode [0x61, 0xC3, 0xA9, 0xE2, 0x82, 0x62, 0xFF] =
    ['a', 'é', '\uFFFD', 'b', '\uFFFD'] := by decide

end Bytes

/-- Values that `json` has no form for (`query_result_cache.py:25–30`). -/
inductive Foreign (D : Type) where
  | date (d : Date)
  | datetime (d : Date) (t : TimeOfDay)
  | time (t : TimeOfDay)
  | decimal (x : D)
  | bytes (data : List UInt8)
  | bytearray (data : List UInt8)

/-- `str(x)` and `float(x)` of a `Decimal`. -/
structure Decimals (F D : Type) where
  str : D → Text
  float : D → F

/-- A key of a `dict` that `json.dumps` takes. -/
inductive Key (F : Type) where
  | str (s : Text)
  | int (n : Int)
  | float (f : F)
  | bool (b : Bool)
  | null

/-- A value of a result row. -/
inductive Value (F D : Type) where
  | null
  | bool (b : Bool)
  | int (n : Int)
  | float (f : F)
  | str (s : Text)
  | list (items : List (Value F D))
  | dict (items : List (Key F × Value F D))
  | foreign (x : Foreign D)

/-- A result row: its values by column. -/
abbrev Row (F D : Type) := Dict Text (Value F D)

variable {F D : Type} (floats : Floats F) (decimals : Decimals F D)

section Encoding

/-- `_json_default` (`query_result_cache.py:16–31`). -/
def jsonDefault : Foreign D → Json F
  | .date d => .str d.isoformat
  | .datetime d t => .str (isoformat 'T' d t)
  | .time t => .str t.isoformat
  | .decimal x => .float (decimals.float x)
  | .bytes data | .bytearray data => .str (decode data)

/-- `str(x)`, the default of `_apply_result_limits`. -/
def strDefault : Foreign D → Json F
  | .date d => .str d.isoformat
  | .datetime d t => .str (isoformat ' ' d t)
  | .time t => .str t.isoformat
  | .decimal x => .str (decimals.str x)
  | .bytes data => .str (reprBytes data)
  | .bytearray data => .str ("bytearray(".toList ++ (reprBytes data ++ [')']))

/-- The text of a key. -/
def Key.text : Key F → Text
  | .str s => s
  | .int n => dumpsInt n
  | .float f => floats.repr f
  | .bool true => ['t', 'r', 'u', 'e']
  | .bool false => ['f', 'a', 'l', 's', 'e']
  | .null => ['n', 'u', 'l', 'l']

variable (default : Foreign D → Json F)

mutual

/-- The JSON form of a value, where `default` gives that of a foreign one. -/
def encode : Value F D → Json F
  | .null => .null
  | .bool b => .bool b
  | .int n => .int n
  | .float f => .float f
  | .str s => .str s
  | .list vs => .list (encodeItems vs)
  | .dict ps => .dict (encodePairs ps)
  | .foreign x => default x

/-- The JSON form of items. -/
def encodeItems : List (Value F D) → List (Json F)
  | [] => []
  | v :: vs => encode v :: encodeItems vs

/-- The JSON form of keys with their values. -/
def encodePairs : List (Key F × Value F D) → List (Text × Json F)
  | [] => []
  | (k, v) :: ps => (k.text floats, encode v) :: encodePairs ps

end

/-- The JSON form of a row. -/
def encodeRow (row : Row F D) : Json F := .dict (row.mapValues (encode floats default)).entries

end Encoding

/-- The text that `cache_result` stores (`query_result_cache.py:139`). -/
def serialize (rows : List (Row F D)) : Text :=
  dumps floats (.list (rows.map (encodeRow floats (jsonDefault decimals))))

/-- `len(t.encode("utf-8"))`. -/
def utf8Length (t : Text) : Nat := (t.map Char.utf8Size).sum

/-- The bytes that `_apply_result_limits` counts for a row (`query_service.py:189`). -/
def rowBytes (row : Row F D) : Nat :=
  utf8Length (dumps floats (encodeRow floats (strDefault decimals) row))

section Decoding

mutual

/-- What `json.loads` makes, as a value. -/
def ofJson : Json F → Value F D
  | .null => .null
  | .bool b => .bool b
  | .int n => .int n
  | .float f => .float f
  | .str s => .str s
  | .list vs => .list (ofJsonItems vs)
  | .dict ps => .dict (ofJsonPairs ps)

/-- Items that `json.loads` makes. -/
def ofJsonItems : List (Json F) → List (Value F D)
  | [] => []
  | v :: vs => ofJson v :: ofJsonItems vs

/-- Keys with their values that `json.loads` makes. -/
def ofJsonPairs : List (Text × Json F) → List (Key F × Value F D)
  | [] => []
  | (k, v) :: ps => (.str k, ofJson v) :: ofJsonPairs ps

end

/-- An object as a row. -/
def rowOf : Json F → Option (Row F D)
  | .dict ps => some ((Dict.ofEntries ps).mapValues ofJson)
  | _ => none

/-- The rows of a stored text (`query_cache_coordinator.py:170`). -/
def deserialize (text : Text) : Option (List (Row F D)) :=
  match loads floats text with
  | some (.list vs) => vs.mapM rowOf
  | _ => none

end Decoding

section Reload

mutual

/-- The JSON form of what `json.loads` has made. -/
theorem encode_ofJson (default : Foreign D → Json F) :
    ∀ j : Json F, encode floats default (ofJson j) = j
  | .list vs => by rw [ofJson, encode, encodeItems_ofJson default vs]
  | .dict ps => by rw [ofJson, encode, encodePairs_ofJson default ps]
  | .null | .bool _ | .int _ | .float _ | .str _ => by rw [ofJson, encode]

/-- The JSON form of items that `json.loads` has made. -/
theorem encodeItems_ofJson (default : Foreign D → Json F) :
    ∀ vs : List (Json F), encodeItems floats default (ofJsonItems vs) = vs
  | [] => rfl
  | v :: vs => by
    rw [ofJsonItems, encodeItems, encode_ofJson default v, encodeItems_ofJson default vs]

/-- The JSON form of keys with their values that `json.loads` has made. -/
theorem encodePairs_ofJson (default : Foreign D → Json F) :
    ∀ ps : List (Text × Json F), encodePairs floats default (ofJsonPairs ps) = ps
  | [] => rfl
  | (k, v) :: ps => by
    rw [ofJsonPairs, encodePairs, encode_ofJson default v, encodePairs_ofJson default ps, Key.text]

end

/-- A value that has been stored and read back. -/
def reload (v : Value F D) : Value F D := ofJson (collapse (encode floats (jsonDefault decimals) v))

/-- A row that has been stored and read back. -/
def reloadRow (row : Row F D) : Row F D := row.mapValues (reload floats decimals)

private theorem collapseItems_eq_map (vs : List (Json F)) : collapseItems vs = vs.map collapse := by
  induction vs with
  | nil => rfl
  | cons v vs ih => rw [collapseItems, List.map_cons, ih]

private theorem collapsePairs_eq_map (ps : List (Text × Json F)) :
    collapsePairs ps = ps.map fun p ↦ (p.1, collapse p.2) := by
  induction ps with
  | nil => rfl
  | cons p ps ih => rw [collapsePairs, List.map_cons, ih]

/-- A stored row is read back. -/
theorem rowOf_collapse (row : Row F D) :
    rowOf (collapse (encodeRow floats (jsonDefault decimals) row)) =
      some (reloadRow floats decimals row) := by
  let items := (row.mapValues (encode floats (jsonDefault decimals))).entries
  have hkeys : ((collapsePairs items).map Prod.fst).Nodup := by
    rw [map_fst_collapsePairs]
    exact Dict.nodup _
  have hread : (Dict.ofEntries (merge (collapsePairs items))).entries =
      items.map fun e ↦ (e.1, collapse e.2) := by
    rw [merge, Dict.entries_ofEntries (Dict.nodup _), Dict.entries_ofEntries hkeys,
      collapsePairs_eq_map]
  rw [encodeRow, collapse, rowOf, Option.some.injEq]
  apply Dict.ext_entries
  show List.map (fun e ↦ (e.1, ofJson e.2))
    (Dict.ofEntries (merge (collapsePairs items))).entries = _
  rw [hread, List.map_map]
  show List.map _ (row.entries.map _) = row.entries.map _
  rw [List.map_map]
  rfl

/-- Stored rows are read back one by one. -/
theorem deserialize_serialize (rows : List (Row F D)) :
    deserialize floats (serialize floats decimals rows) =
      some (rows.map (reloadRow floats decimals)) := by
  rw [deserialize, serialize, loads_dumps, collapse, collapseItems_eq_map]
  dsimp only
  induction rows with
  | nil => rfl
  | cons row rows ih =>
    rw [List.map_cons, List.map_cons, List.mapM_cons, rowOf_collapse, ih]
    rfl

/-- A JSON-native value: `json.loads` can make it. -/
def Native (v : Value F D) : Prop := ∃ j : Json F, Distinct j ∧ v = ofJson j

/-- A JSON-native value is read back as it was. -/
theorem reload_of_native {v : Value F D} (h : Native v) : reload floats decimals v = v := by
  obtain ⟨j, hj, rfl⟩ := h
  rw [reload, encode_ofJson, collapse_of_distinct j hj]

end Reload

section Sizes

mutual

/-- Neither decimals nor bytes, and no two keys of one dictionary with the same text. -/
def Plain : Value F D → Prop
  | .list vs => PlainItems vs
  | .dict ps => (ps.map fun p ↦ p.1.text floats).Nodup ∧ PlainPairs ps
  | .foreign (.decimal _) | .foreign (.bytes _) | .foreign (.bytearray _) => False
  | _ => True

/-- Items that are all plain. -/
def PlainItems : List (Value F D) → Prop
  | [] => True
  | v :: vs => Plain v ∧ PlainItems vs

/-- Values under keys that are all plain. -/
def PlainPairs : List (Key F × Value F D) → Prop
  | [] => True
  | (_, v) :: ps => Plain v ∧ PlainPairs ps

end

private theorem map_fst_encodePairs (default : Foreign D → Json F)
    (ps : List (Key F × Value F D)) :
    (encodePairs floats default ps).map Prod.fst = ps.map fun p ↦ p.1.text floats := by
  induction ps with
  | nil => rfl
  | cons p ps ih => rw [encodePairs, List.map_cons, List.map_cons, ih]

mutual

/-- The JSON form of a plain value has no repeated keys. -/
theorem distinct_encode : ∀ v : Value F D, Plain floats v →
    Distinct (encode floats (jsonDefault decimals) v)
  | .list vs, h => by
    rw [encode, Distinct]
    rw [Plain] at h
    exact distinctItems_encode vs h
  | .dict ps, h => by
    rw [Plain] at h
    rw [encode, Distinct, map_fst_encodePairs]
    exact ⟨h.1, distinctPairs_encode ps h.2⟩
  | .null, _ | .bool _, _ | .int _, _ | .float _, _ | .str _, _ => by
    rw [encode]
    trivial
  | .foreign x, _ => by
    rw [encode]
    cases x with
    | _ => trivial

/-- The JSON form of plain items has no repeated keys. -/
theorem distinctItems_encode : ∀ vs : List (Value F D), PlainItems floats vs →
    DistinctItems (encodeItems floats (jsonDefault decimals) vs)
  | [], _ => trivial
  | v :: vs, ⟨hv, hvs⟩ => ⟨distinct_encode v hv, distinctItems_encode vs hvs⟩

/-- The JSON form of plain values under keys has no repeated keys. -/
theorem distinctPairs_encode : ∀ ps : List (Key F × Value F D), PlainPairs floats ps →
    DistinctPairs (encodePairs floats (jsonDefault decimals) ps)
  | [], _ => trivial
  | (_, v) :: ps, ⟨hv, hps⟩ => ⟨distinct_encode v hv, distinctPairs_encode ps hps⟩

end

/-- The bytes of two texts in a row. -/
@[simp] theorem utf8Length_append (s t : Text) :
    utf8Length (s ++ t) = utf8Length s + utf8Length t := by
  simp [utf8Length]

/-- The bytes of a text with one more character. -/
@[simp] theorem utf8Length_cons (c : Char) (t : Text) :
    utf8Length (c :: t) = c.utf8Size + utf8Length t := by
  simp [utf8Length]

/-- Both texts of a moment take as many bytes. -/
theorem utf8Length_datetime (d : Date) (t : TimeOfDay) :
    utf8Length (dumpsStr (isoformat 'T' d t)) = utf8Length (dumpsStr (isoformat ' ' d t)) := by
  have hsep : utf8Length (escapeChar 'T') = utf8Length (escapeChar ' ') := by decide
  simp only [dumpsStr, isoformat, List.flatMap_append, List.flatMap_cons, utf8Length_cons,
    utf8Length_append, hsep]

mutual

/-- A plain value takes as many bytes with either default. -/
theorem utf8Length_encode : ∀ v : Value F D, Plain floats v →
    utf8Length (dumps floats (encode floats (jsonDefault decimals) v)) =
      utf8Length (dumps floats (encode floats (strDefault decimals) v))
  | .list [], _ => rfl
  | .list (v :: vs), h => by
    rw [Plain] at h
    simp only [encode, encodeItems, dumps, utf8Length_cons, utf8Length_append]
    rw [utf8Length_encode v h.1, utf8Length_encodeItems vs h.2]
  | .dict [], _ => rfl
  | .dict ((k, v) :: ps), h => by
    rw [Plain] at h
    simp only [encode, encodePairs, dumps, utf8Length_cons, utf8Length_append]
    rw [utf8Length_encode v h.2.1, utf8Length_encodePairs ps h.2.2]
  | .null, _ | .bool _, _ | .int _, _ | .float _, _ | .str _, _ => by rw [encode, encode]
  | .foreign x, h => by
    rw [encode, encode]
    cases x with
    | date | time => rfl
    | datetime d t =>
      rw [jsonDefault, strDefault, dumps, dumps]
      exact utf8Length_datetime d t
    | decimal | bytes | bytearray => exact h.elim

/-- Plain items take as many bytes with either default. -/
theorem utf8Length_encodeItems : ∀ vs : List (Value F D), PlainItems floats vs →
    utf8Length (dumpsItems floats (encodeItems floats (jsonDefault decimals) vs)) =
      utf8Length (dumpsItems floats (encodeItems floats (strDefault decimals) vs))
  | [], _ => rfl
  | v :: vs, ⟨hv, hvs⟩ => by
    simp only [encodeItems, dumpsItems, utf8Length_cons, utf8Length_append]
    rw [utf8Length_encode v hv, utf8Length_encodeItems vs hvs]

/-- Plain values under keys take as many bytes with either default. -/
theorem utf8Length_encodePairs : ∀ ps : List (Key F × Value F D), PlainPairs floats ps →
    utf8Length (dumpsPairs floats (encodePairs floats (jsonDefault decimals) ps)) =
      utf8Length (dumpsPairs floats (encodePairs floats (strDefault decimals) ps))
  | [], _ => rfl
  | (k, v) :: ps, ⟨hv, hps⟩ => by
    simp only [encodePairs, dumpsPairs, utf8Length_cons, utf8Length_append]
    rw [utf8Length_encode v hv, utf8Length_encodePairs ps hps]

end

-- A row as a value.
private def asValue (row : Row F D) : Value F D := .dict (row.entries.map fun e ↦ (.str e.1, e.2))

private theorem encode_asValue (default : Foreign D → Json F) (row : Row F D) :
    encode floats default (asValue row) = encodeRow floats default row := by
  have hpairs (es : List (Text × Value F D)) :
      encodePairs floats default (es.map fun e ↦ (.str e.1, e.2)) =
        es.map fun e ↦ (e.1, encode floats default e.2) := by
    induction es with
    | nil => rfl
    | cons e es ih => rw [List.map_cons, List.map_cons, encodePairs, ih, Key.text]
  rw [asValue, encode, hpairs, encodeRow]
  rfl

private theorem plain_asValue {row : Row F D} (h : ∀ v ∈ row.values, Plain floats v) :
    Plain floats (asValue row) := by
  have hpairs (es : List (Text × Value F D)) (h : ∀ v ∈ es.map Prod.snd, Plain floats v) :
      PlainPairs floats (es.map fun e ↦ ((.str e.1 : Key F), e.2)) := by
    induction es with
    | nil => trivial
    | cons e es ih =>
      refine ⟨h e.2 (List.mem_cons_self ..), ih fun v hv ↦ h v ?_⟩
      exact List.mem_cons_of_mem _ hv
  rw [asValue, Plain, List.map_map]
  exact ⟨row.nodup, hpairs row.entries h⟩

/-- The JSON form of a row that has been stored and read back. -/
theorem encodeRow_reloadRow (default : Foreign D → Json F) (row : Row F D) :
    encodeRow floats default (reloadRow floats decimals row) =
      .dict (row.entries.map fun e ↦
        (e.1, collapse (encode floats (jsonDefault decimals) e.2))) := by
  rw [encodeRow, Json.dict.injEq]
  show List.map _ (List.map _ row.entries) = _
  rw [List.map_map]
  apply List.map_congr_left
  intro e _
  show (e.1, encode floats default (ofJson _)) = _
  rw [encode_ofJson]

/-- A row of plain values takes as many bytes as before, once it is stored and read back. -/
theorem rowBytes_reloadRow {row : Row F D} (h : ∀ v ∈ row.values, Plain floats v) :
    rowBytes floats decimals (reloadRow floats decimals row) = rowBytes floats decimals row := by
  have hplain := plain_asValue floats h
  have hsame := utf8Length_encode floats decimals (asValue row) hplain
  rw [encode_asValue, encode_asValue] at hsame
  have hcollapse : encodeRow floats (strDefault decimals) (reloadRow floats decimals row) =
      encodeRow floats (jsonDefault decimals) row := by
    rw [encodeRow_reloadRow, encodeRow, Json.dict.injEq]
    apply List.map_congr_left
    intro e he
    rw [collapse_of_distinct _ (distinct_encode floats decimals e.2 ?_)]
    exact h e.2 (List.mem_map_of_mem he)
  rw [rowBytes, hcollapse, hsame, rowBytes]

end Sizes

end SalesData.Cache

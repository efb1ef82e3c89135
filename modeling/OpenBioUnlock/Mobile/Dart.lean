import Mathlib.Data.List.DropRight
import OpenBioUnlock.Desktop.Qt

/-!
# The Dart types the phone is written in

A Dart `String` is a list of UTF-16 code units, and `Uint8List` a list of bytes.
`utf8.encode` writes U+FFFD for a surrogate without its partner, where Qt writes
`?`; on text without such surrogates the two agree (`utf8Encode_eq_toUtf8`).
`utf8.decode` is strict, and drops a byte order mark at the start.

`_hex` and `_fromHex` are the codec of `crypto_service.dart`.  `_fromHex` reads
two code units at a time with `int.tryParse`, which takes white space around a
number and a sign before its digits.
-/

namespace OpenBioUnlock.Mobile

open Codec

abbrev Uint8List := List UInt8

abbrev DString := List UInt16

/-! ## Text -/

/-- The UTF-16 code units of a character. -/
def utf16 (c : Char) : DString :=
  let code := c.toNat
  if code < 0x10000 then [UInt16.ofNat code]
  else [UInt16.ofNat (0xD800 + (code - 0x10000) / 1024),
    UInt16.ofNat (0xDC00 + (code - 0x10000) % 1024)]

/-- A text as a Dart string. -/
def ofString (text : String) : DString :=
  text.toList.flatMap utf16

/-- The UTF-8 bytes of U+FFFD. -/
def replacementCharacter : Uint8List := [0xEF, 0xBF, 0xBD]

/-- `utf8.encode`. -/
def utf8Encode : DString → Uint8List
  | [] => []
  | [c] =>
      if Desktop.isHighSurrogate c || Desktop.isLowSurrogate c then replacementCharacter
      else Desktop.encodeUtf8 c.toNat
  | c :: d :: rest =>
      if Desktop.isHighSurrogate c then
        if Desktop.isLowSurrogate d then
          Desktop.encodeUtf8 (0x10000 + (c.toNat - 0xD800) * 1024 + (d.toNat - 0xDC00)) ++
            utf8Encode rest
        else replacementCharacter ++ utf8Encode (d :: rest)
      else if Desktop.isLowSurrogate c then replacementCharacter ++ utf8Encode (d :: rest)
      else Desktop.encodeUtf8 c.toNat ++ utf8Encode (d :: rest)

/-- Every surrogate has its partner. -/
def WellFormed : DString → Prop
  | [] => True
  | [c] => Desktop.isHighSurrogate c = false ∧ Desktop.isLowSurrogate c = false
  | c :: d :: rest =>
      if Desktop.isHighSurrogate c then Desktop.isLowSurrogate d = true ∧ WellFormed rest
      else Desktop.isLowSurrogate c = false ∧ WellFormed (d :: rest)

/-- **The two encoders agree** on well-formed text. -/
theorem utf8Encode_eq_toUtf8 {s : DString} (h : WellFormed s) :
    utf8Encode s = Desktop.toUtf8 s := by
  induction s using WellFormed.induct with
  | case1 => rfl
  | case2 c =>
      rw [WellFormed] at h
      simp [utf8Encode, Desktop.toUtf8, h]
  | case3 c d rest hhigh ih =>
      rw [WellFormed, if_pos hhigh] at h
      simp only [utf8Encode, Desktop.toUtf8, hhigh, h.1, if_true, ih h.2]
  | case4 c d rest hhigh ih =>
      rw [WellFormed, if_neg hhigh] at h
      simp only [utf8Encode, Desktop.toUtf8, hhigh, h.1, Bool.false_eq_true, if_false, ih h.2]

/-- Drop a byte order mark. -/
def dropByteOrderMark : Uint8List → Uint8List
  | 0xEF :: 0xBB :: 0xBF :: rest => rest
  | bytes => bytes

/-- `utf8.decode`, which throws on what is not UTF-8. -/
def utf8Decode (bytes : Uint8List) : Option DString :=
  (String.fromUTF8? (dropByteOrderMark bytes).toByteArray).map ofString

/-- A scalar value: below the code space's end, and no surrogate. -/
theorem toNat_valid (c : Char) : c.toNat < 0xD800 ∨ 0xDFFF < c.toNat ∧ c.toNat < 0x110000 :=
  c.valid

/-- The bytes of a character, as Lean has them. -/
theorem encodeUtf8_toNat (c : Char) : Desktop.encodeUtf8 c.toNat = String.utf8EncodeChar c := by
  have hvalid := toNat_valid c
  unfold Desktop.encodeUtf8 String.utf8EncodeChar
  have hval : c.val.toNat = c.toNat := rfl
  simp only [hval]
  generalize c.toNat = n at hvalid
  have hbyte : ∀ a b : ℕ, a = b → UInt8.ofNat a = UInt8.ofNat b := fun a b h => by rw [h]
  split_ifs with h1 h2 h3 h4 h5 h6 h7 <;> try omega
  · rfl
  · rw [hbyte (0xC0 + n / 64) (n / 64 % 32 + 0xC0) (by omega),
      hbyte (0x80 + n % 64) (n % 64 + 0x80) (by omega)]
  · rw [hbyte (0xE0 + n / 4096) (n / 4096 % 16 + 0xE0) (by omega),
      hbyte (0x80 + n / 64 % 64) (n / 64 % 64 + 0x80) (by omega),
      hbyte (0x80 + n % 64) (n % 64 + 0x80) (by omega)]
  · rw [hbyte (0xF0 + n / 262144) (n / 262144 % 8 + 0xF0) (by omega),
      hbyte (0x80 + n / 4096 % 64) (n / 4096 % 64 + 0x80) (by omega),
      hbyte (0x80 + n / 64 % 64) (n / 64 % 64 + 0x80) (by omega),
      hbyte (0x80 + n % 64) (n % 64 + 0x80) (by omega)]

/-- A character in front is encoded in front. -/
theorem utf8Encode_utf16_append (c : Char) (rest : DString) :
    utf8Encode (utf16 c ++ rest) = String.utf8EncodeChar c ++ utf8Encode rest := by
  have hvalid := toNat_valid c
  rw [← encodeUtf8_toNat, utf16]
  generalize c.toNat = n at hvalid
  have hsize : UInt16.size = 65536 := rfl
  by_cases hplane : n < 0x10000
  · have hback : (UInt16.ofNat n).toNat = n := UInt16.toNat_ofNat_of_lt' (by omega)
    have hhigh : Desktop.isHighSurrogate (UInt16.ofNat n) = false := by
      simp only [Desktop.isHighSurrogate, UInt16.le_iff_toNat_le, hback]
      simp
      omega
    have hlow : Desktop.isLowSurrogate (UInt16.ofNat n) = false := by
      simp only [Desktop.isLowSurrogate, UInt16.le_iff_toNat_le, hback]
      simp
      omega
    rw [if_pos hplane]
    cases rest with
    | nil => simp [utf8Encode, hhigh, hlow, hback]
    | cons d rest => simp [utf8Encode, hhigh, hlow, hback]
  · have hfirst : (UInt16.ofNat (0xD800 + (n - 0x10000) / 1024)).toNat =
        0xD800 + (n - 0x10000) / 1024 := UInt16.toNat_ofNat_of_lt' (by omega)
    have hsecond : (UInt16.ofNat (0xDC00 + (n - 0x10000) % 1024)).toNat =
        0xDC00 + (n - 0x10000) % 1024 := UInt16.toNat_ofNat_of_lt' (by omega)
    have hhigh : Desktop.isHighSurrogate (UInt16.ofNat (0xD800 + (n - 0x10000) / 1024)) =
        true := by
      simp only [Desktop.isHighSurrogate, UInt16.le_iff_toNat_le, hfirst]
      simp
      omega
    have hlow : Desktop.isLowSurrogate (UInt16.ofNat (0xDC00 + (n - 0x10000) % 1024)) =
        true := by
      simp only [Desktop.isLowSurrogate, UInt16.le_iff_toNat_le, hsecond]
      simp
      omega
    have hcode : 0x10000 + (0xD800 + (n - 0x10000) / 1024 - 0xD800) * 1024 +
        (0xDC00 + (n - 0x10000) % 1024 - 0xDC00) = n := by omega
    rw [if_neg hplane]
    simp only [List.cons_append, List.nil_append, utf8Encode, hhigh, hlow, hfirst, hsecond,
      if_true, hcode]

/-- **Lean's encoder and Dart's agree** on a text. -/
theorem utf8Encode_ofString (text : String) :
    (utf8Encode (ofString text)).toByteArray = text.toByteArray := by
  rw [← String.utf8Encode_toList, List.utf8Encode, ofString]
  congr 1
  induction text.toList with
  | nil => rfl
  | cons c rest ih => rw [List.flatMap_cons, utf8Encode_utf16_append, ih, List.flatMap_cons]

/-- **What is decoded is encoded back**, but for a byte order mark. -/
theorem utf8Encode_of_decode {bytes : Uint8List} {s : DString} (h : utf8Decode bytes = some s) :
    utf8Encode s = dropByteOrderMark bytes := by
  obtain ⟨text, htext, rfl⟩ := Option.map_eq_some_iff.mp h
  rw [String.fromUTF8?] at htext
  split_ifs at htext with hvalid
  have hbytes : text.toByteArray = (dropByteOrderMark bytes).toByteArray := by
    rw [← Option.some.inj htext]
    rfl
  exact List.toByteArray_inj.mp ((utf8Encode_ofString text).trans hbytes)

theorem dropByteOrderMark_ascii {bytes : Uint8List} (h : ∀ b ∈ bytes, b < 128) :
    dropByteOrderMark bytes = bytes := by
  unfold dropByteOrderMark
  split
  · exact absurd (h 0xEF (by simp)) (by decide)
  · rfl

/-- ASCII bytes as text. -/
def asciiString (bytes : Uint8List) : String :=
  String.ofList (bytes.map fun b => Char.ofNat b.toNat)

/-- One character, in both encodings. -/
theorem char_ascii {b : UInt8} (h : b < 128) : utf16 (Char.ofNat b.toNat) = [b.toUInt16] ∧
    String.utf8EncodeChar (Char.ofNat b.toNat) = [b] := by
  have key : ∀ n : Fin 128, utf16 (Char.ofNat n.val) = [(UInt8.ofNat n.val).toUInt16] ∧
      String.utf8EncodeChar (Char.ofNat n.val) = [UInt8.ofNat n.val] := by decide +kernel
  simpa using key ⟨b.toNat, UInt8.lt_iff_toNat_lt.mp h⟩

theorem ofString_asciiString {bytes : Uint8List} (h : ∀ b ∈ bytes, b < 128) :
    ofString (asciiString bytes) = Desktop.fromLatin1 bytes := by
  rw [ofString, asciiString, String.toList_ofList, List.flatMap_map, Desktop.fromLatin1,
    List.map_eq_flatMap]
  exact List.flatMap_congr fun b hb => (char_ascii (h b hb)).1

theorem toByteArray_asciiString {bytes : Uint8List} (h : ∀ b ∈ bytes, b < 128) :
    (asciiString bytes).toByteArray = bytes.toByteArray := by
  have hbytes : (bytes.map fun b => Char.ofNat b.toNat).flatMap String.utf8EncodeChar =
      bytes.map id := by
    rw [List.flatMap_map, List.map_eq_flatMap]
    exact List.flatMap_congr fun b hb => (char_ascii (h b hb)).2
  rw [← String.utf8Encode_toList, List.utf8Encode, asciiString, String.toList_ofList, hbytes,
    List.map_id]

/-- The check of the bytes one after the other. -/
theorem ascii_of_all {bytes : Uint8List} (h : bytes.all (· < 128) = true) :
    ∀ b ∈ bytes, b < 128 := by
  intro b hb
  exact of_decide_eq_true (List.all_eq_true.mp h b hb)

/-- **ASCII bytes are decoded one by one.** -/
theorem utf8Decode_ascii {bytes : Uint8List} (h : ∀ b ∈ bytes, b < 128) :
    utf8Decode bytes = some (Desktop.fromLatin1 bytes) := by
  have hread : String.fromUTF8? (asciiString bytes).toByteArray = some (asciiString bytes) := by
    rw [String.fromUTF8?, dif_pos (asciiString bytes).isValidUTF8]
    rfl
  rw [utf8Decode, dropByteOrderMark_ascii h, ← toByteArray_asciiString h, hread, Option.map_some,
    ofString_asciiString h]

/-! ## JSON -/

/-- A `dynamic` value that JSON can hold. -/
inductive DartDynamic where
  | null
  | bool (b : Bool)
  | int (n : Int64)
  /-- a `double`, by its IEEE bits -/
  | double (bits : UInt64)
  | string (s : DString)
  | list (items : List DartDynamic)
  | map (entries : List (DString × DartDynamic))

/-- `Map<String, dynamic>`. -/
abbrev DartMap := List (DString × DartDynamic)

/-- `map[key]`: null for a key that is not there. -/
def DartMap.get (entries : DartMap) (key : String) : DartDynamic :=
  (entries.lookup (ofString key)).getD .null

def entry (key : String) (v : DartDynamic) : DString × DartDynamic :=
  (ofString key, v)

/-! ## Hexadecimal text -/

/-- `int.toRadixString(16)`. -/
def toRadixString16 (byte : UInt8) : DString :=
  (Desktop.digitsOf 16 byte.toNat).map UInt8.toUInt16

/-- `String.padLeft(2, '0')`. -/
def padLeft2 (text : DString) : DString :=
  List.replicate (2 - text.length) 48 ++ text

/-- `_hex`. -/
def hex (bytes : Uint8List) : DString :=
  bytes.flatMap fun byte => padLeft2 (toRadixString16 byte)

/-- The value of a hexadecimal digit. -/
def digitValue? (c : UInt16) : Option ℤ :=
  if c < 256 then (hexValue? c.toUInt8).map fun value => (value.toNat : ℤ) else none

/-- The digits of a number in base 16, at least one. -/
def natural16? (digits : DString) : Option ℤ :=
  if digits = [] then none
  else digits.foldlM (fun value c => (digitValue? c).map fun digit => value * 16 + digit) 0

/-- What Dart takes for white space: the property of Unicode, and the byte order mark. -/
def isWhitespace (c : UInt16) : Bool :=
  (9 ≤ c && c ≤ 13) || c = 32 || c = 0x85 || c = 0xA0 || c = 0x1680 ||
    (0x2000 ≤ c && c ≤ 0x200A) || c = 0x2028 || c = 0x2029 || c = 0x202F || c = 0x205F ||
    c = 0x3000 || c = 0xFEFF

/-- The text without the white space at its ends. -/
def trim (text : DString) : DString :=
  (text.dropWhile isWhitespace).rdropWhile isWhitespace

/-- `int.tryParse(text, radix: 16)`: digits, after a sign or none, in white space. -/
def tryParse16 (text : DString) : Option ℤ :=
  match trim text with
  | 43 :: digits => natural16? digits
  | 45 :: digits => (natural16? digits).map fun value => -value
  | digits => natural16? digits

/-- The low eight bits of an integer, which `Uint8List.fromList` keeps. -/
def lowByte (value : ℤ) : UInt8 := UInt8.ofNat (value % 256).toNat

/-- `_fromHex`, which throws on an odd length and on a pair that is no number. -/
def fromHex : DString → Option Uint8List
  | [] => some []
  | [_] => none
  | hi :: lo :: rest =>
      (tryParse16 [hi, lo]).bind fun byte => (fromHex rest).map fun bytes => lowByte byte :: bytes

/-- The two digits of a byte. -/
theorem padLeft2_toRadixString16 (byte : UInt8) :
    padLeft2 (toRadixString16 byte) = (hexByte byte).map UInt8.toUInt16 := by
  have key : ∀ n : Fin 256, padLeft2 (toRadixString16 (UInt8.ofNat n)) =
      (hexByte (UInt8.ofNat n)).map UInt8.toUInt16 := by decide +kernel
  simpa using key ⟨byte.toNat, byte.toNat_lt⟩

/-- **`_hex` writes what the other codecs write.** -/
theorem hex_eq_hexEncode (bytes : Uint8List) : hex bytes = (hexEncode bytes).map UInt8.toUInt16 := by
  induction bytes with
  | nil => rfl
  | cons byte rest ih =>
      have hcons : hexEncode (byte :: rest) = hexByte byte ++ hexEncode rest := rfl
      rw [hex, List.flatMap_cons, ← hex, padLeft2_toRadixString16, ih, hcons, List.map_append]

theorem tryParse16_hexByte (byte : UInt8) :
    (tryParse16 ((hexByte byte).map UInt8.toUInt16)).map lowByte = some byte := by
  have key : ∀ n : Fin 256, (tryParse16 ((hexByte (UInt8.ofNat n)).map UInt8.toUInt16)).map
      lowByte = some (UInt8.ofNat n) := by decide +kernel
  simpa using key ⟨byte.toNat, byte.toNat_lt⟩

/-- **`_fromHex` reads what `_hex` wrote.** -/
@[simp] theorem fromHex_hex (bytes : Uint8List) : fromHex (hex bytes) = some bytes := by
  induction bytes with
  | nil => rfl
  | cons byte rest ih =>
      obtain ⟨value, hvalue, hlow⟩ := Option.map_eq_some_iff.mp (tryParse16_hexByte byte)
      have hpair : (hexByte byte).map UInt8.toUInt16 =
          [(hexDigit (byte / 16)).toUInt16, (hexDigit (byte % 16)).toUInt16] := rfl
      rw [hpair] at hvalue
      rw [hex, List.flatMap_cons, ← hex, padLeft2_toRadixString16, hpair]
      simp only [List.cons_append, List.nil_append, fromHex, hvalue, Option.bind_some, ih,
        Option.map_some, hlow]

/-- What `_hex` wrote, Qt reads as well. -/
@[simp] theorem fromHex_toLatin1_hex (bytes : Uint8List) :
    Desktop.fromHex (Desktop.toLatin1 (hex bytes)) = bytes := by
  rw [hex_eq_hexEncode]
  exact Desktop.fromHex_toHex bytes

/-- What Qt wrote, `_fromHex` reads as well. -/
@[simp] theorem fromHex_fromLatin1_toHex (bytes : Uint8List) :
    fromHex (Desktop.fromLatin1 (Desktop.toHex bytes)) = some bytes := by
  rw [Desktop.fromLatin1, Desktop.toHex, ← hex_eq_hexEncode, fromHex_hex]

end OpenBioUnlock.Mobile

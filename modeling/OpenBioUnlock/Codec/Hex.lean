import Mathlib.Data.List.Basic

/-!
# Hexadecimal text

Byte strings as hexadecimal text, two digits a byte, high half first.  Encoding
writes lower-case digits; the two decoders differ in what they do with text that
is not such an encoding:

* `hexDecode` is strict: an odd length or a character that is no digit is an
  error;
* `hexDecodeLoose` skips characters that are no digits and reads the digits from
  the end, so that an odd one out is the low half of a leading byte.

Both invert `hexEncode` (`hexDecode_encode`, `hexDecodeLoose_encode`).
-/

namespace Codec

/-- The ASCII bytes of a text literal. -/
def ascii (text : String) : List UInt8 :=
  text.toList.map fun c => c.toNat.toUInt8

/-- The `size` bytes of a number, most significant first. -/
def bigEndian : ℕ → ℕ → List UInt8
  | 0, _ => []
  | size + 1, n => bigEndian size (n / 256) ++ [UInt8.ofNat n]

@[simp] theorem bigEndian_length (size n : ℕ) : (bigEndian size n).length = size := by
  induction size generalizing n with
  | zero => rfl
  | succ size ih => rw [bigEndian, List.length_append, ih, List.length_singleton]

/-- The first `size` bytes of 32-byte words. -/
def bytesOf (size : ℕ) (words : List ℕ) : List UInt8 :=
  (words.flatMap (bigEndian 32)).take size

/-- The lower-case digit of a value below sixteen. -/
def hexDigit (value : UInt8) : UInt8 :=
  if value < 10 then 48 + value else 87 + value

/-- The value of a hexadecimal digit, in either case. -/
def hexValue? (c : UInt8) : Option UInt8 :=
  if 48 ≤ c ∧ c ≤ 57 then some (c - 48)
  else if 97 ≤ c ∧ c ≤ 102 then some (c - 87)
  else if 65 ≤ c ∧ c ≤ 70 then some (c - 55)
  else none

/-- The two digits of a byte. -/
def hexByte (b : UInt8) : List UInt8 :=
  [hexDigit (b / 16), hexDigit (b % 16)]

def hexEncode (bytes : List UInt8) : List UInt8 :=
  bytes.flatMap hexByte

/-- Strict decoding. -/
def hexDecode : List UInt8 → Option (List UInt8)
  | [] => some []
  | [_] => none
  | hi :: lo :: rest => do
      let h ← hexValue? hi
      let l ← hexValue? lo
      let bytes ← hexDecode rest
      pure ((h * 16 + l) :: bytes)

/-- Pairs of digits, last digit first, as bytes, last byte first. -/
def pairDigits : List UInt8 → List UInt8
  | [] => []
  | [lo] => [lo]
  | lo :: hi :: rest => (hi * 16 + lo) :: pairDigits rest

/-- Decoding that skips what is no digit. -/
def hexDecodeLoose (text : List UInt8) : List UInt8 :=
  (pairDigits (text.filterMap hexValue?).reverse).reverse

@[simp] theorem hexEncode_nil : hexEncode [] = [] := rfl

@[simp] theorem hexEncode_cons (b : UInt8) (bytes : List UInt8) :
    hexEncode (b :: bytes) = hexDigit (b / 16) :: hexDigit (b % 16) :: hexEncode bytes := rfl

@[simp] theorem hexEncode_length (bytes : List UInt8) :
    (hexEncode bytes).length = 2 * bytes.length := by
  induction bytes with
  | nil => rfl
  | cons b rest ih =>
      simp only [hexEncode_cons, List.length_cons, ih]
      omega

/-- A digit reads back as its value. -/
theorem hexValue?_hexDigit {value : UInt8} (h : value < 16) :
    hexValue? (hexDigit value) = some value := by
  have key : ∀ n : Fin 16, hexValue? (hexDigit (UInt8.ofNat n)) = some (UInt8.ofNat n) := by
    decide
  have hlt : value.toNat < 16 := by simpa [UInt8.lt_iff_toNat_lt] using h
  simpa using key ⟨value.toNat, hlt⟩

theorem div_lt_sixteen (b : UInt8) : b / 16 < 16 := by
  have hb := b.toNat_lt
  rw [UInt8.lt_iff_toNat_lt, UInt8.toNat_div]
  simp only [UInt8.reduceToNat]
  omega

theorem mod_lt_sixteen (b : UInt8) : b % 16 < 16 := by
  rw [UInt8.lt_iff_toNat_lt, UInt8.toNat_mod]
  simp only [UInt8.reduceToNat]
  omega

theorem hexDigit_lt {value : UInt8} (h : value < 16) : hexDigit value < 128 := by
  unfold hexDigit
  rw [UInt8.lt_iff_toNat_lt] at h ⊢
  split <;> simp only [UInt8.toNat_add, UInt8.reduceToNat] at h ⊢ <;> omega

/-- Hexadecimal text is ASCII. -/
theorem hexEncode_lt {bytes : List UInt8} {c : UInt8} (hc : c ∈ hexEncode bytes) : c < 128 := by
  obtain ⟨b, -, hc⟩ := List.mem_flatMap.mp hc
  simp only [hexByte, List.mem_cons, List.not_mem_nil, or_false] at hc
  obtain rfl | rfl := hc
  · exact hexDigit_lt (div_lt_sixteen b)
  · exact hexDigit_lt (mod_lt_sixteen b)

/-- A byte is its two halves. -/
theorem halves (b : UInt8) : b / 16 * 16 + b % 16 = b := by
  have hb := b.toNat_lt
  apply UInt8.toNat_inj.mp
  rw [UInt8.toNat_add, UInt8.toNat_mul, UInt8.toNat_div, UInt8.toNat_mod]
  simp only [UInt8.reduceToNat]
  omega

/-- **Strict decoding inverts encoding.** -/
@[simp] theorem hexDecode_encode (bytes : List UInt8) :
    hexDecode (hexEncode bytes) = some bytes := by
  induction bytes with
  | nil => rfl
  | cons b rest ih =>
      simp [hexDecode, hexValue?_hexDigit (div_lt_sixteen b),
        hexValue?_hexDigit (mod_lt_sixteen b), ih, halves]

/-- The digits of an encoding are read without loss. -/
theorem filterMap_hexEncode (bytes : List UInt8) :
    (hexEncode bytes).filterMap hexValue? = bytes.flatMap fun b => [b / 16, b % 16] := by
  induction bytes with
  | nil => rfl
  | cons b rest ih =>
      simp [hexValue?_hexDigit (div_lt_sixteen b), hexValue?_hexDigit (mod_lt_sixteen b), ih]

theorem pairDigits_append_pair (digits : List UInt8) (h : digits.length % 2 = 0)
    (lo hi : UInt8) : pairDigits (digits ++ [lo, hi]) = pairDigits digits ++ [hi * 16 + lo] := by
  induction digits using pairDigits.induct with
  | case1 => rfl
  | case2 lo => simp at h
  | case3 a b rest ih =>
      have hrest : rest.length % 2 = 0 := by
        simp only [List.length_cons] at h
        omega
      simp [pairDigits, ih hrest]

/-- **Loose decoding inverts encoding.** -/
@[simp] theorem hexDecodeLoose_encode (bytes : List UInt8) :
    hexDecodeLoose (hexEncode bytes) = bytes := by
  rw [hexDecodeLoose, filterMap_hexEncode, List.reverse_eq_iff]
  induction bytes with
  | nil => rfl
  | cons b rest ih =>
      have heven : (rest.flatMap fun b => [b / 16, b % 16]).reverse.length % 2 = 0 := by
        simp [List.length_flatMap]
      rw [List.flatMap_cons, List.reverse_append]
      simp only [List.reverse_cons, List.reverse_nil, List.nil_append, List.cons_append]
      rw [pairDigits_append_pair _ heven, ih, halves]

end Codec

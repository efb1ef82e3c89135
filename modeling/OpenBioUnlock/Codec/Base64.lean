import Mathlib.Data.Nat.Notation
import Mathlib.Tactic.IntervalCases
import Mathlib.Tactic.SplitIfs

/-!
# Base64 text

The padded encoding with the alphabet of RFC 4648, and the lenient decoder that goes with
it: the decoder collects six bits of every character of the alphabet, hands out a byte
whenever there are eight, and passes over all other characters.  It reads back what was
encoded (`base64Decode_encode`), the padding being passed over.
-/

namespace Codec

/-- The character of six bits. -/
def base64Char (value : ℕ) : UInt8 :=
  if value < 26 then UInt8.ofNat (65 + value)
  else if value < 52 then UInt8.ofNat (97 + (value - 26))
  else if value < 62 then UInt8.ofNat (48 + (value - 52))
  else if value = 62 then 43
  else 47

/-- The six bits of a character of the alphabet. -/
def base64Value? (c : UInt8) : Option ℕ :=
  if 65 ≤ c ∧ c ≤ 90 then some (c.toNat - 65)
  else if 97 ≤ c ∧ c ≤ 122 then some (c.toNat - 97 + 26)
  else if 48 ≤ c ∧ c ≤ 57 then some (c.toNat - 48 + 52)
  else if c = 43 then some 62
  else if c = 47 then some 63
  else none

/-- Three bytes become four characters; `=` stands in for what a last group lacks. -/
def base64Encode : List UInt8 → List UInt8
  | [] => []
  | [a] =>
      let chunk := a.toNat * 65536
      [base64Char (chunk / 262144), base64Char (chunk / 4096 % 64), 61, 61]
  | [a, b] =>
      let chunk := a.toNat * 65536 + b.toNat * 256
      [base64Char (chunk / 262144), base64Char (chunk / 4096 % 64),
        base64Char (chunk / 64 % 64), 61]
  | a :: b :: c :: rest =>
      let chunk := a.toNat * 65536 + b.toNat * 256 + c.toNat
      base64Char (chunk / 262144) :: base64Char (chunk / 4096 % 64) ::
        base64Char (chunk / 64 % 64) :: base64Char (chunk % 64) :: base64Encode rest

/-- The decoder, with the bits it holds and their number. -/
def base64DecodeFrom (bits count : ℕ) : List UInt8 → List UInt8
  | [] => []
  | c :: rest =>
      match base64Value? c with
      | none => base64DecodeFrom bits count rest
      | some value =>
          let bits := bits * 64 + value
          if 2 ≤ count then
            UInt8.ofNat (bits >>> (count - 2)) ::
              base64DecodeFrom (bits % (1 <<< (count - 2))) (count - 2) rest
          else base64DecodeFrom bits (count + 6) rest

def base64Decode (text : List UInt8) : List UInt8 :=
  base64DecodeFrom 0 0 text

theorem base64Value?_char {value : ℕ} (h : value < 64) :
    base64Value? (base64Char value) = some value := by
  interval_cases value <;> rfl

theorem base64Char_ne_zero (value : ℕ) : base64Char value ≠ 0 := by
  by_cases h : value < 62
  · interval_cases value <;> decide
  · rw [base64Char, if_neg (by omega), if_neg (by omega), if_neg h]
    split_ifs <;> decide

theorem base64DecodeFrom_pad {bits count : ℕ} (rest : List UInt8) :
    base64DecodeFrom bits count (61 :: rest) = base64DecodeFrom bits count rest := rfl

/-! ## Reading back -/

section Characters

variable {bits v v₀ v₁ : ℕ} (rest : List UInt8)

theorem base64DecodeFrom_two (h₀ : v₀ < 64) (h₁ : v₁ < 64) :
    base64DecodeFrom 0 0 (base64Char v₀ :: base64Char v₁ :: rest) =
      UInt8.ofNat (v₀ * 4 + v₁ / 16) :: base64DecodeFrom (v₁ % 16) 4 rest := by
  have hbyte : (v₀ * 64 + v₁) >>> 4 = v₀ * 4 + v₁ / 16 := by
    rw [Nat.shiftRight_eq_div_pow]
    omega
  have hbits : (v₀ * 64 + v₁) % 16 = v₁ % 16 := by omega
  simp [base64DecodeFrom, base64Value?_char h₀, base64Value?_char h₁, hbyte, hbits]

theorem base64DecodeFrom_third (h : v < 64) :
    base64DecodeFrom bits 4 (base64Char v :: rest) =
      UInt8.ofNat (bits * 16 + v / 4) :: base64DecodeFrom (v % 4) 2 rest := by
  have hbyte : (bits * 64 + v) >>> 2 = bits * 16 + v / 4 := by
    rw [Nat.shiftRight_eq_div_pow]
    omega
  have hbits : (bits * 64 + v) % 4 = v % 4 := by omega
  simp [base64DecodeFrom, base64Value?_char h, hbyte, hbits]

theorem base64DecodeFrom_fourth (h : v < 64) :
    base64DecodeFrom bits 2 (base64Char v :: rest) =
      UInt8.ofNat (bits * 64 + v) :: base64DecodeFrom 0 0 rest := by
  simp [base64DecodeFrom, base64Value?_char h, Nat.mod_one]

end Characters

theorem ofNat_eq {n : ℕ} {b : UInt8} (h : n = b.toNat) : UInt8.ofNat n = b := by
  rw [h, UInt8.ofNat_toNat]

/-- **What was encoded reads back.** -/
@[simp] theorem base64Decode_encode (bytes : List UInt8) :
    base64Decode (base64Encode bytes) = bytes := by
  rw [base64Decode]
  induction bytes using base64Encode.induct with
  | case1 => rfl
  | case2 a =>
      have ha := a.toNat_lt
      rw [base64Encode, base64DecodeFrom_two _ (by omega) (by omega),
        base64DecodeFrom_pad, base64DecodeFrom_pad, ofNat_eq (b := a) (by omega)]
      rfl
  | case3 a b =>
      have ha := a.toNat_lt
      have hb := b.toNat_lt
      rw [base64Encode, base64DecodeFrom_two _ (by omega) (by omega),
        base64DecodeFrom_third _ (by omega), base64DecodeFrom_pad, ofNat_eq (b := a) (by omega),
        ofNat_eq (b := b) (by omega)]
      rfl
  | case4 a b c rest ih =>
      have ha := a.toNat_lt
      have hb := b.toNat_lt
      have hc := c.toNat_lt
      rw [base64Encode, base64DecodeFrom_two _ (by omega) (by omega),
        base64DecodeFrom_third _ (by omega), base64DecodeFrom_fourth _ (by omega),
        ofNat_eq (b := a) (by omega), ofNat_eq (b := b) (by omega), ofNat_eq (b := c) (by omega), ih]

/-- **The text is a C string.** -/
theorem zero_not_mem_base64Encode (bytes : List UInt8) : 0 ∉ base64Encode bytes := by
  have hno : ∀ value, ¬ 0 = base64Char value := fun value => (base64Char_ne_zero value).symm
  induction bytes using base64Encode.induct with
  | case1 => simp [base64Encode]
  | case2 a => simp [base64Encode, hno]
  | case3 a b => simp [base64Encode, hno]
  | case4 a b c rest ih => simp [base64Encode, hno, ih]

end Codec

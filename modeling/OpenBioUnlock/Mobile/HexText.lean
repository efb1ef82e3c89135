import Mathlib.Algebra.Group.Nat.Even
import OpenBioUnlock.Mobile.CryptoService

/-!
# Hexadecimal text on the phone

`_hex` and `_fromHex` of `crypto_service.dart`, and their twins `_hex` and
`_decodeHex` of `main.dart`.  What the one writes the other reads.

The readers should take hexadecimal text and nothing else.  They take every pair that
`int.tryParse` takes, and that is a pair of digits, or a sign and a digit, or a digit
beside white space; what comes of it keeps its low eight bits.  `hex_text_iff` says
which texts are read as they should be.
-/

namespace OpenBioUnlock.Mobile

open Codec

/-! ## The twins of `main.dart` -/

/-- `_hex` of `main.dart`. -/
def Main.hex (bytes : Uint8List) : DString :=
  Mobile.hex bytes

/-- `_decodeHex` of `main.dart`. -/
def Main.decodeHex (value : DString) : Except DartError Uint8List :=
  match fromHex value with
  | some bytes => .ok bytes
  | none => .error (.formatException "invalid hexadecimal value")

/-! ## Hexadecimal text -/

/-- 0 to 9, a to f, A to F. -/
def isHexDigit (c : UInt16) : Bool :=
  (48 ≤ c && c ≤ 57) || (97 ≤ c && c ≤ 102) || (65 ≤ c && c ≤ 70)

/-- The value of a digit. -/
def digitOf (c : UInt16) : ℕ :=
  if c ≤ 57 then c.toNat - 48 else if c ≤ 70 then c.toNat - 55 else c.toNat - 87

/-- An even number of digits. -/
def IsHexText (text : DString) : Prop :=
  Even text.length ∧ ∀ c ∈ text, isHexDigit c = true

/-- The pieces of two characters. -/
def pairs : DString → List (UInt16 × UInt16)
  | hi :: lo :: rest => (hi, lo) :: pairs rest
  | _ => []

/-- The bytes that pairs of digits denote. -/
def denoted (text : DString) : Uint8List :=
  (pairs text).map fun p => UInt8.ofNat (16 * digitOf p.1 + digitOf p.2)

/-- A reader takes a text if it is hexadecimal, as the bytes it denotes, and throws a
`FormatException` otherwise. -/
structure ReadsHex (read : DString → Except DartError Uint8List) (text : DString) : Prop where
  takes : IsHexText text → read text = .ok (denoted text)
  refuses : ¬ IsHexText text → ∃ message, read text = .error (.formatException message)

/-- The pair is two digits. -/
def Digits (p : UInt16 × UInt16) : Prop :=
  isHexDigit p.1 = true ∧ isHexDigit p.2 = true

/-- The pair is a sign and a digit. -/
def Signed (p : UInt16 × UInt16) : Prop :=
  (p.1 = 43 ∨ p.1 = 45) ∧ isHexDigit p.2 = true

/-- The pair is a digit and white space, on either side. -/
def Spaced (p : UInt16 × UInt16) : Prop :=
  (isWhitespace p.1 = true ∧ isHexDigit p.2 = true) ∨
    (isHexDigit p.1 = true ∧ isWhitespace p.2 = true)

/-- The pair is a number, but not two digits. -/
def Loose (p : UInt16 × UInt16) : Prop :=
  Signed p ∨ Spaced p

/-- **The text is misread**: its pairs are digits or loose, and one is loose. -/
def Misread (text : DString) : Prop :=
  Even text.length ∧ (∀ p ∈ pairs text, Digits p ∨ Loose p) ∧ ∃ p ∈ pairs text, Loose p

/-! ## One pair -/

variable {text rest : DString} {c hi lo : UInt16}

/-- The digits are among the first 128 characters. -/
theorem isHexDigit_eq_false (hc : ¬ c < 128) : isHexDigit c = false := by
  rw [UInt16.lt_iff_toNat_lt] at hc
  simp only [isHexDigit, UInt16.le_iff_toNat_le]
  simp at hc ⊢
  omega

theorem digitValue?_eq (c : UInt16) :
    digitValue? c = if isHexDigit c then some (digitOf c : ℤ) else none := by
  have key : ∀ n : Fin 256, digitValue? (UInt16.ofNat n) =
      if isHexDigit (UInt16.ofNat n) then some (digitOf (UInt16.ofNat n) : ℤ) else none := by
    decide +kernel
  by_cases hc : c < 256
  · simpa using key ⟨c.toNat, UInt16.lt_iff_toNat_lt.mp hc⟩
  · have hnone : isHexDigit c = false := by
      refine isHexDigit_eq_false fun h => hc ?_
      rw [UInt16.lt_iff_toNat_lt] at h ⊢
      exact lt_trans h (by decide)
    simp [digitValue?, hc, hnone]

theorem not_digit_sign (h : c = 43 ∨ c = 45) : isHexDigit c = false := by
  rcases h with rfl | rfl <;> decide

theorem not_space_sign (h : c = 43 ∨ c = 45) : isWhitespace c = false := by
  rcases h with rfl | rfl <;> decide

/-- No digit is white space. -/
theorem not_space_digit (h : isHexDigit c = true) : isWhitespace c = false := by
  have key : ∀ n : Fin 128, isHexDigit (UInt16.ofNat n) = true →
      isWhitespace (UInt16.ofNat n) = false := by
    decide
  have hc : c < 128 := by
    by_contra hc
    rw [isHexDigit_eq_false hc] at h
    cases h
  have hkey := key ⟨c.toNat, UInt16.lt_iff_toNat_lt.mp hc⟩
  simp only [UInt16.ofNat_toNat] at hkey
  exact hkey h

@[simp] theorem natural16?_one : natural16? [c] = digitValue? c := by
  cases hc : digitValue? c <;> simp [natural16?, hc]

@[simp] theorem natural16?_two : natural16? [hi, lo] =
    (digitValue? hi).bind fun a => (digitValue? lo).map fun b => a * 16 + b := by
  cases hhi : digitValue? hi <;> simp [natural16?, hhi]

theorem lowByte_natCast (n : ℕ) : lowByte n = UInt8.ofNat n := by
  have hmod : ((n : ℤ) % 256).toNat = n % 256 := by omega
  rw [lowByte, hmod]
  exact UInt8.ofNat_mod_size

/-- Of two characters, `trim` keeps those that are no white space. -/
theorem trim_two : trim [hi, lo] = [hi, lo].filter fun c => !isWhitespace c := by
  cases hhi : isWhitespace hi <;> cases hlo : isWhitespace lo <;>
    simp [trim, List.rdropWhile, hhi, hlo]

/-- A number without a sign. -/
theorem tryParse16_unsigned (htrim : trim text = c :: rest) (h : ¬ (c = 43 ∨ c = 45)) :
    tryParse16 text = natural16? (c :: rest) := by
  rw [not_or] at h
  unfold tryParse16
  rw [htrim]
  split
  · rename_i hsplit
    exact absurd (List.cons.inj hsplit).1 h.1
  · rename_i hsplit
    exact absurd (List.cons.inj hsplit).1 h.2
  · rfl

/-- A single character is a number if it is a digit. -/
theorem tryParse16_isSome_one (htrim : trim text = [c]) :
    (tryParse16 text).isSome ↔ isHexDigit c = true := by
  by_cases hsign : c = 43 ∨ c = 45
  · rw [not_digit_sign hsign]
    rcases hsign with rfl | rfl <;> simp [tryParse16, htrim, natural16?]
  · rw [tryParse16_unsigned htrim hsign, natural16?_one, digitValue?_eq]
    cases isHexDigit c <;> simp

/-- **A pair of digits is read as the byte it denotes.** -/
theorem tryParse16_digits (h : Digits (hi, lo)) :
    (tryParse16 [hi, lo]).map lowByte = some (UInt8.ofNat (16 * digitOf hi + digitOf lo)) := by
  have hunsigned : ¬ (hi = 43 ∨ hi = 45) := by
    intro hsign
    have hdigit := h.1
    rw [not_digit_sign hsign] at hdigit
    cases hdigit
  have htrim : trim [hi, lo] = [hi, lo] := by
    simp [trim_two, not_space_digit h.1, not_space_digit h.2]
  have hsum : (digitOf hi : ℤ) * 16 + digitOf lo = ((16 * digitOf hi + digitOf lo : ℕ) : ℤ) := by
    push_cast
    ring
  simp only [tryParse16_unsigned htrim hunsigned, natural16?_two, digitValue?_eq, h.1, h.2,
    if_true, Option.bind_some, Option.map_some, hsum, lowByte_natCast]

/-- Two characters, neither of them white space. -/
theorem tryParse16_isSome_two (hhi : isWhitespace hi = false) (hlo : isWhitespace lo = false) :
    (tryParse16 [hi, lo]).isSome ↔ Digits (hi, lo) ∨ Signed (hi, lo) := by
  have htrim : trim [hi, lo] = [hi, lo] := by simp [trim_two, hhi, hlo]
  by_cases hsign : hi = 43 ∨ hi = 45
  · have hdigit := not_digit_sign hsign
    have hone : (tryParse16 [hi, lo]).isSome = (natural16? [lo]).isSome := by
      rcases hsign with rfl | rfl <;> simp [tryParse16, htrim]
    rw [hone, natural16?_one, digitValue?_eq]
    cases hdigitLo : isHexDigit lo <;> simp [Digits, Signed, hdigitLo, hdigit, hsign]
  · rw [tryParse16_unsigned htrim hsign, natural16?_two, digitValue?_eq, digitValue?_eq]
    cases hdigitHi : isHexDigit hi <;> cases hdigitLo : isHexDigit lo <;>
      simp [Digits, Signed, hdigitHi, hdigitLo, hsign]

/-- **What `int.tryParse` takes of two characters.** -/
theorem tryParse16_isSome : (tryParse16 [hi, lo]).isSome ↔ Digits (hi, lo) ∨ Loose (hi, lo) := by
  have hdigit : ∀ {c}, isWhitespace c = true → isHexDigit c = false := by
    intro c hspace
    by_contra hdigit
    rw [not_space_digit (Bool.not_eq_false _ ▸ hdigit)] at hspace
    cases hspace
  have hsign : isWhitespace hi = true → ¬ (hi = 43 ∨ hi = 45) := by
    intro hspace hsign
    rw [not_space_sign hsign] at hspace
    cases hspace
  cases hhi : isWhitespace hi with
  | false =>
      cases hlo : isWhitespace lo with
      | false => simp [tryParse16_isSome_two hhi hlo, Loose, Spaced, hhi, hlo]
      | true =>
          rw [tryParse16_isSome_one (c := hi) (by simp [trim_two, hhi, hlo])]
          simp [Digits, Loose, Signed, Spaced, hhi, hlo, hdigit hlo]
  | true =>
      cases hlo : isWhitespace lo with
      | false =>
          rw [tryParse16_isSome_one (c := lo) (by simp [trim_two, hhi, hlo])]
          simp [Digits, Loose, Signed, Spaced, hhi, hlo, hdigit hhi, hsign hhi]
      | true =>
          -- nothing is left to read
          have htrim : trim [hi, lo] = [] := by simp [trim_two, hhi, hlo]
          have hnone : tryParse16 [hi, lo] = none := by simp [tryParse16, htrim, natural16?]
          simp [hnone, Digits, Loose, Signed, Spaced, hdigit hhi, hdigit hlo]

/-! ## A text -/

/-- The text is read if its pairs are. -/
theorem fromHex_isSome : (fromHex text).isSome ↔
    Even text.length ∧ ∀ p ∈ pairs text, Digits p ∨ Loose p := by
  induction text using fromHex.induct with
  | case1 => simp [fromHex, pairs]
  | case2 c => simp [fromHex]
  | case3 hi lo rest ih =>
      have hlength : Even (hi :: lo :: rest).length ↔ Even rest.length := by
        simp [Nat.even_add_one]
      have hread : (fromHex (hi :: lo :: rest)).isSome ↔
          (tryParse16 [hi, lo]).isSome ∧ (fromHex rest).isSome := by
        rw [fromHex]
        cases tryParse16 [hi, lo] <;> simp
      rw [hread, tryParse16_isSome, ih, hlength, pairs, List.forall_mem_cons]
      tauto

/-- The digits of a text are those of its pairs. -/
theorem isHexText_iff : IsHexText text ↔ Even text.length ∧ ∀ p ∈ pairs text, Digits p := by
  induction text using fromHex.induct with
  | case1 => simp [IsHexText, pairs]
  | case2 c => simp [IsHexText]
  | case3 hi lo rest ih =>
      have hlength : Even (hi :: lo :: rest).length ↔ Even rest.length := by
        simp [Nat.even_add_one]
      rw [IsHexText, hlength, pairs, List.forall_mem_cons, List.forall_mem_cons,
        List.forall_mem_cons]
      rw [IsHexText] at ih
      simp only [Digits] at ih ⊢
      tauto

/-- Hexadecimal text is read as the bytes it denotes. -/
theorem fromHex_denoted (h : IsHexText text) : fromHex text = some (denoted text) := by
  rw [isHexText_iff] at h
  induction text using fromHex.induct with
  | case1 => rfl
  | case2 c => simp at h
  | case3 hi lo rest ih =>
      obtain ⟨hlength, hpairs⟩ := h
      rw [pairs, List.forall_mem_cons] at hpairs
      obtain ⟨value, hvalue, hbyte⟩ := Option.map_eq_some_iff.mp (tryParse16_digits hpairs.1)
      have hrest := ih ⟨by simpa [Nat.even_add_one] using hlength, hpairs.2⟩
      simp only [fromHex, hvalue, Option.bind_some, hrest, Option.map_some, hbyte, denoted, pairs,
        List.map_cons]

/-- The text is taken and should not be, exactly if it is misread. -/
theorem misread_iff : Misread text ↔ (fromHex text).isSome ∧ ¬ IsHexText text := by
  have hloose : ∀ p, Loose p → ¬ Digits p := by
    rintro p (hsigned | ⟨hspace, -⟩ | ⟨-, hspace⟩) hdigits
    · rw [Digits, not_digit_sign hsigned.1] at hdigits
      cases hdigits.1
    · rw [not_space_digit hdigits.1] at hspace
      cases hspace
    · rw [not_space_digit hdigits.2] at hspace
      cases hspace
  rw [fromHex_isSome, isHexText_iff, Misread]
  constructor
  · rintro ⟨hlength, hpairs, p, hmem, hp⟩
    exact ⟨⟨hlength, hpairs⟩, fun hall => hloose p hp (hall.2 p hmem)⟩
  · rintro ⟨⟨hlength, hpairs⟩, hnot⟩
    refine ⟨hlength, hpairs, ?_⟩
    by_contra hnone
    refine hnot ⟨hlength, fun p hp => (hpairs p hp).resolve_right fun hpair => ?_⟩
    exact hnone ⟨p, hp, hpair⟩

/-! ## The result -/

/-- The readers differ in the text of their exception only. -/
theorem readsHex_iff {read : DString → Except DartError Uint8List}
    (hsome : ∀ bytes, fromHex text = some bytes → read text = .ok bytes)
    (hnone : fromHex text = none → ∃ message, read text = .error (.formatException message)) :
    ReadsHex read text ↔ ¬ Misread text := by
  rw [misread_iff]
  constructor
  · rintro ⟨-, hrefuses⟩ ⟨hread, hnot⟩
    obtain ⟨bytes, hbytes⟩ := Option.isSome_iff_exists.mp hread
    obtain ⟨_, hthrown⟩ := hrefuses hnot
    rw [hsome bytes hbytes] at hthrown
    cases hthrown
  · refine fun hnot => ⟨fun htext => hsome _ (fromHex_denoted htext), fun hother => ?_⟩
    refine hnone (Option.not_isSome_iff_eq_none.mp fun hread => ?_)
    exact hnot ⟨hread, hother⟩

/-- **What is written is read back, and a text is read as it should be exactly if it is not
misread.** -/
theorem hex_text_iff (bytes : Uint8List) (text : DString) :
    (decodeHex (hex bytes) = .ok bytes ∧ Main.decodeHex (Main.hex bytes) = .ok bytes) ∧
      (ReadsHex decodeHex text ↔ ¬ Misread text) ∧
        (ReadsHex Main.decodeHex text ↔ ¬ Misread text) := by
  refine ⟨⟨?_, ?_⟩, readsHex_iff ?_ ?_, readsHex_iff ?_ ?_⟩
  · rw [decodeHex, fromHex_hex]
  · rw [Main.decodeHex, Main.hex, fromHex_hex]
  · intro read hread
    rw [decodeHex, hread]
  · intro hnone
    exact ⟨_, by rw [decodeHex, hnone]⟩
  · intro read hread
    rw [Main.decodeHex, hread]
  · intro hnone
    exact ⟨_, by rw [Main.decodeHex, hnone]⟩

/-- The text `-a` is taken, as the byte 0xF6, and an `a` behind a space as 0x0A. -/
theorem hex_text_fails :
    decodeHex [45, 97] = .ok [0xF6] ∧ Main.decodeHex [45, 97] = .ok [0xF6] ∧
      decodeHex [32, 97] = .ok [0x0A] ∧ Main.decodeHex [32, 97] = .ok [0x0A] ∧
        ¬ IsHexText [45, 97] ∧ ¬ ∀ text, ReadsHex decodeHex text := by
  have hread : decodeHex [45, 97] = .ok [0xF6] := by decide
  have hnot : ¬ IsHexText [45, 97] := fun h => absurd (h.2 45 (by simp)) (by decide)
  refine ⟨hread, by decide, by decide, by decide, hnot, fun h => ?_⟩
  obtain ⟨_, hthrown⟩ := (h [45, 97]).refuses hnot
  rw [hread] at hthrown
  cases hthrown

end OpenBioUnlock.Mobile

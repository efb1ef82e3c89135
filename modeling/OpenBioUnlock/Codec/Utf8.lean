import Mathlib.Data.List.Basic

/-!
# UTF-8

Well-formed byte sequences by the ranges of their bytes, read with a state: the
ranges in which the bytes still missing of a character have to lie.

ASCII bytes around a text change nothing (`validUtf8_append_ascii`,
`validUtf8_ascii_append`), since no ASCII byte continues a character.
-/

namespace Codec

/-- The bytes a character still needs, each with its range. -/
abbrev Pending := List (UInt8 × UInt8)

/-- A byte that continues a character, in general. -/
def continuation : UInt8 × UInt8 := (0x80, 0xBF)

/-- What the first byte of a character needs. -/
def utf8Lead (b : UInt8) : Option Pending :=
  if b < 0x80 then some []
  else if 0xC2 ≤ b ∧ b ≤ 0xDF then some [continuation]
  else if b = 0xE0 then some [(0xA0, 0xBF), continuation]
  else if b = 0xED then some [(0x80, 0x9F), continuation]
  else if 0xE1 ≤ b ∧ b ≤ 0xEF then some [continuation, continuation]
  else if b = 0xF0 then some [(0x90, 0xBF), continuation, continuation]
  else if 0xF1 ≤ b ∧ b ≤ 0xF3 then some [continuation, continuation, continuation]
  else if b = 0xF4 then some [(0x80, 0x8F), continuation, continuation]
  else none

def utf8Step : Pending → UInt8 → Option Pending
  | [], b => utf8Lead b
  | (low, high) :: pending, b => if low ≤ b ∧ b ≤ high then some pending else none

/-- The text is well formed. -/
def validUtf8 (text : List UInt8) : Bool :=
  text.foldlM utf8Step [] = some []

/-- No ASCII byte is in a pending range. -/
def NoAscii (pending : Pending) : Prop :=
  ∀ r ∈ pending, 0x80 ≤ r.1

theorem utf8Lead_noAscii {b : UInt8} {pending : Pending} (h : utf8Lead b = some pending) :
    NoAscii pending := by
  unfold utf8Lead at h
  split_ifs at h <;> cases h <;> simp [NoAscii, continuation]

theorem utf8Step_noAscii {pending pending' : Pending} {b : UInt8} (hp : NoAscii pending)
    (h : utf8Step pending b = some pending') : NoAscii pending' := by
  cases pending with
  | nil => exact utf8Lead_noAscii h
  | cons r pending =>
      rw [utf8Step] at h
      split_ifs at h
      cases h
      exact fun r' hr' => hp r' (List.mem_cons_of_mem _ hr')

theorem utf8_noAscii {text : List UInt8} {pending pending' : Pending} (hp : NoAscii pending)
    (h : text.foldlM utf8Step pending = some pending') : NoAscii pending' := by
  induction text generalizing pending with
  | nil =>
      cases h
      exact hp
  | cons b text ih =>
      obtain ⟨middle, hstep, hrest⟩ := Option.bind_eq_some_iff.mp h
      exact ih (utf8Step_noAscii hp hstep) hrest

/-- ASCII text leaves the reader between characters. -/
theorem utf8_ascii {text : List UInt8} (h : ∀ b ∈ text, b < 0x80) :
    text.foldlM utf8Step [] = some [] := by
  induction text with
  | nil => rfl
  | cons b text ih =>
      rw [List.foldlM_cons, utf8Step, utf8Lead, if_pos (h b (by simp))]
      exact ih fun c hc => h c (List.mem_cons_of_mem _ hc)

theorem validUtf8_ascii_append {front : List UInt8} (h : ∀ b ∈ front, b < 0x80)
    (text : List UInt8) : validUtf8 (front ++ text) = validUtf8 text := by
  rw [validUtf8, List.foldlM_append, utf8_ascii h]
  rfl

theorem validUtf8_append_ascii {b : UInt8} {back : List UInt8} (h : ∀ c ∈ b :: back, c < 0x80)
    (text : List UInt8) : validUtf8 (text ++ b :: back) = validUtf8 text := by
  rw [validUtf8, validUtf8, List.foldlM_append]
  cases hread : text.foldlM utf8Step [] with
  | none => rfl
  | some pending =>
      rw [Option.bind_eq_bind, Option.bind_some]
      cases pending with
      | nil => rw [utf8_ascii h]
      | cons r pending =>
          -- the byte would have to continue a character
          have hlow : 0x80 ≤ r.1 := utf8_noAscii (by simp [NoAscii]) hread r (by simp)
          have hb : ¬ (r.1 ≤ b ∧ b ≤ r.2) := fun hle =>
            absurd (UInt8.le_trans hlow hle.1) (UInt8.not_le.mpr (h b (by simp)))
          rw [List.foldlM_cons, utf8Step, if_neg hb]
          simp

end Codec

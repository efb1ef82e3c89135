import OpenBioUnlock.Codec.Json
import Mathlib.Data.Nat.Digits.Defs
import Mathlib.Tactic.IntervalCases

/-!
# Writing JSON text

A writer of flat objects as compact JSON: the members in their order, without white
space, a value being a string or a bare token.  In a string the quote, the backslash and
the control characters are written as escapes and everything else as it is, so that the
reader of `Codec.Json` reads it back (`stringFrom_escape`).

Such a text is sometimes searched instead of read.  `found_member` says what a search for
a name, a colon and the beginning of a value can find: never something inside a string,
only a member of that name.
-/

namespace Codec

namespace Json

/-- A character in a string. -/
def escapeByte (c : UInt8) : List UInt8 :=
  if c = 34 ∨ c = 92 then [92, c]
  else if c = 8 then [92, 98]
  else if c = 9 then [92, 116]
  else if c = 10 then [92, 110]
  else if c = 12 then [92, 102]
  else if c = 13 then [92, 114]
  else if c < 32 then [92, 117, 48, 48] ++ hexByte c
  else [c]

def escape (text : List UInt8) : List UInt8 :=
  text.flatMap escapeByte

/-- A string in its quotes. -/
def literal (text : List UInt8) : List UInt8 :=
  34 :: escape text ++ [34]

/-- A natural number. -/
def decimal (n : ℕ) : List UInt8 :=
  if n = 0 then [48] else (Nat.digits 10 n).reverse.map fun d => 48 + UInt8.ofNat d

/-- A value of a flat object. -/
inductive Scalar where
  | string (text : List UInt8)
  /-- a number or a word, as it is written -/
  | token (text : List UInt8)

def Scalar.text : Scalar → List UInt8
  | .string text => literal text
  | .token text => text

abbrev Member := List UInt8 × Scalar

def memberText (m : Member) : List UInt8 :=
  literal m.1 ++ 58 :: m.2.text

/-- What follows a member of an object: the others, and the brace. -/
def closing : List Member → List UInt8
  | [] => [125]
  | m :: rest => 44 :: (memberText m ++ closing rest)

def objectText : List Member → List UInt8
  | [] => [123, 125]
  | m :: rest => 123 :: (memberText m ++ closing rest)

theorem literal_append (text s : List UInt8) :
    literal text ++ s = 34 :: (escape text ++ 34 :: s) := by
  simp [literal]

theorem memberText_append (m : Member) (s : List UInt8) :
    memberText m ++ s = 34 :: (escape m.1 ++ 34 :: 58 :: (m.2.text ++ s)) := by
  simp [memberText, literal]

/-! ## Reading back -/

@[simp] theorem escape_nil : escape [] = [] := rfl

@[simp] theorem escape_cons (c : UInt8) (text : List UInt8) :
    escape (c :: text) = escapeByte c ++ escape text := rfl

theorem escapeByte_plain {c : UInt8} (h : IsPlain c) : escapeByte c = [c] := by
  obtain ⟨hquote, hbackslash, hcontrol⟩ := h
  have hne : ∀ d < 32, c ≠ d := fun d hd heq => UInt8.not_lt.mpr hcontrol (heq ▸ hd)
  rw [escapeByte, if_neg (not_or.mpr ⟨hquote, hbackslash⟩), if_neg (hne 8 (by decide)),
    if_neg (hne 9 (by decide)), if_neg (hne 10 (by decide)), if_neg (hne 12 (by decide)),
    if_neg (hne 13 (by decide)), if_neg (UInt8.not_lt.mpr hcontrol)]

/-- Plain text is written as it is. -/
theorem escape_plain {text : List UInt8} (h : ∀ c ∈ text, IsPlain c) : escape text = text := by
  induction text with
  | nil => rfl
  | cons c text ih =>
      rw [escape_cons, escapeByte_plain (h c (by simp)),
        ih fun d hd => h d (List.mem_cons_of_mem _ hd)]
      rfl

/-- A character that is not plain. -/
theorem not_plain {c : UInt8} (h : ¬ IsPlain c) : c = 34 ∨ c = 92 ∨ c < 32 := by
  rw [IsPlain, not_and_or, not_and_or, not_not, not_not, UInt8.not_le] at h
  exact h

theorem control_cases {P : UInt8 → Prop} (h : ∀ n < 32, P (UInt8.ofNat n)) {c : UInt8}
    (hc : c < 32) : P c := by
  have hlt : c.toNat < 32 := UInt8.lt_iff_toNat_lt.mp hc
  simpa using h c.toNat hlt

/-- **What was written reads back**, one character. -/
theorem stringFrom_escapeByte (c : UInt8) (s : List UInt8) :
    stringFrom .plain (escapeByte c ++ s) = prepend [c] (stringFrom .plain s) := by
  by_cases hplain : IsPlain c
  · obtain ⟨hquote, hbackslash, hcontrol⟩ := id hplain
    rw [escapeByte_plain hplain, List.singleton_append, stringFrom, if_neg hquote,
      if_neg hbackslash, if_neg (UInt8.not_lt.mpr hcontrol)]
  · rcases not_plain hplain with rfl | rfl | hcontrol
    · rfl
    · rfl
    · refine control_cases (P := fun c => stringFrom .plain (escapeByte c ++ s) =
        prepend [c] (stringFrom .plain s)) (fun n hn => ?_) hcontrol
      interval_cases n <;> rfl

/-- **What was written reads back.** -/
theorem stringFrom_escape (text rest : List UInt8) :
    stringFrom .plain (escape text ++ 34 :: rest) = some (text, rest) := by
  induction text with
  | nil => rfl
  | cons c text ih =>
      rw [escape_cons, List.append_assoc, stringFrom_escapeByte, ih]
      rfl

/-! ## Searching -/

/-- A character of the names that are searched for. -/
def IsName (c : UInt8) : Prop :=
  (97 ≤ c ∧ c ≤ 122) ∨ c = 95

instance : DecidablePred IsName := fun c =>
  inferInstanceAs (Decidable ((97 ≤ c ∧ c ≤ 122) ∨ c = 95))

theorem IsName.plain {c : UInt8} (h : IsName c) : IsPlain c := by
  rcases h with ⟨hlow, -⟩ | rfl
  · have hle : 97 ≤ c.toNat := UInt8.le_iff_toNat_le.mp hlow
    have hne : ∀ d : UInt8, d.toNat < 97 → c ≠ d := by
      rintro d hd rfl
      exact absurd hle (Nat.not_le.mpr hd)
    refine ⟨hne 34 (by decide), hne 92 (by decide), UInt8.le_iff_toNat_le.mpr ?_⟩
    exact Nat.le_trans (by decide) hle
  · decide

/-- What is searched for: a name in its quotes, the colon, and the beginning of a value. -/
def needle (word begins : List UInt8) : List UInt8 :=
  34 :: (word ++ 34 :: 58 :: begins)

/-- A character between two members, or at the end. -/
def IsEnd (c : UInt8) : Prop := c = 44 ∨ c = 125

/-- An escape is a backslash and a quote, or a backslash and no quote. -/
theorem escapeByte_escaped {c : UInt8} (h : ¬ IsPlain c) :
    ∃ tail, escapeByte c = 92 :: tail ∧ (tail = [34] ∨ 34 ∉ tail) := by
  rcases not_plain h with rfl | rfl | hcontrol
  · exact ⟨[34], rfl, Or.inl rfl⟩
  · exact ⟨[92], rfl, Or.inr (by decide)⟩
  · refine control_cases (P := fun c => ∃ tail, escapeByte c = 92 :: tail ∧
      (tail = [34] ∨ 34 ∉ tail)) (fun n hn => ?_) hcontrol
    interval_cases n <;> exact ⟨_, rfl, Or.inr (by decide)⟩

section Search

variable {word begins s text rest : List UInt8} {c : UInt8}

/-- **A quoted text is read from its beginning** in one way only. -/
theorem prefix_escape (hword : ∀ x ∈ word, IsPlain x)
    (h : word ++ 34 :: begins <+: escape text ++ 34 :: rest) : text = word ∧ begins <+: rest := by
  induction word generalizing text with
  | nil =>
      cases text with
      | nil => exact ⟨rfl, (List.cons_prefix_cons.mp h).2⟩
      | cons a text =>
          by_cases ha : IsPlain a
          · rw [escape_cons, escapeByte_plain ha] at h
            exact absurd (List.cons_prefix_cons.mp h).1.symm ha.1
          · obtain ⟨tail, hescape, -⟩ := escapeByte_escaped ha
            rw [escape_cons, hescape] at h
            exact absurd (List.cons_prefix_cons.mp h).1 (by decide)
  | cons x word ih =>
      have hx := hword x (by simp)
      cases text with
      | nil => exact absurd (List.cons_prefix_cons.mp h).1 hx.1
      | cons a text =>
          by_cases ha : IsPlain a
          · rw [escape_cons, escapeByte_plain ha] at h
            obtain ⟨hsame, htail⟩ := List.cons_prefix_cons.mp h
            obtain ⟨htext, hbegins⟩ := ih (fun y hy => hword y (List.mem_cons_of_mem _ hy)) htail
            exact ⟨by rw [hsame, htext], hbegins⟩
          · obtain ⟨tail, hescape, -⟩ := escapeByte_escaped ha
            rw [escape_cons, hescape] at h
            exact absurd (List.cons_prefix_cons.mp h).1 hx.2.1

/-- What is searched for begins with a quote. -/
theorem skip_cons (hc : c ≠ 34) (h : needle word begins <:+: c :: s) :
    needle word begins <:+: s := by
  rcases List.infix_cons_iff.mp h with hprefix | hinfix
  · exact absurd (List.cons_prefix_cons.mp hprefix).1.symm hc
  · exact hinfix

theorem skip_append (htext : 34 ∉ text) (h : needle word begins <:+: text ++ s) :
    needle word begins <:+: s := by
  induction text with
  | nil => exact h
  | cons c text ih =>
      rw [List.mem_cons, not_or] at htext
      exact ih htext.2 (skip_cons (Ne.symm htext.1) h)

variable (hne : word ≠ []) (hword : ∀ x ∈ word, IsName x)

include hne hword

/-- The quote before another character than a letter begins nothing. -/
theorem skip_quote (hc : ¬ IsName c) (h : needle word begins <:+: 34 :: c :: s) :
    needle word begins <:+: c :: s := by
  rcases List.infix_cons_iff.mp h with hprefix | hinfix
  · obtain ⟨x, word, rfl⟩ := List.exists_cons_of_ne_nil hne
    have hhead := (List.cons_prefix_cons.mp (List.cons_prefix_cons.mp hprefix).2).1
    exact absurd (hhead ▸ hword x (by simp)) hc
  · exact hinfix

/-- **Nothing is found in a string** that ends a member. -/
theorem skip_escape (hc : IsEnd c) (h : needle word begins <:+: escape text ++ 34 :: c :: rest) :
    needle word begins <:+: c :: rest := by
  have hend : ¬ IsName c ∧ c ≠ 58 := by rcases hc with rfl | rfl <;> decide
  induction text with
  | nil => exact skip_quote hne hword hend.1 h
  | cons a text ih =>
      rw [escape_cons, List.append_assoc] at h
      apply ih
      by_cases ha : IsPlain a
      · rw [escapeByte_plain ha] at h
        exact skip_cons ha.1 h
      · obtain ⟨tail, hescape, htail⟩ := escapeByte_escaped ha
        rw [hescape] at h
        have h := skip_cons (by decide) h
        rcases htail with rfl | hno
        · -- the escaped quote could begin the name, but no colon follows the string
          rcases List.infix_cons_iff.mp h with hprefix | hinfix
          · obtain ⟨-, hcolon⟩ := prefix_escape (fun x hx => (hword x hx).plain)
              (List.cons_prefix_cons.mp hprefix).2
            exact absurd (List.cons_prefix_cons.mp hcolon).1.symm hend.2
          · exact hinfix
        · exact skip_append hno h

end Search

/-- A member that is named by letters, and has nothing to escape outside a string. -/
structure Member.Ok (m : Member) : Prop where
  name : ∀ c ∈ m.1, IsName c
  token : ∀ text, m.2 = .token text → ∀ c ∈ text, IsPlain c

/-- The member is of that name, and its value begins as searched for. -/
def Member.Begins (word begins : List UInt8) (m : Member) : Prop :=
  m.1 = word ∧ ∃ c rest, IsEnd c ∧ begins <+: m.2.text ++ c :: rest

section Members

variable {word begins rest : List UInt8} {c : UInt8} {m : Member} {ms : List Member}
variable (hne : word ≠ []) (hword : ∀ x ∈ word, IsName x)

include hne hword

/-- What is found in a value begins after it. -/
theorem skip_value (hm : m.Ok) (hc : IsEnd c)
    (h : needle word begins <:+: m.2.text ++ c :: rest) :
    needle word begins <:+: c :: rest := by
  have hend : c ≠ 58 := by rcases hc with rfl | rfl <;> decide
  cases hvalue : m.2 with
  | token text =>
      rw [hvalue] at h
      exact skip_append (fun hmem => (hm.token text hvalue 34 hmem).1 rfl) h
  | string text =>
      rw [hvalue, Scalar.text, literal_append] at h
      rcases List.infix_cons_iff.mp h with hprefix | hinfix
      · obtain ⟨-, hcolon⟩ := prefix_escape (fun x hx => (hword x hx).plain)
          (List.cons_prefix_cons.mp hprefix).2
        exact absurd (List.cons_prefix_cons.mp hcolon).1.symm hend
      · exact skip_escape hne hword hc hinfix

/-- What is found in a member is the member, or begins after it. -/
theorem found_memberText (hm : m.Ok) (hc : IsEnd c)
    (h : needle word begins <:+: memberText m ++ c :: rest) :
    m.Begins word begins ∨ needle word begins <:+: c :: rest := by
  rw [memberText_append] at h
  rcases List.infix_cons_iff.mp h with hprefix | hinfix
  · obtain ⟨hname, hbegins⟩ := prefix_escape (fun x hx => (hword x hx).plain)
      (List.cons_prefix_cons.mp hprefix).2
    exact Or.inl ⟨hname, c, rest, hc, (List.cons_prefix_cons.mp hbegins).2⟩
  · right
    rw [escape_plain fun x hx => (hm.name x hx).plain] at hinfix
    have hquote : 34 ∉ m.1 := fun hmem => (hm.name 34 hmem).plain.1 rfl
    have hcolon := skip_quote hne hword (by decide) (skip_append hquote hinfix)
    exact skip_value hne hword hm hc (skip_cons (by decide) hcolon)

theorem found_closing (hms : ∀ m ∈ ms, m.Ok) (h : needle word begins <:+: closing ms) :
    ∃ m ∈ ms, m.Begins word begins := by
  induction ms with
  | nil =>
      have hnil := skip_cons (by decide) h
      exact absurd (List.infix_nil.mp hnil) (by simp [needle])
  | cons m ms ih =>
      have hrest : ∃ c rest, IsEnd c ∧ closing ms = c :: rest := by
        cases ms with
        | nil => exact ⟨125, [], Or.inr rfl, rfl⟩
        | cons m' ms => exact ⟨44, _, Or.inl rfl, rfl⟩
      obtain ⟨c, rest, hc, heq⟩ := hrest
      have h := skip_cons (by decide) h
      rw [heq] at h
      rcases found_memberText hne hword (hms m (by simp)) hc h with hfound | hinfix
      · exact ⟨m, by simp, hfound⟩
      · rw [← heq] at hinfix
        obtain ⟨m', hm', hfound⟩ := ih (fun x hx => hms x (List.mem_cons_of_mem _ hx)) hinfix
        exact ⟨m', List.mem_cons_of_mem _ hm', hfound⟩

/-- **What is found in an object is a member of it.** -/
theorem found_member (hms : ∀ m ∈ ms, m.Ok) (h : needle word begins <:+: objectText ms) :
    ∃ m ∈ ms, m.Begins word begins := by
  cases ms with
  | nil =>
      have hnil := skip_cons (by decide) (skip_cons (by decide) h)
      exact absurd (List.infix_nil.mp hnil) (by simp [needle])
  | cons m ms => exact found_closing hne hword hms (List.infix_cons (skip_cons (by decide) h))

end Members

/-! ## No control characters -/

theorem le_escapeByte {c d : UInt8} (h : d ∈ escapeByte c) : 32 ≤ d := by
  by_cases hplain : IsPlain c
  · rw [escapeByte_plain hplain, List.mem_singleton] at h
    exact h ▸ hplain.2.2
  · have hall : (escapeByte c).all (32 ≤ ·) = true := by
      rcases not_plain hplain with rfl | rfl | hcontrol
      · rfl
      · rfl
      · refine control_cases (P := fun c => (escapeByte c).all (32 ≤ ·) = true) (fun n hn => ?_)
          hcontrol
        interval_cases n <;> rfl
    exact of_decide_eq_true (List.all_eq_true.mp hall d h)

theorem le_literal {text : List UInt8} {d : UInt8} (h : d ∈ literal text) : 32 ≤ d := by
  rw [literal, List.mem_append, List.mem_cons, List.mem_singleton] at h
  rcases h with (rfl | h) | rfl
  · decide
  · obtain ⟨c, -, hc⟩ := List.mem_flatMap.mp h
    exact le_escapeByte hc
  · decide

theorem le_memberText {m : Member} (hm : m.Ok) {d : UInt8} (h : d ∈ memberText m) : 32 ≤ d := by
  rw [memberText, List.mem_append, List.mem_cons] at h
  rcases h with h | rfl | h
  · exact le_literal h
  · decide
  · cases hvalue : m.2 with
    | string text =>
        rw [hvalue] at h
        exact le_literal h
    | token text =>
        rw [hvalue] at h
        exact (hm.token text hvalue d h).2.2

theorem le_closing {ms : List Member} (hms : ∀ m ∈ ms, m.Ok) {d : UInt8} (h : d ∈ closing ms) :
    32 ≤ d := by
  induction ms with
  | nil =>
      rw [List.mem_singleton.mp h]
      decide
  | cons m ms ih =>
      rw [closing, List.mem_cons, List.mem_append] at h
      rcases h with rfl | h | h
      · decide
      · exact le_memberText (hms m (by simp)) h
      · exact ih (fun x hx => hms x (List.mem_cons_of_mem _ hx)) h

/-- **An object is one line**: it has no control characters. -/
theorem le_objectText {ms : List Member} (hms : ∀ m ∈ ms, m.Ok) {d : UInt8}
    (h : d ∈ objectText ms) : 32 ≤ d := by
  cases ms with
  | nil =>
      rw [objectText, List.mem_cons, List.mem_singleton] at h
      rcases h with rfl | rfl <;> decide
  | cons m ms =>
      rcases List.mem_cons.mp h with rfl | h
      · decide
      · exact le_closing hms (List.mem_cons_of_mem _ h)

theorem decimal_plain {n : ℕ} {c : UInt8} (h : c ∈ decimal n) : IsPlain c := by
  rw [decimal] at h
  split_ifs at h
  · rw [List.mem_singleton.mp h]
    decide
  · obtain ⟨d, hd, rfl⟩ := List.mem_map.mp h
    have hlt : d < 10 := Nat.digits_lt_base (by decide) (List.mem_reverse.mp hd)
    interval_cases d <;> decide

end Json

end Codec

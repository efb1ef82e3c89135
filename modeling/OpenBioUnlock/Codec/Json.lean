import OpenBioUnlock.Codec.Hex

/-!
# JSON text

A reader of JSON text as RFC 8259 has it, for text that is UTF-8: white space
between tokens, objects and arrays, strings with their escapes, numbers without
leading zeros.  A string is read to the bytes it denotes, with a surrogate pair
made one character and a lone surrogate refused; a number is kept as it is
written.

The reader descends into the text with a bound on its steps.  `parse` gives it a
bound that is large enough for any text (`value_fuel`).

`stringFrom_length` is the fact about strings that matters where text is pasted
into a string literal: no escape denotes more bytes than it takes, so a string
that denotes as many bytes as it is long has no escape in it.
-/

namespace Codec

inductive Json where
  | null
  | bool (b : Bool)
  | number (token : List UInt8)
  | string (text : List UInt8)
  | array (items : List Json)
  | object (members : List (List UInt8 × Json))

namespace Json

/-! ## Tokens -/

def isSpace (c : UInt8) : Bool :=
  c = 32 || c = 9 || c = 10 || c = 13

/-- The next character that is no white space, and what follows it. -/
def next (s : List UInt8) : Option (UInt8 × List UInt8) :=
  match s.dropWhile isSpace with
  | [] => none
  | c :: rest => some (c, rest)

/-- What follows the next character, if that is `c`. -/
def expect (c : UInt8) (s : List UInt8) : Option (List UInt8) :=
  match next s with
  | some (d, rest) => if d = c then some rest else none
  | none => none

/-- What follows `word`. -/
def dropWord : List UInt8 → List UInt8 → Option (List UInt8)
  | [], s => some s
  | _ :: _, [] => none
  | a :: word, b :: s => if a = b then dropWord word s else none

def isDigit (c : UInt8) : Bool :=
  48 ≤ c && c ≤ 57

/-- One digit or more. -/
def digits (s : List UInt8) : Option (List UInt8 × List UInt8) :=
  match s.takeWhile isDigit with
  | [] => none
  | run => some (run, s.dropWhile isDigit)

/-- The digits before the point: no zero before another. -/
def integer (s : List UInt8) : Option (List UInt8 × List UInt8) :=
  match digits s with
  | some (48 :: _ :: _, _) => none
  | r => r

/-- A point and the digits after it, if there is one. -/
def fraction : List UInt8 → Option (List UInt8 × List UInt8)
  | 46 :: s => (digits s).map fun p => (46 :: p.1, p.2)
  | s => some ([], s)

/-- The sign of an exponent. -/
def sign : List UInt8 → List UInt8 × List UInt8
  | 43 :: s => ([43], s)
  | 45 :: s => ([45], s)
  | s => ([], s)

/-- An exponent, if there is one. -/
def exponent : List UInt8 → Option (List UInt8 × List UInt8)
  | c :: s =>
      if c = 69 ∨ c = 101 then
        (digits (sign s).2).map fun p => (c :: (sign s).1 ++ p.1, p.2)
      else some ([], c :: s)
  | [] => some ([], [])

def unsigned (s : List UInt8) : Option (List UInt8 × List UInt8) := do
  let (whole, s) ← integer s
  let (part, s) ← fraction s
  let (power, s) ← exponent s
  pure (whole ++ part ++ power, s)

/-- A number, as it is written. -/
def numeral : List UInt8 → Option (List UInt8 × List UInt8)
  | 45 :: s => (unsigned s).map fun p => (45 :: p.1, p.2)
  | s => unsigned s

/-- The value of a numeral that is digits only. -/
def natural? (token : List UInt8) : Option ℕ :=
  if token.all isDigit then some (token.foldl (fun n c => n * 10 + (c.toNat - 48)) 0) else none

/-! ## Strings -/

/-- The bytes of a code point. -/
def encodeUtf8 (n : ℕ) : List UInt8 :=
  if n < 0x80 then [UInt8.ofNat n]
  else if n < 0x800 then [UInt8.ofNat (0xC0 + n / 64), UInt8.ofNat (0x80 + n % 64)]
  else if n < 0x10000 then
    [UInt8.ofNat (0xE0 + n / 4096), UInt8.ofNat (0x80 + n / 64 % 64), UInt8.ofNat (0x80 + n % 64)]
  else
    [UInt8.ofNat (0xF0 + n / 262144), UInt8.ofNat (0x80 + n / 4096 % 64),
      UInt8.ofNat (0x80 + n / 64 % 64), UInt8.ofNat (0x80 + n % 64)]

def isHigh (n : ℕ) : Bool := 0xD800 ≤ n && n < 0xDC00

def isLow (n : ℕ) : Bool := 0xDC00 ≤ n && n < 0xE000

/-- The character of an escape of one letter. -/
def escaped? (c : UInt8) : Option UInt8 :=
  if c = 34 ∨ c = 92 ∨ c = 47 then some c
  else if c = 98 then some 8
  else if c = 102 then some 12
  else if c = 110 then some 10
  else if c = 114 then some 13
  else if c = 116 then some 9
  else none

/-- Where a reader is in a string. -/
inductive Mode where
  | plain
  /-- after a backslash -/
  | escape
  /-- in the digits of a unicode escape, of the given count and value so far, after the
  high surrogate of the escape before it if that was one -/
  | unicode (high : Option ℕ) (count value : ℕ)
  /-- after a high surrogate, before the backslash of the low one -/
  | low (high : ℕ)
  /-- after that backslash -/
  | lowEscape (high : ℕ)

/-- The bytes in front of a text that was read. -/
def prepend (bytes : List UInt8) (r : Option (List UInt8 × List UInt8)) :
    Option (List UInt8 × List UInt8) :=
  r.map fun p => (bytes ++ p.1, p.2)

/-- What a unicode escape that is complete denotes, or the mode to go on with. -/
def complete (high : Option ℕ) (value : ℕ) : Option (List UInt8 × Mode) :=
  match high with
  | none =>
      if isHigh value then some ([], .low value)
      else if isLow value then none
      else some (encodeUtf8 value, .plain)
  | some h =>
      if isLow value then
        some (encodeUtf8 (0x10000 + (h - 0xD800) * 1024 + (value - 0xDC00)), .plain)
      else none

/-- A string after its opening quote: the bytes it denotes and what follows its closing
quote. -/
def stringFrom : Mode → List UInt8 → Option (List UInt8 × List UInt8)
  | _, [] => none
  | .plain, c :: rest =>
      if c = 34 then some ([], rest)
      else if c = 92 then stringFrom .escape rest
      else if c < 32 then none
      else prepend [c] (stringFrom .plain rest)
  | .escape, c :: rest =>
      if c = 117 then stringFrom (.unicode none 0 0) rest
      else
        match escaped? c with
        | some b => prepend [b] (stringFrom .plain rest)
        | none => none
  | .unicode high count value, c :: rest =>
      match hexValue? c with
      | none => none
      | some digit =>
          if count < 3 then stringFrom (.unicode high (count + 1) (value * 16 + digit.toNat)) rest
          else
            match complete high (value * 16 + digit.toNat) with
            | some (bytes, mode) => prepend bytes (stringFrom mode rest)
            | none => none
  | .low high, c :: rest => if c = 92 then stringFrom (.lowEscape high) rest else none
  | .lowEscape high, c :: rest =>
      if c = 117 then stringFrom (.unicode (some high) 0 0) rest else none

/-! ## Values -/

mutual

/-- A value, and what follows it. -/
def value : ℕ → List UInt8 → Option (Json × List UInt8)
  | 0, _ => none
  | fuel + 1, s =>
      match next s with
      | none => none
      | some (c, rest) =>
          if c = 34 then (stringFrom .plain rest).map fun p => (.string p.1, p.2)
          else if c = 123 then
            match expect 125 rest with
            | some rest => some (.object [], rest)
            | none => (members fuel rest).map fun p => (.object p.1, p.2)
          else if c = 91 then
            match expect 93 rest with
            | some rest => some (.array [], rest)
            | none => (items fuel rest).map fun p => (.array p.1, p.2)
          else if c = 116 then (dropWord (ascii "rue") rest).map fun rest => (.bool true, rest)
          else if c = 102 then (dropWord (ascii "alse") rest).map fun rest => (.bool false, rest)
          else if c = 110 then (dropWord (ascii "ull") rest).map fun rest => (.null, rest)
          else (numeral (c :: rest)).map fun p => (.number p.1, p.2)

/-- The members of an object, one at least, and what follows its brace. -/
def members : ℕ → List UInt8 → Option (List (List UInt8 × Json) × List UInt8)
  | 0, _ => none
  | fuel + 1, s => do
      let s ← expect 34 s
      let (key, s) ← stringFrom .plain s
      let s ← expect 58 s
      let (v, s) ← value fuel s
      let (c, s) ← next s
      if c = 44 then (members fuel s).map fun p => ((key, v) :: p.1, p.2)
      else if c = 125 then some ([(key, v)], s)
      else none

/-- The items of an array, one at least, and what follows its bracket. -/
def items : ℕ → List UInt8 → Option (List Json × List UInt8)
  | 0, _ => none
  | fuel + 1, s => do
      let (v, s) ← value fuel s
      let (c, s) ← next s
      if c = 44 then (items fuel s).map fun p => (v :: p.1, p.2)
      else if c = 93 then some ([v], s)
      else none

end

/-- A text that is one value, with white space around it. -/
def parse (text : List UInt8) : Option Json :=
  match value (2 * text.length + 2) text with
  | some (v, rest) => if rest.all isSpace then some v else none
  | none => none

/-! ## How long a string is -/

/-- The bytes of an escape read so far that are still to be paid for. -/
def Mode.credit : Mode → ℕ
  | .unicode _ count _ => count
  | _ => 0

theorem encodeUtf8_length (n : ℕ) : (encodeUtf8 n).length ≤ 4 := by
  unfold encodeUtf8
  split_ifs <;> simp

/-- A complete escape denotes no more than the four digits it takes. -/
theorem complete_credit {high : Option ℕ} {n : ℕ} {bytes : List UInt8} {mode : Mode}
    (h : complete high n = some (bytes, mode)) : bytes.length + mode.credit ≤ 4 := by
  unfold complete at h
  cases high with
  | none =>
      simp only at h
      split_ifs at h
      · cases h
        simp [Mode.credit]
      · cases h
        exact encodeUtf8_length n
  | some high =>
      simp only at h
      split_ifs at h
      obtain ⟨rfl, rfl⟩ := Prod.mk.inj (Option.some.inj h)
      rw [Mode.credit, Nat.add_zero]
      · exact encodeUtf8_length _
      · simp

theorem prepend_eq_some {bytes text rest : List UInt8} {r : Option (List UInt8 × List UInt8)}
    (h : prepend bytes r = some (text, rest)) :
    ∃ text', r = some (text', rest) ∧ text = bytes ++ text' := by
  obtain ⟨⟨text', rest'⟩, hr, heq⟩ := Option.map_eq_some_iff.mp h
  obtain ⟨rfl, rfl⟩ := Prod.mk.inj heq
  exact ⟨text', hr, rfl⟩

/-- **No escape denotes more bytes than it takes.** -/
theorem stringFrom_length {mode : Mode} {s text rest : List UInt8}
    (h : stringFrom mode s = some (text, rest)) :
    text.length + rest.length + 1 ≤ s.length + mode.credit := by
  induction s generalizing mode text with
  | nil => cases mode <;> simp [stringFrom] at h
  | cons c s ih =>
      rw [List.length_cons]
      cases mode with
      | plain =>
          rw [stringFrom] at h
          split_ifs at h
          · cases h
            simp
          · have := ih h
            simp only [Mode.credit] at this ⊢
            omega
          · obtain ⟨text', hread, rfl⟩ := prepend_eq_some h
            have := ih hread
            simp only [Mode.credit, List.length_append, List.length_singleton] at this ⊢
            omega
      | escape =>
          rw [stringFrom] at h
          split_ifs at h
          · have := ih h
            simp only [Mode.credit] at this ⊢
            omega
          · split at h
            · obtain ⟨text', hread, rfl⟩ := prepend_eq_some h
              have := ih hread
              simp only [Mode.credit, List.length_append, List.length_singleton] at this ⊢
              omega
            · cases h
      | unicode high count n =>
          rw [stringFrom] at h
          split at h
          · cases h
          · split_ifs at h
            · have := ih h
              simp only [Mode.credit] at this ⊢
              omega
            · split at h
              · rename_i bytes mode' hcomplete
                obtain ⟨text', hread, rfl⟩ := prepend_eq_some h
                have := ih hread
                have := complete_credit hcomplete
                show (bytes ++ text').length + rest.length + 1 ≤ s.length + 1 + count
                rw [List.length_append]
                omega
              · cases h
      | low high | lowEscape high =>
          rw [stringFrom] at h
          split_ifs at h
          have := ih h
          simp only [Mode.credit] at this ⊢
          omega

/-- A character that stands for itself in a string. -/
def IsPlain (c : UInt8) : Prop :=
  c ≠ 34 ∧ c ≠ 92 ∧ 32 ≤ c

instance : DecidablePred IsPlain := fun c =>
  inferInstanceAs (Decidable (c ≠ 34 ∧ c ≠ 92 ∧ 32 ≤ c))

/-- Plain text denotes itself. -/
theorem stringFrom_plain {text : List UInt8} (h : ∀ c ∈ text, IsPlain c) (rest : List UInt8) :
    stringFrom .plain (text ++ 34 :: rest) = some (text, rest) := by
  induction text with
  | nil => simp [stringFrom]
  | cons c text ih =>
      obtain ⟨hquote, hbackslash, hcontrol⟩ := h c (by simp)
      rw [List.cons_append, stringFrom, if_neg hquote, if_neg hbackslash,
        if_neg (UInt8.not_lt.mpr hcontrol), ih fun d hd => h d (List.mem_cons_of_mem _ hd)]
      rfl

/-- **A string that denotes as many bytes as it is long is plain.** -/
theorem stringFrom_tight {s text rest : List UInt8} (h : stringFrom .plain s = some (text, rest))
    (hlength : s.length ≤ text.length + rest.length + 1) :
    s = text ++ 34 :: rest ∧ ∀ c ∈ text, IsPlain c := by
  induction s generalizing text with
  | nil => simp [stringFrom] at h
  | cons c s ih =>
      rw [List.length_cons] at hlength
      rw [stringFrom] at h
      split_ifs at h with hquote hbackslash hcontrol
      · cases h
        simp [hquote]
      · have := stringFrom_length h
        simp only [Mode.credit] at this
        omega
      · obtain ⟨text', hread, rfl⟩ := prepend_eq_some h
        rw [List.length_append, List.length_singleton] at hlength
        obtain ⟨rfl, hplain⟩ := ih hread (by omega)
        refine ⟨rfl, fun d hd => ?_⟩
        rcases List.mem_append.mp hd with hd | hd
        · rw [List.mem_singleton.mp hd]
          exact ⟨hquote, hbackslash, UInt8.not_lt.mp hcontrol⟩
        · exact hplain d hd

/-! ## Reading an object member by member -/

theorem next_cons {c : UInt8} (h : isSpace c = false) (s : List UInt8) :
    next (c :: s) = some (c, s) := by
  simp [next, h]

theorem expect_cons {c : UInt8} (h : isSpace c = false) (s : List UInt8) :
    expect c (c :: s) = some s := by
  simp only [expect, next_cons h, if_true]

theorem value_quote (fuel : ℕ) (s : List UInt8) :
    value (fuel + 1) (34 :: s) = (stringFrom .plain s).map fun p => (.string p.1, p.2) := by
  rw [value, next_cons rfl]
  rfl

theorem value_brace {s : List UInt8} (h : expect 125 s = none) (fuel : ℕ) :
    value (fuel + 1) (123 :: s) = (members fuel s).map fun p => (.object p.1, p.2) := by
  rw [value, next_cons rfl]
  simp only [h]
  rfl

/-- A member whose name is plain and whose value is a string. -/
theorem members_string {key : List UInt8} (hkey : ∀ c ∈ key, IsPlain c) (fuel : ℕ)
    (s : List UInt8) :
    members (fuel + 2) (34 :: (key ++ 34 :: 58 :: 34 :: s)) =
      (stringFrom .plain s).bind fun p => (next p.2).bind fun q =>
        if q.1 = 44 then (members (fuel + 1) q.2).map fun r => ((key, .string p.1) :: r.1, r.2)
        else if q.1 = 125 then some ([(key, .string p.1)], q.2)
        else none := by
  have hcolon : expect 58 (58 :: 34 :: s) = some (34 :: s) := expect_cons rfl _
  rw [members, expect_cons rfl]
  simp only [Option.bind_eq_bind, Option.bind_some, stringFrom_plain hkey, hcolon, value_quote]
  cases stringFrom .plain s <;> rfl

/-! ## Enough steps -/

theorem next_length {s rest : List UInt8} {c : UInt8} (h : next s = some (c, rest)) :
    rest.length < s.length := by
  unfold next at h
  have hdrop := (List.dropWhile_suffix (l := s) isSpace).length_le
  split at h
  · cases h
  · rename_i d rest' heq
    cases h
    rw [heq, List.length_cons] at hdrop
    omega

theorem expect_length {s rest : List UInt8} {c : UInt8} (h : expect c s = some rest) :
    rest.length < s.length := by
  unfold expect at h
  split at h
  · rename_i d rest' hnext
    split_ifs at h
    cases h
    exact next_length hnext
  · cases h

theorem stringFrom_shrinks {s text rest : List UInt8} (h : stringFrom .plain s = some (text, rest)) :
    rest.length < s.length := by
  have := stringFrom_length h
  simp only [Mode.credit] at this
  omega

theorem dropWord_length {word s rest : List UInt8} (h : dropWord word s = some rest) :
    rest.length ≤ s.length := by
  induction word generalizing s with
  | nil =>
      cases h
      exact Nat.le_refl _
  | cons a word ih =>
      cases s with
      | nil => cases h
      | cons b s =>
          rw [dropWord] at h
          split_ifs at h
          exact Nat.le_trans (ih h) (Nat.le_succ _)

theorem digits_length {s run rest : List UInt8} (h : digits s = some (run, rest)) :
    rest.length < s.length := by
  unfold digits at h
  split at h
  · cases h
  · rename_i hrun
    cases h
    have hsplit := congrArg List.length (List.takeWhile_append_dropWhile (p := isDigit) (l := s))
    rw [List.length_append] at hsplit
    have := List.length_pos_iff.mpr hrun
    omega

theorem integer_length {s run rest : List UInt8} (h : integer s = some (run, rest)) :
    rest.length < s.length := by
  unfold integer at h
  split at h
  · cases h
  · exact digits_length h

theorem fraction_length {s run rest : List UInt8} (h : fraction s = some (run, rest)) :
    rest.length ≤ s.length := by
  unfold fraction at h
  split at h
  · obtain ⟨p, hp, heq⟩ := Option.map_eq_some_iff.mp h
    obtain ⟨-, rfl⟩ := Prod.mk.inj heq
    have := digits_length hp
    rw [List.length_cons]
    omega
  · cases h
    exact Nat.le_refl _

theorem sign_length (s : List UInt8) : (sign s).2.length ≤ s.length := by
  unfold sign
  split <;> simp

theorem exponent_length {s run rest : List UInt8} (h : exponent s = some (run, rest)) :
    rest.length ≤ s.length := by
  unfold exponent at h
  split at h
  · rename_i c s
    split_ifs at h
    · obtain ⟨p, hp, heq⟩ := Option.map_eq_some_iff.mp h
      obtain ⟨-, rfl⟩ := Prod.mk.inj heq
      have := digits_length hp
      have := sign_length s
      rw [List.length_cons]
      omega
    · cases h
      exact Nat.le_refl _
  · cases h
    exact Nat.le_refl _

theorem unsigned_length {s run rest : List UInt8} (h : unsigned s = some (run, rest)) :
    rest.length < s.length := by
  unfold unsigned at h
  obtain ⟨⟨whole, s₁⟩, hinteger, h⟩ := Option.bind_eq_some_iff.mp h
  obtain ⟨⟨part, s₂⟩, hfraction, h⟩ := Option.bind_eq_some_iff.mp h
  obtain ⟨⟨power, s₃⟩, hexponent, h⟩ := Option.bind_eq_some_iff.mp h
  cases h
  have := integer_length hinteger
  have := fraction_length hfraction
  have := exponent_length hexponent
  omega

theorem numeral_length {s run rest : List UInt8} (h : numeral s = some (run, rest)) :
    rest.length < s.length := by
  unfold numeral at h
  split at h
  · obtain ⟨p, hp, heq⟩ := Option.map_eq_some_iff.mp h
    obtain ⟨-, rfl⟩ := Prod.mk.inj heq
    have := unsigned_length hp
    rw [List.length_cons]
    omega
  · exact unsigned_length h

/-- What a value, members or items leave is shorter. -/
theorem reading_length (fuel : ℕ) :
    (∀ s v rest, value fuel s = some (v, rest) → rest.length < s.length) ∧
      (∀ s m rest, members fuel s = some (m, rest) → rest.length < s.length) ∧
      ∀ s l rest, items fuel s = some (l, rest) → rest.length < s.length := by
  induction fuel with
  | zero => exact ⟨by simp [value], by simp [members], by simp [items]⟩
  | succ fuel ih =>
      obtain ⟨hvalue, hmembers, hitems⟩ := ih
      refine ⟨?_, ?_, ?_⟩
      · intro s v rest h
        rw [value] at h
        split at h
        · cases h
        · rename_i c s' hnext
          have hlt := next_length hnext
          split_ifs at h
          · obtain ⟨p, hp, heq⟩ := Option.map_eq_some_iff.mp h
            obtain ⟨-, rfl⟩ := Prod.mk.inj heq
            exact Nat.lt_trans (stringFrom_shrinks hp) hlt
          · split at h
            · rename_i rest' hempty
              cases h
              exact Nat.lt_trans (expect_length hempty) hlt
            · obtain ⟨p, hp, heq⟩ := Option.map_eq_some_iff.mp h
              obtain ⟨-, rfl⟩ := Prod.mk.inj heq
              exact Nat.lt_trans (hmembers _ _ _ hp) hlt
          · split at h
            · rename_i rest' hempty
              cases h
              exact Nat.lt_trans (expect_length hempty) hlt
            · obtain ⟨p, hp, heq⟩ := Option.map_eq_some_iff.mp h
              obtain ⟨-, rfl⟩ := Prod.mk.inj heq
              exact Nat.lt_trans (hitems _ _ _ hp) hlt
          iterate 3
            · obtain ⟨p, hp, heq⟩ := Option.map_eq_some_iff.mp h
              obtain ⟨-, rfl⟩ := Prod.mk.inj heq
              exact Nat.lt_of_le_of_lt (dropWord_length hp) hlt
          · obtain ⟨p, hp, heq⟩ := Option.map_eq_some_iff.mp h
            obtain ⟨-, rfl⟩ := Prod.mk.inj heq
            have := numeral_length hp
            rw [List.length_cons] at this
            omega
      · intro s m rest h
        rw [members] at h
        obtain ⟨s₁, hopen, h⟩ := Option.bind_eq_some_iff.mp h
        obtain ⟨⟨key, s₂⟩, hkey, h⟩ := Option.bind_eq_some_iff.mp h
        obtain ⟨s₃, hcolon, h⟩ := Option.bind_eq_some_iff.mp h
        obtain ⟨⟨v, s₄⟩, hv, h⟩ := Option.bind_eq_some_iff.mp h
        obtain ⟨⟨c, s₅⟩, hnext, h⟩ := Option.bind_eq_some_iff.mp h
        have := expect_length hopen
        have := stringFrom_shrinks hkey
        have := expect_length hcolon
        have := hvalue _ _ _ hv
        have := next_length hnext
        simp only at h
        split_ifs at h
        · obtain ⟨p, hp, heq⟩ := Option.map_eq_some_iff.mp h
          obtain ⟨-, rfl⟩ := Prod.mk.inj heq
          have := hmembers _ _ _ hp
          omega
        · cases h
          omega
      · intro s l rest h
        rw [items] at h
        obtain ⟨⟨v, s₁⟩, hv, h⟩ := Option.bind_eq_some_iff.mp h
        obtain ⟨⟨c, s₂⟩, hnext, h⟩ := Option.bind_eq_some_iff.mp h
        have := hvalue _ _ _ hv
        have := next_length hnext
        simp only at h
        split_ifs at h
        · obtain ⟨p, hp, heq⟩ := Option.map_eq_some_iff.mp h
          obtain ⟨-, rfl⟩ := Prod.mk.inj heq
          have := hitems _ _ _ hp
          omega
        · cases h
          omega

/-- A bound of two steps a byte is enough. -/
theorem reading_fuel (fuel : ℕ) :
    (∀ s : List UInt8, 2 * s.length + 1 ≤ fuel → value (fuel + 1) s = value fuel s) ∧
      (∀ s : List UInt8, 2 * s.length + 2 ≤ fuel → members (fuel + 1) s = members fuel s) ∧
      ∀ s : List UInt8, 2 * s.length + 2 ≤ fuel → items (fuel + 1) s = items fuel s := by
  induction fuel with
  | zero => exact ⟨fun s h => by omega, fun s h => by omega, fun s h => by omega⟩
  | succ fuel ih =>
      obtain ⟨hvalue, hmembers, hitems⟩ := ih
      refine ⟨?_, ?_, ?_⟩
      · intro s h
        rw [value, value]
        cases hnext : next s with
        | none => rfl
        | some p =>
            have hlt : p.2.length < s.length := next_length hnext
            simp only
            rw [hmembers p.2 (by omega), hitems p.2 (by omega)]
      · intro s h
        rw [members, members]
        refine Option.bind_congr fun s₁ hopen => Option.bind_congr fun p₂ hkey =>
          Option.bind_congr fun s₃ hcolon => ?_
        have h₁ := expect_length hopen
        have h₂ : p₂.2.length < s₁.length := stringFrom_shrinks hkey
        have h₃ := expect_length hcolon
        simp only [hvalue s₃ (by omega)]
        refine Option.bind_congr fun p₄ hv => Option.bind_congr fun p₅ hnext => ?_
        have h₄ : p₄.2.length < s₃.length := (reading_length fuel).1 _ _ _ hv
        have h₅ : p₅.2.length < p₄.2.length := next_length hnext
        obtain ⟨c, s₅⟩ := p₅
        simp only at h₅ ⊢
        rw [hmembers s₅ (by omega)]
      · intro s h
        rw [items, items, hvalue s (by omega)]
        refine Option.bind_congr fun p₁ hv => Option.bind_congr fun p₂ hnext => ?_
        have h₁ : p₁.2.length < s.length := (reading_length fuel).1 _ _ _ hv
        have h₂ : p₂.2.length < p₁.2.length := next_length hnext
        obtain ⟨c, s₂⟩ := p₂
        simp only at h₂ ⊢
        rw [hitems s₂ (by omega)]

/-- **The bound of `parse` is large enough**: with more steps nothing else is read. -/
theorem value_fuel {s : List UInt8} {fuel : ℕ} (h : 2 * s.length + 2 ≤ fuel) :
    value fuel s = value (2 * s.length + 2) s := by
  obtain ⟨more, rfl⟩ := Nat.exists_eq_add_of_le h
  induction more with
  | zero => rfl
  | succ more ih =>
      rw [← Nat.add_assoc, (reading_fuel _).1 s (by omega), ih (Nat.le_add_right _ _)]

end Json

end Codec

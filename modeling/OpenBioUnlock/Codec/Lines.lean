import Mathlib.Data.List.Basic

/-!
# Lines of a byte string

A line ends in a line feed, and a carriage return before the line feed goes with
it; what follows the last line feed is a line if there is anything.  This is
`str::lines` and the `lines()` of a buffered reader alike.

`lines_intercalate` says that joining lines by line feeds loses nothing, for
non-empty lines without a line feed or a carriage return in them.
-/

namespace Codec

/-- The line without a carriage return at its end. -/
def stripCr (line : List UInt8) : List UInt8 :=
  if line.getLast? = some 13 then line.dropLast else line

/-- The lines of `line ++ text`, where `line` is what was read of a line so far. -/
def linesFrom (line : List UInt8) : List UInt8 → List (List UInt8)
  | [] => if line = [] then [] else [line]
  | b :: rest =>
      if b = 10 then stripCr line :: linesFrom [] rest
      else linesFrom (line ++ [b]) rest

/-- The lines of a text. -/
def lines (text : List UInt8) : List (List UInt8) :=
  linesFrom [] text

theorem stripCr_of_not_mem {line : List UInt8} (h : 13 ∉ line) : stripCr line = line := by
  unfold stripCr
  split
  · rename_i hlast
    exact absurd (List.mem_of_getLast? hlast) h
  · rfl

theorem linesFrom_append {line : List UInt8} (hline : 10 ∉ line) (start rest : List UInt8) :
    linesFrom start (line ++ rest) = linesFrom (start ++ line) rest := by
  induction line generalizing start with
  | nil => simp
  | cons b line ih =>
      have hb : b ≠ 10 := fun h => hline (by simp [h])
      rw [List.cons_append, linesFrom, if_neg hb, ih (fun h => hline (by simp [h]))]
      simp

/-- A line that is ended. -/
theorem lines_append {line : List UInt8} (hline : 10 ∉ line) (rest : List UInt8) :
    lines (line ++ 10 :: rest) = stripCr line :: lines rest := by
  rw [lines, linesFrom_append hline, List.nil_append, linesFrom, if_pos rfl, lines]

/-- A line that is not. -/
theorem lines_of_not_mem {line : List UInt8} (hline : 10 ∉ line) (hne : line ≠ []) :
    lines line = [line] := by
  have h := linesFrom_append hline [] []
  rw [List.append_nil, List.nil_append] at h
  rw [lines, h, linesFrom, if_neg hne]

/-- What a line begins with, the text does, up to the line feed. -/
theorem linesFrom_head {start text line : List UInt8} {more : List (List UInt8)}
    (h : linesFrom start text = line :: more) (hstart : 10 ∉ start) :
    line <+: start ++ text ∧ 10 ∉ line := by
  induction text generalizing start with
  | nil =>
      rw [linesFrom] at h
      split_ifs at h
      cases h
      rw [List.append_nil]
      exact ⟨List.prefix_rfl, hstart⟩
  | cons b text ih =>
      rw [linesFrom] at h
      split_ifs at h with hb
      · cases h
        have hbegins : stripCr start <+: start := by
          unfold stripCr
          split_ifs
          · exact List.dropLast_prefix start
          · exact List.prefix_rfl
        exact ⟨hbegins.trans (List.prefix_append _ _), fun hmem => hstart (hbegins.subset hmem)⟩
      · have hnext : 10 ∉ start ++ [b] := by
          rw [List.mem_append, List.mem_singleton]
          rintro (hmem | heq)
          · exact hstart hmem
          · exact hb heq.symm
        simpa using ih h hnext

/-- A line goes on with what was read of it, if that ends in no carriage return. -/
theorem linesFrom_begins {head text start line : List UInt8} {more : List (List UInt8)}
    (hhead : head.getLast? ≠ some 13) (h : linesFrom (head ++ start) text = line :: more) :
    head <+: line := by
  induction text generalizing start with
  | nil =>
      rw [linesFrom] at h
      split_ifs at h
      cases h
      exact List.prefix_append _ _
  | cons b text ih =>
      rw [linesFrom] at h
      split_ifs at h with hb
      · cases h
        unfold stripCr
        split_ifs with hcr
        · rcases start.eq_nil_or_concat with rfl | ⟨front, z, rfl⟩
          · rw [List.append_nil] at hcr
            exact absurd hcr hhead
          · rw [List.concat_eq_append, ← List.append_assoc, List.dropLast_concat]
            exact List.prefix_append _ _
        · exact List.prefix_append _ _
      · rw [List.append_assoc] at h
        exact ih h

/-- **The first line** is what the text begins with, up to the line feed. -/
theorem lines_head {text line : List UInt8} {more : List (List UInt8)}
    (h : lines text = line :: more) : line <+: text ∧ 10 ∉ line :=
  linesFrom_head h (by simp)

/-- **Joining by line feeds loses nothing.** -/
theorem lines_intercalate {ls : List (List UInt8)}
    (h : ∀ line ∈ ls, line ≠ [] ∧ 10 ∉ line ∧ 13 ∉ line) :
    lines ([10].intercalate ls) = ls := by
  induction ls with
  | nil => rfl
  | cons line rest ih =>
      obtain ⟨hne, hlf, hcr⟩ := h line (by simp)
      have hrest := ih fun l hl => h l (List.mem_cons_of_mem _ hl)
      cases rest with
      | nil =>
          rw [List.intercalate_singleton]
          exact lines_of_not_mem hlf hne
      | cons next rest =>
          rw [List.intercalate_cons_cons, List.append_assoc, List.singleton_append,
            lines_append hlf, hrest, stripCr_of_not_mem hcr]

end Codec

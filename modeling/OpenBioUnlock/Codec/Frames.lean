import Mathlib.Data.List.Basic

/-!
# Frames of a stream

A stream is cut into frames by a delimiter.  `frames` are the complete ones,
without their delimiters, and `remainder` is what follows the last delimiter, so
the two are the pieces of `List.splitOn`, but for its last piece, and that piece.

A reader that is handed the stream in chunks keeps the remainder.  `frames_append`
and `remainder_append` are the two laws by which the chunks do not matter.
-/

namespace Codec

variable {α : Type*} [DecidableEq α] {d : α}

/-- The complete frames of a stream. -/
def frames (d : α) (stream : List α) : List (List α) :=
  (stream.splitOn d).dropLast

/-- What follows the last delimiter. -/
def remainder (d : α) (stream : List α) : List α :=
  (stream.splitOn d).getLast (List.splitOn_ne_nil d stream)

theorem frames_of_not_mem {stream : List α} (h : d ∉ stream) : frames d stream = [] := by
  rw [frames, List.splitOn_eq_singleton h]
  rfl

theorem remainder_of_not_mem {stream : List α} (h : d ∉ stream) : remainder d stream = stream := by
  simp [remainder, List.splitOn_eq_singleton h]

/-- The first frame comes off. -/
theorem frames_cons {frame : List α} (h : d ∉ frame) (rest : List α) :
    frames d (frame ++ d :: rest) = frame :: frames d rest := by
  rw [frames, List.splitOn_append_cons_self_of_not_mem h,
    List.dropLast_cons_of_ne_nil (List.splitOn_ne_nil d rest), frames]

theorem remainder_cons {frame : List α} (h : d ∉ frame) (rest : List α) :
    remainder d (frame ++ d :: rest) = remainder d rest := by
  simp [remainder, List.splitOn_append_cons_self_of_not_mem h, List.splitOn_ne_nil]

/-- Frames that are written one after the other are read so. -/
theorem frames_flatMap {xs : List (List α)} (h : ∀ x ∈ xs, d ∉ x) :
    frames d (xs.flatMap fun x => x ++ [d]) = xs ∧
      remainder d (xs.flatMap fun x => x ++ [d]) = [] := by
  induction xs with
  | nil => exact ⟨frames_of_not_mem List.not_mem_nil, remainder_of_not_mem List.not_mem_nil⟩
  | cons x xs ih =>
      obtain ⟨hframes, hremainder⟩ := ih fun y hy => h y (List.mem_cons_of_mem x hy)
      have hx : d ∉ x := h x List.mem_cons_self
      rw [List.flatMap_cons, List.append_assoc, List.singleton_append, frames_cons hx,
        remainder_cons hx, hframes]
      exact ⟨rfl, hremainder⟩

/-- **Induction along the frames**: a stream has no delimiter, or a first frame. -/
theorem frames_induction {motive : List α → Prop} (rest : ∀ stream, d ∉ stream → motive stream)
    (frame : ∀ frame stream, d ∉ frame → motive stream → motive (frame ++ d :: stream))
    (stream : List α) : motive stream := by
  by_cases h : d ∈ stream
  · obtain ⟨first, more, hstream, hfirst⟩ := List.eq_append_cons_of_mem h
    rw [hstream]
    exact frame first more hfirst (frames_induction rest frame more)
  · exact rest stream h
termination_by stream.length
decreasing_by
  rw [hstream, List.length_append, List.length_cons]
  omega

/-- **The frames of a longer stream**: those of the first part, then those the remainder
begins. -/
theorem frames_append (stream more : List α) :
    frames d (stream ++ more) = frames d stream ++ frames d (remainder d stream ++ more) := by
  induction stream using frames_induction (d := d) with
  | rest stream h => rw [frames_of_not_mem h, remainder_of_not_mem h, List.nil_append]
  | frame frame stream h ih =>
      rw [List.append_assoc, List.cons_append, frames_cons h, ih, frames_cons h, remainder_cons h,
        List.cons_append]

/-- **The remainder of a longer stream** is that of the remainder. -/
theorem remainder_append (stream more : List α) :
    remainder d (stream ++ more) = remainder d (remainder d stream ++ more) := by
  induction stream using frames_induction (d := d) with
  | rest stream h => rw [remainder_of_not_mem h]
  | frame frame stream h ih =>
      rw [List.append_assoc, List.cons_append, remainder_cons h, ih, remainder_cons h]

end Codec

import OpenBioUnlock.Pam.Authenticate

/-!
# The line reader

`read_line` once more, with each of its stores into the buffer and each byte it
consumes.  `readLine_eq_run` is the connection with `readLine`.

What there is to be read is `arriving`: the bytes that arrive before the first error,
end of file or timeout, however often `poll` and `read` are interrupted.
`read_line_spec` compares the two, for every capacity and every sequence of outcomes.
-/

namespace OpenBioUnlock.Pam

/-! ## The run -/

/-- A run of `read_line`. -/
structure ReadRun where
  /-- the stores into the buffer: where, and what -/
  stores : List (ℕ × UInt8)
  /-- the bytes `read` has taken from the socket -/
  consumed : Bytes
  /-- whether 0 was returned; `none` while it waits -/
  result : Option Bool

/-- `read_line`, with the number of bytes it has so far. -/
def readLineRun (capacity length : ℕ) (poller : Poller) (reads : List Received) : ReadRun :=
  if length + 1 < capacity then
    match waitForIo poller.polls poller.errno with
    | none => ⟨[], [], none⟩
    | some (false, _) => ⟨[], [], some false⟩
    | some (true, poller) =>
        match reads with
        | [] => ⟨[], [], none⟩
        | .endOfFile :: _ => ⟨[], [], some false⟩
        | .failed .eintr :: reads =>
            readLineRun capacity length { poller with errno := .eintr } reads
        | .failed .other :: _ => ⟨[], [], some false⟩
        | .byte b :: reads =>
            if b = 10 then ⟨[(length, 0)], [b], some true⟩
            else
              let run := readLineRun capacity (length + 1) poller reads
              ⟨(length, b) :: run.stores, b :: run.consumed, run.result⟩
  else ⟨[], [], some false⟩

/-- What the buffer holds after the stores. -/
def bufferAfter (buffer : ℕ → UInt8) (stores : List (ℕ × UInt8)) : ℕ → UInt8 :=
  stores.foldl (fun buffer store => Function.update buffer store.1 store.2) buffer

variable {capacity length : ℕ} {poller : Poller} {reads : List Received}

/-- 0 is returned at a line feed. -/
theorem consumed_of_done (h : (readLineRun capacity length poller reads).result = some true) :
    ∃ line, (readLineRun capacity length poller reads).consumed = line ++ [10] := by
  fun_induction readLineRun capacity length poller reads with
  | case5 _ _ _ _ _ _ ih => exact ih h
  | case7 => exact ⟨[], rfl⟩
  | case8 _ _ _ _ _ b _ _ run ih =>
      obtain ⟨line, hline⟩ := ih h
      exact ⟨b :: line, by simp only [run, hline, List.cons_append]⟩
  | _ => cases h

/-- **The line of `readLine` is what was consumed, without the line feed.** -/
theorem readLine_eq_run (capacity : ℕ) (buffer : Bytes) (poller : Poller)
    (reads : List Received) :
    readLine capacity buffer poller reads =
      let run := readLineRun capacity buffer.length poller reads
      run.result.map fun done => if done then some (buffer ++ run.consumed.dropLast) else none := by
  fun_induction readLine capacity buffer poller reads with
  | case1 _ _ _ hlength hwait | case2 _ _ _ hlength _ hwait | case3 _ _ hlength _ hwait
  | case4 _ _ hlength _ hwait | case6 _ _ hlength _ hwait =>
      rw [readLineRun, if_pos hlength, hwait]
      rfl
  | case5 _ _ hlength _ hwait _ ih =>
      rw [readLineRun, if_pos hlength, hwait]
      exact ih
  | case7 _ _ hlength _ hwait =>
      rw [readLineRun, if_pos hlength, hwait]
      simp
  | case8 buffer _ hlength poller hwait b reads hb ih =>
      rw [readLineRun, if_pos hlength, hwait, ih, List.length_append, List.length_singleton]
      simp only [hb, if_false]
      cases hdone : (readLineRun capacity (buffer.length + 1) poller reads).result with
      | none => rfl
      | some done =>
          cases done with
          | false => rfl
          | true =>
              obtain ⟨line, hline⟩ := consumed_of_done hdone
              have hconsumed : b :: (line ++ [10]) = (b :: line) ++ [10] := rfl
              simp only [hline, Option.map_some, if_true]
              rw [hconsumed, List.dropLast_concat, List.dropLast_concat, List.append_assoc]
              rfl
  | case9 _ _ _ hlength =>
      rw [readLineRun, if_neg hlength]
      rfl

/-! ## What arrives -/

/-- The bytes that arrive before an error, the end of the file or a timeout. -/
def arriving : List Polled → List Received → Bytes
  | .failed .eintr :: polls, reads => arriving polls reads
  | .events true :: polls, .failed .eintr :: reads => arriving polls reads
  | .events true :: polls, .byte b :: reads => b :: arriving polls reads
  | _, _ => []

/-- Interruptions of `poll` make no difference. -/
theorem arriving_ready {polls : List Polled} {errno : Errno} {next : Poller}
    (h : waitForIo polls errno = some (true, next)) (reads : List Received) :
    arriving polls reads = arriving (.events true :: next.polls) reads := by
  fun_induction waitForIo polls errno with
  | case1 | case3 | case4 => cases h
  | case2 _ _ ih =>
      rw [← ih h]
      simp only [arriving]
  | case5 => cases h; rfl

/-- Nothing arrives when `wait_for_io` fails, or waits. -/
theorem arriving_refused {polls : List Polled} (errno : Errno)
    (h : ∀ next, waitForIo polls errno ≠ some (true, next)) (reads : List Received) :
    arriving polls reads = [] := by
  fun_induction waitForIo polls errno with
  | case1 | case3 | case4 => simp only [arriving]
  | case2 _ _ ih =>
      simp only [arriving]
      exact ih h
  | case5 expected polls errno =>
      cases expected with
      | true => exact absurd rfl (h _)
      | false => simp only [arriving]

/-- The bytes before the first line feed. -/
def lineOf (bytes : Bytes) : Bytes :=
  bytes.takeWhile (· ≠ 10)

/-- Bytes stored one after the other. -/
def storesOf (start : ℕ) : Bytes → List (ℕ × UInt8)
  | [] => []
  | b :: rest => (start, b) :: storesOf (start + 1) rest

/-! ## What is read -/

/-- What a run of `read_line` does with the bytes that arrive. -/
structure ReadRun.Reads (capacity length : ℕ) (bytes : Bytes) (run : ReadRun) : Prop where
  /-- no store is outside of the buffer -/
  inside : ∀ store ∈ run.stores, store.1 < capacity
  /-- what is consumed is what arrives, and at most one line of it -/
  consumed : run.consumed <+: bytes
  one_line : 10 ∉ run.consumed.dropLast
  /-- 0 is returned if a line arrives that fits -/
  done : run.result = some true ↔ 10 ∈ bytes ∧ length + (lineOf bytes).length + 2 ≤ capacity
  /-- and then the line is stored, with a NUL -/
  stored : run.result = some true → run.stores = storesOf length (lineOf bytes ++ [0])

variable {bytes : Bytes}

/-- A run that does nothing, as nothing arrives. -/
theorem ReadRun.Reads.refused {result : Option Bool} (hresult : result ≠ some true)
    (hbytes : bytes = []) : ReadRun.Reads capacity length bytes ⟨[], [], result⟩ := by
  subst hbytes
  exact ⟨by simp, List.nil_prefix, by simp, by simp [hresult], fun h => absurd h hresult⟩

/-- A byte of the line goes in front of what the rest of the run reads. -/
theorem ReadRun.Reads.cons {run : ReadRun} {b : UInt8} (hlength : length + 1 < capacity)
    (hb : b ≠ 10) (h : ReadRun.Reads capacity (length + 1) bytes run) :
    ReadRun.Reads capacity length (b :: bytes)
      ⟨(length, b) :: run.stores, b :: run.consumed, run.result⟩ := by
  obtain ⟨hinside, hconsumed, hone, hdone, hstored⟩ := h
  have hline : lineOf (b :: bytes) = b :: lineOf bytes := by simp [lineOf, hb]
  refine ⟨?_, List.cons_prefix_cons.mpr ⟨rfl, hconsumed⟩, ?_, ?_, fun hresult => ?_⟩
  · rw [List.forall_mem_cons]
    exact ⟨by simp only; omega, hinside⟩
  · cases hrun : run.consumed with
    | nil => simp
    | cons b' rest =>
        rw [hrun] at hone
        rw [List.dropLast_cons_of_ne_nil (by simp), List.mem_cons, not_or]
        exact ⟨Ne.symm hb, hone⟩
  · simp only
    rw [hdone, hline, List.mem_cons, List.length_cons, or_iff_right (Ne.symm hb)]
    refine and_congr_right fun _ => ?_
    omega
  · rw [hline, List.cons_append, storesOf, hstored hresult]

/-- **`read_line`, whatever the calls do.** -/
theorem readLineRun_reads (capacity length : ℕ) (poller : Poller) (reads : List Received) :
    ReadRun.Reads capacity length (arriving poller.polls reads)
      (readLineRun capacity length poller reads) := by
  fun_induction readLineRun capacity length poller reads with
  | case1 reads length poller hlength hwait =>
      exact .refused (by simp) (arriving_refused poller.errno (by simp [hwait]) reads)
  | case2 reads length poller hlength next hwait =>
      exact .refused (by simp) (arriving_refused poller.errno (by simp [hwait]) reads)
  | case3 length poller hlength next hwait =>
      exact .refused (by simp) (arriving_ready hwait [])
  | case4 length poller hlength next hwait rest =>
      exact .refused (by simp) (arriving_ready hwait _)
  | case5 length poller hlength next hwait rest ih =>
      rw [arriving_ready hwait]
      exact ih
  | case6 length poller hlength next hwait rest =>
      exact .refused (by simp) (arriving_ready hwait _)
  | case7 length poller hlength next hwait rest =>
      rw [arriving_ready hwait]
      have hline : lineOf (10 :: arriving next.polls rest) = [] := rfl
      refine ⟨by simp; omega, by simp [arriving], by simp, ?_, fun _ => ?_⟩
      · simp only [arriving, hline]
        simp
        omega
      · simp only [arriving, hline]
        rfl
  | case8 length poller hlength next hwait b rest hb run ih =>
      rw [arriving_ready hwait]
      exact ih.cons hlength hb
  | case9 reads length poller hlength =>
      refine ⟨by simp, List.nil_prefix, by simp, ?_, by simp⟩
      simp
      omega

/-! ## The buffer -/

/-- What is before the stores stays. -/
theorem bufferAfter_before (buffer : ℕ → UInt8) (bytes : Bytes) {start i : ℕ} (hi : i < start) :
    bufferAfter buffer (storesOf start bytes) i = buffer i := by
  induction bytes generalizing buffer start with
  | nil => rfl
  | cons b rest ih =>
      have hne : i ≠ start := Nat.ne_of_lt hi
      rw [storesOf, bufferAfter, List.foldl_cons, ← bufferAfter, ih _ (Nat.lt_succ_of_lt hi),
        Function.update_of_ne hne]

/-- What is stored is there. -/
theorem bufferAfter_storesOf (buffer : ℕ → UInt8) (start : ℕ) (bytes : Bytes) {i : ℕ}
    (hi : i < bytes.length) : bufferAfter buffer (storesOf start bytes) (start + i) = bytes[i] := by
  induction bytes generalizing buffer start i with
  | nil => simp at hi
  | cons b rest ih =>
      rw [storesOf, bufferAfter, List.foldl_cons, ← bufferAfter]
      cases i with
      | zero =>
          have hbefore := bufferAfter_before (Function.update buffer start b) rest
            (Nat.lt_succ_self start)
          simpa using hbefore
      | succ i =>
          have hindex : start + (i + 1) = start + 1 + i := by omega
          rw [hindex, ih _ _ (by simpa using hi)]
          rfl

/-! ## The result -/

/-- **`read_line` stores inside of the buffer, consumes one line at most, and returns 0
exactly when a line arrives that fits, which the buffer then holds.** -/
theorem read_line_spec (capacity : ℕ) (poller : Poller) (reads : List Received) :
    let bytes := arriving poller.polls reads
    let run := readLineRun capacity 0 poller reads
    (∀ store ∈ run.stores, store.1 < capacity) ∧
      (run.consumed <+: bytes ∧ 10 ∉ run.consumed.dropLast) ∧
      (run.result = some true ↔ 10 ∈ bytes ∧ (lineOf bytes).length + 2 ≤ capacity) ∧
      (run.result = some true → ∀ buffer i, (hi : i < (lineOf bytes ++ [0]).length) →
        bufferAfter buffer run.stores i = (lineOf bytes ++ [0])[i]) := by
  intro bytes run
  obtain ⟨hinside, hconsumed, hone, hdone, hstored⟩ := readLineRun_reads capacity 0 poller reads
  refine ⟨hinside, ⟨hconsumed, hone⟩, by rw [hdone, Nat.zero_add], ?_⟩
  intro hresult buffer i hi
  have hcell := bufferAfter_storesOf buffer 0 (lineOf bytes ++ [0]) hi
  rw [Nat.zero_add] at hcell
  rw [hstored hresult, hcell]

/-- A line that just fits, and one that does not. -/
example : (readLineRun 4 0 ⟨List.replicate 5 (.events true), .other⟩
      [.failed .eintr, .byte 79, .byte 75, .byte 10]).result = some true ∧
    (readLineRun 3 0 ⟨List.replicate 5 (.events true), .other⟩
      [.byte 79, .byte 75, .byte 10]).result = some false := by
  decide +kernel

end OpenBioUnlock.Pam

import OpenBioUnlock.Pam.Authenticate

/-!
# The writer

`write_all` once more, with the calls of `poll` and `write` it makes.
`writeAllLog_toWriteRun` is the connection with `writeAll`.

The writer should stop at the first call that fails or gives nothing, and return -1
then and only then.  A `write` that returns 0 is taken for one that failed, and
`errno` is consulted, which an earlier interruption may have left at `EINTR`:
`write_all_iff` says that this is the only way in which it goes wrong.
-/

namespace OpenBioUnlock.Pam

/-! ## The calls -/

/-- A system call, with its outcome. -/
inductive IoCall where
  | poll (outcome : Polled)
  | write (outcome : Written)
  deriving DecidableEq

/-- The calls of one `wait_for_io`. -/
def waitCalls : List Polled → List IoCall
  | [] => []
  | .failed .eintr :: polls => .poll (.failed .eintr) :: waitCalls polls
  | outcome :: _ => [.poll outcome]

/-- A run of `write_all`, with its calls. -/
structure LoggedRun extends WriteRun where
  calls : List IoCall

/-- `write_all` from `offset` on. -/
def writeAllLog (data : Bytes) (offset : ℕ) (poller : Poller) (writes : List Written) :
    LoggedRun :=
  if offset < data.length then
    let waits := waitCalls poller.polls
    match waitForIo poller.polls poller.errno with
    | none => ⟨⟨[], offset, none, poller⟩, waits⟩
    | some (false, poller) => ⟨⟨[], offset, some false, poller⟩, waits⟩
    | some (true, poller) =>
        match writes with
        | [] => ⟨⟨[], offset, none, poller⟩, waits⟩
        | .failed .eintr :: writes =>
            let run := writeAllLog data offset { poller with errno := .eintr } writes
            { run with calls := waits ++ .write (.failed .eintr) :: run.calls }
        | .failed .other :: _ =>
            ⟨⟨[], offset, some false, { poller with errno := .other }⟩,
              waits ++ [.write (.failed .other)]⟩
        | .count n :: writes =>
            let written := min n (data.length - offset)
            if written = 0 then
              if poller.errno = .eintr then
                let run := writeAllLog data offset poller writes
                { run with calls := waits ++ .write (.count n) :: run.calls }
              else ⟨⟨[], offset, some false, poller⟩, waits ++ [.write (.count n)]⟩
            else
              let run := writeAllLog data (offset + written) poller writes
              { run with
                sent := (data.drop offset).take written ++ run.sent
                calls := waits ++ .write (.count n) :: run.calls }
  else ⟨⟨[], offset, some true, poller⟩, []⟩

/-- **It is the same run.** -/
theorem writeAllLog_toWriteRun (data : Bytes) (offset : ℕ) (poller : Poller)
    (writes : List Written) :
    (writeAllLog data offset poller writes).toWriteRun = writeAll data offset poller writes := by
  fun_induction writeAll data offset poller writes with
  | case1 _ _ _ hlength hwait | case2 _ _ _ hlength _ hwait | case3 _ _ hlength _ hwait
  | case5 _ _ hlength _ hwait =>
      rw [writeAllLog, if_pos hlength, hwait]
  | case4 _ _ hlength _ hwait _ ih =>
      rw [writeAllLog, if_pos hlength, hwait]
      exact ih
  | case6 offset _ hlength _ hwait n _ _ hwritten herrno ih =>
      have hnone : min n (data.length - offset) = 0 := hwritten
      rw [writeAllLog, if_pos hlength, hwait]
      simp only [hnone, herrno, if_true]
      exact ih
  | case7 offset _ hlength _ hwait n _ _ hwritten herrno =>
      have hnone : min n (data.length - offset) = 0 := hwritten
      rw [writeAllLog, if_pos hlength, hwait]
      simp only [hnone, herrno, if_true, if_false]
  | case8 offset _ hlength _ hwait n _ written hwritten run ih =>
      have hsome : ¬ min n (data.length - offset) = 0 := hwritten
      rw [writeAllLog, if_pos hlength, hwait]
      simp only [hsome, if_false]
      simp only [run, ← ih, written]
  | case9 _ _ _ hlength => rw [writeAllLog, if_neg hlength]

/-! ## The law -/

/-- The call fails, or times out, or writes nothing. -/
def IoCall.stops : IoCall → Bool
  | .poll (.events expected) => !expected
  | .poll .timeout => true
  | .write (.count n) => n = 0
  | .poll (.failed errno) | .write (.failed errno) => errno ≠ .eintr

/-- The first call that stops is the last, and -1 is returned; without one, it is not. -/
def StopsAtFirst : List IoCall → Option Bool → Prop
  | [], result => result ≠ some false
  | call :: rest, result =>
      if call.stops then rest = [] ∧ result = some false else StopsAtFirst rest result

/-- **The law** of a run of `write_all`. -/
structure LoggedRun.WritesAll (data : Bytes) (run : LoggedRun) : Prop where
  /-- what is sent is a prefix of the data -/
  sent : run.sent <+: data
  /-- 0 is returned when all of it has been sent -/
  complete : run.result = some true ↔ run.sent = data
  stops : StopsAtFirst run.calls run.result

/-! ## The condition -/

/-- `errno` after a call: only one that fails changes it. -/
def IoCall.errnoAfter (errno : Errno) : IoCall → Errno
  | .poll (.failed e) | .write (.failed e) => e
  | _ => errno

/-- A `write` returns 0 while `errno` is still `EINTR`. -/
def StaleErrno : Errno → List IoCall → Prop
  | _, [] => False
  | errno, call :: rest =>
      (call = .write (.count 0) ∧ errno = .eintr) ∨ StaleErrno (call.errnoAfter errno) rest

/-! ## The waits -/

variable {polls : List Polled} {errno : Errno} {next : Poller} {rest : List IoCall}
variable {result : Option Bool}

theorem waitCalls_ne_nil (h : waitForIo polls errno ≠ none) : waitCalls polls ≠ [] := by
  fun_cases waitCalls polls with
  | case1 => exact absurd rfl h
  | _ => simp

/-- A wait that succeeds stops nothing. -/
theorem stopsAtFirst_ready (h : waitForIo polls errno = some (true, next)) :
    StopsAtFirst (waitCalls polls ++ rest) result ↔ StopsAtFirst rest result := by
  fun_induction waitForIo polls errno with
  | case1 | case3 | case4 => cases h
  | case2 polls errno ih =>
      rw [waitCalls, List.cons_append, StopsAtFirst, ih h]
      simp [IoCall.stops]
  | case5 expected polls errno =>
      cases h
      simp [waitCalls, StopsAtFirst, IoCall.stops]

/-- It leaves its `errno`. -/
theorem staleErrno_ready (h : waitForIo polls errno = some (true, next)) :
    StaleErrno errno (waitCalls polls ++ rest) ↔ StaleErrno next.errno rest := by
  fun_induction waitForIo polls errno with
  | case1 | case3 | case4 => cases h
  | case2 polls errno ih =>
      rw [waitCalls, List.cons_append, StaleErrno, IoCall.errnoAfter, ih h]
      simp
  | case5 expected polls errno =>
      cases h
      simp [waitCalls, StaleErrno, IoCall.errnoAfter]

/-- One that fails stops the run, and one that is not over does not. -/
theorem waitCalls_last (h : ∀ next, waitForIo polls errno ≠ some (true, next)) :
    StopsAtFirst (waitCalls polls) ((waitForIo polls errno).map Prod.fst) ∧
      ¬ StaleErrno errno (waitCalls polls) := by
  fun_induction waitForIo polls errno with
  | case1 => simp [waitCalls, StopsAtFirst, StaleErrno]
  | case2 polls errno ih =>
      obtain ⟨hstops, hstale⟩ := ih h
      rw [waitCalls, StopsAtFirst, StaleErrno]
      simp [IoCall.stops, IoCall.errnoAfter, hstops, hstale]
  | case3 | case4 => simp [waitCalls, StopsAtFirst, StaleErrno, IoCall.stops]
  | case5 expected polls errno =>
      cases expected with
      | true => exact absurd rfl (h _)
      | false => simp [waitCalls, StopsAtFirst, StaleErrno, IoCall.stops]

/-! ## The result -/

variable {data : Bytes} {offset : ℕ}

/-- A run does not fail before its first call. -/
theorem calls_ne_nil {poller : Poller} {writes : List Written}
    (h : (writeAllLog data offset poller writes).result = some false) :
    (writeAllLog data offset poller writes).calls ≠ [] := by
  fun_induction writeAllLog data offset poller writes with
  | case1 | case3 | case9 => cases h
  | case2 _ _ poller _ _ _ hwait =>
      have hwaits : waitForIo poller.polls poller.errno ≠ none := by simp [hwait]
      exact waitCalls_ne_nil hwaits
  | _ => simp

/-- **The run stops at its first failure exactly if no stale `errno` is consulted.** -/
theorem stopsAtFirst_iff (data : Bytes) (offset : ℕ) (poller : Poller) (writes : List Written) :
    StopsAtFirst (writeAllLog data offset poller writes).calls
        (writeAllLog data offset poller writes).result ↔
      ¬ StaleErrno poller.errno (writeAllLog data offset poller writes).calls := by
  fun_induction writeAllLog data offset poller writes with
  | case1 _ _ poller _ _ hwait | case2 _ _ poller _ _ _ hwait =>
      have hlast : ∀ next, waitForIo poller.polls poller.errno ≠ some (true, next) := by
        simp [hwait]
      obtain ⟨hstops, hstale⟩ := waitCalls_last hlast
      rw [hwait] at hstops
      exact iff_of_true hstops hstale
  | case3 _ poller _ waits next hwait =>
      rw [← List.append_nil waits, stopsAtFirst_ready hwait, staleErrno_ready hwait]
      simp [StopsAtFirst, StaleErrno]
  | case4 _ _ _ waits _ hwait _ _ ih =>
      rw [stopsAtFirst_ready hwait, staleErrno_ready hwait]
      simpa [StopsAtFirst, StaleErrno, IoCall.stops, IoCall.errnoAfter] using ih
  | case5 _ _ _ waits _ hwait =>
      rw [stopsAtFirst_ready hwait, staleErrno_ready hwait]
      simp [StopsAtFirst, StaleErrno, IoCall.stops]
  | case6 offset _ hlength waits _ hwait n _ _ hwritten herrno run ih =>
      have hnone : n = 0 := by
        have hmin : min n (data.length - offset) = 0 := hwritten
        omega
      rw [stopsAtFirst_ready hwait, staleErrno_ready hwait]
      -- it goes on, whether or not there is another call yet
      have hgoes : ¬ (run.calls = [] ∧ run.result = some false) := by
        rintro ⟨hcalls, hresult⟩
        exact calls_ne_nil hresult hcalls
      simpa [StopsAtFirst, StaleErrno, IoCall.stops, hnone, herrno] using hgoes
  | case7 offset _ hlength waits _ hwait n _ _ hwritten herrno =>
      have hnone : n = 0 := by
        have hmin : min n (data.length - offset) = 0 := hwritten
        omega
      rw [stopsAtFirst_ready hwait, staleErrno_ready hwait]
      simp [StopsAtFirst, StaleErrno, IoCall.stops, hnone, herrno]
  | case8 offset _ hlength waits _ hwait n _ _ hwritten _ ih =>
      have hsome : n ≠ 0 := by
        rintro rfl
        exact hwritten (Nat.zero_min _)
      rw [stopsAtFirst_ready hwait, staleErrno_ready hwait]
      simpa [StopsAtFirst, StaleErrno, IoCall.stops, IoCall.errnoAfter, hsome] using ih
  | case9 => simp [StopsAtFirst, StaleErrno]

/-- A run that has come to the end of the data has returned 0. -/
theorem result_of_offset (poller : Poller) (writes : List Written)
    (h : (writeAll data offset poller writes).offset = data.length) :
    (writeAll data offset poller writes).result = some true := by
  fun_induction writeAll data offset poller writes with
  | case1 | case2 | case3 | case5 | case7 => simp only at h; omega
  | case4 _ _ _ _ _ _ ih => exact ih h
  | case6 _ _ _ _ _ _ _ _ _ _ ih => exact ih h
  | case8 _ _ _ _ _ _ _ _ _ _ ih => exact ih h
  | case9 => rfl

/-- **`write_all` does what it should exactly if no stale `errno` is consulted.** -/
theorem write_all_iff (data : Bytes) (poller : Poller) (writes : List Written) :
    (writeAllLog data 0 poller writes).WritesAll data ↔
      ¬ StaleErrno poller.errno (writeAllLog data 0 poller writes).calls := by
  rw [← stopsAtFirst_iff]
  refine ⟨fun h => h.stops, fun hstops => ?_⟩
  have hsame := writeAllLog_toWriteRun data 0 poller writes
  have hstart : 0 ≤ data.length := Nat.zero_le _
  obtain ⟨-, hle, hsent, hcomplete⟩ := writeAll_sends poller writes hstart
  rw [← hsame] at hle hsent hcomplete
  simp only [List.drop_zero, Nat.sub_zero] at hsent
  refine ⟨?_, ?_, hstops⟩
  · rw [hsent]
    exact List.take_prefix _ _
  · constructor
    · intro hresult
      rw [hsent, hcomplete hresult, List.take_length]
    · intro hall
      have hlength := congrArg List.length (hsent.symm.trans hall)
      rw [List.length_take] at hlength
      rw [hsame] at hle hlength ⊢
      exact result_of_offset poller writes (by omega)

/-- A `poll` is interrupted, the `write` after it takes nothing, and the next one
everything. -/
def interrupted : Poller :=
  ⟨[.failed .eintr, .events true, .events true], .other⟩

/-- 0 is returned, where the first `write` should have ended the run. -/
theorem write_all_fails :
    (writeAllLog [65] 0 interrupted [.count 0, .count 1]).result = some true ∧
      ¬ ∀ data poller writes, (writeAllLog data 0 poller writes).WritesAll data := by
  refine ⟨by decide +kernel, fun h => ?_⟩
  have hstops := (h [65] interrupted [.count 0, .count 1]).stops
  have hcalls : (writeAllLog [65] 0 interrupted [.count 0, .count 1]).calls =
      [.poll (.failed .eintr), .poll (.events true), .write (.count 0), .poll (.events true),
        .write (.count 1)] := by decide +kernel
  rw [hcalls] at hstops
  simp [StopsAtFirst, IoCall.stops] at hstops

end OpenBioUnlock.Pam

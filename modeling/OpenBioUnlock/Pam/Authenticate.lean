import OpenBioUnlock.Codec.Hex

/-!
# The PAM module

`linux-pam/pam_openbiounlock.c`.  `pam_sm_authenticate` writes one request to the
socket of the daemon and reads one line back.

What the system calls do is given beforehand: the outcomes of the calls of `poll`,
`write` and `read` in their order, and the value of `errno` at the start, which
only a call that fails changes.  A run that needs more outcomes than there are is
still waiting, and has no result yet.
-/

namespace OpenBioUnlock.Pam

open Codec

abbrev Bytes := List UInt8

/-! ## System calls -/

inductive Errno where
  | eintr
  | other
  deriving DecidableEq

/-- What `poll` does on the one descriptor. -/
inductive Polled where
  /-- one descriptor, and whether the event waited for is among its events -/
  | events (expected : Bool)
  | timeout
  | failed (errno : Errno)
  deriving DecidableEq

inductive Written where
  /-- this many bytes, and no more than were offered -/
  | count (n : ℕ)
  | failed (errno : Errno)
  deriving DecidableEq

/-- What `read` of one byte does. -/
inductive Received where
  | byte (b : UInt8)
  | endOfFile
  | failed (errno : Errno)
  deriving DecidableEq

/-- The outcomes to come of `poll`, and `errno`. -/
structure Poller where
  polls : List Polled
  errno : Errno

/-- `wait_for_io`: whether it returns 0, and what is to come then. -/
def waitForIo : List Polled → Errno → Option (Bool × Poller)
  | [], _ => none
  | .failed .eintr :: polls, _ => waitForIo polls .eintr
  | .failed .other :: polls, _ => some (false, ⟨polls, .other⟩)
  | .timeout :: polls, errno => some (false, ⟨polls, errno⟩)
  | .events expected :: polls, errno => some (expected, ⟨polls, errno⟩)

/-- A run of `write_all`. -/
structure WriteRun where
  /-- the bytes the socket has taken -/
  sent : Bytes
  offset : ℕ
  /-- whether 0 was returned; `none` while it waits -/
  result : Option Bool
  poller : Poller

/-- `write_all` from `offset` on. -/
def writeAll (data : Bytes) (offset : ℕ) (poller : Poller) (writes : List Written) : WriteRun :=
  if offset < data.length then
    match waitForIo poller.polls poller.errno with
    | none => ⟨[], offset, none, poller⟩
    | some (false, poller) => ⟨[], offset, some false, poller⟩
    | some (true, poller) =>
        match writes with
        | [] => ⟨[], offset, none, poller⟩
        | .failed .eintr :: writes => writeAll data offset { poller with errno := .eintr } writes
        | .failed .other :: _ => ⟨[], offset, some false, { poller with errno := .other }⟩
        | .count n :: writes =>
            let written := min n (data.length - offset)
            if written = 0 then
              -- `errno` is that of an earlier call
              if poller.errno = .eintr then writeAll data offset poller writes
              else ⟨[], offset, some false, poller⟩
            else
              let run := writeAll data (offset + written) poller writes
              { run with sent := (data.drop offset).take written ++ run.sent }
  else ⟨[], offset, some true, poller⟩

/-- `read_line`, with what the buffer holds so far: the line, if 0 was returned. -/
def readLine (capacity : ℕ) (buffer : Bytes) (poller : Poller) (reads : List Received) :
    Option (Option Bytes) :=
  if buffer.length + 1 < capacity then
    match waitForIo poller.polls poller.errno with
    | none => none
    | some (false, _) => some none
    | some (true, poller) =>
        match reads with
        | [] => none
        | .endOfFile :: _ => some none
        | .failed .eintr :: reads =>
            readLine capacity buffer { poller with errno := .eintr } reads
        | .failed .other :: _ => some none
        | .byte b :: reads =>
            if b = 10 then some (some buffer)
            else readLine capacity (buffer ++ [b]) poller reads
  else some none

/-! ## The request and the response -/

/-- A C string: bytes without a NUL. -/
abbrev CString := {bytes : Bytes // 0 ∉ bytes}

def requestCapacity : ℕ := 512

def responseCapacity : ℕ := 1024

def requestHead : Bytes := ascii "\x7b\"type\":\"authorize\",\"user\":\""

def requestTail : Bytes := ascii "\"\x7d\n"

/-- What `snprintf` formats, were the buffer large enough. -/
def request (username : CString) : Bytes :=
  requestHead ++ username.1 ++ requestTail

/-- `strstr(text, pattern) != NULL`: the text ends at its first NUL. -/
def strstr (text pattern : Bytes) : Bool :=
  (text.takeWhile (· ≠ 0)).tails.any pattern.isPrefixOf

def responseIsAuthorized (response : Bytes) : Bool :=
  strstr response (ascii "\"type\":\"authorized\"") &&
    strstr response (ascii "\"authorized\":true")

/-! ## `pam_sm_authenticate` -/

inductive PamResult where
  | success
  | authErr
  deriving DecidableEq

/-- What the calls of one `pam_sm_authenticate` give. -/
structure PamEnv where
  /-- the name `pam_get_user` yields, if it succeeds with one -/
  username : Option CString
  /-- `socket` succeeds, and `connect` -/
  socket : Bool
  connect : Bool
  poller : Poller
  writes : List Written
  reads : List Received

/-- The bytes sent, and the result if there is one yet. -/
structure PamRun where
  sent : Bytes
  result : Option PamResult

def pamSmAuthenticate (env : PamEnv) : PamRun :=
  match env.username with
  | none => ⟨[], some .authErr⟩
  | some username =>
      if env.socket && env.connect && (request username).length < requestCapacity then
        let run := writeAll (request username) 0 env.poller env.writes
        match run.result with
        | none => ⟨run.sent, none⟩
        | some false => ⟨run.sent, some .authErr⟩
        | some true =>
            match readLine responseCapacity [] run.poller env.reads with
            | none => ⟨run.sent, none⟩
            | some none => ⟨run.sent, some .authErr⟩
            | some (some response) =>
                ⟨run.sent, some (if responseIsAuthorized response then .success else .authErr)⟩
      else ⟨[], some .authErr⟩

/-! ## What `write_all` hands to the socket -/

/-- The bytes sent are the stretch of the data from `start` to where the run ended, and
0 is returned only at the end of the data. -/
structure WriteRun.Sends (data : Bytes) (start : ℕ) (run : WriteRun) : Prop where
  start_le : start ≤ run.offset
  le_length : run.offset ≤ data.length
  sent : run.sent = (data.drop start).take (run.offset - start)
  complete : run.result = some true → run.offset = data.length

variable {data : Bytes} {offset : ℕ}

theorem WriteRun.Sends.stopped {result : Option Bool} {poller : Poller} (h : offset ≤ data.length)
    (hresult : result = some true → offset = data.length) :
    WriteRun.Sends data offset ⟨[], offset, result, poller⟩ :=
  ⟨Nat.le_refl _, h, by simp, hresult⟩

/-- What one `write` took goes in front of what the rest of the run sends. -/
theorem WriteRun.Sends.cons {run : WriteRun} {written : ℕ}
    (h : WriteRun.Sends data (offset + written) run) :
    WriteRun.Sends data offset
      { run with sent := (data.drop offset).take written ++ run.sent } := by
  have hle := h.start_le
  refine ⟨by simp only; omega, h.le_length, ?_, h.complete⟩
  have hsplit : run.offset - offset = written + (run.offset - (offset + written)) := by omega
  simp only
  rw [h.sent, hsplit, List.take_add, List.drop_drop]

/-- **`write_all` sends the data in order**, without a gap or a repetition. -/
theorem writeAll_sends (poller : Poller) (writes : List Written) (h : offset ≤ data.length) :
    WriteRun.Sends data offset (writeAll data offset poller writes) := by
  fun_induction writeAll data offset poller writes with
  | case1 | case2 | case3 | case5 | case7 => exact .stopped h (by simp)
  | case4 _ _ _ _ _ _ ih => exact ih h
  | case6 _ _ _ _ _ _ _ _ _ _ ih => exact ih h
  | case8 _ _ _ _ _ n _ written _ _ ih => exact (ih (by omega)).cons
  | case9 _ _ _ hend => exact .stopped h fun _ => by omega

/-- How far a run gets depends on the length of the data only. -/
theorem writeAll_offset {data' : Bytes} (poller : Poller) (writes : List Written)
    (h : data.length = data'.length) :
    (writeAll data offset poller writes).offset = (writeAll data' offset poller writes).offset := by
  induction writes generalizing offset poller with
  | nil =>
      unfold writeAll
      rw [h]
  | cons outcome writes ih =>
      unfold writeAll
      rw [h]
      split_ifs
      · split
        · rfl
        · rfl
        · cases outcome with
          | failed errno =>
              cases errno with
              | eintr => exact ih _
              | other => rfl
          | count n =>
              simp only
              split_ifs
              · exact ih _
              · rfl
              · exact ih _
      · rfl

/-- How many of `length` bytes the socket takes. -/
def taken (poller : Poller) (writes : List Written) (length : ℕ) : ℕ :=
  (writeAll (List.replicate length 0) 0 poller writes).offset

theorem writeAll_taken (data : Bytes) (poller : Poller) (writes : List Written) :
    (writeAll data 0 poller writes).sent = data.take (taken poller writes data.length) := by
  have hoffset : (writeAll data 0 poller writes).offset = taken poller writes data.length :=
    writeAll_offset poller writes (by simp)
  rw [(writeAll_sends poller writes (Nat.zero_le _)).sent, hoffset]
  simp

end OpenBioUnlock.Pam

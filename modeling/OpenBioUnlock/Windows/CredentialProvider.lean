import OpenBioUnlock.Codec.Hex
import OpenBioUnlock.Windows.Hresult

/-!
# The approval of a credential

`PipeApproval` and `OpenBioCredential::GetSerialization` of
`windows-cp/CredentialProvider.cpp`.

What the system calls do is given: whether `CreateFileW` connects to the pipe of the
daemon, and what `WriteFile` reports.  There is no other call on the pipe, so nothing
the daemon sends can have an effect.
-/

namespace OpenBioUnlock.Windows

open Codec

abbrev Bytes := List UInt8

/-- What `WriteFile` reports: its result, and the number of bytes written. -/
structure WriteReport where
  ok : Bool
  written : UInt32
  deriving DecidableEq

/-- The bytes sent, and the result. -/
structure ApprovalRun where
  sent : Bytes
  result : Hresult
  deriving DecidableEq

def approvalRequest : Bytes := ascii "\x7b\"type\":\"challenge\"\x7d\n"

/-- `PipeApproval`; if there is no connection, with the code of `GetLastError`. -/
def pipeApproval (pipe : Except UInt32 WriteReport) : ApprovalRun :=
  match pipe with
  | .error lastError => ⟨[], hresultFromWin32 lastError⟩
  | .ok report =>
      -- the pipe is closed after the write, and was never read
      ⟨approvalRequest.take report.written.toNat,
        if report.ok && report.written.toNat = approvalRequest.length then sOk else eFail⟩

/-- `CREDENTIAL_PROVIDER_GET_SERIALIZATION_RESPONSE` -/
inductive SerializationResponse where
  | noCredentialNotFinished
  | noCredentialFinished
  | returnCredentialFinished
  | returnNoCredentialFinished
  deriving DecidableEq

/-- `GetSerialization`, for a caller that passes a place for the response or none: the
result, and the response stored. -/
def getSerialization (response : Bool) (pipe : Except UInt32 WriteReport) :
    Hresult × Option SerializationResponse :=
  if response then ((pipeApproval pipe).result, some .noCredentialNotFinished)
  else (ePointer, none)

variable {report : WriteReport} {pipe : Except UInt32 WriteReport}

/-- **Connected, `PipeApproval` succeeds exactly if the request was written.** -/
theorem succeeded_pipeApproval :
    succeeded (pipeApproval (.ok report)).result = true ↔
      report.ok = true ∧ report.written.toNat = approvalRequest.length := by
  simp only [pipeApproval]
  split_ifs with hwhole
  · simpa [succeeded, sOk] using hwhole
  · simpa [succeeded, eFail] using hwhole

/-- Without a connection it fails, as `GetLastError` is not 0 then. -/
theorem not_succeeded_unconnected {lastError : UInt32} (h : lastError ≠ 0) :
    succeeded (pipeApproval (.error lastError)).result = false := by
  rw [← Bool.not_eq_true, pipeApproval, succeeded_hresultFromWin32]
  exact h

/-- What is sent by a call that succeeds. -/
theorem sent_of_succeeded (h : succeeded (pipeApproval (.ok report)).result = true) :
    (pipeApproval (.ok report)).sent = approvalRequest := by
  rw [pipeApproval, (succeeded_pipeApproval.mp h).2, List.take_length]

/-- `GetSerialization` succeeds only as `PipeApproval` does, and hands out no
credential. -/
theorem getSerialization_eq (response : Bool) :
    (succeeded (getSerialization response pipe).1 = true →
      succeeded (pipeApproval pipe).result = true) ∧
      ∀ r, (getSerialization response pipe).2 = some r → r = .noCredentialNotFinished := by
  cases response with
  | false =>
      refine ⟨fun h => ?_, fun r hr => by cases hr⟩
      exact absurd (show succeeded ePointer = true from h) (by decide)
  | true => exact ⟨id, fun r hr => (Option.some.inj hr).symm⟩

end OpenBioUnlock.Windows

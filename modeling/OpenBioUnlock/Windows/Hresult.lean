import Mathlib.Data.UInt

/-!
# Result codes of Windows

An `HRESULT` is 32 bits, and a failure if the sign bit is set.  Listed are the codes
that the modelled functions of `windows-cp/` return.
-/

namespace OpenBioUnlock.Windows

abbrev Hresult := UInt32

def sOk : Hresult := 0

def sFalse : Hresult := 1

def eNoInterface : Hresult := 0x80004002

def ePointer : Hresult := 0x80004003

def eFail : Hresult := 0x80004005

def eBounds : Hresult := 0x8000000B

def eOutOfMemory : Hresult := 0x8007000E

def classENoAggregation : Hresult := 0x80040110

def classEClassNotAvailable : Hresult := 0x80040111

/-- `SUCCEEDED`: the code is not negative. -/
def succeeded (code : Hresult) : Bool := code < 0x80000000

/-- `HRESULT_FROM_WIN32`: a code that is not positive as a signed number is left as
it is. -/
def hresultFromWin32 (code : UInt32) : Hresult :=
  if code = 0 || 0x80000000 ≤ code then code
  else (code &&& (0xFFFF : UInt32)) ||| ((7 : UInt32) <<< 16) ||| 0x80000000

/-- **Only the error code 0 becomes a success.** -/
theorem succeeded_hresultFromWin32 (code : UInt32) :
    succeeded (hresultFromWin32 code) = true ↔ code = 0 := by
  unfold hresultFromWin32
  split_ifs with hsigned
  · -- left as it is: 0, or with the sign bit set
    simp only [Bool.or_eq_true, decide_eq_true_eq] at hsigned
    constructor
    · intro h
      refine hsigned.resolve_right fun hle => ?_
      simp only [succeeded, decide_eq_true_eq, UInt32.lt_iff_toNat_lt] at h
      rw [UInt32.le_iff_toNat_le] at hle
      omega
    · rintro rfl
      rfl
  · have hbit : (0x80000000 : UInt32).toNat ≤
        ((code &&& (0xFFFF : UInt32)) ||| ((7 : UInt32) <<< 16) ||| 0x80000000).toNat := by
      rw [UInt32.toNat_or]
      exact Nat.right_le_or
    refine iff_of_false ?_ fun hzero => hsigned (by simp [hzero])
    simp only [succeeded, decide_eq_true_eq, UInt32.lt_iff_toNat_lt]
    omega

end OpenBioUnlock.Windows

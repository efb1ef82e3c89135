import OpenBioUnlock.Daemon.Crypto
import OpenBioUnlock.Desktop.Challenge

/-!
# The two verifiers

A signature of the phone is checked in two places, by the desktop application and by
the daemon.  The checks come in another order and another form on each side:
`desktopDecision` and `verifySignature` are compared here, with one Ed25519 behind
both (`SameEd25519`).

They differ in one point.  The daemon wants a nonce of 32 bytes, the desktop one that
is not empty.  `verifiers_agree_iff` says that this is all.
-/

namespace OpenBioUnlock.Interop

open Codec Desktop Daemon

/-- The two libraries verify the same signatures. -/
def SameEd25519 (ssl : OpenSsl) (dalek : Dalek) : Prop :=
  ∀ key message signature,
    ssl.verify key message signature = (dalek.isKey key && dalek.verify key message signature)

/-- The desktop's decision on a signature: the replay guard, then the signature. -/
def desktopDecision (ssl : OpenSsl) (replayGuard : ReplayGuard) (publicKey nonce : QByteArray)
    (timestamp : Int64) (signature : QByteArray) (first second : EpochSecs) : Bool :=
  (replayGuard.accept nonce timestamp first second).2 &&
    (verifyEd25519 ssl publicKey (nonce ++ timestampBytes timestamp) signature).1

/-- It is what the `verify` branch decides for a paired device. -/
theorem verdict_eq_decision {lib : Libraries} {server : Server} {id : QString}
    {key : QByteArray} (hkey : server.pairedKeys id = some key) (v : Desktop.VerifyRequest)
    (env : Env) :
    (server.verdict lib id v env).2.1 = desktopDecision lib.ssl server.replayGuard key v.nonce
      v.timestamp v.signature (env.clock 0) (env.clock 1) := by
  rw [Bool.eq_iff_iff, verdict_eq_true, desktopDecision, Bool.and_eq_true]
  constructor
  · rintro ⟨key', hkey', haccept, hverify⟩
    obtain rfl := Option.some.inj (hkey.symm.trans hkey')
    exact ⟨haccept, hverify⟩
  · rintro ⟨haccept, hverify⟩
    exact ⟨key, hkey, haccept, hverify⟩

/-! ## Freshness -/

/-- `is_fresh` is what it looks like. -/
theorem isFresh_iff (timestamp now : UInt64) :
    isFresh timestamp now = true ↔ |(timestamp.toNat : ℤ) - now.toNat| ≤ 30 := by
  have hwindow : freshnessWindowSeconds.toNat = 30 := rfl
  rw [isFresh, decide_eq_true_eq, UInt64.le_iff_toNat_le, hwindow, abs_le, absDiff]
  by_cases hlt : timestamp < now
  · rw [if_pos hlt, UInt64.toNat_sub_of_le _ _ (UInt64.le_of_lt hlt)]
    have := UInt64.lt_iff_toNat_lt.mp hlt
    omega
  · have hle := UInt64.not_lt.mp hlt
    rw [if_neg hlt, UInt64.toNat_sub_of_le _ _ hle]
    have := UInt64.le_iff_toNat_le.mp hle
    omega

/-- A time of day as a `u64`. -/
theorem toNat_toUInt64 (t : EpochSecs) : (t.secs.toUInt64.toNat : ℤ) = t.secs.toInt := by
  have hnonneg := Int64.le_iff_toInt_le.mp t.nonneg
  rw [Int64.toInt_zero] at hnonneg
  rw [Int64.toNat_toUInt64_of_le t.nonneg, Int64.toNatClampNeg]
  omega

/-- The two freshness checks are one. -/
theorem isFresh_eq (timestamp now : EpochSecs) :
    isFresh timestamp.secs.toUInt64 now.secs.toUInt64 =
      isFreshTimestamp timestamp.secs now.secs := by
  rw [Bool.eq_iff_iff, isFresh_iff, isFreshTimestamp_iff, toNat_toUInt64, toNat_toUInt64]

/-! ### The check on any timestamp

A `verify` request can carry any `qint64`.  The desktop subtracts in that type, and the
difference from a timestamp far in the past does not fit.
-/

/-- **The freshness check is exact**: the verdict is that of the true distance, neither
the difference nor its absolute value overflows, and the daemon agrees on what it can
be asked. -/
structure FreshnessExact (timestamp : Int64) (now : EpochSecs) : Prop where
  verdict : isFreshTimestamp timestamp now.secs = true ↔ |ahead timestamp now| ≤ 30
  difference : (timestamp - now.secs).toInt = ahead timestamp now
  magnitude : (qAbs (timestamp - now.secs)).toInt = |(timestamp - now.secs).toInt|
  agrees : 0 ≤ timestamp →
    isFresh timestamp.toUInt64 now.secs.toUInt64 = isFreshTimestamp timestamp now.secs

/-- **The freshness check is exact where the difference fits**, with its absolute value.  The
verdict alone is right below that as well, but for the smallest `qint64` and for the
differences that wrap into the window. -/
theorem freshness_exact_iff (timestamp : Int64) (now : EpochSecs) :
    (FreshnessExact timestamp now ↔ Int64.minValue.toInt < ahead timestamp now) ∧
      ((isFreshTimestamp timestamp now.secs = true ↔ |ahead timestamp now| ≤ 30) ↔
        ahead timestamp now ≠ Int64.minValue.toInt ∧ 30 < ahead timestamp now + UInt64.size) := by
  have hmin : Int64.minValue.toInt = -9223372036854775808 := rfl
  have hdiff := toInt_difference timestamp now
  have hverdict : (isFreshTimestamp timestamp now.secs = true ↔ |ahead timestamp now| ≤ 30) ↔
      ahead timestamp now ≠ Int64.minValue.toInt ∧ 30 < ahead timestamp now + UInt64.size := by
    rw [isFreshTimestamp_iff_ahead, abs_le, hmin, UInt64.size]
    omega
  refine ⟨⟨?_, ?_⟩, hverdict⟩
  · intro h
    have hne := (hverdict.mp h.verdict).1
    have hexact := h.difference
    rw [hdiff, UInt64.size] at hexact
    split_ifs at hexact with hle
    · exact lt_of_le_of_ne hle (Ne.symm hne)
    · omega
  · intro h
    have hsame : (timestamp - now.secs).toInt = ahead timestamp now := by
      rw [hdiff, if_pos (le_of_lt h)]
    refine ⟨hverdict.mpr ⟨ne_of_gt h, ?_⟩, hsame, ?_, ?_⟩
    · rw [hmin] at h
      rw [UInt64.size]
      omega
    · rw [toInt_qAbs, if_neg]
      rw [hsame]
      exact ne_of_gt h
    · exact fun hnonneg => isFresh_eq ⟨timestamp, hnonneg⟩ now

/-- A timestamp that is `2 ^ 63` seconds from the clock. -/
def wrappedTimestamp : Int64 := -9223372035154775808

/-- A time of day of November 2023. -/
def wrappedNow : EpochSecs := ⟨1700000000, by decide⟩

/-- A `verify` request can carry it, and it passes for fresh. -/
theorem freshness_exact_fails :
    (∀ lib : Libraries, (Desktop.verifyRequest lib
        [field "timestamp" (.integer wrappedTimestamp)]).timestamp = wrappedTimestamp) ∧
      isFreshTimestamp wrappedTimestamp wrappedNow.secs = true ∧
      ahead wrappedTimestamp wrappedNow = -9223372036854775808 ∧
      ¬ ∀ timestamp now, FreshnessExact timestamp now := by
  have hwrapped : isFreshTimestamp wrappedTimestamp wrappedNow.secs = true ∧
      ahead wrappedTimestamp wrappedNow = -9223372036854775808 := by decide +kernel
  obtain ⟨hfresh, hahead⟩ := hwrapped
  refine ⟨fun lib => rfl, hfresh, hahead, fun h => ?_⟩
  have hdistance := (h wrappedTimestamp wrappedNow).verdict.mp hfresh
  rw [hahead] at hdistance
  exact absurd hdistance (by decide)

/-! ## The decisions -/

/-- The signature is one of the message under the key. -/
def Signed (ssl : OpenSsl) (publicKey message signature : QByteArray) : Prop :=
  ∃ (hkey : publicKey.length = 32) (hsig : signature.length = 64),
    ssl.verify ⟨publicKey, hkey⟩ message ⟨signature, hsig⟩ = true

section Decisions

variable {ssl : OpenSsl} {dalek : Dalek} {replayGuard : ReplayGuard}
variable {publicKey nonce signature : QByteArray} {timestamp now second : EpochSecs}

/-- What the desktop asks of a first-time signature. -/
theorem desktopDecision_iff
    (hunseen : replayToken nonce timestamp.secs ∉ replayGuard.seen) :
    desktopDecision ssl replayGuard publicKey nonce timestamp.secs signature now second = true ↔
      nonce ≠ [] ∧ isFreshTimestamp timestamp.secs now.secs = true ∧
        Signed ssl publicKey (nonce ++ timestampBytes timestamp.secs) signature := by
  have hcleaned : replayToken nonce timestamp.secs ∉ (replayGuard.cleanup second).seen := by
    unfold ReplayGuard.cleanup
    split
    · simp
    · exact hunseen
  rw [desktopDecision, Bool.and_eq_true, ReplayGuard.accept_eq_true, verifyEd25519_eq_true]
  constructor
  · rintro ⟨⟨⟨hnonce, hfresh⟩, -⟩, hsigned⟩
    exact ⟨hnonce, hfresh, hsigned⟩
  · rintro ⟨hnonce, hfresh, hsigned⟩
    exact ⟨⟨⟨hnonce, hfresh⟩, hcleaned⟩, hsigned⟩

/-- What the daemon asks of it. -/
theorem verifySignature_iff (hsame : SameEd25519 ssl dalek) :
    verifySignature dalek publicKey nonce timestamp.secs.toUInt64 signature
        now.secs.toUInt64 = .ok () ↔
      nonce.length = 32 ∧ isFreshTimestamp timestamp.secs now.secs = true ∧
        Signed ssl publicKey (nonce ++ timestampBytes timestamp.secs) signature := by
  constructor
  · intro hok
    obtain ⟨hnonce, hfresh, key, sig, rfl, rfl, hkey, hverify⟩ := verifySignature_ok hok
    rw [isFresh_eq] at hfresh
    refine ⟨hnonce, hfresh, key.2, sig.2, ?_⟩
    rw [hsame, Bool.and_eq_true]
    exact ⟨hkey, hverify⟩
  · rintro ⟨hnonce, hfresh, hkey, hsig, hverify⟩
    rw [hsame, Bool.and_eq_true] at hverify
    rw [← isFresh_eq] at hfresh
    have hkeyBytes := ByteArr.ofSlice?_eq_some.mpr (rfl : (⟨publicKey, hkey⟩ : ByteArr 32).1 = _)
    have hsigBytes := ByteArr.ofSlice?_eq_some.mpr (rfl : (⟨signature, hsig⟩ : ByteArr 64).1 = _)
    have hchecks : (decide (nonce.length ≠ nonceLen) ||
        !isFresh timestamp.secs.toUInt64 now.secs.toUInt64) = false := by
      rw [hfresh, hnonce]
      rfl
    rw [verifySignature, hchecks, hkeyBytes, hsigBytes]
    simp only [Bool.false_eq_true, if_false, hverify.1, if_true]
    exact if_pos hverify.2

/-- **The verifiers agree exactly on nonces of 32 bytes**, and where something else is
wrong: no nonce at all, a stale timestamp, or a signature of something else. -/
theorem verifiers_agree_iff (hsame : SameEd25519 ssl dalek)
    (hunseen : replayToken nonce timestamp.secs ∉ replayGuard.seen) :
    (desktopDecision ssl replayGuard publicKey nonce timestamp.secs signature now second = true ↔
      verifySignature dalek publicKey nonce timestamp.secs.toUInt64 signature
        now.secs.toUInt64 = .ok ()) ↔
    nonce.length = 32 ∨ nonce = [] ∨ isFreshTimestamp timestamp.secs now.secs = false ∨
      ¬ Signed ssl publicKey (nonce ++ timestampBytes timestamp.secs) signature := by
  rw [desktopDecision_iff hunseen, verifySignature_iff hsame, ← Bool.not_eq_true]
  have hlength : nonce.length = 32 → nonce ≠ [] := by
    rintro h rfl
    cases h
  tauto

end Decisions

/-! ## A short nonce -/

/-- The Ed25519 of the recording, as the daemon has it. -/
def sampleDalek (r : Recording) : Dalek where
  isKey _ := true
  verify := r.libraries.ssl.verify

/-- The phone signs a nonce of one byte: the desktop authorizes it, the daemon does not. -/
theorem verifiers_agree_fails :
    ¬ ∀ (ssl : OpenSsl) (dalek : Dalek) (replayGuard : ReplayGuard)
        (publicKey nonce signature : QByteArray) (timestamp now second : EpochSecs),
      SameEd25519 ssl dalek → replayToken nonce timestamp.secs ∉ replayGuard.seen →
        (desktopDecision ssl replayGuard publicKey nonce timestamp.secs signature now second =
            true ↔
          verifySignature dalek publicKey nonce timestamp.secs.toUInt64 signature
            now.secs.toUInt64 = .ok ()) := by
  intro h
  have hagree := h phoneRecording.libraries.ssl (sampleDalek phoneRecording) .initial
    phoneSigningKey [0xaa] chosenSignature sampleTime sampleTime sampleTime
    (fun _ _ _ => rfl) (by simp [ReplayGuard.initial])
  have haccepted : desktopDecision phoneRecording.libraries.ssl .initial phoneSigningKey [0xaa]
      sampleTime.secs chosenSignature sampleTime sampleTime = true := by
    decide +kernel
  cases hagree.mp haccepted

/-- The phone signs a challenge: both accept. -/
theorem verifiers_agree_sample :
    (desktopDecision phoneRecording.libraries.ssl .initial phoneSigningKey
        (List.replicate 32 1) sampleTime.secs challengeSignature sampleTime sampleTime = true ↔
      verifySignature (sampleDalek phoneRecording) phoneSigningKey (List.replicate 32 1)
        sampleTime.secs.toUInt64 challengeSignature sampleTime.secs.toUInt64 = .ok ()) ∧
    desktopDecision phoneRecording.libraries.ssl .initial phoneSigningKey
      (List.replicate 32 1) sampleTime.secs challengeSignature sampleTime sampleTime = true := by
  constructor
  · refine (verifiers_agree_iff (fun _ _ _ => rfl) (by simp [ReplayGuard.initial])).mpr (.inl ?_)
    exact List.length_replicate
  · decide +kernel

end OpenBioUnlock.Interop

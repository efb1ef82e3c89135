import OpenBioUnlock.Desktop.Qt

/-!
# Desktop cryptography

`core/crypto.cpp` wraps OpenSSL: every wrapper checks the lengths of what it is
given, runs OpenSSL, and reports a failure by an empty result and an error text.
OpenSSL itself enters as the structure `OpenSsl`; the wrappers are the source's.

A wrapper hands OpenSSL a bare pointer to the nonce.  OpenSSL reads twelve bytes
there, whatever the length of the nonce is, so what it sees of a shorter one
depends on the memory behind the buffer (`OpenSsl.iv`).

The replay guard is here with them.  `ReplayGuard.accept` reads the clock twice,
once as the default argument of `isFreshTimestamp` and once for its own cleanup.
-/

namespace OpenBioUnlock.Desktop

open Codec

/-- A byte string of a fixed length. -/
abbrev Bytes (n : ℕ) := {bytes : QByteArray // bytes.length = n}

structure X25519KeyPair where
  privateKey : QByteArray
  publicKey : QByteArray

structure GcmCiphertext where
  ciphertext : QByteArray
  tag : QByteArray
  deriving DecidableEq

/-- What OpenSSL computes.  `none` is a failing call. -/
structure OpenSsl where
  /-- X25519 key agreement of a raw private and a raw public key -/
  derive : Bytes 32 → Bytes 32 → Option (Bytes 32)
  /-- AES-256-GCM sealing: key, nonce, associated data, plaintext -/
  gcmEncrypt : Bytes 32 → Bytes 12 → QByteArray → QByteArray → Option (QByteArray × Bytes 16)
  /-- AES-256-GCM opening: key, nonce, associated data, ciphertext, tag -/
  gcmDecrypt : Bytes 32 → Bytes 12 → QByteArray → QByteArray → Bytes 16 → Option QByteArray
  /-- Ed25519 verification: public key, message, signature -/
  verify : Bytes 32 → QByteArray → Bytes 64 → Bool
  /-- the twelve bytes behind the end of a buffer -/
  pastEnd : QByteArray → Bytes 12

/-- The twelve bytes OpenSSL reads from the nonce pointer. -/
def OpenSsl.iv (ssl : OpenSsl) (nonce : QByteArray) : Bytes 12 :=
  ⟨(nonce ++ (ssl.pastEnd nonce).1).take 12, by
    rw [List.length_take, List.length_append, (ssl.pastEnd nonce).2]
    omega⟩

/-- A twelve-byte nonce is read as it is. -/
theorem OpenSsl.iv_of_length (ssl : OpenSsl) {nonce : QByteArray} (h : nonce.length = 12) :
    (ssl.iv nonce).1 = nonce := by
  simp [OpenSsl.iv, ← h]

variable (ssl : OpenSsl)

/-- `x25519SharedSecret`: the secret with the error text set. -/
def x25519SharedSecret (privateKey peerPublicKey : QByteArray) : QByteArray × QString :=
  if h : privateKey.length = 32 ∧ peerPublicKey.length = 32 then
    match ssl.derive ⟨privateKey, h.1⟩ ⟨peerPublicKey, h.2⟩ with
    | some secret => (secret.1, [])
    | none => ([], qStringLiteral "X25519 shared secret derivation failed")
  else ([], qStringLiteral "X25519 keys must be 32 bytes")

/-- `encryptAes256Gcm`: the ciphertext and tag with the error text set. -/
def encryptAes256Gcm (key nonce plaintext associatedData : QByteArray) :
    GcmCiphertext × QString :=
  if h : key.length = 32 ∧ nonce ≠ [] then
    match ssl.gcmEncrypt ⟨key, h.1⟩ (ssl.iv nonce) associatedData plaintext with
    | some (ciphertext, tag) => (⟨ciphertext, tag.1⟩, [])
    | none => (⟨[], []⟩, qStringLiteral "AES-256-GCM encryption failed")
  else (⟨[], []⟩, qStringLiteral "AES-256-GCM requires a 32-byte key and nonce")

/-- `decryptAes256Gcm`: the plaintext with the error text set. -/
def decryptAes256Gcm (key nonce : QByteArray) (box : GcmCiphertext)
    (associatedData : QByteArray) : QByteArray × QString :=
  if h : key.length = 32 ∧ nonce ≠ [] ∧ box.tag.length = 16 then
    match ssl.gcmDecrypt ⟨key, h.1⟩ (ssl.iv nonce) associatedData box.ciphertext
        ⟨box.tag, h.2.2⟩ with
    | some plaintext => (plaintext, [])
    | none => ([], qStringLiteral "AES-256-GCM authentication failed")
  else ([], qStringLiteral "invalid AES-256-GCM input")

/-- `verifyEd25519`: the verdict with the error text set. -/
def verifyEd25519 (publicKey message signature : QByteArray) : Bool × QString :=
  if h : publicKey.length = 32 ∧ signature.length = 64 then
    if ssl.verify ⟨publicKey, h.1⟩ message ⟨signature, h.2⟩ then (true, [])
    else (false, qStringLiteral "signature verification failed")
  else (false, qStringLiteral "invalid Ed25519 key or signature length")

variable {ssl}

/-- A shared secret is either a 32-byte key OpenSSL derived, or empty. -/
theorem x25519SharedSecret_length {privateKey peerPublicKey : QByteArray}
    (h : (x25519SharedSecret ssl privateKey peerPublicKey).1.length = 32) :
    ∃ (hpriv : privateKey.length = 32) (hpub : peerPublicKey.length = 32),
      (ssl.derive ⟨privateKey, hpriv⟩ ⟨peerPublicKey, hpub⟩).map Subtype.val =
        some (x25519SharedSecret ssl privateKey peerPublicKey).1 := by
  unfold x25519SharedSecret at h ⊢
  split at h
  · rename_i hlen
    refine ⟨hlen.1, hlen.2, ?_⟩
    rw [dif_pos hlen]
    cases hderive : ssl.derive ⟨privateKey, hlen.1⟩ ⟨peerPublicKey, hlen.2⟩ with
    | none => simp [hderive] at h
    | some secret => simp
  · simp at h

/-- A non-empty plaintext was opened under a 32-byte key. -/
theorem decryptAes256Gcm_ne_nil {key nonce associatedData : QByteArray} {box : GcmCiphertext}
    (h : (decryptAes256Gcm ssl key nonce box associatedData).1 ≠ []) :
    ∃ (hkey : key.length = 32) (htag : box.tag.length = 16),
      ssl.gcmDecrypt ⟨key, hkey⟩ (ssl.iv nonce) associatedData box.ciphertext ⟨box.tag, htag⟩ =
        some (decryptAes256Gcm ssl key nonce box associatedData).1 := by
  unfold decryptAes256Gcm at h ⊢
  split at h
  · rename_i hlen
    refine ⟨hlen.1, hlen.2.2, ?_⟩
    rw [dif_pos hlen]
    split at h
    · rename_i plaintext hopen
      simp [hopen]
    · simp at h
  · simp at h

/-- When OpenSSL never fails to seal, a 32-byte key yields its ciphertext and tag. -/
theorem encryptAes256Gcm_tag {key nonce : QByteArray} (plaintext associatedData : QByteArray)
    (hkey : key.length = 32) (hnonce : nonce ≠ [])
    (hseal : ∀ key iv aad p, (ssl.gcmEncrypt key iv aad p).isSome) :
    ∃ tag : Bytes 16, ∃ ciphertext,
      ssl.gcmEncrypt ⟨key, hkey⟩ (ssl.iv nonce) associatedData plaintext = some (ciphertext, tag) ∧
        (encryptAes256Gcm ssl key nonce plaintext associatedData).1 = ⟨ciphertext, tag.1⟩ := by
  obtain ⟨⟨ciphertext, tag⟩, h⟩ := Option.isSome_iff_exists.mp
    (hseal ⟨key, hkey⟩ (ssl.iv nonce) associatedData plaintext)
  exact ⟨tag, ciphertext, h, by simp [encryptAes256Gcm, hkey, hnonce, h]⟩

/-- An accepted signature is one OpenSSL verified. -/
theorem verifyEd25519_eq_true {publicKey message signature : QByteArray} :
    (verifyEd25519 ssl publicKey message signature).1 = true ↔
      ∃ (hkey : publicKey.length = 32) (hsig : signature.length = 64),
        ssl.verify ⟨publicKey, hkey⟩ message ⟨signature, hsig⟩ = true := by
  unfold verifyEd25519
  split
  · rename_i hlen
    simp only [hlen.1, hlen.2, exists_true_left]
    split <;> simp_all
  · rename_i hlen
    simp only [Bool.false_eq_true, false_iff]
    rintro ⟨hkey, hsig, -⟩
    exact hlen ⟨hkey, hsig⟩

/-! ## Freshness and the replay guard -/

/-- `qAbs` on `qint64`: the smallest value is its own negation. -/
def qAbs (n : Int64) : Int64 :=
  if n ≥ 0 then n else -n

/-- `isFreshTimestamp`. -/
def isFreshTimestamp (timestamp now : Int64) : Bool :=
  qAbs (timestamp - now) ≤ 30

/-- The true distance of a timestamp from the clock, with its sign. -/
def ahead (timestamp : Int64) (now : EpochSecs) : ℤ :=
  timestamp.toInt - now.secs.toInt

/-- The difference as it is computed: at least the smallest `qint64`, or one round more. -/
theorem toInt_difference (timestamp : Int64) (now : EpochSecs) :
    (timestamp - now.secs).toInt =
      if Int64.minValue.toInt ≤ ahead timestamp now then ahead timestamp now
      else ahead timestamp now + UInt64.size := by
  have hmin : Int64.minValue.toInt = -9223372036854775808 := rfl
  have hnonneg := Int64.le_iff_toInt_le.mp now.nonneg
  have hlow := timestamp.le_toInt
  have hhigh := timestamp.toInt_lt
  have hbound := now.secs.toInt_lt
  rw [Int64.toInt_zero] at hnonneg
  rw [Int64.toInt_sub, ahead, hmin, Int.bmod_def, UInt64.size]
  split_ifs <;> omega

/-- `qAbs` is the absolute value of anything but the smallest `qint64`, which it keeps. -/
theorem toInt_qAbs (n : Int64) :
    (qAbs n).toInt = if n.toInt = Int64.minValue.toInt then n.toInt else |n.toInt| := by
  have hmin : Int64.minValue.toInt = -9223372036854775808 := rfl
  have hlow := n.le_toInt
  have hhigh := n.toInt_lt
  rw [hmin, qAbs]
  by_cases hge : n ≥ 0
  · have hle := Int64.le_iff_toInt_le.mp hge
    rw [Int64.toInt_zero] at hle
    rw [if_pos hge, if_neg (by omega), abs_of_nonneg hle]
  · have hlt := mt Int64.le_iff_toInt_le.mpr hge
    rw [Int64.toInt_zero] at hlt
    rw [if_neg hge, abs_of_neg (by omega), Int64.toInt_neg, Int.bmod_def]
    split_ifs <;> omega

/-- What the check computes, on the true distance. -/
theorem isFreshTimestamp_iff_ahead (timestamp : Int64) (now : EpochSecs) :
    isFreshTimestamp timestamp now.secs = true ↔
      |ahead timestamp now| ≤ 30 ∨ ahead timestamp now = Int64.minValue.toInt ∨
        ahead timestamp now + UInt64.size ≤ 30 := by
  have hmin : Int64.minValue.toInt = -9223372036854775808 := rfl
  have hthirty : (30 : Int64).toInt = 30 := rfl
  have hnonneg := Int64.le_iff_toInt_le.mp now.nonneg
  have hlow := timestamp.le_toInt
  have hhigh := timestamp.toInt_lt
  have hbound := now.secs.toInt_lt
  have hdiff := toInt_difference timestamp now
  rw [Int64.toInt_zero] at hnonneg
  rw [isFreshTimestamp, decide_eq_true_eq, Int64.le_iff_toInt_le, hthirty, toInt_qAbs, hdiff,
    hmin, UInt64.size, ahead]
  split_ifs <;> simp only [abs_le] <;> omega

/-- Between times of day, freshness is what it looks like. -/
theorem isFreshTimestamp_iff (timestamp now : EpochSecs) :
    isFreshTimestamp timestamp.secs now.secs = true ↔
      |timestamp.secs.toInt - now.secs.toInt| ≤ 30 := by
  have hmin : Int64.minValue.toInt = -9223372036854775808 := rfl
  have hbound := now.secs.toInt_lt
  have hnonneg := Int64.le_iff_toInt_le.mp timestamp.nonneg
  rw [Int64.toInt_zero] at hnonneg
  rw [isFreshTimestamp_iff_ahead, ← ahead, or_iff_left]
  -- a distance that does not fit is below the smallest `qint64`
  rw [ahead, hmin, UInt64.size]
  omega

/-- A timestamp more than 30 seconds past is never fresh again. -/
theorem isFreshTimestamp_past {timestamp : Int64} {now later : EpochSecs}
    (hnonneg : 0 ≤ timestamp) (hpast : timestamp.toInt + 30 < now.secs.toInt)
    (hlater : now ≤ later) : isFreshTimestamp timestamp later.secs = false := by
  have hle := Int64.le_iff_toInt_le.mp (EpochSecs.le_def.mp hlater)
  rw [← Bool.not_eq_true]
  intro hfresh
  have habs := (isFreshTimestamp_iff ⟨timestamp, hnonneg⟩ later).mp hfresh
  rw [abs_le] at habs
  simp only at habs
  omega

structure ReplayGuard where
  seen : List QByteArray
  lastCleanup : EpochSecs

/-- A guard as constructed. -/
def ReplayGuard.initial : ReplayGuard := ⟨[], 0⟩

/-- The text a nonce and its timestamp are remembered by. -/
def replayToken (nonce : QByteArray) (timestamp : Int64) : QByteArray :=
  nonce ++ number timestamp

/-- The cleanup at the start of `accept`: after 60 seconds everything is
forgotten. -/
def ReplayGuard.cleanup (replayGuard : ReplayGuard) (now : EpochSecs) : ReplayGuard :=
  if now.since replayGuard.lastCleanup > 60 then ⟨[], now⟩ else replayGuard

/-- `ReplayGuard::accept`, with its two clock readings. -/
def ReplayGuard.accept (replayGuard : ReplayGuard) (nonce : QByteArray) (timestamp : Int64)
    (first second : EpochSecs) : ReplayGuard × Bool :=
  if nonce = [] ∨ isFreshTimestamp timestamp first.secs = false then (replayGuard, false)
  else
    let cleaned := replayGuard.cleanup second
    if replayToken nonce timestamp ∈ cleaned.seen then (cleaned, false)
    else ({ cleaned with seen := replayToken nonce timestamp :: cleaned.seen }, true)

section Accept

variable {replayGuard : ReplayGuard} {nonce : QByteArray} {timestamp : Int64}
variable {first second : EpochSecs}

theorem ReplayGuard.accept_eq_true :
    (replayGuard.accept nonce timestamp first second).2 = true ↔
      (nonce ≠ [] ∧ isFreshTimestamp timestamp first.secs = true) ∧
        replayToken nonce timestamp ∉ (replayGuard.cleanup second).seen := by
  unfold ReplayGuard.accept
  by_cases hstale : nonce = [] ∨ isFreshTimestamp timestamp first.secs = false
  · rw [if_pos hstale]
    simp only [Bool.false_eq_true, false_iff]
    rintro ⟨⟨hnonce, hfresh⟩, -⟩
    rw [hfresh] at hstale
    simp [hnonce] at hstale
  · rw [if_neg hstale]
    simp only [not_or, Bool.not_eq_false] at hstale
    by_cases hseen : replayToken nonce timestamp ∈ (replayGuard.cleanup second).seen
    · simp [hseen]
    · simp [hseen, hstale]

/-- An accepted token is remembered. -/
theorem ReplayGuard.accept_of_true
    (h : (replayGuard.accept nonce timestamp first second).2 = true) :
    (replayGuard.accept nonce timestamp first second).1 =
      { replayGuard.cleanup second with
        seen := replayToken nonce timestamp :: (replayGuard.cleanup second).seen } := by
  obtain ⟨⟨hnonce, hfresh⟩, hnew⟩ := ReplayGuard.accept_eq_true.mp h
  unfold ReplayGuard.accept
  simp [hnonce, hfresh, hnew]

/-- A refused token leaves the guard as it was: a cleanup that is carried out
empties the memory, and an empty memory refuses nothing fresh. -/
theorem ReplayGuard.accept_of_false
    (h : (replayGuard.accept nonce timestamp first second).2 = false) :
    (replayGuard.accept nonce timestamp first second).1 = replayGuard := by
  unfold ReplayGuard.accept at h ⊢
  split at h
  · rename_i hstale
    rw [if_pos hstale]
  · rename_i hfresh
    rw [if_neg hfresh]
    by_cases hdue : second.since replayGuard.lastCleanup > 60
    · have hempty : (replayGuard.cleanup second).seen = [] := by
        simp [ReplayGuard.cleanup, hdue]
      simp [hempty] at h
    · have hsame : replayGuard.cleanup second = replayGuard := by
        simp [ReplayGuard.cleanup, hdue]
      rw [hsame] at h ⊢
      by_cases hseen : replayToken nonce timestamp ∈ replayGuard.seen
      · simp only [hseen, if_true]
      · simp only [hseen, if_false] at h
        cases h

end Accept

end OpenBioUnlock.Desktop

import OpenBioUnlock.Codec.Hex

/-!
# Daemon cryptography

`daemon/src/crypto.rs`.  A Rust `String` or byte slice is a list of bytes, an
array `[u8; 32]` a list of that length.  What `ed25519_dalek` computes enters as
the structure `Dalek`.
-/

namespace OpenBioUnlock.Daemon

open Codec

abbrev ByteString := List UInt8

/-- `[u8; n]`. -/
abbrev ByteArr (n : ℕ) := {bytes : ByteString // bytes.length = n}

instance {n : ℕ} (bytes : ByteArr n) (arrays : List (ByteArr n)) : Decidable (bytes ∈ arrays) :=
  inferInstance

def ByteArr.replicate (n : ℕ) (byte : UInt8) : ByteArr n :=
  ⟨List.replicate n byte, List.length_replicate⟩

/-- `try_into` of a slice to an array. -/
def ByteArr.ofSlice? (n : ℕ) (slice : ByteString) : Option (ByteArr n) :=
  if h : slice.length = n then some ⟨slice, h⟩ else none

theorem ByteArr.ofSlice?_eq_some {n : ℕ} {slice : ByteString} {bytes : ByteArr n} :
    ByteArr.ofSlice? n slice = some bytes ↔ bytes.1 = slice := by
  unfold ByteArr.ofSlice?
  constructor
  · intro h
    split at h
    · exact congrArg Subtype.val (Option.some.inj h).symm
    · cases h
  · rintro rfl
    rw [dif_pos bytes.2]

def nonceLen : ℕ := 32

def freshnessWindowSeconds : UInt64 := 30

inductive CryptoError where
  | random (error : String)
  | invalidPublicKey
  | invalidSignature
  | staleTimestamp
  deriving DecidableEq

/-- The text of an error. -/
def CryptoError.toString : CryptoError → String
  | .random error => "secure random generation failed: " ++ error
  | .invalidPublicKey => "invalid public key"
  | .invalidSignature => "invalid signature"
  | .staleTimestamp => "timestamp is outside the freshness window"

/-- What `ed25519_dalek` computes. -/
structure Dalek where
  /-- `VerifyingKey::from_bytes` succeeds -/
  isKey : ByteArr 32 → Bool
  /-- `VerifyingKey::verify` of a message and a signature succeeds -/
  verify : ByteArr 32 → ByteString → ByteArr 64 → Bool

/-- `u64::abs_diff`. -/
def absDiff (a b : UInt64) : UInt64 :=
  if a < b then b - a else a - b

/-- `is_fresh`. -/
def isFresh (timestamp now : UInt64) : Bool :=
  absDiff timestamp now ≤ freshnessWindowSeconds

/-- `u64::to_be_bytes`. -/
def toBeBytes (n : UInt64) : ByteString :=
  (List.range 8).reverse.map fun place => (n >>> UInt64.ofNat (place * 8)).toUInt8

/-- `verify_signature`. -/
def verifySignature (dalek : Dalek) (publicKey nonce : ByteString) (timestamp : UInt64)
    (signature : ByteString) (now : UInt64) : Except CryptoError Unit :=
  if nonce.length ≠ nonceLen || !isFresh timestamp now then .error .staleTimestamp
  else
    match ByteArr.ofSlice? 32 publicKey with
    | none => .error .invalidPublicKey
    | some keyBytes =>
        if dalek.isKey keyBytes then
          match ByteArr.ofSlice? 64 signature with
          | none => .error .invalidSignature
          | some signatureBytes =>
              if dalek.verify keyBytes (nonce ++ toBeBytes timestamp) signatureBytes then .ok ()
              else .error .invalidSignature
        else .error .invalidPublicKey

/-- What an accepted signature is: of a nonce of the right length, fresh, and
verified by `ed25519_dalek` under the key. -/
theorem verifySignature_ok {dalek : Dalek} {publicKey nonce signature : ByteString}
    {timestamp now : UInt64}
    (h : verifySignature dalek publicKey nonce timestamp signature now = .ok ()) :
    nonce.length = 32 ∧ isFresh timestamp now = true ∧
      ∃ key : ByteArr 32, ∃ sig : ByteArr 64, key.1 = publicKey ∧ sig.1 = signature ∧
        dalek.isKey key = true ∧ dalek.verify key (nonce ++ toBeBytes timestamp) sig = true := by
  unfold verifySignature at h
  split at h
  · cases h
  · rename_i hpre
    simp only [ne_eq, Bool.or_eq_true, decide_eq_true_eq, Bool.not_eq_true', not_or,
      Decidable.not_not, Bool.not_eq_false] at hpre
    split at h
    · cases h
    · rename_i key hkey
      split at h
      · rename_i hvalid
        split at h
        · cases h
        · rename_i sig hsig
          split at h
          · rename_i hverified
            exact ⟨hpre.1, hpre.2, key, sig, ByteArr.ofSlice?_eq_some.mp hkey,
              ByteArr.ofSlice?_eq_some.mp hsig, hvalid, hverified⟩
          · cases h
      · cases h

end OpenBioUnlock.Daemon

import OpenBioUnlock.Interop.Verifiers
import OpenBioUnlock.Mobile.Signing

/-!
# The message that is signed

The phone signs a nonce and a timestamp, and two programs check the signature.  Each
of the three writes the message down on its own: `signChallenge` with a
`BytesBuilder` and `_u64be`, `verify_signature` into an array of 40 bytes, the
desktop with the loop of `timestampBytes`.  `one_signed_payload` says that it is one
message, and that on the desktop, where a nonce can be of any length, no two pairs have
the same one.
-/

namespace OpenBioUnlock.Interop

open Codec Runs Desktop Daemon Mobile

/-! ## The messages of the verifiers -/

/-- `slice[start..].copy_from_slice(source)`, as far as `source` goes. -/
def copyFromSlice (slice : ByteString) (start : ℕ) (source : ByteString) : ByteString :=
  slice.take start ++ source ++ slice.drop (start + source.length)

/-- The `payload` of `verify_signature`. -/
def daemonPayload (nonce : ByteString) (timestamp : UInt64) : ByteString :=
  copyFromSlice (copyFromSlice (List.replicate 40 0) 0 nonce) nonceLen (toBeBytes timestamp)

/-- What the desktop has `verifyEd25519` check. -/
def desktopPayload (nonce : QByteArray) (timestamp : Int64) : QByteArray :=
  nonce ++ timestampBytes timestamp

theorem message_eq (v : Desktop.VerifyRequest) :
    v.message = desktopPayload v.nonce v.timestamp := rfl

@[simp] theorem toBeBytes_length (n : UInt64) : (toBeBytes n).length = 8 := by
  simp [toBeBytes]

/-- The array is filled from end to end. -/
theorem daemonPayload_eq {nonce : ByteString} (h : nonce.length = 32) (timestamp : UInt64) :
    daemonPayload nonce timestamp = nonce ++ toBeBytes timestamp := by
  have hfirst : copyFromSlice (List.replicate 40 0) 0 nonce = nonce ++ List.replicate 8 0 := by
    rw [copyFromSlice, h, List.take_zero, List.nil_append, List.drop_replicate]
  rw [daemonPayload, hfirst, copyFromSlice, nonceLen, toBeBytes_length,
    List.take_left' h, List.drop_eq_nil_of_le (by simp [h]), List.append_nil]

/-! ### Where they are checked -/

/-- The daemon accepts a signature of its payload only. -/
theorem daemonPayload_verified {dalek : Dalek} {publicKey nonce signature : ByteString}
    {timestamp now : UInt64}
    (h : verifySignature dalek publicKey nonce timestamp signature now = .ok ()) :
    ∃ key : ByteArr 32, ∃ sig : ByteArr 64, key.1 = publicKey ∧ sig.1 = signature ∧
      dalek.verify key (daemonPayload nonce timestamp) sig = true := by
  obtain ⟨hnonce, -, key, sig, hkey, hsig, -, hverify⟩ := verifySignature_ok h
  refine ⟨key, sig, hkey, hsig, ?_⟩
  rw [daemonPayload_eq hnonce]
  exact hverify

/-- The desktop authorizes a signature of its payload only. -/
theorem desktopPayload_verified {lib : Libraries} {server : Server} {id : QString}
    {v : Desktop.VerifyRequest} {env : Env} (h : (server.verdict lib id v env).2.1 = true) :
    ∃ key, server.pairedKeys id = some key ∧
      (verifyEd25519 lib.ssl key (desktopPayload v.nonce v.timestamp) v.signature).1 = true := by
  obtain ⟨key, hkey, -, hverify⟩ := verdict_eq_true.mp h
  exact ⟨key, hkey, hverify⟩

/-! ## One message -/

/-- The byte at a place is the digit there. -/
theorem toUInt8_shiftRight (n : UInt64) {place : ℕ} (h : place < 8) :
    (n >>> UInt64.ofNat (place * 8)).toUInt8 = UInt8.ofNat (n.toNat / 256 ^ place) := by
  have hsize : (UInt64.ofNat (place * 8)).toNat % 64 = place * 8 := by
    rw [UInt64.toNat_ofNat']
    omega
  apply UInt8.toNat_inj.mp
  rw [UInt64.toNat_toUInt8, UInt64.toNat_shiftRight, hsize, Nat.shiftRight_eq_div_pow,
    UInt8.toNat_ofNat', Nat.mul_comm, Nat.pow_mul]

/-- **`to_be_bytes` and `setUint64` write the same bytes.** -/
theorem toBeBytes_eq (n : UInt64) : toBeBytes n = bigEndian 8 n.toNat := by
  have hbytes : toBeBytes n =
      (List.range 8).reverse.map fun place => UInt8.ofNat (n.toNat / 256 ^ place) := by
    refine List.map_congr_left fun place hplace => toUInt8_shiftRight n ?_
    simpa using hplace
  rw [hbytes]
  simp only [List.range, List.range.loop, List.reverse_cons, List.reverse_nil, List.nil_append,
    List.cons_append, List.map_cons, List.map_nil, bigEndian, Nat.div_div_eq_div_mul]
  norm_num

/-- The desktop writes what the daemon writes. -/
theorem timestampBytes_eq (timestamp : Int64) :
    timestampBytes timestamp = toBeBytes timestamp.toUInt64 := rfl

/-- The signature is one of that message only. -/
def BindsMessage (ssl : OpenSsl) : Prop :=
  ∀ key message message' signature, ssl.verify key message signature = true →
    ssl.verify key message' signature = true → message = message'

/-- **One signed message in three languages**, and on the desktop one for each pair: a
signature that is valid for a pair is valid for no other. -/
theorem one_signed_payload :
    (∀ (nonce : ByteArr 32) (timestamp : EpochSecs),
        phonePayload nonce.1 timestamp.secs = daemonPayload nonce.1 timestamp.secs.toUInt64 ∧
          daemonPayload nonce.1 timestamp.secs.toUInt64 =
            desktopPayload nonce.1 timestamp.secs) ∧
      (∀ v w : Desktop.VerifyRequest, v.message = w.message →
        v.nonce = w.nonce ∧ v.timestamp = w.timestamp) ∧
      ∀ (ssl : OpenSsl) (key : QByteArray) (v w : Desktop.VerifyRequest), BindsMessage ssl →
        (verifyEd25519 ssl key v.message v.signature).1 = true →
        (verifyEd25519 ssl key w.message v.signature).1 = true →
          v.nonce = w.nonce ∧ v.timestamp = w.timestamp := by
  have hinjective : ∀ v w : Desktop.VerifyRequest, v.message = w.message →
      v.nonce = w.nonce ∧ v.timestamp = w.timestamp := by
    intro v w h
    have hlength : (timestampBytes v.timestamp).length = (timestampBytes w.timestamp).length := by
      simp
    obtain ⟨hnonce, hbytes⟩ := List.append_inj' h hlength
    exact ⟨hnonce, timestampBytes_injective hbytes⟩
  refine ⟨fun nonce timestamp => ?_, hinjective, ?_⟩
  · rw [daemonPayload_eq nonce.2, desktopPayload, timestampBytes_eq, phonePayload, u64be,
      ← toBeBytes_eq]
    exact ⟨rfl, rfl⟩
  · intro ssl key v w hbinds hv hw
    obtain ⟨hkey, hsig, hv⟩ := verifyEd25519_eq_true.mp hv
    obtain ⟨_, _, hw⟩ := verifyEd25519_eq_true.mp hw
    exact hinjective v w (hbinds _ _ _ _ hv hw)

/-- Recorded signatures are each of one message. -/
theorem binds_recording {r : Recording}
    (h : ∀ a ∈ r.signatures, ∀ b ∈ r.signatures, a.1 = b.1 → a.2.2 = b.2.2 → a.2.1 = b.2.1) :
    BindsMessage r.libraries.ssl := by
  intro key message message' signature hv hw
  exact h _ (of_decide_eq_true hv) _ (of_decide_eq_true hw) rfl rfl

/-- The phone's signature of a challenge, on the desktop. -/
def challengeVerify : Desktop.VerifyRequest :=
  ⟨List.replicate 32 1, sampleTime.secs, challengeSignature⟩

theorem one_signed_payload_sample :
    BindsMessage phoneRecording.libraries.ssl ∧
      (verifyEd25519 phoneRecording.libraries.ssl phoneSigningKey challengeVerify.message
        challengeVerify.signature).1 = true ∧
      ∀ w : Desktop.VerifyRequest, (verifyEd25519 phoneRecording.libraries.ssl phoneSigningKey
        w.message challengeVerify.signature).1 = true →
          w.nonce = List.replicate 32 1 ∧ w.timestamp = 1000 := by
  have hbinds : BindsMessage phoneRecording.libraries.ssl := binds_recording (by decide +kernel)
  have hvalid : (verifyEd25519 phoneRecording.libraries.ssl phoneSigningKey
      challengeVerify.message challengeVerify.signature).1 = true := by decide +kernel
  refine ⟨hbinds, hvalid, fun w hw => ?_⟩
  obtain ⟨hnonce, htimestamp⟩ := one_signed_payload.2.2 _ _ challengeVerify w hbinds hvalid hw
  exact ⟨hnonce.symm, htimestamp.symm⟩

end OpenBioUnlock.Interop

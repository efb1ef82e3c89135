import OpenBioUnlock.Desktop.Crypto
import OpenBioUnlock.Mobile.Dart

/-!
# The phone's cryptography

`mobile/lib/crypto_service.dart`: the envelopes of `CryptoService`, and the
session key they are sealed under.  A key pair of the `cryptography` package is
its seed; what the package computes, and the JSON codec of `dart:convert`, enter
as the structure `DartLibraries`.

A method that throws returns the exception.
-/

namespace OpenBioUnlock.Mobile

open Desktop (Bytes)

/-- What a method throws. -/
inductive DartError where
  | stateError (message : String)
  | formatException (message : String)
  | argumentError (message : String)
  | socketException (message : String)
  /-- a cast that fails -/
  | typeError
  /-- `!` on null -/
  | nullCheck
  /-- a box whose tag is not that of its content -/
  | secretBoxAuthentication
  /-- a platform plugin that fails -/
  | platform
  deriving DecidableEq

/-- What the packages of the phone compute. -/
structure DartLibraries where
  jsonEncode : DartMap → DString
  /-- `jsonDecode`; `none` is a `FormatException` -/
  jsonDecode : DString → Option DartDynamic
  /-- `AesGcm.encrypt`: key, nonce, associated data, clear text -/
  aesEncrypt : Bytes 32 → Uint8List → Uint8List → Uint8List → Uint8List × Uint8List
  /-- `AesGcm.decrypt`: key, nonce, associated data, cipher text, tag -/
  aesDecrypt : Bytes 32 → Uint8List → Uint8List → Uint8List → Uint8List → Option Uint8List
  x25519PublicKey : Bytes 32 → Bytes 32
  /-- `X25519.sharedSecretKey`: the own seed and the remote public key -/
  sharedSecretKey : Bytes 32 → Bytes 32 → Bytes 32
  ed25519PublicKey : Bytes 32 → Bytes 32
  /-- `Ed25519.sign`: the seed and the message -/
  sign : Bytes 32 → Uint8List → Uint8List

/-- The fields of a `CryptoService`. -/
structure CryptoService where
  keyPair : Option (Bytes 32)
  exchangeKeyPair : Option (Bytes 32)
  sessionKey : Option (Bytes 32)

/-- `_fromHex`, with what it throws. -/
def decodeHex (text : DString) : Except DartError Uint8List :=
  match fromHex text with
  | some bytes => .ok bytes
  | none => .error (.formatException "invalid signing key encoding")

/-- `as String`. -/
def asString : DartDynamic → Except DartError DString
  | .string s => .ok s
  | _ => .error .typeError

/-- `value == text`, for a `dynamic` value and a string. -/
def DartDynamic.isText (v : DartDynamic) (text : DString) : Bool :=
  match v with
  | .string s => s = text
  | _ => false

variable (dart : DartLibraries)

/-- The workstation's public key, as `establishSession` reads it. -/
def remoteKey (workstationKey : DString) : Except DartError (Bytes 32) := do
  let keyBytes ← decodeHex workstationKey
  if h : keyBytes.length = 32 then .ok ⟨keyBytes, h⟩
  else .error (.formatException "invalid workstation exchange key")

/-- The part of `establishSession` after `initialize`: the key agreed on with the
workstation. -/
def agreeSessionKey (exchangeKeyPair : Bytes 32) (workstationKey : DString) :
    Except DartError (Bytes 32) := do
  let remote ← remoteKey workstationKey
  .ok (dart.sharedSecretKey exchangeKeyPair remote)

/-- `_u64be`. -/
def u64be (value : Int64) : Uint8List :=
  Codec.bigEndian 8 value.toUInt64.toNat

/-- A nonce: twelve draws of `Random.secure()`. -/
def drawNonce (random : ℕ → UInt8) : Uint8List :=
  (List.range 12).map random

@[simp] theorem drawNonce_length (random : ℕ → UInt8) : (drawNonce random).length = 12 := by
  simp [drawNonce]

/-- An envelope as the phone writes it. -/
def envelopeMap (deviceId : DString) (nonce cipherText tag : Uint8List) : DartMap :=
  [entry "type" (.string (ofString "secure")), entry "device_id" (.string deviceId),
    entry "nonce" (.string (hex nonce)), entry "ciphertext" (.string (hex cipherText)),
    entry "tag" (.string (hex tag))]

/-- `encryptEnvelope`. -/
def CryptoService.encryptEnvelope (service : CryptoService) (deviceId : DString)
    (payload : DartMap) (random : ℕ → UInt8) : Except DartError DartMap :=
  match service.sessionKey with
  | none => .error (.stateError "secure session has not been established")
  | some sessionKey =>
      let nonce := drawNonce random
      let box := dart.aesEncrypt sessionKey nonce (utf8Encode deviceId)
        (utf8Encode (dart.jsonEncode payload))
      .ok (envelopeMap deviceId nonce box.1 box.2)

/-- The clear text of a box, as a map. -/
def decodePayload (clear : Uint8List) : Except DartError DartMap :=
  match (utf8Decode clear).bind dart.jsonDecode with
  | none => .error (.formatException "")
  | some (.map entries) => .ok entries
  | some _ => .error (.formatException "invalid decrypted payload")

/-- `decryptEnvelope`. -/
def CryptoService.decryptEnvelope (service : CryptoService) (deviceId : DString)
    (envelope : DartMap) : Except DartError DartMap :=
  match service.sessionKey with
  | none => .error (.formatException "invalid secure envelope")
  | some sessionKey =>
      if (envelope.get "type").isText (ofString "secure") &&
          (envelope.get "device_id").isText deviceId then do
        let cipherText ← asString (envelope.get "ciphertext") >>= decodeHex
        let nonce ← asString (envelope.get "nonce") >>= decodeHex
        let tag ← asString (envelope.get "tag") >>= decodeHex
        match dart.aesDecrypt sessionKey nonce (utf8Encode deviceId) cipherText tag with
        | none => .error .secretBoxAuthentication
        | some clear => decodePayload dart clear
      else .error (.formatException "invalid secure envelope")

variable {dart}

/-- What came out normally, each part did. -/
theorem bind_eq_ok {α β : Type} {action : Except DartError α} {next : α → Except DartError β}
    {b : β} (h : action >>= next = .ok b) : ∃ a, action = .ok a ∧ next a = .ok b := by
  cases action with
  | error e => cases h
  | ok a => exact ⟨a, rfl, h⟩

/-- What an accepted envelope went through. -/
theorem CryptoService.decryptEnvelope_ok {service : CryptoService} {deviceId : DString}
    {envelope payload : DartMap}
    (h : service.decryptEnvelope dart deviceId envelope = .ok payload) :
    ∃ sessionKey cipherText nonce tag clear, service.sessionKey = some sessionKey ∧
      (asString (envelope.get "ciphertext") >>= decodeHex) = .ok cipherText ∧
      (asString (envelope.get "nonce") >>= decodeHex) = .ok nonce ∧
      (asString (envelope.get "tag") >>= decodeHex) = .ok tag ∧
      dart.aesDecrypt sessionKey nonce (utf8Encode deviceId) cipherText tag = some clear ∧
      decodePayload dart clear = .ok payload := by
  unfold CryptoService.decryptEnvelope at h
  cases hkey : service.sessionKey with
  | none => simp [hkey] at h
  | some sessionKey =>
      simp only [hkey] at h
      split at h
      · obtain ⟨cipherText, hcipher, h⟩ := bind_eq_ok h
        obtain ⟨nonce, hnonce, h⟩ := bind_eq_ok h
        obtain ⟨tag, htag, h⟩ := bind_eq_ok h
        split at h
        · cases h
        · rename_i clear hclear
          exact ⟨sessionKey, cipherText, nonce, tag, clear, rfl, hcipher, hnonce, htag, hclear, h⟩
      · cases h

end OpenBioUnlock.Mobile

import OpenBioUnlock.Desktop.Challenge
import OpenBioUnlock.Desktop.KeyState
import OpenBioUnlock.Mobile.CryptoService

/-!
# Envelopes between the phone and the desktop

The envelope is written twice, in C++ and in Dart, and so are the codecs under
it.  `envelope_round_trip` says that the two fit: after a pairing with the keys
of the two parties, what one side seals the other opens, with the device and the
payload it was sealed with.

A JSON document has a representation on each side, and `SameJson` says that two
of them are one document; the order of an object's members does not matter.  What
the libraries have to agree on is in `Interoperable` for the cryptography and in
`CarriesToQt` and `CarriesToDart` for JSON.
-/

namespace OpenBioUnlock.Interop

open Codec Runs Desktop Mobile

/-! ## One document on both sides -/

/-- The two values are one JSON value. -/
inductive SameJson : QJsonValue → DartDynamic → Prop
  | null : SameJson .null .null
  | bool (b : Bool) : SameJson (.bool b) (.bool b)
  | integer (n : Int64) : SameJson (.integer n) (.int n)
  | double (bits : UInt64) : SameJson (.double bits) (.double bits)
  | string (s : QString) : SameJson (.string s) (.string s)
  | array {xs : List QJsonValue} {ys : List DartDynamic} (h : List.Forall₂ SameJson xs ys) :
      SameJson (.array xs) (.list ys)
  | object {fields : QJsonObject} {entries : DartMap}
      (h : ∀ key : QString, Option.Rel SameJson (List.lookup key fields) (List.lookup key entries)) :
      SameJson (.object fields) (.map entries)

/-- The two objects have the same members. -/
def SameObject (fields : QJsonObject) (entries : DartMap) : Prop :=
  ∀ key : QString, Option.Rel SameJson (List.lookup key fields) (List.lookup key entries)

section SameObject

variable {fields : QJsonObject} {entries : DartMap} {key : String} {s : QString}

/-- What the two have at a key is the same, or nothing. -/
theorem SameObject.at_key (h : SameObject fields entries)
    (hkey : ofString key = qStringLiteral key) :
    (value fields key = .undefined ∧ entries.get key = .null) ∨
      SameJson (value fields key) (entries.get key) := by
  have hrel := h (qStringLiteral key)
  rw [value, DartMap.get, hkey]
  generalize fields.lookup (qStringLiteral key) = a at hrel
  generalize entries.lookup (qStringLiteral key) = b at hrel
  cases hrel with
  | none => exact Or.inl ⟨rfl, rfl⟩
  | some hsame => exact Or.inr hsame

/-- A string the phone has at a key, the desktop has. -/
theorem SameObject.value_of_get (h : SameObject fields entries)
    (hkey : ofString key = qStringLiteral key) (hget : entries.get key = .string s) :
    value fields key = .string s := by
  have hsame := h.at_key hkey
  rw [hget] at hsame
  generalize value fields key = v at hsame
  rcases hsame with ⟨-, hnone⟩ | hsame
  · cases hnone
  · cases hsame
    rfl

/-- A string the desktop has at a key, the phone has. -/
theorem SameObject.get_of_value (h : SameObject fields entries)
    (hkey : ofString key = qStringLiteral key) (hvalue : value fields key = .string s) :
    entries.get key = .string s := by
  have hsame := h.at_key hkey
  rw [hvalue] at hsame
  generalize entries.get key = v at hsame
  rcases hsame with ⟨hnone, -⟩ | hsame
  · cases hnone
  · cases hsame
    rfl

end SameObject

/-! ## What the libraries agree on -/

/-- **The cryptographic libraries agree**: X25519 commutes, and AES-256-GCM of either
side opens what the other sealed. -/
structure Interoperable (ssl : OpenSsl) (dart : DartLibraries) : Prop where
  commutes : ∀ own peer secret, ssl.derive own (dart.x25519PublicKey peer) = some secret →
    dart.sharedSecretKey peer (dart.x25519PublicKey own) = secret
  opensDart : ∀ key (nonce : Bytes 12) aad clear, ∃ tag : Bytes 16,
    (dart.aesEncrypt key nonce.1 aad clear).2 = tag.1 ∧
      ssl.gcmDecrypt key nonce aad (dart.aesEncrypt key nonce.1 aad clear).1 tag = some clear
  opensSsl : ∀ key (nonce : Bytes 12) aad clear, ∃ ciphertext, ∃ tag : Bytes 16,
    ssl.gcmEncrypt key nonce aad clear = some (ciphertext, tag) ∧
      dart.aesDecrypt key nonce.1 aad ciphertext tag.1 = some clear

/-- Qt reads the document the phone writes. -/
def CarriesToQt (qt : Qt) (dart : DartLibraries) (payload : DartMap) : Prop :=
  ∃ fields, qt.fromJson (utf8Encode (dart.jsonEncode payload)) = some fields ∧
    SameObject fields payload

/-- The phone reads the document Qt writes. -/
def CarriesToDart (qt : Qt) (dart : DartLibraries) (payload : QJsonObject) : Prop :=
  ∃ entries, (utf8Decode (qt.toJson payload)).bind dart.jsonDecode = some (.map entries) ∧
    SameObject payload entries

/-! ## The session key -/

/-- The workstation's key as the QR payload has it. -/
def qrKey (keyPair : X25519KeyPair) : DString := fromLatin1 (toHex keyPair.publicKey)

variable {lib : Libraries} {dart : DartLibraries}

/-- **The two sides agree on the session key.** -/
theorem session_agreed (hint : Interoperable lib.ssl dart) {own peer : Bytes 32}
    {r : PairRequest} (hdevice : r.deviceKey = (dart.x25519PublicKey peer).1)
    (hlen : (sessionKeyOf lib ⟨own.1, (dart.x25519PublicKey own).1⟩ r).length = 32) :
    agreeSessionKey dart peer (qrKey ⟨own.1, (dart.x25519PublicKey own).1⟩) =
      .ok ⟨sessionKeyOf lib ⟨own.1, (dart.x25519PublicKey own).1⟩ r, hlen⟩ := by
  obtain ⟨hpriv, hpub, hderive⟩ := x25519SharedSecret_length hlen
  obtain ⟨secret, hsecret, hval⟩ := Option.map_eq_some_iff.mp hderive
  have hpeer : (⟨r.deviceKey, hpub⟩ : Bytes 32) = dart.x25519PublicKey peer := Subtype.ext hdevice
  rw [hpeer] at hsecret
  have hshared := hint.commutes own peer secret hsecret
  have hread : decodeHex (qrKey ⟨own.1, (dart.x25519PublicKey own).1⟩) =
      .ok (dart.x25519PublicKey own).1 := by
    rw [decodeHex, qrKey, fromHex_fromLatin1_toHex]
  have hlen32 : (dart.x25519PublicKey own).1.length = 32 := (dart.x25519PublicKey own).2
  simp only [agreeSessionKey, remoteKey, hread, bind, Except.bind, hlen32, dif_pos]
  congr 1
  exact hshared.trans (Subtype.ext hval)

/-! ## Both directions -/

/-- A box that OpenSSL opens, `decryptAes256Gcm` does. -/
theorem decryptAes256Gcm_of_opens {key : Bytes 32} {nonce : Bytes 12} {tag : Bytes 16}
    {ciphertext aad clear : QByteArray}
    (h : lib.ssl.gcmDecrypt key nonce aad ciphertext tag = some clear) :
    (decryptAes256Gcm lib.ssl key.1 nonce.1 ⟨ciphertext, tag.1⟩ aad).1 = clear := by
  have hne : nonce.1 ≠ [] := by
    intro hnil
    have := nonce.2
    rw [hnil] at this
    cases this
  have hiv : lib.ssl.iv nonce.1 = nonce := Subtype.ext (lib.ssl.iv_of_length nonce.2)
  have hlen : key.1.length = 32 ∧ nonce.1 ≠ [] ∧ tag.1.length = 16 := ⟨key.2, hne, tag.2⟩
  rw [decryptAes256Gcm, dif_pos hlen, hiv]
  simp only [Subtype.coe_eta, h]

/-- An envelope of the phone is opened by the server. -/
theorem decryptRequest_of_envelope {server : Server} {id : QString} {key : Bytes 32}
    {nonce : Bytes 12} {tag : Bytes 16} {ciphertext clear : QByteArray} {e q : QJsonObject}
    (hkey : server.sessionKeys id = some key.1)
    (hsame : SameObject e (envelopeMap id nonce.1 ciphertext tag.1))
    (hopens : lib.ssl.gcmDecrypt key nonce (toUtf8 id) ciphertext tag = some clear)
    (hne : clear ≠ []) (hjson : lib.qt.fromJson clear = some q) :
    server.decryptRequest lib e = .ok (id, q) := by
  have htype : value e "type" = .string (ofString "secure") := hsame.value_of_get rfl rfl
  have hid : value e "device_id" = .string id := hsame.value_of_get rfl rfl
  have hnonce : value e "nonce" = .string (hex nonce.1) := hsame.value_of_get rfl rfl
  have hcipher : value e "ciphertext" = .string (hex ciphertext) := hsame.value_of_get rfl rfl
  have htag : value e "tag" = .string (hex tag.1) := hsame.value_of_get rfl rfl
  have hbox : envelopeCiphertext e = ⟨ciphertext, tag.1⟩ := by
    simp [envelopeCiphertext, fromHexText, hcipher, htag, QJsonValue.toString]
  have hread : fromHexText (value e "nonce") = nonce.1 := by
    simp [fromHexText, hnonce, QJsonValue.toString]
  have hclear := decryptAes256Gcm_of_opens hopens
  have hsecure : typeOf e = qStringLiteral "secure" := by
    rw [typeOf, htype]
    rfl
  have hopened : ¬ (decryptAes256Gcm lib.ssl key.1 nonce.1 ⟨ciphertext, tag.1⟩
      (toUtf8 id)).1 = [] := by
    rw [hclear]
    exact hne
  simp only [Server.decryptRequest, hsecure, ne_eq, not_true_eq_false, if_false, hid,
    QJsonValue.toString, hkey, hread, hbox]
  rw [if_neg hopened, hclear, hjson]

/-- **What the phone seals, the server opens.** -/
theorem opens_encryptEnvelope (hint : Interoperable lib.ssl dart) {server : Server}
    {service : CryptoService} {id : QString} {key : Bytes 32}
    (hserver : server.sessionKeys id = some key.1) (hphone : service.sessionKey = some key)
    (hid : WellFormed id) (hempty : lib.qt.fromJson [] = none) {p : DartMap}
    (hcarries : CarriesToQt lib.qt dart p) (random : ℕ → UInt8) :
    ∃ envelope, service.encryptEnvelope dart id p random = .ok envelope ∧
      ∀ e, SameObject e envelope → ∃ q, server.decryptRequest lib e = .ok (id, q) ∧
        SameObject q p := by
  obtain ⟨q, hjson, hsame⟩ := hcarries
  obtain ⟨tag, htag, hopens⟩ := hint.opensDart key ⟨drawNonce random, drawNonce_length random⟩
    (utf8Encode id) (utf8Encode (dart.jsonEncode p))
  rw [utf8Encode_eq_toUtf8 hid] at htag hopens
  have hne : utf8Encode (dart.jsonEncode p) ≠ [] := by
    intro hnil
    rw [hnil, hempty] at hjson
    cases hjson
  have hsealed : service.encryptEnvelope dart id p random = .ok (envelopeMap id
      (drawNonce random) (dart.aesEncrypt key (drawNonce random) (utf8Encode id)
        (utf8Encode (dart.jsonEncode p))).1 (dart.aesEncrypt key (drawNonce random)
          (utf8Encode id) (utf8Encode (dart.jsonEncode p))).2) := by
    simp only [CryptoService.encryptEnvelope, hphone]
  refine ⟨_, hsealed, fun e he => ⟨q, ?_, hsame⟩⟩
  rw [utf8Encode_eq_toUtf8 hid, htag] at he
  exact decryptRequest_of_envelope hserver he hopens hne hjson

/-- An envelope of the server, as the phone reads it. -/
theorem decryptEnvelope_of_envelope {service : CryptoService} {id : QString} {key : Bytes 32}
    {nonce ciphertext tag clear : QByteArray} {m p : DartMap}
    (hkey : service.sessionKey = some key)
    (hsame : SameObject [field "type" (text "secure"), field "device_id" (.string id),
      field "nonce" (hexText nonce), field "ciphertext" (hexText ciphertext),
      field "tag" (hexText tag)] m)
    (hopens : dart.aesDecrypt key nonce (utf8Encode id) ciphertext tag = some clear)
    (hjson : (utf8Decode clear).bind dart.jsonDecode = some (.map p)) :
    service.decryptEnvelope dart id m = .ok p := by
  have htype : m.get "type" = .string (qStringLiteral "secure") := hsame.get_of_value rfl rfl
  have hid : m.get "device_id" = .string id := hsame.get_of_value rfl rfl
  have hnonce : m.get "nonce" = .string (fromLatin1 (toHex nonce)) := hsame.get_of_value rfl rfl
  have hcipher : m.get "ciphertext" = .string (fromLatin1 (toHex ciphertext)) :=
    hsame.get_of_value rfl rfl
  have htag : m.get "tag" = .string (fromLatin1 (toHex tag)) := hsame.get_of_value rfl rfl
  have hsecure : (m.get "type").isText (ofString "secure") = true := by
    rw [htype]
    rfl
  have hdevice : (m.get "device_id").isText id = true := by
    rw [hid]
    simp [DartDynamic.isText]
  simp only [CryptoService.decryptEnvelope, hkey, hsecure, hdevice, hnonce, hcipher, htag,
    Bool.and_self, if_true, asString, bind, Except.bind, decodeHex, fromHex_fromLatin1_toHex,
    hopens, decodePayload]
  rw [← Option.bind_eq_bind] at hjson
  simp only [bind] at hjson
  simp only [hjson]

/-- **What the server seals, the phone opens.** -/
theorem opens_encryptedResponse (hint : Interoperable lib.ssl dart) {server : Server}
    {service : CryptoService} {id : QString} {key : Bytes 32}
    (hserver : server.sessionKeys id = some key.1) (hphone : service.sessionKey = some key)
    (hid : WellFormed id) {q : QJsonObject} (hcarries : CarriesToDart lib.qt dart q)
    (random : ℕ → UInt64) :
    ∀ m, SameObject (server.encryptedResponse lib id q random) m →
      ∃ p, service.decryptEnvelope dart id m = .ok p ∧ SameObject q p := by
  intro m hm
  obtain ⟨p, hjson, hsame⟩ := hcarries
  obtain ⟨ciphertext, tag, hseals, hopens⟩ := hint.opensSsl key
    ⟨fillRandom random 12, fillRandom_length random 12⟩ (toUtf8 id) (lib.qt.toJson q)
  have hne : fillRandom random 12 ≠ [] := by
    intro hnil
    have hsize := fillRandom_length random 12
    simp [hnil] at hsize
  have hiv : lib.ssl.iv (fillRandom random 12) =
      ⟨fillRandom random 12, fillRandom_length random 12⟩ :=
    Subtype.ext (lib.ssl.iv_of_length (fillRandom_length random 12))
  have hbox : (encryptAes256Gcm lib.ssl key.1 (fillRandom random 12) (lib.qt.toJson q)
      (toUtf8 id)).1 = ⟨ciphertext, tag.1⟩ := by
    rw [encryptAes256Gcm, dif_pos ⟨key.2, hne⟩, hiv]
    simp only [Subtype.coe_eta, hseals]
  have htag : ¬ tag.1.length ≠ 16 := not_not.mpr tag.2
  simp only [Server.encryptedResponse, hserver, Option.getD_some, hbox] at hm
  rw [if_neg htag] at hm
  rw [← utf8Encode_eq_toUtf8 hid] at hopens
  exact ⟨p, decryptEnvelope_of_envelope hphone hm hopens hjson, hsame⟩

/-! ## The law -/

/-- What one side seals for the device, the other opens: the device and the payload
come out. -/
structure RoundTrip (lib : Libraries) (dart : DartLibraries) (server : Server)
    (service : CryptoService) (id : QString) : Prop where
  toServer : ∀ (p : DartMap) (random : ℕ → UInt8), CarriesToQt lib.qt dart p →
    ∃ envelope, service.encryptEnvelope dart id p random = .ok envelope ∧
      ∀ e, SameObject e envelope → ∃ q, server.decryptRequest lib e = .ok (id, q) ∧
        SameObject q p
  toPhone : ∀ (q : QJsonObject) (random : ℕ → UInt64), CarriesToDart lib.qt dart q →
    ∀ m, SameObject (server.encryptedResponse lib id q random) m →
      ∃ p, service.decryptEnvelope dart id m = .ok p ∧ SameObject q p

/-- **The envelopes go round.**  After an accepted pairing with the phone's X25519 key, in
which the phone took the workstation's from the QR payload, each side opens what
the other sealed for the device. -/
theorem envelope_round_trip (hint : Interoperable lib.ssl dart)
    (hempty : lib.qt.fromJson [] = none) {pcId : QByteArray} (own peer : Bytes 32)
    {tr : List ServerEntry} {s : Server} {id : QString} {r : PairRequest}
    (hrun : Run (serverMachine lib)
      (Server.initial pcId ⟨own.1, (dart.x25519PublicKey own).1⟩) tr s)
    (hpaired : lastSome (pairingOf lib id) tr = some r)
    (hdevice : r.deviceKey = (dart.x25519PublicKey peer).1) (hid : WellFormed id) :
    ∃ key, agreeSessionKey dart peer (qrKey ⟨own.1, (dart.x25519PublicKey own).1⟩) = .ok key ∧
      ∀ service : CryptoService, service.sessionKey = some key →
        RoundTrip lib dart s service id := by
  have hkeys := (keysOf_run hrun).2 id
  rw [hpaired] at hkeys
  obtain ⟨-, -, hsession, hlen⟩ := hkeys
  refine ⟨_, session_agreed hint hdevice hlen, fun service hservice => ?_⟩
  constructor
  · intro p random hcarries
    exact opens_encryptEnvelope hint hsession hservice hid hempty hcarries random
  · intro q random hcarries
    exact opens_encryptedResponse hint hsession hservice hid hcarries random

/-! ## The phone of the samples

The recorded boxes are those of AES-256-GCM.  What was not recorded is sealed with
a tag of zeros, which no recorded box has.
-/

/-- The tag of what was not recorded, and the secret nobody shares. -/
def zeroTag : Bytes 16 := ⟨bigEndian 16 0, bigEndian_length 16 0⟩

def zeroKey : Bytes 32 := ⟨bigEndian 32 0, bigEndian_length 32 0⟩

/-- A cipher that seals the recorded documents as recorded. -/
def sealBox (seals : List Seal) (key : Bytes 32) (nonce aad clear : QByteArray) :
    QByteArray × Bytes 16 :=
  ((seals.find? fun s => s.key = key.1 && s.nonce = nonce && toUtf8 s.deviceId = aad &&
      compactJson s.document = clear).bind fun s =>
    (Bytes.of? s.box.tag).map fun tag => (s.box.ciphertext, tag)).getD (clear, zeroTag)

/-- Its inverse. -/
def openBox (seals : List Seal) (key : Bytes 32) (nonce aad ciphertext : QByteArray)
    (tag : QByteArray) : Option QByteArray :=
  match seals.find? fun s => s.key = key.1 && s.nonce = nonce && toUtf8 s.deviceId = aad &&
      s.box = ⟨ciphertext, tag⟩ with
  | some s => some (compactJson s.document)
  | none => if tag = zeroTag.1 then some ciphertext else none

/-- No nonce is recorded twice, and the recorded tags are of the right length. -/
structure Distinct (seals : List Seal) : Prop where
  once : ∀ s ∈ seals, ∀ s' ∈ seals, s.nonce = s'.nonce →
    compactJson s.document = compactJson s'.document
  tagged : ∀ s ∈ seals, s.box.tag.length = 16 ∧ s.box.tag ≠ zeroTag.1

theorem openBox_sealBox {seals : List Seal} (h : Distinct seals) (key : Bytes 32)
    (nonce aad clear : QByteArray) :
    openBox seals key nonce aad (sealBox seals key nonce aad clear).1
      (sealBox seals key nonce aad clear).2.1 = some clear := by
  rw [sealBox]
  cases hsealed : seals.find? fun s => s.key = key.1 && s.nonce = nonce &&
      toUtf8 s.deviceId = aad && compactJson s.document = clear with
  | none =>
      rw [Option.bind_none, Option.getD_none, openBox]
      split
      · rename_i s hfound
        -- no recorded box has the tag of zeros
        have hbox := List.find?_some hfound
        simp only [Bool.and_eq_true, decide_eq_true_eq] at hbox
        exact absurd (congrArg GcmCiphertext.tag hbox.2)
          (h.tagged s (List.mem_of_find?_eq_some hfound)).2
      · rw [if_pos rfl]
  | some s =>
      have hs := List.mem_of_find?_eq_some hsealed
      have hdoc := List.find?_some hsealed
      simp only [Bool.and_eq_true, decide_eq_true_eq] at hdoc
      obtain ⟨⟨⟨hkey, hnonce⟩, haad⟩, hclear⟩ := hdoc
      rw [Option.bind_some, Bytes.of?, dif_pos (h.tagged s hs).1, Option.map_some,
        Option.getD_some, openBox]
      split
      · rename_i s' hfound
        have hbox := List.find?_some hfound
        simp only [Bool.and_eq_true, decide_eq_true_eq] at hbox
        rw [← hclear, h.once s hs s' (List.mem_of_find?_eq_some hfound)
          (hnonce.trans hbox.1.1.2.symm)]
      · rename_i hnone
        have hmiss := List.find?_eq_none.mp hnone s hs
        simp [hkey, hnonce, haad] at hmiss

/-- The phone's X25519 private key. -/
def phonePrivateKey : Bytes 32 :=
  ⟨bigEndian 32 0x5dab087e624a8a4b79e17f8b83800ee66f3bb1292618b6fd1c2f8b27ff88e0eb,
    bigEndian_length 32 _⟩

/-- The seed of its signing key. -/
def phoneSigningSeed : Bytes 32 :=
  ⟨bigEndian 32 0x9d61b19deffd5a60ba844af492ec2cc44449c5697b326919703bac031cae7f60,
    bigEndian_length 32 _⟩

/-- The workstation's X25519 private key, and the public keys of the two parties. -/
def desktopPrivateKey : Bytes 32 :=
  ⟨sampleKeyPair.privateKey, bigEndian_length 32 _⟩

def samplePublicKey (seed : Bytes 32) : Bytes 32 :=
  if seed = desktopPrivateKey then ⟨sampleKeyPair.publicKey, bigEndian_length 32 _⟩
  else if seed = phonePrivateKey then ⟨phoneKey, bigEndian_length 32 _⟩
  else seed

/-- A member's value, of the kinds the samples have. -/
def dartValue : QJsonValue → DartDynamic
  | .string s => .string s
  | .bool b => .bool b
  | .integer n => .int n
  | _ => .null

def qtValue : DartDynamic → QJsonValue
  | .string s => .string s
  | .bool b => .bool b
  | .int n => .integer n
  | _ => .null

/-- A flat map as JSON, its keys as they come. -/
def flatJson (entries : DartMap) : QByteArray :=
  let members := entries.map fun e => jsonText (.string e.1) ++ ascii ":" ++ jsonText (qtValue e.2)
  ascii "\x7b" ++ (ascii ",").intercalate members ++ ascii "\x7d"

variable (r : Recording)

/-- The recording's libraries, with the cipher above. -/
def sampleLibraries : Libraries :=
  { r.libraries with
    ssl := { r.libraries.ssl with
      gcmEncrypt := fun key iv aad clear => some (sealBox r.seals key iv.1 aad clear)
      gcmDecrypt := fun key iv aad ciphertext tag =>
        openBox r.seals key iv.1 aad ciphertext tag.1 } }

/-- The phone's side of them. -/
def sampleDart : DartLibraries where
  jsonEncode entries := fromLatin1 (flatJson entries)
  jsonDecode source :=
    ((r.seals.map Seal.document).find? fun d => fromLatin1 (compactJson d) = source).map fun d =>
      .map (d.map fun f => (f.1, dartValue f.2))
  aesEncrypt key nonce aad clear :=
    let box := sealBox r.seals key nonce aad clear
    (box.1, box.2.1)
  aesDecrypt key nonce aad ciphertext tag := openBox r.seals key nonce aad ciphertext tag
  x25519PublicKey := samplePublicKey
  sharedSecretKey own remote :=
    if remote = samplePublicKey desktopPrivateKey then
      (r.libraries.ssl.derive desktopPrivateKey (samplePublicKey own)).getD zeroKey
    else zeroKey
  ed25519PublicKey seed :=
    if seed = phoneSigningSeed then ⟨phoneSigningKey, bigEndian_length 32 _⟩ else seed
  sign seed message :=
    if seed = phoneSigningSeed then
      ((r.signatures.find? fun s => s.1 = phoneSigningKey && s.2.1 = message).map
        fun s => s.2.2).getD []
    else []

variable {r}

/-- The two sides of a recording go together. -/
theorem interoperable_sample (hdistinct : Distinct r.seals)
    (hsecrets : ∀ s ∈ r.secrets, s.1 = desktopPrivateKey.1) :
    Interoperable (sampleLibraries r).ssl (sampleDart r) where
  commutes own peer secret hderive := by
    change r.libraries.ssl.derive own (samplePublicKey peer) = some secret at hderive
    have hown : own = desktopPrivateKey := by
      obtain ⟨s, hfound, -⟩ := Option.bind_eq_some_iff.mp hderive
      have hkeys := List.find?_some hfound
      simp only [Bool.and_eq_true, decide_eq_true_eq] at hkeys
      exact Subtype.ext (hkeys.1.symm.trans (hsecrets s (List.mem_of_find?_eq_some hfound)))
    subst hown
    show (if samplePublicKey desktopPrivateKey = samplePublicKey desktopPrivateKey then
      (r.libraries.ssl.derive desktopPrivateKey (samplePublicKey peer)).getD zeroKey
        else zeroKey) = secret
    rw [if_pos rfl, hderive, Option.getD_some]
  opensDart key nonce aad clear :=
    ⟨(sealBox r.seals key nonce.1 aad clear).2, rfl, openBox_sealBox hdistinct key nonce.1 aad clear⟩
  opensSsl key nonce aad clear :=
    ⟨_, _, rfl, openBox_sealBox hdistinct key nonce.1 aad clear⟩

/-- The owner's phone has paired. -/
def pairedTrace : List ServerEntry :=
  (serverMachine (sampleLibraries phoneRecording)).trace (Server.initial samplePcId sampleKeyPair)
    [startEvent, lineEvent 1 phonePair sampleTime 0]

/-- The owner's phone pairs, and its envelopes go round. -/
theorem envelope_round_trip_sample :
    ∃ s, Run (serverMachine (sampleLibraries phoneRecording))
        (Server.initial samplePcId sampleKeyPair) pairedTrace s ∧
      RoundTrip (sampleLibraries phoneRecording) (sampleDart phoneRecording) s
        ⟨some phoneSigningSeed, some phonePrivateKey, Bytes.of? phoneSecret⟩
        (qStringLiteral "phone") := by
  refine ⟨_, Run.trace _ _ _, ?_⟩
  have hint : Interoperable (sampleLibraries phoneRecording).ssl (sampleDart phoneRecording) :=
    interoperable_sample ⟨by decide +kernel, by decide +kernel⟩ (by decide +kernel)
  have hempty : ((sampleLibraries phoneRecording).qt.fromJson []).isNone = true := by
    decide +kernel
  have hpaired : (lastSome (pairingOf (sampleLibraries phoneRecording) (qStringLiteral "phone"))
      pairedTrace).map PairRequest.deviceKey = some (samplePublicKey phonePrivateKey).1 := by
    decide +kernel
  have hid : WellFormed (qStringLiteral "phone") := ⟨rfl, rfl, rfl, rfl, rfl, rfl⟩
  obtain ⟨r, hr, hdevice⟩ := Option.map_eq_some_iff.mp hpaired
  obtain ⟨key, hagreed, hround⟩ := envelope_round_trip hint (Option.isNone_iff_eq_none.mp hempty)
    desktopPrivateKey phonePrivateKey (Run.trace _ _ _) hr hdevice hid
  apply hround _
  have hkey : (agreeSessionKey (sampleDart phoneRecording) phonePrivateKey
      (qrKey sampleKeyPair)).toOption = Bytes.of? phoneSecret := by
    decide +kernel
  exact hkey.symm.trans (congrArg Except.toOption hagreed)

end OpenBioUnlock.Interop

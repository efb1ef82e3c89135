import OpenBioUnlock.Mobile.PairFromQr

/-!
# The pairing ceremony

`pairFromQr` of the phone against `processLine` of the desktop.

The pairing request is written in Dart and read in C++, and both sides derive the session
key from what the other sent: the phone from the QR payload, the desktop from the request.
`pairing_agrees` says that the two end up with the same keys for the same device, so that
the envelopes go round from then on.

The response to the request is where the two part.  The desktop has stored the keys
when it writes it, and the phone does not get further than asking for a challenge:
`paired_on_one_side`.
-/

namespace OpenBioUnlock.Interop

open Codec Runs Desktop Mobile

variable {lib : Libraries} {dart : DartLibraries}

/-! ## The request -/

/-- ASCII text has no surrogates. -/
theorem wellFormed_of_ascii {s : DString} (h : ∀ c ∈ s, c < 128) : WellFormed s := by
  have hplain : ∀ c ∈ s, isHighSurrogate c = false ∧ isLowSurrogate c = false := by
    intro c hc
    have hlt := UInt16.lt_iff_toNat_lt.mp (h c hc)
    have hsmall : c.toNat < 128 := hlt
    simp only [isHighSurrogate, isLowSurrogate, UInt16.le_iff_toNat_le]
    constructor <;> simp <;> omega
  clear h
  induction s using WellFormed.induct with
  | case1 => trivial
  | case2 c => exact hplain c (by simp)
  | case3 c d rest hhigh ih =>
      rw [(hplain c (by simp)).1] at hhigh
      cases hhigh
  | case4 c d rest hhigh ih =>
      rw [WellFormed, if_neg hhigh]
      exact ⟨(hplain c (by simp)).2, ih fun e he => hplain e (List.mem_cons_of_mem c he)⟩

theorem wellFormed_hex (bytes : Uint8List) : WellFormed (hex bytes) := by
  apply wellFormed_of_ascii
  intro c hc
  rw [hex_eq_hexEncode, List.mem_map] at hc
  obtain ⟨b, hb, rfl⟩ := hc
  rw [UInt16.lt_iff_toNat_lt, UInt8.toNat_toUInt16]
  exact UInt8.lt_iff_toNat_lt.mp (hexEncode_lt hb)

/-- **What the phone writes is a pairing request to the desktop**, with the same fields. -/
theorem pairRequest_of_carries {key exchangeKey : Bytes 32} {code : DString}
    (hcarries : CarriesToQt lib.qt dart (pairRequestMap (hex key.1) (hex exchangeKey.1) code)) :
    ∃ request, lib.qt.fromJson (utf8Encode (dart.jsonEncode
        (pairRequestMap (hex key.1) (hex exchangeKey.1) code))) = some request ∧
      IsPair request ∧ pairRequest request = ⟨hex key.1, key.1, exchangeKey.1, code⟩ := by
  obtain ⟨request, hjson, hsame⟩ := hcarries
  have htype : value request "type" = .string (ofString "pair") := hsame.value_of_get rfl rfl
  have hid : value request "device_id" = .string (hex key.1) := hsame.value_of_get rfl rfl
  have hkey : value request "public_key" = .string (hex key.1) := hsame.value_of_get rfl rfl
  have hexchange : value request "x25519_public_key" = .string (hex exchangeKey.1) :=
    hsame.value_of_get rfl rfl
  have hcode : value request "pairing_code" = .string code := hsame.value_of_get rfl rfl
  refine ⟨request, hjson, ?_, ?_⟩
  · rw [IsPair, typeOf, htype]
    rfl
  · simp [pairRequest, fromHexText, hid, hkey, hexchange, hcode, QJsonValue.toString]

/-- A hexadecimal key is not the empty id. -/
theorem hex_ne_nil (key : Bytes 32) : hex key.1 ≠ [] := by
  intro hnil
  have hlen := congrArg List.length hnil
  rw [hex_eq_hexEncode, List.length_map, hexEncode_length, key.2] at hlen
  cases hlen

/-! ## The keys -/

/-- **Both sides end up with the same keys.**  The phone has scanned the key and the code
that the desktop shows, and its pairing request is processed in time.  Then the desktop
accepts it, and as long as nobody pairs again under the phone's id, it has the phone's
signing key, and the session key that the phone has agreed on: what the one seals for the
device the other opens. -/
theorem pairing_agrees (hint : Interoperable lib.ssl dart) (hempty : lib.qt.fromJson [] = none)
    {pcId : QByteArray} {own peer key : Bytes 32} {pre post : List ServerEntry} {y : ServerEntry}
    {s : Server} {socket : Socket} {env : Env} {payload : PairingPayload}
    (hrun : Run (serverMachine lib)
      (Server.initial pcId ⟨own.1, (dart.x25519PublicKey own).1⟩) (pre ++ y :: post) s)
    (hscanned : payload.pcKey = qrKey ⟨own.1, (dart.x25519PublicKey own).1⟩)
    (hcode : payload.pairingCode = y.pre.pairingCode)
    (hline : y.act = .line socket (utf8Encode (dart.jsonEncode (pairRequestMap (hex key.1)
      (hex (dart.x25519PublicKey peer).1) payload.pairingCode))) env)
    (hcarries : CarriesToQt lib.qt dart (pairRequestMap (hex key.1)
      (hex (dart.x25519PublicKey peer).1) payload.pairingCode))
    (hage : (env.clock 0).secs.toInt - y.pre.pairingCreatedAt.secs.toInt ≤ 300)
    (hderives : (lib.ssl.derive own (dart.x25519PublicKey peer)).isSome)
    (halone : ∀ z ∈ post, pairingOf lib (hex key.1) z = none) :
    acceptedPair lib y = some (⟨hex key.1, key.1, (dart.x25519PublicKey peer).1,
        payload.pairingCode⟩, env.clock 0) ∧
      s.pairedKeys (hex key.1) = some key.1 ∧
      ∃ sessionKey, agreeSessionKey dart peer payload.pcKey = .ok sessionKey ∧
        s.sessionKeys (hex key.1) = some sessionKey.1 ∧
        ∀ service : CryptoService, service.sessionKey = some sessionKey →
          RoundTrip lib dart s service (hex key.1) := by
  obtain ⟨hpre, hdoes⟩ := hrun.split
  obtain ⟨request, hjson, hpair, hfields⟩ := pairRequest_of_carries hcarries
  have hown := (keysOf_run hpre).1
  have hagreed : (y.pre.sharedWith lib (pairRequest request)).length = 32 := by
    obtain ⟨secret, hsecret⟩ := Option.isSome_iff_exists.mp hderives
    rw [Server.sharedWith, hown, hfields, x25519SharedSecret,
      dif_pos ⟨own.2, (dart.x25519PublicKey peer).2⟩]
    simp only [Subtype.coe_eta, hsecret]
    exact secret.2
  have haccepted : acceptedPair lib y = some (pairRequest request, env.clock 0) := by
    refine acceptedPair_of_admits hdoes hline hjson hpair ⟨⟨?_, ?_, ?_, ?_, ?_⟩, hagreed⟩
    · rw [hfields]
      exact hex_ne_nil key
    · rw [hfields]
      exact key.2
    · rw [hfields]
      exact (dart.x25519PublicKey peer).2
    · rw [hfields]
      exact hcode
    · exact (window_iff _ _).mpr hage
  rw [hfields] at haccepted
  have hlast : lastSome (pairingOf lib (hex key.1)) (pre ++ y :: post) =
      some ⟨hex key.1, key.1, (dart.x25519PublicKey peer).1, payload.pairingCode⟩ := by
    have hthis : pairingOf lib (hex key.1) y =
        some ⟨hex key.1, key.1, (dart.x25519PublicKey peer).1, payload.pairingCode⟩ := by
      rw [pairingOf, haccepted, Option.bind_some, if_pos rfl]
    rw [lastSome_append, lastSome_cons, lastSome_eq_none.mpr halone, Option.none_or, hthis,
      Option.some_or]
  have hkeys := (keysOf_run hrun).2 (hex key.1)
  rw [hlast] at hkeys
  obtain ⟨hpaired, -, hsession, hlen⟩ := hkeys
  refine ⟨haccepted, hpaired, ⟨_, hlen⟩, ?_, hsession, fun service hservice => ⟨?_, ?_⟩⟩
  · rw [hscanned]
    exact session_agreed hint rfl hlen
  · intro p random hp
    exact opens_encryptEnvelope hint hsession hservice (wellFormed_hex _) hempty hp random
  · intro q random hq
    exact opens_encryptedResponse hint hsession hservice (wellFormed_hex _) hq random

/-! ### A ceremony -/

/-- The pairing request of the owner's phone, on both sides. -/
def ceremonyFields : QJsonObject :=
  [field "type" (text "pair"), field "device_id" (hexText phoneSigningKey),
    field "public_key" (hexText phoneSigningKey), field "x25519_public_key" (hexText phoneKey),
    field "pairing_code" (text "1122334455667788")]

def ceremonyLine : QByteArray := flatJson (ceremonyFields.map fun f => (f.1, dartValue f.2))

/-- A JSON parser that reads that request only. -/
def readCeremony (line : QByteArray) : Option QJsonObject :=
  if line = ceremonyLine then some ceremonyFields else none

def ceremonyLibraries : Libraries :=
  { sampleLibraries phoneRecording with
    qt := { (sampleLibraries phoneRecording).qt with fromJson := readCeremony } }

def ceremonyStep (server : Server) (event : ServerEvent) : ServerEntry :=
  let reaction := server.react ceremonyLibraries event
  ⟨server, event, reaction.2, reaction.1⟩

theorem ceremonyStep_does (server : Server) (event : ServerEvent) :
    (serverMachine ceremonyLibraries).Does (ceremonyStep server event) := does_iff.mpr ⟨rfl, rfl⟩

theorem ceremonyStep_run {init server : Server} {tr : List ServerEntry}
    (hrun : Run (serverMachine ceremonyLibraries) init tr server) (event : ServerEvent) :
    Run (serverMachine ceremonyLibraries) init (tr ++ [ceremonyStep server event])
      (ceremonyStep server event).post :=
  hrun.snoc (x := ceremonyStep server event) (ceremonyStep_does server event)

/-- The server starts, and the phone pairs. -/
def ceremonyStarted : ServerEntry :=
  ceremonyStep (Server.initial samplePcId sampleKeyPair) startEvent

def ceremonyPaired : ServerEntry :=
  ceremonyStep ceremonyStarted.post (.line 1 ceremonyLine (standing sampleTime 0))

/-- The request comes a second time, when its code is used up. -/
def ceremonyRepeated : ServerEntry :=
  ceremonyStep ceremonyPaired.post (.line 2 ceremonyLine (standing sampleTime 0))

theorem ceremony_run : Run (serverMachine ceremonyLibraries)
    (Server.initial samplePcId sampleKeyPair)
    ([ceremonyStarted] ++ ceremonyPaired :: [ceremonyRepeated]) ceremonyRepeated.post :=
  ceremonyStep_run (ceremonyStep_run (ceremonyStep_run .nil _) _) _

theorem interoperable_ceremony : Interoperable ceremonyLibraries.ssl pairDart := by
  have hint : Interoperable (sampleLibraries phoneRecording).ssl (sampleDart phoneRecording) :=
    interoperable_sample ⟨by decide +kernel, by decide +kernel⟩ (by decide +kernel)
  exact ⟨hint.commutes, hint.opensDart, hint.opensSsl⟩

theorem phoneSigningKey_length : phoneSigningKey.length = 32 := bigEndian_length 32 _

/-- The phone's signing key. -/
def ownerKey : Bytes 32 := ⟨phoneSigningKey, phoneSigningKey_length⟩

/-- The request as the phone puts it together. -/
theorem ceremony_map : pairRequestMap (hex ownerKey.1)
    (hex (pairDart.x25519PublicKey phonePrivateKey).1) samplePayload.pairingCode =
      ceremonyFields.map fun f => (f.1, dartValue f.2) := by
  have hkey : (pairDart.x25519PublicKey phonePrivateKey).1 = phoneKey := by decide
  have hhex : ∀ bytes : QByteArray, hex bytes = fromLatin1 (toHex bytes) := hex_eq_hexEncode
  rw [hkey, pairRequestMap, hhex, hhex]
  rfl

theorem ceremony_carries : CarriesToQt ceremonyLibraries.qt pairDart
    (ceremonyFields.map fun f => (f.1, dartValue f.2)) := by
  have hbytes : utf8Encode (pairDart.jsonEncode
      (ceremonyFields.map fun f => (f.1, dartValue f.2))) = ceremonyLine := by
    decide +kernel
  have hreader : ceremonyLibraries.qt.fromJson = readCeremony := rfl
  refine ⟨ceremonyFields, by rw [hbytes, hreader, readCeremony, if_pos rfl], sameObject_map ?_⟩
  intro f hf
  obtain ⟨s, hs⟩ : ∃ s, f.2 = .string s := by
    simp only [ceremonyFields, field, text, hexText, List.mem_cons, List.not_mem_nil,
      or_false] at hf
    rcases hf with rfl | rfl | rfl | rfl | rfl <;> exact ⟨_, rfl⟩
  rw [hs]
  exact .string s

/-- The key pair of the desktop. -/
theorem ceremony_keyPair :
    (⟨desktopPrivateKey.1, (pairDart.x25519PublicKey desktopPrivateKey).1⟩ : X25519KeyPair) =
      sampleKeyPair := by
  have hpublic : (pairDart.x25519PublicKey desktopPrivateKey).1 = sampleKeyPair.publicKey := by
    decide
  rw [hpublic]
  rfl

/-- The repeated request pairs nobody. -/
theorem ceremony_alone :
    ∀ z ∈ [ceremonyRepeated], pairingOf ceremonyLibraries (hex ownerKey.1) z = none := by
  have hnone : (pairingOf ceremonyLibraries (hex ownerKey.1) ceremonyRepeated).isNone = true := by
    decide +kernel
  intro z hz
  rw [List.mem_singleton.mp hz]
  exact Option.isNone_iff_eq_none.mp hnone

/-- The owner's phone pairs, its request comes again, and both sides still have the keys. -/
theorem pairing_agrees_sample :
    ceremonyRepeated.post.pairedKeys (hex ownerKey.1) = some ownerKey.1 ∧
      ∃ sessionKey, agreeSessionKey pairDart phonePrivateKey samplePayload.pcKey =
          .ok sessionKey ∧
        ceremonyRepeated.post.sessionKeys (hex ownerKey.1) = some sessionKey.1 ∧
        ∀ service : CryptoService, service.sessionKey = some sessionKey →
          RoundTrip ceremonyLibraries pairDart ceremonyRepeated.post service
            (hex ownerKey.1) := by
  have hline : ceremonyPaired.act = .line 1 (utf8Encode (pairDart.jsonEncode (pairRequestMap
      (hex ownerKey.1) (hex (pairDart.x25519PublicKey phonePrivateKey).1)
        samplePayload.pairingCode))) (standing sampleTime 0) := by
    have hbytes : utf8Encode (pairDart.jsonEncode
        (ceremonyFields.map fun f => (f.1, dartValue f.2))) = ceremonyLine := by
      decide +kernel
    rw [ceremony_map, hbytes]
    rfl
  have hcode : samplePayload.pairingCode = ceremonyPaired.pre.pairingCode := by decide
  have hempty : (ceremonyLibraries.qt.fromJson []).isNone = true := by decide
  have hage : ((standing sampleTime 0).clock 0).secs.toInt -
      ceremonyPaired.pre.pairingCreatedAt.secs.toInt ≤ 300 := by
    decide
  have hderives : (ceremonyLibraries.ssl.derive desktopPrivateKey
      (pairDart.x25519PublicKey phonePrivateKey)).isSome := by
    decide
  have hcarries := ceremony_carries
  rw [← ceremony_map] at hcarries
  have hrun := ceremony_run
  rw [← ceremony_keyPair] at hrun
  have hscanned : samplePayload.pcKey =
      qrKey ⟨desktopPrivateKey.1, (pairDart.x25519PublicKey desktopPrivateKey).1⟩ := by
    rw [ceremony_keyPair]
    rfl
  have hagrees := pairing_agrees interoperable_ceremony (Option.isNone_iff_eq_none.mp hempty)
    hrun hscanned hcode hline hcarries hage hderives ceremony_alone
  exact hagrees.2

/-! ## The response -/

/-- The phone reads that the desktop has accepted it. -/
theorem responds_of_paired {tr : List PairEntry} {server : Server}
    (hcarries : CarriesToDart lib.qt dart (pairedResponse server))
    (hread : (frames 10 (arrived tr)).head? = some (lib.qt.toJson (pairedResponse server))) :
    Responds dart tr true := by
  obtain ⟨entries, hdecodes, hsame⟩ := hcarries
  obtain ⟨text, htext, hjson⟩ := Option.bind_eq_some_iff.mp hdecodes
  have haccepted : DartMap.get entries "accepted" = .bool true := by
    have hkey : ofString "accepted" = qStringLiteral "accepted" := rfl
    have hmember := hsame.at_key hkey
    have hvalue : value (pairedResponse server) "accepted" = .bool true := rfl
    rw [hvalue] at hmember
    generalize DartMap.get entries "accepted" = v at hmember
    rcases hmember with ⟨hnone, -⟩ | hmember
    · cases hnone
    · cases hmember
      rfl
  refine ⟨_, text, hread, by rw [decodeLine, htext], ?_⟩
  simp only [acceptedIn, decodeJson, hjson, bind, Except.bind, haccepted, Mobile.isTrue]

/-- **A pairing is one-sided.**  A desktop that has accepted a pairing request has keys for
the device in whatever it does from then on: those of the last request it has accepted under
the id.  The phone that reads its response never gets to a verdict: it writes two requests at
most, leaves the socket open, and every status it shows is a failure. -/
theorem paired_on_one_side {init s : Server} {pre post : List ServerEntry} {y : ServerEntry}
    {r : PairRequest} {now : EpochSecs} {result : Option PairingPayload} {tr : List PairEntry}
    {flow : PairFlow} (hrun : Run (serverMachine lib) init (pre ++ y :: post) s)
    (haccepted : acceptedPair lib y = some (r, now))
    (hphone : Run (pairMachine dart) (.scanned result) tr flow)
    (hcarries : CarriesToDart lib.qt dart (pairedResponse y.pre))
    (hread : (frames 10 (arrived tr)).head? = some (lib.qt.toJson (pairedResponse y.pre))) :
    (∃ latest, lastSome (pairingOf lib r.id) (y :: post) = some latest ∧
        s.pairedKeys r.id = some latest.signingKey ∧
        s.sessionKeys r.id = some (sessionKeyOf lib s.x25519KeyPair latest)) ∧
      (requests tr).length ≤ 2 ∧ .close ∉ effects tr ∧
      ∀ status, .setStatus status ∈ effects tr → ∃ error, status = .pairingFailed error := by
  refine ⟨?_, accepted_fails hphone (responds_of_paired hcarries hread)⟩
  obtain ⟨_, _, _, _, _, _, _, _, _, hyes, hpost⟩ := acceptedPair_eq_some hrun.split.2 haccepted
  have hown : KeysOf lib y.post.x25519KeyPair y.post r.id (some r) := by
    rw [hpost]
    exact keysOf_paired hyes
  obtain ⟨hkeyPair, hkeys⟩ := keysOf_after r.id hrun.after rfl hown
  have hthis : pairingOf lib r.id y = some r := by
    rw [pairingOf, haccepted, Option.bind_some, if_pos rfl]
  rw [lastSome_cons, hthis, hkeyPair]
  cases hlast : lastSome (pairingOf lib r.id) post with
  | none =>
      -- nobody has paired under the id since
      rw [hlast] at hkeys
      exact ⟨r, rfl, hkeys.1, hkeys.2.2.1⟩
  | some latest =>
      rw [hlast] at hkeys
      exact ⟨latest, rfl, hkeys.1, hkeys.2.2.1⟩

theorem carries_paired : CarriesToDart ceremonyLibraries.qt pairDart pairedObject := by
  have hraw : utf8Decode (ceremonyLibraries.qt.toJson pairedObject) =
      some (fromLatin1 (compactJson pairedObject)) :=
    utf8Decode_ascii (ascii_of_all (by decide))
  have hreader : pairDart.jsonDecode = readPaired := rfl
  refine ⟨pairedObject.map fun f => (f.1, dartValue f.2), ?_, sameObject_map ?_⟩
  · rw [hraw, Option.bind_some, hreader, readPaired, if_pos rfl]
  · intro f hf
    simp only [pairedObject, pairedResponse, field, text, hexText, List.mem_cons,
      List.not_mem_nil, or_false] at hf
    rcases hf with rfl | rfl | rfl
    · exact .string _
    · exact .bool true
    · exact .string _

/-- The owner's phone is paired on the desktop, and has failed. -/
theorem paired_on_one_side_sample :
    ceremonyRepeated.post.pairedKeys (hex ownerKey.1) = some ownerKey.1 ∧
      ∀ status, .setStatus status ∈ effects acceptedPairing →
        ∃ error, status = .pairingFailed error := by
  have hfields : (acceptedPair ceremonyLibraries ceremonyPaired).map
      (fun p => (p.1.id, p.1.signingKey)) = some (hex ownerKey.1, ownerKey.1) := by
    decide +kernel
  obtain ⟨⟨r, now⟩, haccepted, hr⟩ := Option.map_eq_some_iff.mp hfields
  obtain ⟨hid, hkey⟩ := Prod.mk.inj hr
  have hresponse : pairedResponse ceremonyPaired.pre = pairedObject := rfl
  have hread : (frames 10 (arrived acceptedPairing)).head? = some (compactJson pairedObject) := by
    decide
  obtain ⟨⟨latest, hlatest, hpaired, -⟩, -, -, hfails⟩ := paired_on_one_side ceremony_run
    haccepted (Run.trace _ _ _) (hresponse ▸ carries_paired) hread
  simp only at hid hkey
  rw [hid] at hlatest hpaired
  have hthis : pairingOf ceremonyLibraries (hex ownerKey.1) ceremonyPaired = some r := by
    rw [pairingOf, haccepted, Option.bind_some, if_pos hid]
  rw [lastSome_cons, lastSome_eq_none.mpr ceremony_alone, Option.none_or, hthis] at hlatest
  rw [hpaired, ← Option.some.inj hlatest, hkey]
  exact ⟨rfl, hfails⟩

end OpenBioUnlock.Interop

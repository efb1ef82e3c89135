import OpenBioUnlock.Desktop.Endpoint
import OpenBioUnlock.Interop.Envelope

/-!
# The QR payload

`pairingPayload` writes it, `PairingPayload.fromRaw` of `mobile/lib/main.dart` reads it
(`fromRaw_pairingObject`), and a pairing request with the code in it comes back to
`processLine`.  The code is issued anew by some calls and used up by others;
`qr_round_trip` follows it through a run.
-/

namespace OpenBioUnlock.Interop

open Codec Runs Desktop Mobile

/-! ## `PairingPayload.fromRaw` -/

structure PairingPayload where
  host : DString
  port : Int64
  pcId : DString
  pcKey : DString
  pairingCode : DString

/-- `value == 1`: a `double` can be equal to it. -/
def isOne : DartDynamic → Bool
  | .int n => n = 1
  | .double bits => bits = 0x3FF0000000000000
  | _ => false

def invalidPairingCode : DartError := .formatException "invalid OpenBioUnlock pairing code"

def PairingPayload.fromRaw (dart : DartLibraries) (raw : DString) :
    Except DartError PairingPayload :=
  match dart.jsonDecode raw with
  | none => .error (.formatException "")
  | some (.map value) =>
      match DartMap.get value "host", DartMap.get value "port",
        DartMap.get value "x25519_public_key", DartMap.get value "pc_id",
        DartMap.get value "pairing_code" with
      | .string host, .int port, .string key, .string pcId, .string code =>
          if isOne (DartMap.get value "version") && !(port < 1) && !(port > 65535) && pcId ≠ [] &&
              key.length = 64 && code ≠ [] then
            .ok ⟨host, port, pcId, key, code⟩
          else .error invalidPairingCode
      | _, _, _, _, _ => .error invalidPairingCode
  | some _ => .error .typeError

/-- The payload is that of the server, for the host: the keys as hexadecimal text. -/
structure Describes (server : Server) (host : QString) (p : PairingPayload) : Prop where
  host : p.host = host
  port : p.port = Int64.ofNat server.port.toNat
  pcId : fromHex p.pcId = some server.pcId
  pcKey : fromHex p.pcKey = some server.x25519KeyPair.publicKey
  pairingCode : p.pairingCode = server.pairingCode

section Reading

variable {fields : QJsonObject} {entries : DartMap} {key : String} {n : Int64}

/-- An integer the desktop has at a key, the phone has. -/
theorem SameObject.get_of_integer (h : SameObject fields entries)
    (hkey : ofString key = qStringLiteral key) (hvalue : value fields key = .integer n) :
    entries.get key = .int n := by
  have hsame := h.at_key hkey
  rw [hvalue] at hsame
  generalize entries.get key = v at hsame
  rcases hsame with ⟨hnone, -⟩ | hsame
  · cases hnone
  · cases hsame
    rfl

variable {lib : Libraries} {dart : DartLibraries} {server : Server} {host code : QString}

/-- A port is within the bounds the phone checks, unless it is 0. -/
theorem port_bounds {port : UInt16} (h : port ≠ 0) :
    ¬ Int64.ofNat port.toNat < 1 ∧ ¬ Int64.ofNat port.toNat > 65535 := by
  have hlt := port.toNat_lt
  have hpos : port.toNat ≠ 0 := fun hzero => h (UInt16.toNat_inj.mp hzero)
  rw [gt_iff_lt, Int64.lt_iff_toInt_lt, Int64.lt_iff_toInt_lt,
    Int64.toInt_ofNat_of_lt (by omega)]
  constructor
  · show ¬ (port.toNat : ℤ) < 1
    omega
  · show ¬ (65535 : ℤ) < port.toNat
    omega

/-- **The phone accepts what the desktop writes.** -/
theorem fromRaw_pairingObject (hcarries : CarriesToDart lib.qt dart (pairingObject server host code))
    (hport : server.port ≠ 0) (hkey : server.x25519KeyPair.publicKey.length = 32)
    (hpcId : server.pcId ≠ []) (hcode : code ≠ []) :
    ∃ raw, utf8Decode (lib.qt.toJson (pairingObject server host code)) = some raw ∧
      PairingPayload.fromRaw dart raw = .ok ⟨host, Int64.ofNat server.port.toNat,
        fromLatin1 (toHex server.pcId), qrKey server.x25519KeyPair, code⟩ := by
  obtain ⟨entries, hread, hsame⟩ := hcarries
  obtain ⟨raw, hraw, hdecode⟩ := Option.bind_eq_some_iff.mp hread
  refine ⟨raw, hraw, ?_⟩
  have hversion : DartMap.get entries "version" = .int 1 := hsame.get_of_integer rfl rfl
  have hhost : DartMap.get entries "host" = .string host := hsame.get_of_value rfl rfl
  have hportAt : DartMap.get entries "port" = .int (Int64.ofNat server.port.toNat) :=
    hsame.get_of_integer rfl rfl
  have hpcIdAt : DartMap.get entries "pc_id" = .string (fromLatin1 (toHex server.pcId)) :=
    hsame.get_of_value rfl rfl
  have hkeyAt : DartMap.get entries "x25519_public_key" = .string (qrKey server.x25519KeyPair) :=
    hsame.get_of_value rfl rfl
  have hcodeAt : DartMap.get entries "pairing_code" = .string code := hsame.get_of_value rfl rfl
  obtain ⟨hlow, hhigh⟩ := port_bounds hport
  have hlength : (qrKey server.x25519KeyPair).length = 64 := by
    simp [qrKey, fromLatin1, toHex, hkey]
  have hne : fromLatin1 (toHex server.pcId) ≠ [] := by
    intro hnil
    have hzero := congrArg List.length hnil
    simp only [fromLatin1, toHex, List.length_map, hexEncode_length, List.length_nil] at hzero
    exact hpcId (List.eq_nil_of_length_eq_zero (by omega))
  rw [PairingPayload.fromRaw, hdecode]
  simp only [hversion, hhost, hportAt, hpcIdAt, hkeyAt, hcodeAt]
  exact if_pos (by simp [isOne, hlow, hhigh, hlength, hne, hcode])

end Reading

/-! ## The code in a run -/

variable {lib : Libraries} {dart : DartLibraries} {init s : Server}

/-- A step that issues no code and accepts no pairing. -/
def KeepsCode (lib : Libraries) (z : ServerEntry) : Prop :=
  issuedPairing z = none ∧ acceptedPair lib z = none

/-- **The code stays** as long as none is issued and no pairing is accepted. -/
theorem code_kept {pre mid : List ServerEntry} {x : ServerEntry}
    (hrun : Run (serverMachine lib) init (pre ++ x :: mid) s)
    (hkeeps : ∀ z ∈ mid, KeepsCode lib z) :
    s.pairingCode = x.post.pairingCode ∧ s.pairingCreatedAt = x.post.pairingCreatedAt := by
  induction mid using List.reverseRecOn generalizing s with
  | nil =>
      obtain ⟨-, -, rfl⟩ := Run.snoc_iff.mp hrun
      exact ⟨rfl, rfl⟩
  | append_singleton mid z ih =>
      rw [← List.cons_append, ← List.append_assoc] at hrun
      obtain ⟨hbefore, hdoes, rfl⟩ := Run.snoc_iff.mp hrun
      obtain ⟨hcode, hcreated⟩ := ih hbefore fun y hy => hkeeps y (by simp [hy])
      obtain ⟨hissued, haccepted⟩ := hkeeps z (by simp)
      rcases code_step hdoes with ⟨_, _, hi, -⟩ | ⟨_, _, -, ha, -⟩ | ⟨-, -, hpost, hat⟩
      · rw [hissued] at hi
        cases hi
      · rw [haccepted] at ha
        cases ha
      · exact ⟨hpost.trans hcode, hat.trans hcreated⟩

theorem endpoint_of_ne {host : QString} (h : host ≠ []) (addresses : List HostAddress) :
    endpoint host addresses = host := by
  simp [endpoint, h]

theorem refreshCode_ne_nil (server : Server) (env : Env) :
    (server.refreshCode env).pairingCode ≠ [] := by
  rw [Server.refreshCode]
  split_ifs with hexpired
  · exact newPairingCode_ne_nil _
  · intro hnil
    exact hexpired (by simp [Server.codeExpired, hnil])

/-- What a call of `pairingPayload` for a host returns. -/
theorem does_pairingPayload {x : ServerEntry} (hdoes : (serverMachine lib).Does x)
    {host : QString} {addresses : List HostAddress} {env : Env} (hhost : host ≠ [])
    (hact : x.act = .pairingPayload host addresses env) :
    x.out = .payload (lib.qt.toJson (pairingObject x.post host x.post.pairingCode)) ∧
      x.post.pairingCode ≠ [] ∧ x.post.tcpServer = x.pre.tcpServer := by
  obtain ⟨hpost, hout⟩ := does_iff.mp hdoes
  rw [hact, Server.react, pairingPayload_eq, endpoint_of_ne hhost] at hpost hout
  rw [hout, hpost]
  refine ⟨?_, refreshCode_ne_nil _ _, ?_⟩
  · have hsame : pairingObject x.pre host = pairingObject (x.pre.refreshCode env) host := by
      rw [Server.refreshCode]
      split <;> rfl
    rw [hsame]
  · simp only [Server.refreshCode]
    split <;> rfl

theorem pcId_step {x : ServerEntry} (hdoes : (serverMachine lib).Does x) :
    x.post.pcId = x.pre.pcId := by
  have hcase := does_case hdoes
  generalize x.act = act at hcase
  generalize x.post = post at hcase
  cases hcase with
  | line hline => cases hline <;> rfl
  | _ => rfl

/-- The identity is that of the start. -/
theorem pcId_run {pcId : QByteArray} {keyPair : X25519KeyPair} {tr : List ServerEntry}
    (hrun : Run (serverMachine lib) (Server.initial pcId keyPair) tr s) : s.pcId = pcId :=
  hrun.invariant (P := fun s => s.pcId = pcId) rfl fun _ hdoes h => (pcId_step hdoes).trans h

theorem digitsOf_ne_nil (base n : ℕ) : digitsOf base n ≠ [] := by
  rw [digitsOf]
  split_ifs with hzero
  · simp
  · simpa using Nat.digits_ne_nil_iff_ne_zero.mpr hzero

/-! ## The law -/

/-- A pairing request with the code, a device id, and keys that are agreed on. -/
structure Presents (lib : Libraries) (server : Server) (r : PairRequest) (code : QString) :
    Prop where
  code : r.code = code
  id : r.id ≠ []
  signingKey : r.signingKey.length = 32
  deviceKey : r.deviceKey.length = 32
  agreed : (server.sharedWith lib r).length = 32

/-- **The QR payload goes round.**  A server that was started on a port other than 0 shows
a payload for a host.  The phone reads the host, the port, the identity, the key and the
code of the server from it, if the two JSON libraries fit on that document.  Later, as long as
no newer code is issued and no pairing is accepted, a pairing request with the code is
accepted for 300 seconds. -/
theorem qr_round_trip {draw : UInt64} {keyPair : X25519KeyPair} {pre rest : List ServerEntry}
    {x : ServerEntry} {host : QString} {addresses : List HostAddress} {env : Env}
    {port bound : UInt16}
    (hrun : Run (serverMachine lib) (Server.initial (digitsOf 16 draw.toNat) keyPair)
      (pre ++ x :: rest) s)
    (hstarted : lastSome startedPort pre = some (port, bound)) (hport : port ≠ 0)
    (hrunning : x.pre.isRunning = true) (hact : x.act = .pairingPayload host addresses env)
    (hhost : host ≠ [])
    (hcarries : CarriesToDart lib.qt dart (pairingObject x.post host x.post.pairingCode)) :
    (∃ json raw p, x.out = .payload json ∧ utf8Decode json = some raw ∧
        PairingPayload.fromRaw dart raw = .ok p ∧ Describes x.post host p ∧
        p.port = Int64.ofNat port.toNat ∧ p.pairingCode ≠ []) ∧
      ∀ mid y post socket line env' request, rest = mid ++ y :: post →
        (∀ z ∈ mid, KeepsCode lib z) → y.act = .line socket line env' →
        lib.qt.fromJson line = some request → IsPair request →
        Presents lib y.pre (pairRequest request) x.post.pairingCode →
        (env'.clock 0).secs.toInt - x.post.pairingCreatedAt.secs.toInt ≤ 300 →
        acceptedPair lib y = some (pairRequest request, env'.clock 0) := by
  obtain ⟨hpre, hdoes⟩ := hrun.split
  obtain ⟨hout, hcode, hserver⟩ := does_pairingPayload hdoes hhost hact
  have hafter : Run (serverMachine lib) (Server.initial (digitsOf 16 draw.toNat) keyPair)
      (pre ++ [x]) x.post := hpre.snoc hdoes
  constructor
  · have hlistens := listens_run hafter
    have hnone : startedPort x = none := by simp only [startedPort, hact]
    obtain ⟨bound', hbound⟩ := Option.isSome_iff_exists.mp hrunning
    have hlast := hlistens.started bound' (hserver.trans hbound)
    rw [lastSome_snoc, hnone, Option.none_or, hstarted] at hlast
    obtain ⟨rfl, -⟩ := Prod.mk.inj (Option.some.inj hlast)
    have hkey := hlistens.keyLength (by rw [Server.isRunning, hserver]; exact hrunning)
    have hpcId : x.post.pcId ≠ [] := by
      rw [pcId_run hafter]
      exact digitsOf_ne_nil 16 _
    obtain ⟨raw, hraw, hread⟩ := fromRaw_pairingObject hcarries hport hkey hpcId hcode
    refine ⟨_, raw, _, hout, hraw, hread, ⟨rfl, rfl, ?_, ?_, rfl⟩, rfl, hcode⟩
    · exact fromHex_fromLatin1_toHex _
    · exact fromHex_fromLatin1_toHex _
  · rintro mid y post socket line env' request rfl hkeeps hline hjson hpair hpresents hage
    rw [← List.cons_append, ← List.append_assoc] at hrun
    obtain ⟨hmid, hydoes⟩ := hrun.split
    obtain ⟨hsame, hcreated⟩ := code_kept hmid hkeeps
    refine acceptedPair_of_admits hydoes hline hjson hpair ⟨⟨hpresents.id, hpresents.signingKey,
      hpresents.deviceKey, ?_, ?_⟩, hpresents.agreed⟩
    · rw [hpresents.code, hsame]
    · rw [window_iff, hcreated]
      exact hage

/-! ## A ceremony -/

/-- The object of the sample, as the server writes it for a host. -/
def sampleQr : QJsonObject :=
  [field "version" (.integer 1), field "host" (text "192.168.1.10"),
    field "port" (.integer 43295), field "pc_id" (hexText samplePcId),
    field "x25519_public_key" (hexText sampleKeyPair.publicKey),
    field "pairing_code" (text "1122334455667788")]

/-- What the phone's JSON library reads, of that object only. -/
def readQr (source : DString) : Option DartDynamic :=
  if source = fromLatin1 (compactJson sampleQr) then
    some (.map (sampleQr.map fun f => (f.1, dartValue f.2)))
  else none

def qrDart : DartLibraries :=
  { sampleDart (recording [] []) with jsonDecode := readQr }

/-- Members that are the same JSON value make the same object. -/
theorem sameObject_map {fields : QJsonObject} (h : ∀ f ∈ fields, SameJson f.2 (dartValue f.2)) :
    SameObject fields (fields.map fun f => (f.1, dartValue f.2)) := by
  intro key
  induction fields with
  | nil => exact .none
  | cons f fields ih =>
      rw [List.map_cons, List.lookup_cons, List.lookup_cons]
      cases key == f.1 with
      | true => exact .some (h f (by simp))
      | false => exact ih fun g hg => h g (by simp [hg])

/-- The first pairing request of a recording is read. -/
theorem fromJson_recorded {r : Recording} {object : QJsonObject} {rest : List QJsonObject}
    (h : r.pairs = object :: rest) :
    r.libraries.qt.fromJson (compactJson object) = some object := by
  show (r.pairs ++ r.seals.map Seal.envelope ++ r.seals.map Seal.document).find? _ = _
  rw [h, List.cons_append, List.cons_append]
  exact List.find?_cons_of_pos (decide_eq_true rfl)

/-- A step of the sample server. -/
def qrStep (server : Server) (event : ServerEvent) : ServerEntry :=
  let reaction := server.react (recording [] []).libraries event
  ⟨server, event, reaction.2, reaction.1⟩

theorem qrStep_does (server : Server) (event : ServerEvent) :
    (serverMachine (recording [] []).libraries).Does (qrStep server event) := does_iff.mpr ⟨rfl, rfl⟩

/-- The server starts, shows the payload for a host, and the phone pairs. -/
def qrStarted : ServerEntry := qrStep (Server.initial samplePcId sampleKeyPair) startEvent

def qrShown : ServerEntry :=
  qrStep qrStarted.post
    (.pairingPayload (qStringLiteral "192.168.1.10") [] (standing sampleTime 0))

def qrPaired : ServerEntry := qrStep qrShown.post (lineEvent 1 phonePair sampleTime 0)

theorem pairingObject_sample : pairingObject qrShown.post (qStringLiteral "192.168.1.10")
    qrShown.post.pairingCode = sampleQr := by
  have hfields : qrShown.post.port = 43295 ∧ qrShown.post.pcId = samplePcId ∧
      qrShown.post.x25519KeyPair.publicKey = sampleKeyPair.publicKey ∧
      qrShown.post.pairingCode = qStringLiteral "1122334455667788" := by decide +kernel
  obtain ⟨hport, hpcId, hkey, hcode⟩ := hfields
  rw [pairingObject, hport, hpcId, hkey, hcode]
  rfl

theorem carries_sample : CarriesToDart (recording [] []).libraries.qt qrDart sampleQr := by
  have hraw : utf8Decode (compactJson sampleQr) = some (fromLatin1 (compactJson sampleQr)) :=
    utf8Decode_ascii (ascii_of_all (by decide +kernel))
  refine ⟨sampleQr.map fun f => (f.1, dartValue f.2), ?_, sameObject_map ?_⟩
  · have hread : utf8Decode ((recording [] []).libraries.qt.toJson sampleQr) =
        some (fromLatin1 (compactJson sampleQr)) := hraw
    have hobject : qrDart.jsonDecode = readQr := rfl
    rw [hread, Option.bind_some, hobject, readQr, if_pos rfl]
  · intro f hf
    simp only [sampleQr, field, text, hexText, List.mem_cons, List.not_mem_nil, or_false] at hf
    rcases hf with rfl | rfl | rfl | rfl | rfl | rfl <;> constructor

theorem qr_round_trip_sample :
    (∃ json raw p, qrShown.out = .payload json ∧ utf8Decode json = some raw ∧
        PairingPayload.fromRaw qrDart raw = .ok p ∧
        Describes qrShown.post (qStringLiteral "192.168.1.10") p ∧
        p.port = Int64.ofNat (43295 : UInt16).toNat ∧ p.pairingCode ≠ []) ∧
      acceptedPair (recording [] []).libraries qrPaired = some (pairRequest phonePair, sampleTime) := by
  have hrun : Run (serverMachine (recording [] []).libraries)
      (Server.initial (digitsOf 16 (0x5a5a5a5a5a5a5a5a : UInt64).toNat) sampleKeyPair)
      ([qrStarted] ++ qrShown :: [qrPaired]) qrPaired.post :=
    ((Run.nil.snoc (qrStep_does _ _)).snoc (qrStep_does _ _)).snoc (qrStep_does _ _)
  have hcarries : CarriesToDart (recording [] []).libraries.qt qrDart
      (pairingObject qrShown.post (qStringLiteral "192.168.1.10") qrShown.post.pairingCode) := by
    rw [pairingObject_sample]
    exact carries_sample
  have hstarted : lastSome startedPort [qrStarted] = some (43295, 43295) := by decide +kernel
  obtain ⟨hread, haccepts⟩ := qr_round_trip hrun hstarted (by decide) (by decide +kernel) rfl
    (by decide) hcarries
  refine ⟨hread, haccepts [] qrPaired [] 1 (compactJson phonePair) (standing sampleTime 0) phonePair
    rfl (by simp) rfl ?_ rfl ?_ ?_⟩
  · have hpairs : (recording [] []).pairs = [phonePair, codelessPair] := rfl
    exact fromJson_recorded hpairs
  · have hchecks : (pairRequest phonePair).code = qrShown.post.pairingCode ∧
        (pairRequest phonePair).id ≠ [] ∧ (pairRequest phonePair).signingKey.length = 32 ∧
        (pairRequest phonePair).deviceKey.length = 32 ∧
        (qrPaired.pre.sharedWith (recording [] []).libraries (pairRequest phonePair)).length =
          32 := by decide +kernel
    obtain ⟨hcode, hid, hsigning, hdevice, hagreed⟩ := hchecks
    exact ⟨hcode, hid, hsigning, hdevice, hagreed⟩
  · have hage : (sampleTime.secs.toInt - qrShown.post.pairingCreatedAt.secs.toInt) ≤ 300 := by
      decide +kernel
    exact hage

end OpenBioUnlock.Interop

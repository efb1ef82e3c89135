import OpenBioUnlock.Desktop.Crypto
import OpenBioUnlock.Machine.Run

/-!
# The desktop server

`core/server.cpp`: the state of `Server`, its operations, and the machine they
form.  An operation is a function of the state, of what its caller passes and of
its `Env`; the signals it emits are part of what it returns.

A line from a socket is answered by `processLine`.  It is a pairing request in
the clear, or an AES-GCM envelope around a `challenge` or `verify` request; the
reply to an envelope that opened is itself sealed.  `Reply.payload` records what
was sealed, and for whom, next to the JSON that goes out.

`serverMachine` is the server as its callers and its sockets drive it; a run of
it is any sequence of the operations, each with its own readings of the clock.
-/

namespace OpenBioUnlock.Desktop

open Codec Runs

/-- A `QTcpSocket *`, used as a name. -/
abbrev Socket := ℕ

structure HostAddress where
  isIPv4 : Bool
  isLoopback : Bool
  isMulticast : Bool
  text : QString

structure Server where
  /-- the port `tcpServer_` listens on, when it does -/
  tcpServer : Option UInt16
  pairedKeys : QString → Option QByteArray
  sessionKeys : QString → Option QByteArray
  buffers : Socket → Option QByteArray
  replayGuard : ReplayGuard
  port : UInt16
  pcId : QByteArray
  x25519KeyPair : X25519KeyPair
  pairingCode : QString
  pairingCreatedAt : EpochSecs

inductive Signal where
  | logMessage (message : QString)
  | statusChanged (status : QString)
  | deviceChanged (deviceId : QString) (connected : Bool)

/-- The libraries the server is linked with. -/
structure Libraries where
  qt : Qt
  ssl : OpenSsl

/-- A server as constructed: the identity and the key pair are drawn, nothing is
paired, no code has been issued. -/
def Server.initial (pcId : QByteArray) (keyPair : X25519KeyPair) : Server where
  tcpServer := none
  pairedKeys := fun _ => none
  sessionKeys := fun _ => none
  buffers := fun _ => none
  replayGuard := .initial
  port := 43295
  pcId := pcId
  x25519KeyPair := keyPair
  pairingCode := []
  pairingCreatedAt := 0

/-! ## Starting, stopping and the pairing payload -/

/-- A fresh pairing code: a draw as sixteen hexadecimal digits. -/
def newPairingCode (draw : UInt64) : QString :=
  rightJustified (fromLatin1 (digitsOf 16 draw.toNat)) 16 48

theorem newPairingCode_ne_nil (draw : UInt64) : newPairingCode draw ≠ [] := by
  intro h
  have hlen := congrArg List.length h
  simp only [newPairingCode, rightJustified, List.length_append, List.length_replicate,
    List.length_nil] at hlen
  omega

def Server.isRunning (server : Server) : Bool := server.tcpServer.isSome

/-- `Server::start`.  `listen` and `bind` are the outcomes of the two socket
calls: the port bound, or the error text. -/
def Server.start (server : Server) (port : UInt16) (listen : Except QString UInt16)
    (bind : Except QString Unit) (env : Env) : Server × Bool × List Signal :=
  if server.isRunning then (server, true, [])
  else if server.x25519KeyPair.publicKey.length ≠ 32 then
    ({ server with port := port }, false,
      [.logMessage (qStringLiteral "X25519 key initialization failed")])
  else
    let issued := { server with
      port := port
      pairingCode := newPairingCode (env.random 0)
      pairingCreatedAt := env.clock 0 }
    match listen with
    | .error message =>
        (issued, false, [.logMessage (qStringLiteral "TCP listener failed: " ++ message)])
    | .ok bound =>
        match bind with
        | .error message =>
            (issued, false,
              [.logMessage (qStringLiteral "UDP discovery listener failed: " ++ message)])
        | .ok () =>
            let portText := fromLatin1 (digitsOf 10 port.toNat)
            ({ issued with tcpServer := some bound }, true,
              [.statusChanged (qStringLiteral "Listening on TCP/UDP " ++ portText),
                .logMessage (qStringLiteral "server started on port " ++ portText)])

/-- `Server::stop`. -/
def Server.stop (server : Server) : Server × List Signal :=
  ({ server with tcpServer := none, buffers := fun _ => none },
    [.statusChanged (qStringLiteral "Stopped")])

/-- The host `pairingPayload` advertises. -/
def endpoint (host : QString) (addresses : List HostAddress) : QString :=
  let chosen :=
    if host = [] then
      ((addresses.find? fun a => a.isIPv4 && !a.isLoopback && !a.isMulticast).map
        HostAddress.text).getD []
    else host
  if chosen = [] then qStringLiteral "127.0.0.1" else chosen

/-- The pairing code is gone or too old. -/
def Server.codeExpired (server : Server) (now : EpochSecs) : Bool :=
  server.pairingCode = [] || now.since server.pairingCreatedAt > 300

/-- The state `pairingPayload` leaves, with a new code if there is none to show. -/
def Server.refreshCode (server : Server) (env : Env) : Server :=
  if server.codeExpired (env.clock 0) then
    { server with
      pairingCode := newPairingCode (env.random 0)
      pairingCreatedAt := env.clock 1 }
  else server

/-- `Server::pairingPayload`. -/
def Server.pairingPayload (qt : Qt) (server : Server) (host : QString)
    (addresses : List HostAddress) (env : Env) : Server × QByteArray :=
  let refreshed := server.refreshCode env
  (refreshed, qt.toJson
    [field "version" (.integer 1), field "host" (.string (endpoint host addresses)),
      field "port" (.integer (Int64.ofNat server.port.toNat)),
      field "pc_id" (hexText server.pcId),
      field "x25519_public_key" (hexText server.x25519KeyPair.publicKey),
      field "pairing_code" (.string refreshed.pairingCode)])

/-- The `type` of an object, as text. -/
def typeOf (object : QJsonObject) : QString := (value object "type").toString

/-! ## Replies -/

/-- What a line is answered with. -/
structure Reply where
  /-- the JSON written back -/
  response : QJsonObject
  /-- the device and the object `encryptedResponse` was called with, if it was -/
  payload : Option (QString × QJsonObject)
  signals : List Signal

def errorResponse (message : QString) : QJsonObject :=
  [field "type" (text "error"), field "message" (.string message)]

def pairedResponse (server : Server) : QJsonObject :=
  [field "type" (text "paired"), field "accepted" (.bool true),
    field "pc_id" (hexText server.pcId)]

/-- `timestampBytes`: big-endian. -/
def timestampBytes (timestamp : Int64) : QByteArray :=
  (List.range 8).reverse.map fun shift =>
    (timestamp.toUInt64 >>> UInt64.ofNat (shift * 8)).toUInt8

@[simp] theorem timestampBytes_length (timestamp : Int64) :
    (timestampBytes timestamp).length = 8 := by
  simp [timestampBytes]

/-- The byte at a place of a number is the digit there. -/
theorem digit_eq_of_byte_eq {a b : UInt64} {k : ℕ} (hk : k < 8)
    (h : (a >>> UInt64.ofNat (k * 8)).toUInt8 = (b >>> UInt64.ofNat (k * 8)).toUInt8) :
    a.toNat / 256 ^ k % 256 = b.toNat / 256 ^ k % 256 := by
  have hshift : ∀ c : UInt64,
      (c >>> UInt64.ofNat (k * 8)).toUInt8.toNat = c.toNat / 256 ^ k % 256 := by
    intro c
    have hsize : (UInt64.ofNat (k * 8)).toNat % 64 = k * 8 := by
      rw [UInt64.toNat_ofNat']
      omega
    rw [UInt64.toNat_toUInt8, UInt64.toNat_shiftRight, hsize, Nat.shiftRight_eq_div_pow,
      Nat.mul_comm, Nat.pow_mul]
  rw [← hshift a, ← hshift b, h]

theorem timestampBytes_injective : Function.Injective timestampBytes := by
  intro a b h
  have hbytes : ∀ k < 8,
      a.toUInt64.toNat / 256 ^ k % 256 = b.toUInt64.toNat / 256 ^ k % 256 := by
    intro k hk
    have hmem : k ∈ (List.range 8).reverse := by simp [hk]
    exact digit_eq_of_byte_eq hk (List.map_inj_left.mp h k hmem)
  have ha := a.toUInt64.toNat_lt
  have hb := b.toUInt64.toNat_lt
  have hnat : a.toUInt64.toNat = b.toUInt64.toNat := by
    have h0 := hbytes 0 (by omega)
    have h1 := hbytes 1 (by omega)
    have h2 := hbytes 2 (by omega)
    have h3 := hbytes 3 (by omega)
    have h4 := hbytes 4 (by omega)
    have h5 := hbytes 5 (by omega)
    have h6 := hbytes 6 (by omega)
    have h7 := hbytes 7 (by omega)
    norm_num at h0 h1 h2 h3 h4 h5 h6 h7
    omega
  exact congrArg Int64.ofUInt64 (UInt64.toNat_inj.mp hnat)

variable (lib : Libraries)

/-- `Server::encryptedResponse`. -/
def Server.encryptedResponse (server : Server) (deviceId : QString) (payload : QJsonObject)
    (random : ℕ → UInt64) : QJsonObject :=
  let nonce := fillRandom random 12
  let (encrypted, error) := encryptAes256Gcm lib.ssl ((server.sessionKeys deviceId).getD [])
    nonce (lib.qt.toJson payload) (toUtf8 deviceId)
  if encrypted.tag.length ≠ 16 then errorResponse error
  else
    [field "type" (text "secure"), field "device_id" (.string deviceId),
      field "nonce" (hexText nonce), field "ciphertext" (hexText encrypted.ciphertext),
      field "tag" (hexText encrypted.tag)]

/-- The fields of an envelope that say what to open. -/
def envelopeCiphertext (envelope : QJsonObject) : GcmCiphertext :=
  ⟨fromHexText (value envelope "ciphertext"), fromHexText (value envelope "tag")⟩

/-- `Server::decryptRequest`: the error text, or the device and the request. -/
def Server.decryptRequest (server : Server) (envelope : QJsonObject) :
    Except QString (QString × QJsonObject) :=
  if typeOf envelope ≠ qStringLiteral "secure" then
    .error (qStringLiteral "unencrypted requests are not accepted")
  else
    let id := (value envelope "device_id").toString
    match server.sessionKeys id with
    | none => .error (qStringLiteral "device is not paired")
    | some key =>
        let (plaintext, localError) := decryptAes256Gcm lib.ssl key
          (fromHexText (value envelope "nonce")) (envelopeCiphertext envelope) (toUtf8 id)
        if plaintext = [] then .error localError
        else
          match lib.qt.fromJson plaintext with
          | none => .error (qStringLiteral "decrypted payload is invalid")
          | some payload => .ok (id, payload)

/-! ## The three requests -/

structure PairRequest where
  id : QString
  signingKey : QByteArray
  deviceKey : QByteArray
  code : QString
  deriving DecidableEq

def pairRequest (request : QJsonObject) : PairRequest where
  id := (value request "device_id").toString
  signingKey := fromHexText (value request "public_key")
  deviceKey := fromHexText (value request "x25519_public_key")
  code := (value request "pairing_code").toString

/-- The checks of the `pair` branch that need no key agreement. -/
def Server.pairFieldsOk (server : Server) (r : PairRequest) (now : EpochSecs) : Prop :=
  r.id ≠ [] ∧ r.signingKey.length = 32 ∧ r.deviceKey.length = 32 ∧
    r.code = server.pairingCode ∧ ¬ now.since server.pairingCreatedAt > 300

instance (server : Server) (r : PairRequest) (now : EpochSecs) :
    Decidable (server.pairFieldsOk r now) := by
  unfold Server.pairFieldsOk
  infer_instance

/-- The state after an accepted pairing. -/
def Server.withPairing (server : Server) (r : PairRequest) (shared : QByteArray) : Server :=
  { server with
    pairedKeys := fun id => if id = r.id then some r.signingKey else server.pairedKeys id
    sessionKeys := fun id => if id = r.id then some shared else server.sessionKeys id
    pairingCode := [] }

/-- The `pair` branch of `processLine`. -/
def Server.processPair (server : Server) (r : PairRequest) (env : Env) : Server × Reply :=
  if server.pairFieldsOk r (env.clock 0) then
    let (shared, error) :=
      x25519SharedSecret lib.ssl server.x25519KeyPair.privateKey r.deviceKey
    if shared.length ≠ 32 then (server, ⟨errorResponse error, none, []⟩)
    else
      (server.withPairing r shared, ⟨pairedResponse server, none,
        [.deviceChanged r.id true, .logMessage (qStringLiteral "paired device " ++ r.id)]⟩)
  else
    (server, ⟨errorResponse
      (qStringLiteral "pairing code, keys, or pairing window is invalid"), none, []⟩)

/-- A reply sealed for the device, with the draws left for its nonce. -/
def Server.sealedReply (server : Server) (deviceId : QString) (payload : QJsonObject)
    (random : ℕ → UInt64) (signals : List Signal) : Reply :=
  ⟨server.encryptedResponse lib deviceId payload random, some (deviceId, payload), signals⟩

def challengePayload (nonce : QByteArray) (timestamp : EpochSecs) : QJsonObject :=
  [field "type" (text "challenge"), field "challenge_id" (hexText nonce),
    field "nonce" (hexText nonce), field "timestamp" (.integer timestamp.secs)]

/-- The `challenge` branch: the first four draws make the nonce. -/
def Server.processChallenge (server : Server) (deviceId : QString) (env : Env) :
    Server × Reply :=
  (server, server.sealedReply lib deviceId
    (challengePayload (fillRandom env.random 32) (env.clock 0))
    (fun i => env.random (i + 4)) [])

structure VerifyRequest where
  nonce : QByteArray
  timestamp : Int64
  signature : QByteArray
  deriving DecidableEq

def verifyRequest (decrypted : QJsonObject) : VerifyRequest where
  nonce := fromHexText (value decrypted "nonce")
  timestamp := lib.qt.toLongLong (value decrypted "timestamp")
  signature := fromHexText (value decrypted "signature")

/-- The message a device signs. -/
def VerifyRequest.message (v : VerifyRequest) : QByteArray :=
  v.nonce ++ timestampBytes v.timestamp

def authorizedPayload (authorized : Bool) : QJsonObject :=
  [field "type" (text "authorized"), field "authorized" (.bool authorized)]

/-- The verdict of the `verify` branch, with the guard it leaves and the error
text of the signature check.  The three tests short-circuit. -/
def Server.verdict (server : Server) (deviceId : QString) (v : VerifyRequest) (env : Env) :
    ReplayGuard × Bool × QString :=
  match server.pairedKeys deviceId with
  | none => (server.replayGuard, false, [])
  | some key =>
      let (guarded, accepted) :=
        server.replayGuard.accept v.nonce v.timestamp (env.clock 0) (env.clock 1)
      if accepted then
        let (ok, verifyError) := verifyEd25519 lib.ssl key v.message v.signature
        (guarded, ok, verifyError)
      else (guarded, false, [])

/-- The `verify` branch. -/
def Server.processVerify (server : Server) (deviceId : QString) (v : VerifyRequest) (env : Env) :
    Server × Reply :=
  let (guarded, authorized, verifyError) := server.verdict lib deviceId v env
  ({ server with replayGuard := guarded },
    server.sealedReply lib deviceId (authorizedPayload authorized) env.random
      [.logMessage (if authorized then
          qStringLiteral "device " ++ deviceId ++ qStringLiteral " authorized"
        else qStringLiteral "authorization rejected: " ++ verifyError)])

/-- `Server::processLine`. -/
def Server.processLine (server : Server) (line : QByteArray) (env : Env) : Server × Reply :=
  match lib.qt.fromJson line with
  | none => (server, ⟨errorResponse (qStringLiteral "invalid JSON request"), none, []⟩)
  | some request =>
      if typeOf request = qStringLiteral "pair" then
        server.processPair lib (pairRequest request) env
      else
        match server.decryptRequest lib request with
        | .error error => (server, ⟨errorResponse error, none, []⟩)
        | .ok (deviceId, decrypted) =>
            if typeOf decrypted = qStringLiteral "challenge" then
              server.processChallenge lib deviceId env
            else if typeOf decrypted = qStringLiteral "verify" then
              server.processVerify lib deviceId (verifyRequest lib decrypted) env
            else
              (server, server.sealedReply lib deviceId
                (errorResponse (qStringLiteral "unsupported request type")) env.random [])

/-! ## The machine -/

inductive ServerEvent where
  | start (port : UInt16) (listen : Except QString UInt16) (bind : Except QString Unit)
      (env : Env)
  | stop
  | pairingPayload (host : QString) (addresses : List HostAddress) (env : Env)
  | line (socket : Socket) (line : QByteArray) (env : Env)

inductive ServerOutput where
  | started (ok : Bool) (signals : List Signal)
  | stopped (signals : List Signal)
  | payload (json : QByteArray)
  /-- what is written to the socket: the reply's JSON and a newline -/
  | reply (socket : Socket) (written : QByteArray) (reply : Reply)

/-- What an operation does. -/
def Server.react (server : Server) : ServerEvent → Server × ServerOutput
  | .start port listen bind env =>
      let (next, ok, signals) := server.start port listen bind env
      (next, .started ok signals)
  | .stop =>
      let (next, signals) := server.stop
      (next, .stopped signals)
  | .pairingPayload host addresses env =>
      let (next, json) := server.pairingPayload lib.qt host addresses env
      (next, .payload json)
  | .line socket line env =>
      let (next, reply) := server.processLine lib line env
      (next, .reply socket (lib.qt.toJson reply.response ++ [10]) reply)

/-- The server, driven by its callers and its sockets in any order. -/
def serverMachine : Machine Server ServerEvent ServerOutput where
  step server event := some (server.react lib event)

abbrev ServerEntry := Entry Server ServerEvent ServerOutput

end OpenBioUnlock.Desktop

import OpenBioUnlock.Interop.Envelope
import Mathlib.Data.List.Perm.Subperm

/-!
# The channel between a phone and the desktop

The traffic of one session as a run.  The server is the machine of
`Desktop.Server`; the phone seals a payload or opens an envelope, whenever it
likes.  Which lines reach the server and which envelopes the phone is up to the
network, that is, to the run.

AES-256-GCM is ideal: whatever the network hands over, what `gcmDecrypt` or `aesDecrypt`
opens of it under the session key was sealed under it before (`Unforged`).  What the two
sides accept is what these opened (`openedBox_of_serverAccepted`,
`openedBox_of_phoneAccepted`).  It does not follow that the two sides are told apart, or the
envelopes counted.  Both directions share the key, the associated data and the
shape of the envelope, and neither side remembers what it opened:
`secure_channel_fails` is a run in which each side takes back what it sealed, and
the server answers one envelope twice.  What the channel does keep is
`channel_authentic`.
-/

namespace OpenBioUnlock.Interop

open Codec Runs Desktop Mobile

/-! ## The machine -/

inductive ChannelEvent where
  | server (event : ServerEvent)
  | phoneSeals (payload : DartMap) (random : ℕ → UInt8)
  | phoneOpens (envelope : DartMap)

inductive ChannelOutput where
  | server (out : ServerOutput)
  | phoneSealed (result : Except DartError DartMap)
  | phoneOpened (result : Except DartError DartMap)

variable (lib : Libraries) (dart : DartLibraries) (service : CryptoService) (id : QString)

/-- The server and the phone that calls itself `id`, in any order. -/
def channelMachine : Machine Server ChannelEvent ChannelOutput where
  step server
    | .server event =>
        let (next, out) := server.react lib event
        some (next, .server out)
    | .phoneSeals payload random =>
        some (server, .phoneSealed (service.encryptEnvelope dart id payload random))
    | .phoneOpens envelope =>
        some (server, .phoneOpened (service.decryptEnvelope dart id envelope))

abbrev ChannelEntry := Entry Server ChannelEvent ChannelOutput

/-- The step of the server, if it is one. -/
def serverView (x : ChannelEntry) : Option ServerEntry :=
  match x.act, x.out with
  | .server event, .server out => some ⟨x.pre, event, out, x.post⟩
  | _, _ => none

/-! ## Boxes -/

/-- What AES-256-GCM sealed or opened. -/
structure Box where
  key : QByteArray
  nonce : QByteArray
  aad : QByteArray
  ciphertext : QByteArray
  tag : QByteArray
  clear : QByteArray
  deriving DecidableEq

/-- The box the phone sealed. -/
def phoneSealed (x : ChannelEntry) : Option Box :=
  match x.act, service.sessionKey with
  | .phoneSeals payload random, some key =>
      let clear := utf8Encode (dart.jsonEncode payload)
      let box := dart.aesEncrypt key (drawNonce random) (utf8Encode id) clear
      some ⟨key.1, drawNonce random, utf8Encode id, box.1, box.2, clear⟩
  | _, _ => none

/-- A field of an envelope, as bytes. -/
def bytesField (envelope : DartMap) (key : String) : Option Uint8List :=
  (asString (envelope.get key) >>= decodeHex).toOption

/-- What `aesDecrypt` opens of an envelope under the key. -/
def aesOpened (key : Bytes 32) (envelope : DartMap) : Option Box := do
  let ciphertext ← bytesField envelope "ciphertext"
  let nonce ← bytesField envelope "nonce"
  let tag ← bytesField envelope "tag"
  let clear ← dart.aesDecrypt key nonce (utf8Encode id) ciphertext tag
  some ⟨key.1, nonce, utf8Encode id, ciphertext, tag, clear⟩

/-- The response the phone accepted. -/
def phoneAccepted (x : ChannelEntry) : Option (Box × DartMap) :=
  match x.act, x.out with
  | .phoneOpens envelope, .phoneOpened (.ok payload) =>
      (service.sessionKey.bind fun key => aesOpened dart id key envelope).map fun box =>
        (box, payload)
  | _, _ => none

/-- The box of the response the server sealed. -/
def serverSealed (x : ChannelEntry) : Option Box :=
  ((serverView x).bind replied).bind fun reply => reply.payload.bind fun p =>
    if typeOf reply.response = qStringLiteral "secure" then
      some ⟨(x.pre.sessionKeys p.1).getD [], fromHexText (value reply.response "nonce"),
        toUtf8 p.1, (envelopeCiphertext reply.response).ciphertext,
        (envelopeCiphertext reply.response).tag, lib.qt.toJson p.2⟩
    else none

/-- What `gcmDecrypt` opens of an envelope under the key. -/
def gcmOpened (key : Bytes 32) (envelope : QJsonObject) : Option Box :=
  let iv := lib.ssl.iv (fromHexText (value envelope "nonce"))
  let aad := toUtf8 (value envelope "device_id").toString
  let box := envelopeCiphertext envelope
  if h : box.tag.length = 16 then
    (lib.ssl.gcmDecrypt key iv aad box.ciphertext ⟨box.tag, h⟩).map fun clear =>
      ⟨key.1, iv.1, aad, box.ciphertext, box.tag, clear⟩
  else none

/-- The box of an envelope the server opens. -/
def requestBox (server : Server) (request : QJsonObject) : Box :=
  let key := (server.sessionKeys id).getD []
  let nonce := fromHexText (value request "nonce")
  let box := envelopeCiphertext request
  ⟨key, (lib.ssl.iv nonce).1, toUtf8 id, box.ciphertext, box.tag,
    (decryptAes256Gcm lib.ssl key nonce box (toUtf8 id)).1⟩

/-- The request of the device that the server accepted. -/
def serverAccepted (x : ChannelEntry) : Option (Box × QJsonObject) :=
  (serverView x).bind fun y =>
    match y.act with
    | .line _ line _ =>
        (lib.qt.fromJson line).bind fun request =>
          (opened lib y).bind fun p =>
            if p.1 = id then some (requestBox lib id x.pre request, p.2) else none
    | _ => none

/-- What either side sealed. -/
def sealedBox (x : ChannelEntry) : Option Box :=
  (phoneSealed dart service id x).or (serverSealed lib x)

/-- What AES-256-GCM opens under the key, of what the network hands over in a step. -/
def openedBox (key : Bytes 32) (x : ChannelEntry) : Option Box :=
  match x.act with
  | .server (.line _ line _) => (lib.qt.fromJson line).bind (gcmOpened lib key)
  | .phoneOpens envelope => aesOpened dart id key envelope
  | _ => none

/-! ## Assumptions -/

/-- **No forgery**: what AES-256-GCM opens under the session key was sealed before. -/
def Unforged (key : Bytes 32) : List ChannelEntry → Prop :=
  Along fun pre x => ∀ b, openedBox lib dart id key x = some b →
    ∃ y ∈ pre, sealedBox lib dart service id y = some b

/-- The session is the only one the server has with the device. -/
def OneSession (key : Bytes 32) (tr : List ChannelEntry) : Prop :=
  ∀ x ∈ tr, ∀ k, x.pre.sessionKeys id = some k → k = key.1

/-! ## The law -/

/-- The boxes of the requests accepted in a run, and of the responses. -/
def requestBoxes (tr : List ChannelEntry) : List Box :=
  tr.filterMap fun x => (serverAccepted lib id x).map Prod.fst

def responseBoxes (tr : List ChannelEntry) : List Box :=
  tr.filterMap fun x => (phoneAccepted dart service id x).map Prod.fst

/-- A secure channel: what one side accepts, the other sealed, each time anew; no side
takes back its own, and no box is acted on twice. -/
structure SecureChannel (tr : List ChannelEntry) : Prop where
  requests : List.Subperm (requestBoxes lib id tr) (tr.filterMap (phoneSealed dart service id))
  responses : List.Subperm (responseBoxes dart service id tr) (tr.filterMap (serverSealed lib))
  server_foreign : ∀ b ∈ requestBoxes lib id tr, b ∉ tr.filterMap (serverSealed lib)
  phone_foreign : ∀ b ∈ responseBoxes dart service id tr,
    b ∉ tr.filterMap (phoneSealed dart service id)
  requests_once : (requestBoxes lib id tr).Nodup
  responses_once : (responseBoxes dart service id tr).Nodup

/-- What the server seals: a challenge, a verdict, or that it knows no such request. -/
def ServerPayload (payload : QJsonObject) : Prop :=
  (∃ nonce timestamp, payload = challengePayload nonce timestamp) ∨
    (∃ authorized, payload = authorizedPayload authorized) ∨
      payload = errorResponse (qStringLiteral "unsupported request type")

/-- **What the channel keeps**: whatever is accepted was sealed before, in this session and
for this device, by one of the two sides; and a `verify` request by the phone. -/
structure AuthenticChannel (tr : List ChannelEntry) : Prop where
  /-- every request that `decryptRequest` returned for the device has its box -/
  request_boxed : ∀ x ∈ tr, ∀ y q, serverView x = some y → opened lib y = some (id, q) →
    ∃ b, serverAccepted lib id x = some (b, q)
  /-- and so has every response that `decryptEnvelope` returned -/
  response_boxed : ∀ x ∈ tr, ∀ p, x.out = .phoneOpened (.ok p) →
    ∃ b, phoneAccepted dart service id x = some (b, p)
  request : ∀ pre x post b q, tr = pre ++ x :: post → serverAccepted lib id x = some (b, q) →
    x.pre.sessionKeys id = some b.key ∧ b.aad = toUtf8 id ∧ lib.qt.fromJson b.clear = some q ∧
      ∃ y ∈ pre, sealedBox lib dart service id y = some b
  verify : ∀ pre x post b q, tr = pre ++ x :: post → serverAccepted lib id x = some (b, q) →
    typeOf q = qStringLiteral "verify" → ∃ y ∈ pre, phoneSealed dart service id y = some b
  response : ∀ pre x post b p, tr = pre ++ x :: post →
    phoneAccepted dart service id x = some (b, p) →
      service.sessionKey.map Subtype.val = some b.key ∧ b.aad = utf8Encode id ∧
        decodePayload dart b.clear = .ok p ∧ ∃ y ∈ pre, sealedBox lib dart service id y = some b

variable {lib dart service id}

/-! ## What is accepted -/

/-- The step of the server in a step of the channel. -/
theorem does_serverView {x : ChannelEntry} {y : ServerEntry}
    (hdoes : (channelMachine lib dart service id).Does x) (hview : serverView x = some y) :
    (serverMachine lib).Does y ∧ y.pre = x.pre := by
  unfold serverView at hview
  split at hview
  · rename_i event out hact hout
    obtain rfl := Option.some.inj hview
    rw [Machine.Does, channelMachine, hact, hout] at hdoes
    simp only [Option.some.injEq, Prod.mk.injEq, ChannelOutput.server.injEq] at hdoes
    refine ⟨?_, rfl⟩
    rw [Machine.Does, serverMachine, ← hdoes.1, ← hdoes.2]
  · cases hview

/-- An accepted request: what it was opened with. -/
theorem serverAccepted_eq_some {x : ChannelEntry} {b : Box} {q : QJsonObject}
    (h : serverAccepted lib id x = some (b, q)) :
    ∃ socket line env request, x.act = .server (.line socket line env) ∧
      lib.qt.fromJson line = some request ∧ b = requestBox lib id x.pre request ∧
        x.pre.decryptRequest lib request = .ok (id, q) := by
  obtain ⟨y, hview, h⟩ := Option.bind_eq_some_iff.mp h
  obtain ⟨hpre, hact'⟩ : y.pre = x.pre ∧ x.act = .server y.act := by
    unfold serverView at hview
    split at hview
    · rename_i hact _
      obtain rfl := Option.some.inj hview
      exact ⟨rfl, hact⟩
    · cases hview
  cases hact : y.act with
  | line socket line env =>
      simp only [hact] at h
      obtain ⟨request, hjson, h⟩ := Option.bind_eq_some_iff.mp h
      obtain ⟨⟨id', q'⟩, hopened, h⟩ := Option.bind_eq_some_iff.mp h
      split at h
      · rename_i hid
        simp only at hid
        subst hid
        simp only [Option.some.injEq, Prod.mk.injEq] at h
        obtain ⟨rfl, rfl⟩ := h
        obtain ⟨_, _, _, request', hline, hjson', -, hopen⟩ := opened_eq_some.mp hopened
        rw [hact] at hline
        injection hline with _ hline _
        subst hline
        obtain rfl := Option.some.inj (hjson.symm.trans hjson')
        rw [hpre] at hopen
        exact ⟨socket, line, env, request, by rw [hact', hact], hjson, rfl, hopen⟩
      · cases h
  | _ => simp [hact] at h

theorem serverAccepted_of_opened {x : ChannelEntry} {y : ServerEntry} {q : QJsonObject}
    (hview : serverView x = some y) (hopened : opened lib y = some (id, q)) :
    ∃ b, serverAccepted lib id x = some (b, q) := by
  obtain ⟨socket, line, env, request, hact, hjson, -, -⟩ := opened_eq_some.mp hopened
  exact ⟨requestBox lib id x.pre request, by simp [serverAccepted, hview, hact, hjson, hopened]⟩

/-- An accepted request is the clear text of its box, opened under the session key and for
the device. -/
theorem clear_of_serverAccepted {x : ChannelEntry} {b : Box} {q : QJsonObject}
    (h : serverAccepted lib id x = some (b, q)) :
    x.pre.sessionKeys id = some b.key ∧ b.aad = toUtf8 id ∧
      lib.qt.fromJson b.clear = some q := by
  obtain ⟨-, -, -, request, -, -, rfl, hopen⟩ := serverAccepted_eq_some h
  obtain ⟨key, clear, hkey, hclear, -, hjson, -, -⟩ := decryptRequest_ok lib hopen
  have hkeyD : (x.pre.sessionKeys id).getD [] = key := by rw [hkey, Option.getD_some]
  refine ⟨?_, rfl, ?_⟩
  · rw [hkey, requestBox, hkeyD]
  · rw [requestBox, hkeyD]
    simp only
    rw [hclear, hjson]

/-- **What the server accepts, `gcmDecrypt` opened.** -/
theorem openedBox_of_serverAccepted {x : ChannelEntry} {key : Bytes 32} {b : Box}
    {q : QJsonObject} (h : serverAccepted lib id x = some (b, q))
    (hsession : ∀ k, x.pre.sessionKeys id = some k → k = key.1) :
    openedBox lib dart id key x = some b := by
  obtain ⟨socket, line, env, request, hact, hjson, rfl, hopen⟩ := serverAccepted_eq_some h
  obtain ⟨k, clear, hkey, hclear, hne, -, -, hid⟩ := decryptRequest_ok lib hopen
  subst hclear
  -- an empty clear text is a failure to the server, so `gcmDecrypt` has succeeded
  obtain ⟨hlen, htag, hgcm⟩ := decryptAes256Gcm_ne_nil hne
  obtain rfl : ⟨k, hlen⟩ = key := Subtype.ext (hsession k hkey)
  simp only [openedBox, hact, hjson, Option.bind_some, gcmOpened, ← hid, dif_pos htag, hgcm,
    Option.map_some, requestBox, hkey, Option.getD_some]

/-- An accepted response: what it was opened with. -/
theorem aesOpened_of_decrypted {envelope p : DartMap}
    (h : service.decryptEnvelope dart id envelope = .ok p) :
    ∃ key b, service.sessionKey = some key ∧ aesOpened dart id key envelope = some b ∧
      b.key = key.1 ∧ b.aad = utf8Encode id ∧ decodePayload dart b.clear = .ok p := by
  obtain ⟨key, cipherText, nonce, tag, clear, hkey, hcipher, hnonce, htag, hclear, hpayload⟩ :=
    CryptoService.decryptEnvelope_ok h
  have hcipher' : bytesField envelope "ciphertext" = some cipherText :=
    congrArg Except.toOption hcipher
  have hnonce' : bytesField envelope "nonce" = some nonce := congrArg Except.toOption hnonce
  have htag' : bytesField envelope "tag" = some tag := congrArg Except.toOption htag
  refine ⟨key, ⟨key.1, nonce, utf8Encode id, cipherText, tag, clear⟩, hkey, ?_, rfl, rfl,
    hpayload⟩
  simp only [aesOpened, hcipher', hnonce', htag', hclear, Option.bind_eq_bind, Option.bind_some]

/-- **Every response the phone accepts has its box**, and is its clear text, opened under the
session key and for the device. -/
theorem phoneAccepted_of_opened {x : ChannelEntry} {p : DartMap}
    (hdoes : (channelMachine lib dart service id).Does x)
    (hout : x.out = .phoneOpened (.ok p)) :
    ∃ b, phoneAccepted dart service id x = some (b, p) ∧
      service.sessionKey.map Subtype.val = some b.key ∧ b.aad = utf8Encode id ∧
        decodePayload dart b.clear = .ok p := by
  cases hact : x.act with
  | phoneOpens envelope =>
      simp only [Machine.Does, channelMachine, hact, hout, Option.some.injEq, Prod.mk.injEq,
        ChannelOutput.phoneOpened.injEq] at hdoes
      obtain ⟨key, b, hkey, hbox, hsame, haad, hclear⟩ := aesOpened_of_decrypted hdoes.2
      exact ⟨b, by simp [phoneAccepted, hact, hout, hkey, hbox], by rw [hkey, hsame]; rfl, haad,
        hclear⟩
  | _ => simp [Machine.Does, channelMachine, hact, hout] at hdoes

/-- What is accepted as a response is what the phone returned. -/
theorem out_of_phoneAccepted {x : ChannelEntry} {b : Box} {p : DartMap}
    (h : phoneAccepted dart service id x = some (b, p)) : x.out = .phoneOpened (.ok p) := by
  unfold phoneAccepted at h
  split at h
  · rename_i hout
    obtain ⟨_, _, heq⟩ := Option.map_eq_some_iff.mp h
    rw [hout, (Prod.mk.inj heq).2]
  · cases h

/-- **What the phone accepts, `aesDecrypt` opened.** -/
theorem openedBox_of_phoneAccepted {x : ChannelEntry} {key : Bytes 32} {b : Box} {p : DartMap}
    (hkey : service.sessionKey = some key) (h : phoneAccepted dart service id x = some (b, p)) :
    openedBox lib dart id key x = some b := by
  unfold phoneAccepted at h
  split at h
  · rename_i envelope payload hact hout
    obtain ⟨b', hbox, heq⟩ := Option.map_eq_some_iff.mp h
    simp only [Prod.mk.injEq] at heq
    obtain ⟨rfl, -⟩ := heq
    rw [hkey, Option.bind_some] at hbox
    rw [openedBox, hact]
    exact hbox
  · cases h

/-- Every payload that the server seals is one of its own kinds. -/
theorem serverPayload_of_replied {y : ServerEntry} {reply : Reply} {id' : QString}
    {payload : QJsonObject} (hdoes : (serverMachine lib).Does y)
    (hreply : replied y = some reply) (hpayload : reply.payload = some (id', payload)) :
    ServerPayload payload := by
  cases hact : y.act with
  | line socket line env =>
      obtain ⟨reply', hout, hcase⟩ := does_line hdoes hact
      simp only [replied, hout, Option.some.injEq] at hreply
      subst hreply
      generalize y.post = post at hcase
      cases hcase with
      | challenge =>
          rw [payload_sealedReply, Option.some.injEq, Prod.mk.injEq] at hpayload
          exact .inl ⟨_, _, hpayload.2.symm⟩
      | verify =>
          rw [payload_sealedReply, Option.some.injEq, Prod.mk.injEq] at hpayload
          exact .inr (.inl ⟨_, hpayload.2.symm⟩)
      | unsupported =>
          rw [payload_sealedReply, Option.some.injEq, Prod.mk.injEq] at hpayload
          exact .inr (.inr hpayload.2.symm)
      | _ => cases hpayload
  | _ =>
      simp only [replied, (does_iff.mp hdoes).2, hact, Server.react] at hreply
      cases hreply

/-- No payload of the server has the type of a verify request. -/
theorem typeOf_serverPayload {payload : QJsonObject} (h : ServerPayload payload) :
    typeOf payload ≠ qStringLiteral "verify" := by
  obtain ⟨nonce, timestamp, rfl⟩ | ⟨authorized, rfl⟩ | rfl := h
  · show qStringLiteral "challenge" ≠ qStringLiteral "verify"
    decide
  · show qStringLiteral "authorized" ≠ qStringLiteral "verify"
    decide
  · show qStringLiteral "error" ≠ qStringLiteral "verify"
    decide

/-- The clear text of a box of the server is a document of the server's. -/
theorem clear_of_serverSealed {x : ChannelEntry} {b : Box}
    (hdoes : (channelMachine lib dart service id).Does x) (h : serverSealed lib x = some b) :
    ∃ payload, ServerPayload payload ∧ b.clear = lib.qt.toJson payload := by
  obtain ⟨reply, hreply, h⟩ := Option.bind_eq_some_iff.mp h
  obtain ⟨y, hview, hreply⟩ := Option.bind_eq_some_iff.mp hreply
  obtain ⟨⟨id', payload⟩, hpayload, h⟩ := Option.bind_eq_some_iff.mp h
  split at h
  · obtain rfl := Option.some.inj h
    exact ⟨payload, serverPayload_of_replied (does_serverView hdoes hview).1 hreply hpayload, rfl⟩
  · cases h

/-! ## What the channel keeps -/

/-- **The channel is authentic.** -/
theorem channel_authentic {key : Bytes 32} {init s : Server} {tr : List ChannelEntry}
    (hkey : service.sessionKey = some key)
    (hreads : ∀ payload read, ServerPayload payload →
      lib.qt.fromJson (lib.qt.toJson payload) = some read → typeOf read = typeOf payload)
    (hrun : Run (channelMachine lib dart service id) init tr s)
    (hsession : OneSession id key tr) (hunforged : Unforged lib dart service id key tr) :
    AuthenticChannel lib dart service id tr := by
  have hrequest : ∀ pre x post b q, tr = pre ++ x :: post →
      serverAccepted lib id x = some (b, q) →
        x.pre.sessionKeys id = some b.key ∧ b.aad = toUtf8 id ∧
          lib.qt.fromJson b.clear = some q ∧
            ∃ y ∈ pre, sealedBox lib dart service id y = some b := by
    rintro pre x post b q htr haccepted
    obtain ⟨hk, haad, hclear⟩ := clear_of_serverAccepted haccepted
    have hbox : openedBox lib dart id key x = some b :=
      openedBox_of_serverAccepted haccepted (hsession x (by simp [htr]))
    exact ⟨hk, haad, hclear, hunforged pre x post htr b hbox⟩
  refine ⟨fun x _ y q => serverAccepted_of_opened, ?_, hrequest, ?_, ?_⟩
  · intro x hx p hout
    obtain ⟨b, haccepted, -⟩ := phoneAccepted_of_opened (hrun.does_of_mem hx) hout
    exact ⟨b, haccepted⟩
  · rintro pre x post b q htr haccepted hverify
    obtain ⟨-, -, hclear, y, hy, hsealed⟩ := hrequest pre x post b q htr haccepted
    refine ⟨y, hy, ?_⟩
    obtain hphone | ⟨-, hserver⟩ := Option.or_eq_some_iff.mp hsealed
    · exact hphone
    · -- the server's own documents have another type
      have hdoes := hrun.does_of_mem (show y ∈ tr by simp [htr, hy])
      obtain ⟨payload, hpayload, hjson⟩ := clear_of_serverSealed hdoes hserver
      rw [hjson] at hclear
      exact absurd ((hreads payload q hpayload hclear).symm.trans hverify)
        (typeOf_serverPayload hpayload)
  · rintro pre x post b p htr haccepted
    have hdoes := hrun.does_of_mem (show x ∈ tr by simp [htr])
    obtain ⟨b', haccepted', hk, haad, hclear⟩ :=
      phoneAccepted_of_opened hdoes (out_of_phoneAccepted haccepted)
    obtain rfl : b = b' := congrArg Prod.fst (Option.some.inj (haccepted.symm.trans haccepted'))
    have hbox : openedBox lib dart id key x = some b := openedBox_of_phoneAccepted hkey haccepted
    exact ⟨hk, haad, hclear, hunforged pre x post htr b hbox⟩

/-! ## A run with replays and reflections

The phone asks for a challenge.  The network delivers its envelope twice to the server
and twice to the phone itself, and hands the server its answer back.
-/

def sampleSessionKey : Bytes 32 := ⟨phoneSecret, bigEndian_length 32 _⟩

/-- The owner's phone, in its session. -/
def sampleService : CryptoService :=
  ⟨some phoneSigningSeed, some phonePrivateKey, some sampleSessionKey⟩

/-- An envelope as the phone reads it. -/
def dartEnvelope (s : Seal) : DartMap := s.envelope.map fun f => (f.1, dartValue f.2)

/-- The recording of the run. -/
def channelRecording : Recording := recording [challengeRequest, challengeSeal] []

def reflectedTrace : List ChannelEntry :=
  (channelMachine (sampleLibraries channelRecording) (sampleDart channelRecording) sampleService
    (qStringLiteral "phone")).trace (Server.initial samplePcId sampleKeyPair)
    [.server startEvent, .server (lineEvent 1 phonePair sampleTime 0),
      .phoneSeals [entry "type" (.string (ofString "challenge"))]
        (fun i => challengeRequest.nonce.getD i 0),
      .server (lineEvent 1 challengeRequest.envelope sampleTime 0x0101010101010101),
      .server (lineEvent 1 challengeRequest.envelope sampleTime 0x0101010101010101),
      .phoneOpens (dartEnvelope challengeRequest), .phoneOpens (dartEnvelope challengeRequest),
      .server (lineEvent 1 challengeSeal.envelope sampleTime 0x0101010101010101)]

/-- The box of a recorded envelope. -/
def recordedBox (s : Seal) : Box :=
  ⟨s.key, s.nonce, toUtf8 s.deviceId, s.box.ciphertext, s.box.tag, compactJson s.document⟩

/-- What a step shows of the channel: the session key before it, what AES-256-GCM opens,
and the boxes accepted and sealed by the server and by the phone. -/
structure Traffic where
  sessionKey : Option QByteArray
  opened : Option Box
  serverAccepted : Option Box
  phoneAccepted : Option Box
  phoneSealed : Option Box
  serverSealed : Option Box
  deriving DecidableEq

variable (lib dart service id) in
def traffic (key : Bytes 32) (x : ChannelEntry) : Traffic where
  sessionKey := x.pre.sessionKeys id
  opened := openedBox lib dart id key x
  serverAccepted := (serverAccepted lib id x).map Prod.fst
  phoneAccepted := (phoneAccepted dart service id x).map Prod.fst
  phoneSealed := phoneSealed dart service id x
  serverSealed := serverSealed lib x

/-- The traffic of that run. -/
def reflectedTraffic : List Traffic :=
  let request := some (recordedBox challengeRequest)
  let response := some (recordedBox challengeSeal)
  [⟨none, none, none, none, none, none⟩, ⟨none, none, none, none, none, none⟩,
    ⟨some phoneSecret, none, none, none, request, none⟩,
    ⟨some phoneSecret, request, request, none, none, response⟩,
    ⟨some phoneSecret, request, request, none, none, response⟩,
    ⟨some phoneSecret, request, none, request, none, none⟩,
    ⟨some phoneSecret, request, none, request, none, none⟩,
    ⟨some phoneSecret, response, response, none, none, response⟩]

theorem map_reflectedTrace : reflectedTrace.map (traffic (sampleLibraries channelRecording)
    (sampleDart channelRecording) sampleService (qStringLiteral "phone") sampleSessionKey) =
      reflectedTraffic := by
  decide +kernel

section Traffic

variable {tr : List ChannelEntry} {shown : List Traffic} {key : Bytes 32}

theorem oneSession_of_traffic (hshown : tr.map (traffic lib dart service id key) = shown)
    (h : ∀ t ∈ shown, ∀ k ∈ t.sessionKey, k = key.1) : OneSession id key tr := by
  subst hshown
  intro x hx k hk
  exact h _ (List.mem_map_of_mem hx) k hk

theorem unforged_of_traffic (hshown : tr.map (traffic lib dart service id key) = shown)
    (h : ∀ n : Fin shown.length, ∀ b ∈ shown[n].opened,
      some b ∈ (shown.take n).map fun t => t.phoneSealed.or t.serverSealed) :
    Unforged lib dart service id key tr := by
  subst hshown
  apply Along.of_take
  intro n hn b hb
  have hmem := h ⟨n, by rw [List.length_map]; exact hn⟩ b (by
    simp only [Fin.getElem_fin, List.getElem_map]
    exact hb)
  rw [← List.map_take, List.map_map] at hmem
  obtain ⟨y, hy, hsealed⟩ := List.mem_map.mp hmem
  exact ⟨y, hy, hsealed⟩

/-- A list of boxes, read off the traffic. -/
theorem filterMap_of_traffic (hshown : tr.map (traffic lib dart service id key) = shown)
    (f : Traffic → Option Box) :
    tr.filterMap (fun x => f (traffic lib dart service id key x)) = shown.filterMap f := by
  rw [← hshown, List.filterMap_map]
  rfl

end Traffic

/-- It is a run of one session without forgeries. -/
theorem reflected_session :
    OneSession (qStringLiteral "phone") sampleSessionKey reflectedTrace ∧
      Unforged (sampleLibraries channelRecording) (sampleDart channelRecording) sampleService
        (qStringLiteral "phone") sampleSessionKey reflectedTrace :=
  ⟨oneSession_of_traffic map_reflectedTrace (by decide +kernel),
    unforged_of_traffic map_reflectedTrace (by decide +kernel)⟩

/-- Each side accepts the request twice; the server accepts its own answer, and the phone
nothing of the server's. -/
theorem reflected_boxes :
    requestBoxes (sampleLibraries channelRecording) (qStringLiteral "phone") reflectedTrace =
      [recordedBox challengeRequest, recordedBox challengeRequest, recordedBox challengeSeal] ∧
    responseBoxes (sampleDart channelRecording) sampleService (qStringLiteral "phone")
      reflectedTrace = [recordedBox challengeRequest, recordedBox challengeRequest] ∧
    reflectedTrace.filterMap (phoneSealed (sampleDart channelRecording) sampleService
      (qStringLiteral "phone")) = [recordedBox challengeRequest] ∧
    reflectedTrace.filterMap (serverSealed (sampleLibraries channelRecording)) =
      [recordedBox challengeSeal, recordedBox challengeSeal, recordedBox challengeSeal] := by
  refine ⟨?_, ?_, ?_, ?_⟩
  · exact filterMap_of_traffic map_reflectedTrace Traffic.serverAccepted
  · exact filterMap_of_traffic map_reflectedTrace Traffic.phoneAccepted
  · exact filterMap_of_traffic map_reflectedTrace Traffic.phoneSealed
  · exact filterMap_of_traffic map_reflectedTrace Traffic.serverSealed

/-- **The channel is not secure**: the run above is against every part of the law. -/
theorem secure_channel_fails :
    ¬ ∀ (lib : Libraries) (dart : DartLibraries) (service : CryptoService) (id : QString)
        (key : Bytes 32) (init : Server) (tr : List ChannelEntry) (s : Server),
      service.sessionKey = some key → Run (channelMachine lib dart service id) init tr s →
        OneSession id key tr → Unforged lib dart service id key tr →
          SecureChannel lib dart service id tr := by
  intro h
  have hlaw := h _ _ _ _ _ _ reflectedTrace _ rfl (Run.trace _ _ _) reflected_session.1
    reflected_session.2
  obtain ⟨hrequests, -, hphone, -⟩ := reflected_boxes
  have hmore := hlaw.requests.length_le
  rw [hrequests, hphone] at hmore
  exact absurd hmore (by decide)

/-- What the sample's JSON reader makes of the server's payloads. -/
theorem reads_sample {payload read : QJsonObject} (hpayload : ServerPayload payload)
    (hread : (sampleLibraries channelRecording).qt.fromJson
      ((sampleLibraries channelRecording).qt.toJson payload) = some read) :
    typeOf read = typeOf payload := by
  have hmem := List.mem_of_find?_eq_some hread
  have htext := List.find?_some hread
  rw [decide_eq_true_eq] at htext
  change compactJson read = compactJson payload at htext
  obtain ⟨nonce, timestamp, rfl⟩ | ⟨authorized, rfl⟩ | rfl := hpayload
  · -- of the recorded documents, one begins as a challenge does
    have hbegin : (compactJson (challengePayload nonce timestamp)).take 4 = ascii "\x7b\"ch" := rfl
    have hothers : ∀ d ∈ channelRecording.pairs ++ channelRecording.seals.map Seal.envelope ++
        channelRecording.seals.map Seal.document,
        (compactJson d).take 4 = ascii "\x7b\"ch" → typeOf d = qStringLiteral "challenge" := by
      decide +kernel
    exact hothers read hmem (by rw [htext, hbegin])
  · have hnone : ∀ authorized, ((sampleLibraries channelRecording).qt.fromJson
        (compactJson (authorizedPayload authorized))).isNone = true := by
      decide +kernel
    have := hnone authorized
    rw [Option.isNone_iff_eq_none] at this
    cases this.symm.trans hread
  · have hnone : ((sampleLibraries channelRecording).qt.fromJson
        (compactJson (errorResponse (qStringLiteral "unsupported request type")))).isNone = true := by
      decide +kernel
    rw [Option.isNone_iff_eq_none] at hnone
    cases hnone.symm.trans hread

/-- All the same, everything accepted in that run was sealed before. -/
theorem channel_authentic_sample :
    AuthenticChannel (sampleLibraries channelRecording) (sampleDart channelRecording)
      sampleService (qStringLiteral "phone") reflectedTrace :=
  channel_authentic rfl (fun _ _ => reads_sample) (Run.trace _ _ _) reflected_session.1
    reflected_session.2

end OpenBioUnlock.Interop

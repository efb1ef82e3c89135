import OpenBioUnlock.Desktop.Challenge

/-!
# The keys of the paired devices

A device has a signing key in `pairedKeys_` and a session key in `sessionKeys_`.
The two maps are separate, and only an accepted pairing writes them, both at
once: `keys_step` is the step lemma, and `keysOf_run` its consequence for a run,
that both keys of a device stem from the last pairing accepted for it.

What the keys are for follows.  A request that is authorized came in an envelope
that opens under the session key of that pairing, with the device as associated
data, and is signed under its signing key; and whatever opens is answered sealed
under the same session key.
-/

namespace OpenBioUnlock.Desktop

open Codec Runs

variable (lib : Libraries)

/-- The pairing of the device `id` that a step accepts. -/
def pairingOf (id : QString) (x : ServerEntry) : Option PairRequest :=
  (acceptedPair lib x).bind fun p => if p.1.id = id then some p.1 else none

/-- The session key a pairing agrees on. -/
def sessionKeyOf (keyPair : X25519KeyPair) (r : PairRequest) : QByteArray :=
  (x25519SharedSecret lib.ssl keyPair.privateKey r.deviceKey).1

/-- The keys the server has for the device `id` are those of the pairing, if any. -/
def KeysOf (keyPair : X25519KeyPair) (server : Server) (id : QString) :
    Option PairRequest → Prop
  | none => server.pairedKeys id = none ∧ server.sessionKeys id = none
  | some r => server.pairedKeys id = some r.signingKey ∧ r.signingKey.length = 32 ∧
      server.sessionKeys id = some (sessionKeyOf lib keyPair r) ∧
      (sessionKeyOf lib keyPair r).length = 32

/-- The envelope of a line opens under the key, with the device as associated data,
to the request. -/
def OpensUnder (x : ServerEntry) (id : QString) (key : QByteArray) (decrypted : QJsonObject) :
    Prop :=
  ∃ socket line env envelope plaintext, ∃ key32 : Bytes 32, ∃ tag : Bytes 16,
    x.act = .line socket line env ∧ lib.qt.fromJson line = some envelope ∧
    typeOf envelope = qStringLiteral "secure" ∧ (value envelope "device_id").toString = id ∧
    key32.1 = key ∧ tag.1 = (envelopeCiphertext envelope).tag ∧
    lib.ssl.gcmDecrypt key32 (lib.ssl.iv (fromHexText (value envelope "nonce"))) (toUtf8 id)
      (envelopeCiphertext envelope).ciphertext tag = some plaintext ∧
    lib.qt.fromJson plaintext = some decrypted

/-- The reply is an envelope under the key, with the device as associated data. -/
def SealedUnder (reply : Reply) (id : QString) (key : QByteArray) : Prop :=
  ∃ payload nonce ciphertext, ∃ key32 : Bytes 32, ∃ tag : Bytes 16,
    key32.1 = key ∧
    lib.ssl.gcmEncrypt key32 (lib.ssl.iv nonce) (toUtf8 id) (lib.qt.toJson payload) =
      some (ciphertext, tag) ∧
    reply.response = [field "type" (text "secure"), field "device_id" (.string id),
      field "nonce" (hexText nonce), field "ciphertext" (hexText ciphertext),
      field "tag" (hexText tag.1)]

/-- The request is signed under the key. -/
def SignedUnder (key : QByteArray) (v : VerifyRequest) : Prop :=
  ∃ key32 : Bytes 32, ∃ signature : Bytes 64, key32.1 = key ∧ signature.1 = v.signature ∧
    lib.ssl.verify key32 v.message signature = true

/-- **The law of the keys**, for a run that ends in the state `s`. -/
structure KeyLaw (keyPair : X25519KeyPair) (tr : List ServerEntry) (s : Server) : Prop where
  sameDevices : ∀ id, (s.pairedKeys id).isSome = (s.sessionKeys id).isSome
  lengths : ∀ id key, s.pairedKeys id = some key ∨ s.sessionKeys id = some key →
    key.length = 32
  /-- both keys stem from the last pairing accepted for the device -/
  latest : ∀ id, KeysOf lib keyPair s id (lastSome (pairingOf lib id) tr)
  /-- any other line leaves the keys and the pairing code alone -/
  unchanged : ∀ x ∈ tr, ∀ socket line env, x.act = .line socket line env →
    acceptedPair lib x = none →
      x.post.pairedKeys = x.pre.pairedKeys ∧ x.post.sessionKeys = x.pre.sessionKeys ∧
        x.post.pairingCode = x.pre.pairingCode ∧
        x.post.pairingCreatedAt = x.pre.pairingCreatedAt
  /-- whatever reply says `authorized: true`, what it rests on -/
  authorized : ∀ pre x post reply, tr = pre ++ x :: post → replied x = some reply →
    reply.Authorizes →
      ∃ id r decrypted, reply.payload = some (id, authorizedPayload true) ∧
        lastSome (pairingOf lib id) pre = some r ∧
        OpensUnder lib x id (sessionKeyOf lib keyPair r) decrypted ∧
        typeOf decrypted = qStringLiteral "verify" ∧
        SignedUnder lib r.signingKey (verifyRequest lib decrypted)
  /-- what opens is answered sealed -/
  answered : ∀ pre x post id decrypted, tr = pre ++ x :: post →
    opened lib x = some (id, decrypted) →
      ∃ r reply, lastSome (pairingOf lib id) pre = some r ∧ replied x = some reply ∧
        SealedUnder lib reply id (sessionKeyOf lib keyPair r)

variable {lib} {x : ServerEntry}

/-! ## What a step does to the keys -/

/-- **Only an accepted pairing writes the keys.** -/
theorem keys_step (hdoes : (serverMachine lib).Does x) :
    x.post.x25519KeyPair = x.pre.x25519KeyPair ∧
      ((∃ r now, acceptedPair lib x = some (r, now) ∧ x.pre.Admits lib r now ∧
          x.post = x.pre.withPairing r (x.pre.sharedWith lib r)) ∨
        (acceptedPair lib x = none ∧ x.post.pairedKeys = x.pre.pairedKeys ∧
          x.post.sessionKeys = x.pre.sessionKeys)) := by
  cases haccepted : acceptedPair lib x with
  | some p =>
      obtain ⟨_, _, _, _, _, _, _, _, _, hyes, hpost⟩ := acceptedPair_eq_some hdoes haccepted
      exact ⟨by rw [hpost]; rfl, Or.inl ⟨p.1, p.2, rfl, hyes, hpost⟩⟩
  | none =>
      suffices h : x.post.x25519KeyPair = x.pre.x25519KeyPair ∧
          x.post.pairedKeys = x.pre.pairedKeys ∧ x.post.sessionKeys = x.pre.sessionKeys from
        ⟨h.1, Or.inr ⟨rfl, h.2⟩⟩
      cases hact : x.act with
      | line socket line env =>
          obtain ⟨reply, hout, hcase⟩ := does_line hdoes hact
          simp only [acceptedPair, hact, hout] at haccepted
          generalize x.post = post at hcase
          cases hcase with
          | paired hjson _ _ => simp [hjson] at haccepted
          | _ => exact ⟨rfl, rfl, rfl⟩
      | _ =>
          have hcase := does_case hdoes
          rw [hact] at hcase
          generalize x.post = post at hcase
          cases hcase <;> exact ⟨rfl, rfl, rfl⟩

/-- The keys of the device itself. -/
theorem keysOf_paired {server : Server} {r : PairRequest} {now : EpochSecs}
    (hyes : server.Admits lib r now) :
    KeysOf lib server.x25519KeyPair (server.withPairing r (server.sharedWith lib r)) r.id
      (some r) := by
  obtain ⟨⟨-, hsigning, -⟩, hshared⟩ := hyes
  exact ⟨if_pos rfl, hsigning, if_pos rfl, hshared⟩

/-- An accepted pairing gives its device its keys, and leaves the others theirs. -/
theorem keysOf_withPairing {keyPair : X25519KeyPair} {server : Server} {r : PairRequest}
    {now : EpochSecs} (hkeyPair : server.x25519KeyPair = keyPair)
    (hyes : server.Admits lib r now) (id : QString) {latest : Option PairRequest}
    (h : KeysOf lib keyPair server id latest) :
    KeysOf lib keyPair (server.withPairing r (server.sharedWith lib r)) id
      ((if r.id = id then some r else none).or latest) := by
  by_cases hid : r.id = id
  · subst hkeyPair hid
    rw [if_pos rfl, Option.some_or]
    exact keysOf_paired hyes
  · have hother : id ≠ r.id := fun h => hid h.symm
    rw [if_neg hid, Option.none_or]
    cases latest with
    | none => exact ⟨(if_neg hother).trans h.1, (if_neg hother).trans h.2⟩
    | some r' =>
        obtain ⟨hpaired, hlen, hsession, hlen'⟩ := h
        exact ⟨(if_neg hother).trans hpaired, hlen, (if_neg hother).trans hsession, hlen'⟩

variable {pcId : QByteArray} {keyPair : X25519KeyPair} {tr : List ServerEntry} {s : Server}

/-- A run moves the keys of a device on to its last pairing in it. -/
theorem keysOf_after (id : QString) {server : Server} {latest : Option PairRequest}
    (hrun : Run (serverMachine lib) server tr s) (hkeyPair : server.x25519KeyPair = keyPair)
    (hkeys : KeysOf lib keyPair server id latest) :
    s.x25519KeyPair = keyPair ∧
      KeysOf lib keyPair s id ((lastSome (pairingOf lib id) tr).or latest) := by
  refine Run.history (P := fun tr s => s.x25519KeyPair = keyPair ∧
    KeysOf lib keyPair s id ((lastSome (pairingOf lib id) tr).or latest)) hrun
    ⟨hkeyPair, hkeys⟩ ?_
  rintro tr x - hdoes ⟨hkeyPair, hkeys⟩
  obtain ⟨hsame, hstep⟩ := keys_step hdoes
  refine ⟨hsame.trans hkeyPair, ?_⟩
  rw [lastSome_snoc, Option.or_assoc]
  rcases hstep with ⟨r, now, haccepted, hyes, hpost⟩ | ⟨hnone, hpaired, hsession⟩
  · -- the pairing of this step comes before any earlier one
    rw [hpost, pairingOf, haccepted]
    exact keysOf_withPairing hkeyPair hyes id hkeys
  · have hpairing : pairingOf lib id x = none := by
      rw [pairingOf, hnone]
      rfl
    rw [hpairing, Option.none_or]
    cases hlast : (lastSome (pairingOf lib id) tr).or latest with
    | none =>
        rw [hlast] at hkeys
        exact ⟨hpaired ▸ hkeys.1, hsession ▸ hkeys.2⟩
    | some r =>
        rw [hlast] at hkeys
        exact ⟨hpaired ▸ hkeys.1, hkeys.2.1, hsession ▸ hkeys.2.2.1, hkeys.2.2.2⟩

/-- **The invariant**: the keys of a device are those of its last accepted pairing. -/
theorem keysOf_run (hrun : Run (serverMachine lib) (Server.initial pcId keyPair) tr s) :
    s.x25519KeyPair = keyPair ∧
      ∀ id, KeysOf lib keyPair s id (lastSome (pairingOf lib id) tr) := by
  have hid (id : QString) : s.x25519KeyPair = keyPair ∧
      KeysOf lib keyPair s id (lastSome (pairingOf lib id) tr) := by
    have hkeys := keysOf_after id hrun rfl (show KeysOf lib keyPair _ id none from ⟨rfl, rfl⟩)
    rwa [Option.or_none] at hkeys
  exact ⟨(hid []).1, fun id => (hid id).2⟩

/-- A device with a session key was paired, and has the keys of that pairing. -/
theorem keysOf_session (hrun : Run (serverMachine lib) (Server.initial pcId keyPair) tr s)
    {id : QString} {key : QByteArray} (hkey : s.sessionKeys id = some key) :
    ∃ r, lastSome (pairingOf lib id) tr = some r ∧ key = sessionKeyOf lib keyPair r ∧
      key.length = 32 ∧ s.pairedKeys id = some r.signingKey ∧ r.signingKey.length = 32 := by
  have hkeys := (keysOf_run hrun).2 id
  cases hlast : lastSome (pairingOf lib id) tr with
  | none =>
      rw [hlast] at hkeys
      rw [hkeys.2] at hkey
      cases hkey
  | some r =>
      rw [hlast] at hkeys
      obtain ⟨hpaired, hsigning, hsession, hlen⟩ := hkeys
      obtain rfl := Option.some.inj (hsession.symm.trans hkey)
      exact ⟨r, rfl, rfl, hlen, hpaired, hsigning⟩

/-! ## What opens, and how it is answered -/

/-- What `decryptRequest` returned came in an envelope under the session key. -/
theorem opensUnder_of_opened {id : QString} {decrypted : QJsonObject}
    (h : opened lib x = some (id, decrypted)) :
    ∃ key, x.pre.sessionKeys id = some key ∧ OpensUnder lib x id key decrypted := by
  obtain ⟨socket, line, env, request, hact, hjson, -, hopen⟩ := opened_eq_some.mp h
  obtain ⟨key, plaintext, hkey, hplain, hne, hinner, htype, hid⟩ := decryptRequest_ok lib hopen
  subst hplain
  obtain ⟨hlen, htag, hgcm⟩ := decryptAes256Gcm_ne_nil hne
  exact ⟨key, hkey, socket, line, env, request, _, ⟨key, hlen⟩, ⟨_, htag⟩, hact, hjson, htype,
    hid.symm, rfl, rfl, hgcm, hinner⟩

/-- What `encryptedResponse` returns is an envelope, when OpenSSL never fails to
seal. -/
theorem sealedUnder_sealedReply
    (hseal : ∀ key iv aad p, (lib.ssl.gcmEncrypt key iv aad p).isSome) {server : Server}
    {id : QString} {key : QByteArray} (hkey : server.sessionKeys id = some key)
    (hlen : key.length = 32) (payload : QJsonObject) (random : ℕ → UInt64)
    (signals : List Signal) :
    SealedUnder lib (server.sealedReply lib id payload random signals) id key := by
  have hnonce : fillRandom random 12 ≠ [] := by
    intro hnil
    have hsize := fillRandom_length random 12
    simp [hnil] at hsize
  obtain ⟨tag, ciphertext, hgcm, hbox⟩ :=
    encryptAes256Gcm_tag (lib.qt.toJson payload) (toUtf8 id) hlen hnonce hseal
  refine ⟨payload, fillRandom random 12, ciphertext, ⟨key, hlen⟩, tag, rfl, hgcm, ?_⟩
  have htag : ¬ tag.1.length ≠ 16 := not_not.mpr tag.2
  simp only [Server.sealedReply, Server.encryptedResponse, hkey, Option.getD_some, hbox]
  rw [if_neg htag]

/-- Whatever opens is answered by `encryptedResponse`. -/
theorem replied_of_opened (hdoes : (serverMachine lib).Does x) {id : QString}
    {decrypted : QJsonObject} (h : opened lib x = some (id, decrypted)) :
    ∃ payload random signals,
      replied x = some (x.pre.sealedReply lib id payload random signals) := by
  obtain ⟨socket, line, env, request, hact, hjson, hpair, hopen⟩ := opened_eq_some.mp h
  obtain ⟨reply, hout, hcase⟩ := does_line hdoes hact
  simp only [replied, hout]
  rcases hcase.of_opened lib hjson hpair hopen with ⟨-, -, rfl⟩ | ⟨-, -, signals, rfl⟩ |
    ⟨-, -, -, rfl⟩
  · exact ⟨_, _, _, rfl⟩
  · exact ⟨_, _, _, rfl⟩
  · exact ⟨_, _, _, rfl⟩

/-! ## The law -/

/-- A device has both keys or none. -/
theorem KeysOf.same {server : Server} {id : QString} {latest : Option PairRequest}
    (h : KeysOf lib keyPair server id latest) :
    (server.pairedKeys id).isSome = (server.sessionKeys id).isSome := by
  cases latest with
  | none => rw [h.1, h.2]
  | some r =>
      rw [h.1, h.2.2.1]
      rfl

/-- Its keys are of 32 bytes. -/
theorem KeysOf.length {server : Server} {id : QString} {latest : Option PairRequest}
    (h : KeysOf lib keyPair server id latest) {key : QByteArray}
    (hkey : server.pairedKeys id = some key ∨ server.sessionKeys id = some key) :
    key.length = 32 := by
  cases latest with
  | none =>
      rcases hkey with hkey | hkey
      · exact absurd (h.1.symm.trans hkey) (by simp)
      · exact absurd (h.2.symm.trans hkey) (by simp)
  | some r =>
      obtain ⟨hpaired, hsigning, hsession, hlen⟩ := h
      rcases hkey with hkey | hkey
      · obtain rfl := Option.some.inj (hpaired.symm.trans hkey)
        exact hsigning
      · obtain rfl := Option.some.inj (hsession.symm.trans hkey)
        exact hlen

/-- A line that is no accepted pairing leaves the keys and the code alone. -/
theorem line_unchanged (hdoes : (serverMachine lib).Does x) {socket : Socket} {line : QByteArray}
    {env : Env} (hact : x.act = .line socket line env) (hnone : acceptedPair lib x = none) :
    x.post.pairedKeys = x.pre.pairedKeys ∧ x.post.sessionKeys = x.pre.sessionKeys ∧
      x.post.pairingCode = x.pre.pairingCode ∧
      x.post.pairingCreatedAt = x.pre.pairingCreatedAt := by
  have hissued : issuedPairing x = none := by simp only [issuedPairing, hact]
  rcases (keys_step hdoes).2 with ⟨r, now, haccepted, -⟩ | ⟨-, hpaired, hsession⟩
  · rw [hnone] at haccepted
    cases haccepted
  · rcases code_step hdoes with ⟨_, _, hi, -⟩ | ⟨_, _, -, ha, -⟩ | ⟨-, -, hcode, hat⟩
    · rw [hissued] at hi
      cases hi
    · rw [hnone] at ha
      cases ha
    · exact ⟨hpaired, hsession, hcode, hat⟩

/-- **The keys of a server keep their law** in every run. -/
theorem key_law (hseal : ∀ key iv aad p, (lib.ssl.gcmEncrypt key iv aad p).isSome)
    (hrun : Run (serverMachine lib) (Server.initial pcId keyPair) tr s) :
    KeyLaw lib keyPair tr s := by
  have hkeys := (keysOf_run hrun).2
  refine ⟨fun id => (hkeys id).same, fun id key hkey => (hkeys id).length hkey, hkeys, ?_, ?_, ?_⟩
  · intro x hx socket line env hact hnone
    exact line_unchanged (hrun.does_of_mem hx) hact hnone
  · rintro pre x post reply rfl hreply hauthorizes
    obtain ⟨hpre, hdoes⟩ := hrun.split
    obtain ⟨id, v, hauthorized, hpayload⟩ := authorized_of_authorizes hdoes hreply hauthorizes
    obtain ⟨env, hasked, hverdict⟩ := (answeredVerify_iff hdoes).mp hauthorized
    obtain ⟨decrypted, -, hopened, htype, rfl, -⟩ := askedVerify_eq_some hdoes hasked
    obtain ⟨key, hkey, hopens⟩ := opensUnder_of_opened hopened
    obtain ⟨r, hlast, rfl, -, hpaired, -⟩ := keysOf_session hpre hkey
    obtain ⟨key', hkey', -, hsigned⟩ := verdict_eq_true.mp hverdict
    obtain rfl := Option.some.inj (hpaired.symm.trans hkey')
    obtain ⟨hlen, hsig, hverified⟩ := verifyEd25519_eq_true.mp hsigned
    exact ⟨id, r, decrypted, hpayload, hlast, hopens, htype, ⟨_, hlen⟩,
      ⟨_, hsig⟩, rfl, rfl, hverified⟩
  · rintro pre x post id decrypted rfl hopened
    obtain ⟨hpre, hdoes⟩ := hrun.split
    obtain ⟨key, hkey, -⟩ := opensUnder_of_opened hopened
    obtain ⟨r, hlast, rfl, hlen, -⟩ := keysOf_session hpre hkey
    obtain ⟨payload, random, signals, hreply⟩ := replied_of_opened hdoes hopened
    exact ⟨r, _, hlast, hreply, sealedUnder_sealedReply hseal hkey hlen payload random signals⟩

/-- The keys after a phone paired, asked for a challenge and was authorized. -/
theorem key_law_sample :
    ∃ s, Run (serverMachine phoneRecording.libraries)
        (Server.initial samplePcId sampleKeyPair) challengeTrace s ∧
      KeyLaw phoneRecording.libraries sampleKeyPair challengeTrace s := by
  refine ⟨_, Run.trace _ _ _, key_law ?_ (Run.trace _ _ _)⟩
  intro key iv aad plaintext
  rfl

end OpenBioUnlock.Desktop

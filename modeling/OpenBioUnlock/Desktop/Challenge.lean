import OpenBioUnlock.Desktop.Pairing

/-!
# Challenges of the desktop server

A `challenge` request is answered with 32 random bytes and the time, a `verify`
request presents a signature over a nonce and a timestamp.  `ChallengeBound` is
the law one expects between the two: what is authorized was issued, to the same
device, earlier in the run.

The server does not keep the challenges it issues, and the `verify` branch does
not ask for one.  What it authorizes is whatever the device chose to sign.  The law
then rests with the devices: it holds of every run in which the paired devices sign
nothing but challenges issued to them (`SignsIssued`, `challenge_bound`).  The
signed message is the nonce followed by the timestamp, without a length; that it
determines both is `message_eq_challenge`.

A device that signs anything else breaks the law by the first such request that is
fresh and of a new token; this is `chosen_unbound` of `Desktop.Tokens`.
-/

namespace OpenBioUnlock.Desktop

open Codec Runs

/-! ## Issued challenges -/

/-- The challenge a step issues: the device, the nonce and the timestamp. -/
def issuedChallenge (x : ServerEntry) : Option (QString × QByteArray × Int64) :=
  (replied x).bind Reply.challenge

/-- The message a challenge asks to be signed. -/
def challengeMessage (nonce : QByteArray) (timestamp : Int64) : QByteArray :=
  nonce ++ timestampBytes timestamp

/-- Where the readings of one call lie, for the calls that read the clock. -/
def ServerEvent.readings : ServerEvent → Option (EpochSecs × EpochSecs)
  | .start _ _ _ env | .pairingPayload _ _ env | .line _ _ env =>
      some (env.clock 0, env.clock 1)
  | .stop => none

/-- The clock of a run does not run backwards. -/
def Nondecreasing (tr : List ServerEntry) : Prop :=
  (tr.filterMap fun x => x.act.readings).Pairwise fun a b => a.2 ≤ b.1

instance (tr : List ServerEntry) : Decidable (Nondecreasing tr) := by
  unfold Nondecreasing
  infer_instance

variable (lib : Libraries)

/-- **What is authorized was issued** earlier, to the same device. -/
def ChallengeBound (tr : List ServerEntry) : Prop :=
  ∀ pre x post id v, tr = pre ++ x :: post → authorizedVerify lib x = some (id, v) →
    ∃ y ∈ pre, issuedChallenge y = some (id, v.nonce, v.timestamp)

/-- **The device signs issued challenges only**: a verify request whose signature is
valid under the device's key signs the message of a challenge issued to the device. -/
def SignsIssued (pre : List ServerEntry) (x : ServerEntry) : Prop :=
  ∀ id v env key, askedVerify lib x = some (id, v, env) → x.pre.pairedKeys id = some key →
    (verifyEd25519 lib.ssl key v.message v.signature).1 = true →
      ∃ y ∈ pre, ∃ nonce timestamp, issuedChallenge y = some (id, nonce, timestamp) ∧
        v.message = challengeMessage nonce timestamp

variable {lib} {x : ServerEntry}

/-- **The signed message determines the challenge**: the timestamp is its last eight
bytes. -/
theorem message_eq_challenge {v : VerifyRequest} {nonce : QByteArray} {timestamp : Int64}
    (h : v.message = challengeMessage nonce timestamp) :
    v.nonce = nonce ∧ v.timestamp = timestamp := by
  obtain ⟨hnonce, htime⟩ := List.append_inj' h (by simp)
  exact ⟨hnonce, timestampBytes_injective htime⟩

/-! ## The law -/

/-- What is authorized is signed by its device. -/
theorem signed_of_authorized (hdoes : (serverMachine lib).Does x) {id : QString}
    {v : VerifyRequest} (h : authorizedVerify lib x = some (id, v)) :
    ∃ env key, askedVerify lib x = some (id, v, env) ∧ x.pre.pairedKeys id = some key ∧
      (verifyEd25519 lib.ssl key v.message v.signature).1 = true := by
  obtain ⟨env, hasked, hverdict⟩ := (answeredVerify_iff hdoes).mp h
  obtain ⟨key, hkey, -, hsigned⟩ := verdict_eq_true.mp hverdict
  exact ⟨env, key, hasked, hkey, hsigned⟩

/-- An authorized request of a device that signs issued challenges carries one. -/
theorem SignsIssued.issued (hdoes : (serverMachine lib).Does x) {pre : List ServerEntry}
    (hsigns : SignsIssued lib pre x) {id : QString} {v : VerifyRequest}
    (h : authorizedVerify lib x = some (id, v)) :
    ∃ y ∈ pre, issuedChallenge y = some (id, v.nonce, v.timestamp) := by
  obtain ⟨env, key, hasked, hkey, hsigned⟩ := signed_of_authorized hdoes h
  obtain ⟨y, hy, nonce, timestamp, hissued, hmessage⟩ := hsigns id v env key hasked hkey hsigned
  obtain ⟨hnonce, htime⟩ := message_eq_challenge hmessage
  exact ⟨y, hy, by rw [hissued, hnonce, htime]⟩

/-- **The server leaves the law to its devices**: it holds of every run in which they sign
issued challenges only. -/
theorem challenge_bound {pcId : QByteArray} {keyPair : X25519KeyPair}
    {tr : List ServerEntry} {s : Server}
    (hrun : Run (serverMachine lib) (Server.initial pcId keyPair) tr s)
    (hsigns : Along (SignsIssued lib) tr) : ChallengeBound lib tr := by
  rintro pre x post id v rfl hauthorized
  exact (hsigns pre x post rfl).issued hrun.split.2 hauthorized

/-! ## A nonce of the device's own choosing -/

/-- A document sealed under the phone's session key. -/
def phoneSeal (nonce : ℕ) (document : QJsonObject) (size : ℕ) (ciphertext : List ℕ)
    (tag : ℕ) : Seal where
  key := phoneSecret
  deviceId := qStringLiteral "phone"
  nonce := bigEndian 12 nonce
  document := document
  box := ⟨bytesOf size ciphertext, bigEndian 16 tag⟩

def verifyDocument (nonce : QByteArray) (timestamp : Int64) (signature : QByteArray) :
    QJsonObject :=
  [field "type" (text "verify"), field "nonce" (hexText nonce),
    field "timestamp" (.integer timestamp), field "signature" (hexText signature)]

/-- The phone's signature over the byte `aa` and the time 1000. -/
def chosenSignature : QByteArray :=
  bytesOf 64
    [0xafa492316c4e6f8a4f457116f9c4300461330e7b5b9dfd1db699b5e0bf559ffb,
     0x626faa14a3e54b6bea3c84cbea772ba0e5e38d03dc020e699be0ea9f50e5e504]

/-- A verify request for that nonce. -/
def chosenVerify : Seal :=
  phoneSeal 0x0102030405060708090a0b0c (verifyDocument [0xaa] 1000 chosenSignature) 190
    [0x70057db41602aa6b29edb384f55a1aeb8fdc27507d15e91b6757f821a2e005ca,
     0xd229ffed29f74a28e491308b3782815c2491d836d28194fb0f614ba344bb661d,
     0x1f1feb0c1ff690e059ed54f06eb866b8b32f3db8f788a9553f00dfe20c293743,
     0x9a3383aa91377b7976a94838df7c26f02835462544fb177dbd0229479fca3f66,
     0x141a85ed27f6a95075eb64a07c96ba52897e50c2682a3ea740ba19432ba25f94,
     0xb2984e6a6d6d39fbfa5582e4b1c4ea34674935c547fb9838d8c8c6af51ed0000]
    0xfa6214cfbf68e64223b4719f00b1d849

/-- `authorized: true`, under a nonce of zeros. -/
def authorizedSeal : Seal :=
  phoneSeal 0x000000000000000000000000 (authorizedPayload true) 39
    [0xec7f11587e23d94a0d9accc7405fdbe9deb52cdcc0b5b600f011f9fa2583565f,
     0x539c21cf6db4b800000000000000000000000000000000000000000000000000]
    0x409710bff2d2296f227a1b3f44bd3d49

/-- A challenge request. -/
def challengeRequest : Seal :=
  phoneSeal 0x15161718191a1b1c1d1e1f20 [field "type" (text "challenge")] 20
    [0xa17bf7f95a0b9816d198c1c591ade42ba7455838000000000000000000000000]
    0x207994adf65ca430fccef4e960d989d8

/-- The challenge it is answered with when every drawn byte is 1. -/
def challengeSeal : Seal :=
  phoneSeal 0x010101010101010101010101
    (challengePayload (List.replicate 32 1) sampleTime) 194
    [0xfb8d4ffdfa2cf0eab6335fdd9da670fa5c1ce46546e3ff48f6ae154fb91854c5,
     0xcbe2742fc62cc12af8cb5f377f68510159664f9c3f49f5cc855c4fdc323c8da8,
     0x5c0ffafeeec11f022ae3b1af3a9d9c245f07e7ac501e78a4dfc7226d1de74bb9,
     0xa0237a502b7f50cc6c729fa9ac9c7346e5f4e8f4797fbd06e3ca0c9b49bdb830,
     0xe663c449197d216435c938adf79512ad96c41f620f4aa1727da15d5aa0f30cb9,
     0xe88921cad5c0483d746ee48601fd23968c66a9b19d0877d4f428b1c9afb8796b,
     0xf7ce000000000000000000000000000000000000000000000000000000000000]
    0x4b47a53c901231ac0fbc3084fcacbd23

/-- The phone's signature over that challenge. -/
def challengeSignature : QByteArray :=
  bytesOf 64
    [0x9557530c8be0e751ac79fbb8efb9cdf12ca9bccf1b46ab86a86966465967a594,
     0x4e140c6d9b02bbbdfdb29a60a6dfd0d5a3c1916bc61f2763a70b5848b412720d]

/-- The verify request for it. -/
def challengeVerify : Seal :=
  phoneSeal 0x2122232425262728292a2b2c
    (verifyDocument (List.replicate 32 1) 1000 challengeSignature) 252
    [0x6780e674aacef0d926d3d2eb5551b35228119819557f54a47e55e0c148651228,
     0xff9aeb8497518d77395d8327002525327b59cf1cca7aea11073497c6e44d8de5,
     0x2715d9cc9f5d7bb70ade0cd2857aecc5c1149184831ccaf9d1ee838267f15188,
     0xb8b4e88cb35d7bae4a3f490e25c73557eb82c6720b7cc9e13333e473916b27b4,
     0xba24d8847eff3846e31ebe69b8ed1fd075c205663af8ee5ed94bc32543ee1602,
     0x252b3ed6864bc413c96da3427e02e92d83e94572c35c6c0ac047f3aa0eb5ad26,
     0x4cc7954114c25c574469f9e158f676bee414f3eef2fc57e8760c7b34da563cc5,
     0xf0282b56b69b6ff2e14ce148d586c782fca6ffde9613b78b262af33900000000]
    0x3fda3fd2cdc1bc71f9cb253f8dc14a8c

/-- The recording of a phone that signs a nonce of its own, and then a challenge. -/
def phoneRecording : Recording :=
  recording [chosenVerify, challengeRequest, challengeVerify, challengeSeal, authorizedSeal]
    [(phoneSigningKey, 0xaa :: timestampBytes 1000, chosenSignature),
      (phoneSigningKey, List.replicate 32 1 ++ timestampBytes 1000, challengeSignature)]

/-- The phone pairs and is authorized; no challenge was issued in the run. -/
theorem challenge_bound_fails :
    ¬ ∀ (lib : Libraries) (pcId : QByteArray) (keyPair : X25519KeyPair)
        (tr : List ServerEntry) (s : Server),
      Run (serverMachine lib) (Server.initial pcId keyPair) tr s → Nondecreasing tr →
        ChallengeBound lib tr := by
  intro h
  let tr := sampleTrace phoneRecording [startEvent, lineEvent 1 phonePair sampleTime 0,
    lineEvent 1 chosenVerify.envelope sampleTime 0]
  -- one evaluation of the run for all that is read off it
  have hfacts : Nondecreasing tr ∧ (∀ y ∈ tr, issuedChallenge y = none) ∧
      ∃ x ∈ tr, (authorizedVerify phoneRecording.libraries x).isSome := by
    decide +kernel
  obtain ⟨htime, hnone, x, hx, hauthorized⟩ := hfacts
  have hlaw := h phoneRecording.libraries samplePcId sampleKeyPair tr _ (Run.trace _ _ _) htime
  obtain ⟨p, hp⟩ := Option.isSome_iff_exists.mp hauthorized
  obtain ⟨pre, post, htr⟩ := List.append_of_mem hx
  obtain ⟨y, hy, hissued⟩ := hlaw pre x post p.1 p.2 htr hp
  have hnoneY := hnone y (by rw [htr]; exact List.mem_append_left _ hy)
  rw [hnoneY] at hissued
  cases hissued

/-- The run of a phone that asks for a challenge and signs it. -/
def challengeTrace : List ServerEntry :=
  sampleTrace phoneRecording [startEvent, lineEvent 1 phonePair sampleTime 0,
    lineEvent 1 challengeRequest.envelope sampleTime 0x0101010101010101,
    lineEvent 1 challengeVerify.envelope sampleTime 0]

/-- Its signature is authorized, and is over an issued challenge. -/
theorem challenge_bound_sample :
    (∃ x ∈ challengeTrace, (authorizedVerify phoneRecording.libraries x).isSome) ∧
      ChallengeBound phoneRecording.libraries challengeTrace := by
  have hfacts : (∃ x ∈ challengeTrace, (authorizedVerify phoneRecording.libraries x).isSome) ∧
      ∀ n : Fin challengeTrace.length,
        ∀ p ∈ (askedVerify phoneRecording.libraries challengeTrace[n]).map fun p => (p.1, p.2.1),
          ∃ y ∈ challengeTrace.take n,
            issuedChallenge y = some (p.1, p.2.nonce, p.2.timestamp) := by
    decide +kernel
  obtain ⟨hauthorized, hissued⟩ := hfacts
  refine ⟨hauthorized, challenge_bound (Run.trace _ _ _) (Along.of_take ?_)⟩
  intro n hn id v env key hasked _ _
  obtain ⟨y, hy, h⟩ := hissued ⟨n, hn⟩ (id, v) (by simp [hasked])
  exact ⟨y, hy, v.nonce, v.timestamp, h, rfl⟩

end OpenBioUnlock.Desktop

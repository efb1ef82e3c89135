import OpenBioUnlock.Desktop.KeyState

/-!
# The nonce as OpenSSL takes it

`encryptAes256Gcm` and `decryptAes256Gcm` are sequences of EVP calls on a context, cut
off at the first that fails.  One of them hands over two bare pointers, to the key and
to the nonce, and OpenSSL reads as many bytes there as the context is set up for: 32 and
12.  The key is measured before; of the nonce it is only asked whether it is empty.

`nonce_exact_iff` says for which arguments, and for which request envelopes, the nonce
is used as it is.
-/

namespace OpenBioUnlock.Desktop

open Codec Runs

/-! ## The calls -/

/-- A call of the EVP interface, with the buffers whose addresses it is given. -/
inductive EvpCall where
  /-- `EVP_CIPHER_CTX_new` -/
  | ctxNew
  /-- `EVP_*Init_ex` with `EVP_aes_256_gcm()`, without key and nonce -/
  | initCipher
  /-- `EVP_*Init_ex` with the key and the nonce -/
  | initKeyNonce (key nonce : QByteArray)
  /-- `EVP_*Update` without an output buffer -/
  | updateAad (associatedData : QByteArray)
  | update (input : QByteArray)
  /-- `EVP_CTRL_GCM_SET_TAG`, and `EVP_CTRL_GCM_GET_TAG` -/
  | setTag (tag : QByteArray)
  | getTag
  | final
  deriving DecidableEq

/-- The length of the nonce of a context on which no other was set. -/
def ivLength : ℕ := 12

/-- The calls of either function, up to those it ends with. -/
def evpCalls (key nonce associatedData input : QByteArray) (closing : List EvpCall) :
    List EvpCall :=
  [.ctxNew, .initCipher, .initKeyNonce key nonce] ++
    (if associatedData = [] then [] else [.updateAad associatedData]) ++
    (if input = [] then [] else [.update input]) ++ closing

/-- The calls that `encryptAes256Gcm` makes if all succeed; none if it refuses its
arguments. -/
def encryptCalls (key nonce plaintext associatedData : QByteArray) : Option (List EvpCall) :=
  if key.length ≠ 32 || nonce = [] then none
  else some (evpCalls key nonce associatedData plaintext [.final, .getTag])

/-- The calls that `decryptAes256Gcm` makes. -/
def decryptCalls (key nonce : QByteArray) (box : GcmCiphertext) (associatedData : QByteArray) :
    Option (List EvpCall) :=
  if key.length ≠ 32 || nonce = [] || box.tag.length ≠ 16 then none
  else some (evpCalls key nonce associatedData box.ciphertext [.setTag box.tag, .final])

/-- The calls that are made when `ok` says which succeed. -/
def made (ok : EvpCall → Bool) : List EvpCall → List EvpCall
  | [] => []
  | call :: rest => call :: if ok call then made ok rest else []

/-- The calls that `decryptRequest` comes to; none if it rejects the envelope first. -/
def Server.decryptRequestCalls (server : Server) (envelope : QJsonObject) :
    Option (List EvpCall) :=
  if typeOf envelope ≠ qStringLiteral "secure" then none
  else
    (server.sessionKeys (value envelope "device_id").toString).bind fun key =>
      decryptCalls key (fromHexText (value envelope "nonce")) (envelopeCiphertext envelope)
        (toUtf8 (value envelope "device_id").toString)

section Calls

variable {key nonce plaintext associatedData : QByteArray} {box : GcmCiphertext}
variable {server : Server} {envelope : QJsonObject} {calls : List EvpCall}

theorem made_subset {ok : EvpCall → Bool} : made ok calls ⊆ calls := by
  induction calls with
  | nil => simp [made]
  | cons call rest ih =>
      rw [made]
      apply List.cons_subset_cons call
      split
      · exact ih
      · simp

/-- Calls that succeed are all made. -/
theorem made_all : made (fun _ => true) calls = calls := by
  induction calls with
  | nil => rfl
  | cons call rest ih => rw [made, if_pos rfl, ih]

/-! ### The calls and the results -/

/-- Arguments without calls are refused, before OpenSSL is asked. -/
theorem encryptAes256Gcm_refused (ssl : OpenSsl)
    (h : encryptCalls key nonce plaintext associatedData = none) :
    encryptAes256Gcm ssl key nonce plaintext associatedData =
      (⟨[], []⟩, qStringLiteral "AES-256-GCM requires a 32-byte key and nonce") := by
  rw [encryptAes256Gcm, dif_neg]
  rintro ⟨hkey, hnonce⟩
  simp [encryptCalls, hkey, hnonce] at h

theorem decryptAes256Gcm_refused (ssl : OpenSsl)
    (h : decryptCalls key nonce box associatedData = none) :
    decryptAes256Gcm ssl key nonce box associatedData =
      ([], qStringLiteral "invalid AES-256-GCM input") := by
  rw [decryptAes256Gcm, dif_neg]
  rintro ⟨hkey, hnonce, htag⟩
  simp [decryptCalls, hkey, hnonce, htag] at h

/-- An envelope without calls is rejected. -/
theorem decryptRequest_rejected (lib : Libraries)
    (h : server.decryptRequestCalls envelope = none) :
    ∃ error, server.decryptRequest lib envelope = .error error := by
  simp only [Server.decryptRequest]
  by_cases htype : typeOf envelope ≠ qStringLiteral "secure"
  · rw [if_pos htype]
    exact ⟨_, rfl⟩
  · rw [Server.decryptRequestCalls, if_neg htype] at h
    rw [if_neg htype]
    cases hkey : server.sessionKeys (value envelope "device_id").toString with
    | none => exact ⟨_, rfl⟩
    | some key =>
        rw [hkey, Option.bind_some] at h
        simp only [decryptAes256Gcm_refused lib.ssl h, if_true]
        exact ⟨_, rfl⟩

/-- The nonce is what OpenSSL reads exactly if it is of the length of the context. -/
theorem iv_eq_iff (ssl : OpenSsl) : (ssl.iv nonce).1 = nonce ↔ nonce.length = ivLength := by
  constructor
  · intro h
    rw [← h]
    exact (ssl.iv nonce).2
  · exact ssl.iv_of_length

/-! ## The law -/

/-- **The nonce is used exactly**: whichever calls succeed, OpenSSL is handed a nonce of
the length it reads, and one of another length is refused before. -/
structure NonceExact (nonce : QByteArray) (calls : Option (List EvpCall)) : Prop where
  handed : ∀ cs ∈ calls, ∀ ok key iv, .initKeyNonce key iv ∈ made ok cs → iv.length = ivLength
  refused : nonce.length ≠ ivLength → calls = none

/-- No calls, or the nonce handed over is this one. -/
theorem nonceExact_iff {calls : Option (List EvpCall)}
    (hcalls : ∀ cs ∈ calls, ∀ key iv, .initKeyNonce key iv ∈ cs → iv = nonce) :
    NonceExact nonce calls ↔ calls = none ∨ nonce.length = ivLength := by
  constructor
  · intro h
    by_cases hlength : nonce.length = ivLength
    · exact Or.inr hlength
    · exact Or.inl (h.refused hlength)
  · rintro (hnone | hlength)
    · subst hnone
      exact ⟨by simp, fun _ => rfl⟩
    · refine ⟨fun cs hcs ok key iv hmem => ?_, fun hno => absurd hlength hno⟩
      rw [hcalls cs hcs key iv (made_subset hmem)]
      exact hlength

theorem mem_evpCalls {key nonce associatedData input key' iv : QByteArray}
    {closing : List EvpCall} (hclosing : .initKeyNonce key' iv ∉ closing)
    (hmem : .initKeyNonce key' iv ∈ evpCalls key nonce associatedData input closing) :
    iv = nonce := by
  unfold evpCalls at hmem
  split_ifs at hmem <;> simp [hclosing] at hmem <;> exact hmem.2

theorem encryptCalls_eq_none :
    encryptCalls key nonce plaintext associatedData = none ↔ key.length ≠ 32 ∨ nonce = [] := by
  rw [encryptCalls]
  split_ifs with h
  · exact iff_of_true rfl (by simpa using h)
  · exact iff_of_false (by simp) (by simpa using h)

theorem decryptCalls_eq_none :
    decryptCalls key nonce box associatedData = none ↔
      key.length ≠ 32 ∨ nonce = [] ∨ box.tag.length ≠ 16 := by
  rw [decryptCalls]
  split_ifs with h
  · exact iff_of_true rfl (by simpa [or_assoc] using h)
  · exact iff_of_false (by simp) (by simpa [or_assoc] using h)

/-- The nonce of the calls is the argument. -/
theorem mem_encryptCalls (h : encryptCalls key nonce plaintext associatedData = some calls)
    {key' iv : QByteArray} (hmem : .initKeyNonce key' iv ∈ calls) : iv = nonce := by
  rw [encryptCalls] at h
  split_ifs at h
  cases h
  exact mem_evpCalls (by simp) hmem

theorem mem_decryptCalls (h : decryptCalls key nonce box associatedData = some calls)
    {key' iv : QByteArray} (hmem : .initKeyNonce key' iv ∈ calls) : iv = nonce := by
  rw [decryptCalls] at h
  split_ifs at h
  cases h
  exact mem_evpCalls (by simp) hmem

theorem encrypt_exact_iff :
    NonceExact nonce (encryptCalls key nonce plaintext associatedData) ↔
      key.length ≠ 32 ∨ nonce = [] ∨ nonce.length = ivLength := by
  rw [nonceExact_iff fun cs hcs key iv hmem => mem_encryptCalls hcs hmem, encryptCalls_eq_none,
    or_assoc]

theorem decrypt_exact_iff :
    NonceExact nonce (decryptCalls key nonce box associatedData) ↔
      key.length ≠ 32 ∨ nonce = [] ∨ box.tag.length ≠ 16 ∨ nonce.length = ivLength := by
  rw [nonceExact_iff fun cs hcs key iv hmem => mem_decryptCalls hcs hmem, decryptCalls_eq_none,
    or_assoc, or_assoc]

/-- The nonce that an envelope asks to be opened with. -/
def envelopeNonce (envelope : QJsonObject) : QByteArray :=
  fromHexText (value envelope "nonce")

/-- The envelope is rejected before `decryptAes256Gcm`, for want of a session. -/
def Server.Unopened (server : Server) (envelope : QJsonObject) : Prop :=
  typeOf envelope ≠ qStringLiteral "secure" ∨
    server.sessionKeys (value envelope "device_id").toString = none

theorem decryptRequestCalls_eq (h : ¬ server.Unopened envelope) :
    ∃ key, server.sessionKeys (value envelope "device_id").toString = some key ∧
      server.decryptRequestCalls envelope = decryptCalls key (envelopeNonce envelope)
        (envelopeCiphertext envelope) (toUtf8 (value envelope "device_id").toString) := by
  simp only [Server.Unopened, not_or, not_not] at h
  obtain ⟨key, hkey⟩ := Option.ne_none_iff_exists'.mp h.2
  refine ⟨key, hkey, ?_⟩
  rw [Server.decryptRequestCalls, if_neg (not_not.mpr h.1), hkey, Option.bind_some]
  rfl

theorem decryptRequest_exact_iff
    (hkeys : ∀ id key, server.sessionKeys id = some key → key.length = 32) :
    NonceExact (envelopeNonce envelope) (server.decryptRequestCalls envelope) ↔
      server.Unopened envelope ∨ envelopeNonce envelope = [] ∨
        (envelopeCiphertext envelope).tag.length ≠ 16 ∨
          (envelopeNonce envelope).length = ivLength := by
  by_cases hopened : server.Unopened envelope
  · have hnone : server.decryptRequestCalls envelope = none := by
      rcases hopened with htype | hkey
      · rw [Server.decryptRequestCalls, if_pos htype]
      · rw [Server.decryptRequestCalls, hkey, Option.bind_none, ite_self]
    rw [hnone]
    exact iff_of_true ⟨by simp, fun _ => rfl⟩ (Or.inl hopened)
  · obtain ⟨key, hkey, hcalls⟩ := decryptRequestCalls_eq hopened
    rw [hcalls, decrypt_exact_iff]
    simp [hopened, hkeys _ key hkey]

end Calls

/-- **The nonce is used exactly** by a call of either function when it is of 12 bytes, or
there is none, or the call is refused for another reason; and by a server that opens an
envelope likewise. -/
theorem nonce_exact_iff (lib : Libraries) (pcId : QByteArray) (keyPair : X25519KeyPair) :
    (∀ key nonce plaintext associatedData,
        NonceExact nonce (encryptCalls key nonce plaintext associatedData) ↔
          key.length ≠ 32 ∨ nonce = [] ∨ nonce.length = ivLength) ∧
      (∀ key nonce box associatedData,
        NonceExact nonce (decryptCalls key nonce box associatedData) ↔
          key.length ≠ 32 ∨ nonce = [] ∨ box.tag.length ≠ 16 ∨ nonce.length = ivLength) ∧
      ∀ (tr : List ServerEntry) (server : Server) (envelope : QJsonObject),
        Run (serverMachine lib) (Server.initial pcId keyPair) tr server →
          (NonceExact (envelopeNonce envelope) (server.decryptRequestCalls envelope) ↔
            server.Unopened envelope ∨ envelopeNonce envelope = [] ∨
              (envelopeCiphertext envelope).tag.length ≠ 16 ∨
                (envelopeNonce envelope).length = ivLength) := by
  refine ⟨fun _ _ _ _ => encrypt_exact_iff, fun _ _ _ _ => decrypt_exact_iff, ?_⟩
  intro tr server envelope hrun
  refine decryptRequest_exact_iff fun id key hkey => ?_
  obtain ⟨r, -, -, hlength, -⟩ := keysOf_session hrun hkey
  exact hlength

/-- The server's own nonces are of twelve bytes. -/
theorem encryptedResponse_exact (key plaintext associatedData : QByteArray)
    (random : ℕ → UInt64) :
    NonceExact (fillRandom random 12)
      (encryptCalls key (fillRandom random 12) plaintext associatedData) :=
  encrypt_exact_iff.mpr (Or.inr (Or.inr (fillRandom_length random 12)))

/-- An envelope of the paired phone's name, with a nonce of one byte. -/
def shortNonceEnvelope : QJsonObject :=
  [field "type" (text "secure"), field "device_id" (text "phone"),
    field "nonce" (hexText [0xaa]), field "ciphertext" (hexText [1, 2, 3]),
    field "tag" (hexText (List.replicate 16 0))]

def pairingEvents : List ServerEvent := [startEvent, lineEvent 1 phonePair sampleTime 0]

/-- The server once the phone is paired. -/
def pairedServer : Server :=
  (serverMachine (recording [] []).libraries).final (Server.initial samplePcId sampleKeyPair)
    pairingEvents

theorem run_paired :
    Run (serverMachine (recording [] []).libraries) (Server.initial samplePcId sampleKeyPair)
      (sampleTrace (recording [] []) pairingEvents) pairedServer := Run.trace _ _ _

/-- A nonce of one byte is handed over, where OpenSSL reads twelve. -/
theorem nonce_exact_fails :
    (∃ calls, pairedServer.decryptRequestCalls shortNonceEnvelope = some calls ∧
        .initKeyNonce phoneSecret [0xaa] ∈ calls) ∧
      ¬ ∀ (lib : Libraries) (pcId : QByteArray) (keyPair : X25519KeyPair)
          (tr : List ServerEntry) (server : Server) (envelope : QJsonObject),
        Run (serverMachine lib) (Server.initial pcId keyPair) tr server →
          NonceExact (envelopeNonce envelope) (server.decryptRequestCalls envelope) := by
  have hcalls : ∃ calls ∈ pairedServer.decryptRequestCalls shortNonceEnvelope,
      .initKeyNonce phoneSecret [0xaa] ∈ calls := by decide +kernel
  obtain ⟨calls, hsome, hmem⟩ := hcalls
  refine ⟨⟨calls, hsome, hmem⟩, fun h => ?_⟩
  have hexact := h _ _ _ _ pairedServer shortNonceEnvelope run_paired
  have hlength := hexact.handed calls hsome (fun _ => true) phoneSecret [0xaa]
  rw [made_all] at hlength
  exact absurd (hlength hmem) (by decide)

/-- With a nonce of twelve bytes the envelope is opened with that nonce. -/
theorem nonce_exact_sample :
    let envelope := [field "type" (text "secure"), field "device_id" (text "phone"),
      field "nonce" (hexText (List.replicate 12 1)), field "ciphertext" (hexText [1, 2, 3]),
      field "tag" (hexText (List.replicate 16 0))]
    (pairedServer.decryptRequestCalls envelope).isSome = true ∧
      NonceExact (envelopeNonce envelope) (pairedServer.decryptRequestCalls envelope) := by
  intro envelope
  have hlength : (pairedServer.decryptRequestCalls envelope).isSome = true ∧
      (envelopeNonce envelope).length = ivLength := by decide +kernel
  refine ⟨hlength.1, ?_⟩
  exact ((nonce_exact_iff _ _ _).2.2 _ _ envelope run_paired).mpr (Or.inr (Or.inr (Or.inr hlength.2)))

end OpenBioUnlock.Desktop

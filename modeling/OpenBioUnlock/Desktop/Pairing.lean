import OpenBioUnlock.Desktop.ServerSteps
import OpenBioUnlock.Machine.OneTime
import Mathlib.Data.List.Sort

/-!
# The pairing code of the desktop server

The pairing code is meant as a one-time code with a lifetime of five minutes:
`start` and `pairingPayload` issue it, an accepted `pair` request uses it up.
`OneTimePairing` says so for a run, in the words of the abstract register of
`Machine.OneTime`.

The server keeps the law with one exception.  An accepted pairing clears
`pairingCode_` and leaves `pairingCreatedAt_`, and the check of the next request
compares the presented code with the cleared one: a request that presents no
code passes it until the window closes.  `EmptyCodePair` is that step, and
`pairing_one_time_iff` says that a run keeps the law exactly when it takes no
such step.  The direction that matters is a refinement: without such steps the
server is a code register (`run_codeRegister`).
-/

namespace OpenBioUnlock.Desktop

open Codec Runs

variable (lib : Libraries)

/-! ## Issuing and accepting -/

/-- The code a step issues, with its time of issue. -/
def issuedPairing (x : ServerEntry) : Option (QString × EpochSecs) :=
  match x.act with
  | .start _ _ _ env =>
      if x.pre.isRunning || x.pre.x25519KeyPair.publicKey.length ≠ 32 then none
      else some (newPairingCode (env.random 0), env.clock 0)
  | .pairingPayload _ _ env =>
      if x.pre.codeExpired (env.clock 0) then
        some (newPairingCode (env.random 0), env.clock 1)
      else none
  | .stop => none
  | .line _ _ _ => none

/-- The pairing request a step accepts, with the time it was checked at. -/
def acceptedPair (x : ServerEntry) : Option (PairRequest × EpochSecs) :=
  match x.act, x.out with
  | .line _ line env, .reply _ _ reply =>
      if reply.accepted then
        (lib.qt.fromJson line).map fun request => (pairRequest request, env.clock 0)
      else none
  | _, _ => none

/-- A pairing request that presents no code while none is outstanding, and
passes every check. -/
def EmptyCodePair (x : ServerEntry) : Prop :=
  ∃ socket line env request, x.act = .line socket line env ∧
    lib.qt.fromJson line = some request ∧ IsPair request ∧
    (pairRequest request).code = [] ∧ x.pre.pairingCode = [] ∧
    x.pre.Admits lib (pairRequest request) (env.clock 0)

/-- **The pairing code is a one-time code.** -/
structure OneTimePairing (tr : List ServerEntry) : Prop where
  /-- an accepted request presents the code issued last, at most 300 seconds
  after its issue, and no request was accepted since -/
  latest : ∀ pre x post r now, tr = pre ++ x :: post → acceptedPair lib x = some (r, now) →
    ∃ issuedAt, lastSome issuedPairing pre = some (r.code, issuedAt) ∧ r.code ≠ [] ∧
      now.secs.toInt - issuedAt.secs.toInt ≤ 300 ∧
      ∀ y ∈ afterLast (fun y => (issuedPairing y).isSome) pre, acceptedPair lib y = none
  /-- between two issues at most one request is accepted -/
  once : ∀ pre mid post, tr = pre ++ mid ++ post → (∀ y ∈ mid, issuedPairing y = none) →
    (mid.filterMap (acceptedPair lib)).length ≤ 1
  /-- if the draws never repeat a code, no code is accepted twice -/
  distinct : ((tr.filterMap issuedPairing).map Prod.fst).Nodup →
    ((tr.filterMap (acceptedPair lib)).map fun p => p.1.code).Nodup

/-! ## What a step does to the code -/

variable {lib} {x : ServerEntry}

/-- An accepted pairing passed every check, and is carried out. -/
theorem acceptedPair_eq_some (hdoes : (serverMachine lib).Does x) {r : PairRequest}
    {now : EpochSecs} (h : acceptedPair lib x = some (r, now)) :
    ∃ socket line env request, x.act = .line socket line env ∧
      lib.qt.fromJson line = some request ∧ IsPair request ∧ r = pairRequest request ∧
      now = env.clock 0 ∧ x.pre.Admits lib r now ∧
      x.post = x.pre.withPairing r (x.pre.sharedWith lib r) := by
  cases hact : x.act with
  | line socket line env =>
      obtain ⟨reply, hout, hcase⟩ := does_line hdoes hact
      simp only [acceptedPair, hact, hout] at h
      generalize hpost : x.post = post at hcase
      cases hcase with
      | paired hjson hpair hyes =>
          simp only [accepted_paired, if_true, hjson, Option.map_some, Option.some.injEq,
            Prod.mk.injEq] at h
          obtain ⟨rfl, rfl⟩ := h
          exact ⟨socket, line, env, _, rfl, hjson, hpair, rfl, rfl, hyes, rfl⟩
      | _ => simp at h
  | _ => simp [acceptedPair, hact] at h

/-- A pairing request that passes every check is accepted. -/
theorem acceptedPair_of_admits (hdoes : (serverMachine lib).Does x) {socket : Socket}
    {line : QByteArray} {env : Env} {request : QJsonObject}
    (hact : x.act = .line socket line env) (hjson : lib.qt.fromJson line = some request)
    (hpair : IsPair request) (hyes : x.pre.Admits lib (pairRequest request) (env.clock 0)) :
    acceptedPair lib x = some (pairRequest request, env.clock 0) := by
  obtain ⟨reply, hout, hcase⟩ := does_line hdoes hact
  simp only [acceptedPair, hact, hout, hjson, Option.map_some]
  generalize x.post = post at hcase
  cases hcase with
  | paired => rfl
  | invalid hnone => rw [hjson] at hnone; cases hnone
  | pairRefused hsome _ hno =>
      obtain rfl := Option.some.inj (hjson.symm.trans hsome)
      exact absurd hyes hno
  | rejected hsome hother | challenge hsome hother | verify hsome hother
  | unsupported hsome hother =>
      obtain rfl := Option.some.inj (hjson.symm.trans hsome)
      exact absurd hpair hother

/-- An empty-code pairing is accepted. -/
theorem EmptyCodePair.accepted (hdoes : (serverMachine lib).Does x)
    (hempty : EmptyCodePair lib x) :
    ∃ r now, acceptedPair lib x = some (r, now) ∧ r.code = [] := by
  obtain ⟨socket, line, env, request, hact, hjson, hpair, hnil, -, hyes⟩ := hempty
  exact ⟨_, _, acceptedPair_of_admits hdoes hact hjson hpair hyes, hnil⟩

/-- **What a step does to the code**: it issues one, an accepted pairing uses it
up, or the code and its time of issue stay. -/
theorem code_step (hdoes : (serverMachine lib).Does x) :
    (∃ code issuedAt, issuedPairing x = some (code, issuedAt) ∧ acceptedPair lib x = none ∧
        code ≠ [] ∧ x.post.pairingCode = code ∧ x.post.pairingCreatedAt = issuedAt) ∨
      (∃ r now, issuedPairing x = none ∧ acceptedPair lib x = some (r, now) ∧
        x.pre.Admits lib r now ∧ x.post = x.pre.withPairing r (x.pre.sharedWith lib r)) ∨
      (issuedPairing x = none ∧ acceptedPair lib x = none ∧
        x.post.pairingCode = x.pre.pairingCode ∧
        x.post.pairingCreatedAt = x.pre.pairingCreatedAt) := by
  have hcase := does_case hdoes
  generalize hact : x.act = act at hcase
  generalize hpost : x.post = post at hcase ⊢
  cases hcase with
  | running hrunning =>
      exact Or.inr (Or.inr ⟨by simp [issuedPairing, hact, hrunning],
        by simp only [acceptedPair, hact], rfl, rfl⟩)
  | keyless hstopped hkey =>
      exact Or.inr (Or.inr ⟨by simp [issuedPairing, hact, hkey],
        by simp only [acceptedPair, hact], rfl, rfl⟩)
  | failed hstopped hkey | listening hstopped hkey =>
      exact Or.inl ⟨_, _, by simp [issuedPairing, hact, hstopped, hkey],
        by simp only [acceptedPair, hact], newPairingCode_ne_nil _, rfl, rfl⟩
  | stopped =>
      exact Or.inr (Or.inr ⟨by simp only [issuedPairing, hact],
        by simp only [acceptedPair, hact], rfl, rfl⟩)
  | renewed hexpired =>
      exact Or.inl ⟨_, _, by simp [issuedPairing, hact, hexpired],
        by simp only [acceptedPair, hact], newPairingCode_ne_nil _, rfl, rfl⟩
  | shown hvalid =>
      exact Or.inr (Or.inr ⟨by simp [issuedPairing, hact, hvalid],
        by simp only [acceptedPair, hact], rfl, rfl⟩)
  | line hline =>
      right
      have hissued : issuedPairing x = none := by simp only [issuedPairing, hact]
      cases haccepted : acceptedPair lib x with
      | some p =>
          obtain ⟨_, _, _, _, _, _, _, _, _, hyes, hpaired⟩ :=
            acceptedPair_eq_some hdoes haccepted
          exact Or.inl ⟨p.1, p.2, hissued, rfl, hyes, hpost.symm.trans hpaired⟩
      | none =>
          refine Or.inr ⟨hissued, rfl, ?_⟩
          obtain ⟨reply, hout, hcase⟩ := does_line hdoes hact
          simp only [acceptedPair, hact, hout] at haccepted
          rw [hpost] at hcase
          cases hcase with
          | paired hjson _ _ => simp [hjson] at haccepted
          | _ => exact ⟨rfl, rfl⟩

/-! ## The server is a code register -/

/-- The outstanding code of a server. -/
def outstanding (server : Server) : Option (QString × ℤ) :=
  if server.pairingCode = [] then none
  else some (server.pairingCode, server.pairingCreatedAt.secs.toInt)

variable (lib) in
/-- The step of the register a step of the server shows as. -/
def codeEntry (x : ServerEntry) : Option (CodeEntry QString) :=
  match issuedPairing x with
  | some (code, issuedAt) =>
      some ⟨outstanding x.pre, .issue code issuedAt.secs.toInt, (), outstanding x.post⟩
  | none =>
      (acceptedPair lib x).map fun p =>
        ⟨outstanding x.pre, .redeem p.1.code p.2.secs.toInt, (), outstanding x.post⟩

/-- The window check, on the true difference. -/
theorem window_iff (now issuedAt : EpochSecs) :
    ¬ now.since issuedAt > 300 ↔ now.secs.toInt - issuedAt.secs.toInt ≤ 300 := by
  rw [gt_iff_lt, Int64.lt_iff_toInt_lt, EpochSecs.toInt_since]
  simp

/-- An accepted pairing with a code redeems it. -/
theorem codeEntry_does (hdoes : (serverMachine lib).Does x) (hcode : ¬ EmptyCodePair lib x) :
    Shows (codeRegister QString 300) outstanding x (codeEntry lib x) := by
  rcases code_step hdoes with ⟨code, issuedAt, hi, -, hne, hpost, hat⟩ |
    ⟨r, now, hi, ha, ⟨hfields, hlen⟩, hpost⟩ | ⟨hi, ha, hpost, hat⟩
  · simp [codeEntry, hi, Shows, Machine.Does, codeRegister, outstanding, hpost, hat, hne]
  · obtain ⟨socket, line, env, request, hact, hjson, hpair, rfl, rfl, -, -⟩ :=
      acceptedPair_eq_some hdoes ha
    have heq := hfields.2.2.2.1
    have hwindow := hfields.2.2.2.2
    have hne : x.pre.pairingCode ≠ [] := by
      intro hnil
      exact hcode ⟨socket, line, env, request, hact, hjson, hpair, heq.trans hnil, hnil,
        hfields, hlen⟩
    have hpre : outstanding x.pre =
        some (x.pre.pairingCode, x.pre.pairingCreatedAt.secs.toInt) := by
      simp [outstanding, hne]
    have hused : outstanding x.post = none := by
      simp [outstanding, hpost, Server.withPairing]
    simp only [codeEntry, hi, ha, Option.map_some]
    refine ⟨rfl, rfl, ?_⟩
    simp only [Machine.Does, codeRegister, hpre, hused]
    rw [if_pos ⟨heq, (window_iff _ _).mp hwindow⟩]
  · simp [codeEntry, hi, ha, Shows, outstanding, hpost, hat]

variable {pcId : QByteArray} {keyPair : X25519KeyPair} {tr : List ServerEntry} {s : Server}

/-- **Refinement.**  A run without empty-code pairings is a run of the code
register. -/
theorem run_codeRegister (hrun : Run (serverMachine lib) (Server.initial pcId keyPair) tr s)
    (hcodes : ∀ x ∈ tr, ¬ EmptyCodePair lib x) :
    Run (codeRegister QString 300) none (tr.filterMap (codeEntry lib)) (outstanding s) :=
  hrun.map outstanding (codeEntry lib) (Along.of_forall_mem hcodes)
    fun _ _ _ _ hcode hdoes => codeEntry_does hdoes hcode

/-! ### Reading the register's history in the server's -/

variable (lib) in
theorem codeEntry_issued (x : ServerEntry) :
    (codeEntry lib x).bind issuedCode =
      (issuedPairing x).map fun p => (p.1, p.2.secs.toInt) := by
  cases hi : issuedPairing x with
  | some p => simp [codeEntry, hi, issuedCode]
  | none =>
      cases ha : acceptedPair lib x with
      | none => simp [codeEntry, hi, ha]
      | some p => simp [codeEntry, hi, ha, issuedCode]

variable (lib) in
theorem codeEntry_issues (x : ServerEntry) :
    ((codeEntry lib x).any fun y => (issuedCode y).isSome) = (issuedPairing x).isSome := by
  have h := congrArg Option.isSome (codeEntry_issued lib x)
  cases hy : codeEntry lib x with
  | none => simpa [hy] using h
  | some y => simpa [hy] using h

theorem codeEntry_redeemed (hdoes : (serverMachine lib).Does x) :
    (codeEntry lib x).bind redeemedCode = (acceptedPair lib x).map fun p => p.1.code := by
  rcases code_step hdoes with ⟨_, _, hi, ha, -⟩ | ⟨_, _, hi, ha, -⟩ | ⟨hi, ha, -⟩ <;>
    simp [codeEntry, hi, ha, redeemedCode]

variable (lib) in
theorem lastSome_issued (tr : List ServerEntry) :
    lastSome issuedCode (tr.filterMap (codeEntry lib)) =
      (lastSome issuedPairing tr).map fun p => (p.1, p.2.secs.toInt) := by
  rw [lastSome_filterMap, ← lastSome_map]
  exact congrArg (fun f => lastSome f tr) (funext fun x => codeEntry_issued lib x)

variable (lib) in
theorem afterLast_issued (tr : List ServerEntry) :
    afterLast (fun y => (issuedCode y).isSome) (tr.filterMap (codeEntry lib)) =
      (afterLast (fun y => (issuedPairing y).isSome) tr).filterMap (codeEntry lib) := by
  rw [afterLast_filterMap]
  exact congrArg (fun p => (afterLast p tr).filterMap (codeEntry lib))
    (funext fun x => codeEntry_issues lib x)

theorem redeemed_eq_accepted {tr : List ServerEntry}
    (hdoes : ∀ x ∈ tr, (serverMachine lib).Does x) :
    (tr.filterMap (codeEntry lib)).filterMap redeemedCode =
      (tr.filterMap (acceptedPair lib)).map fun p => p.1.code := by
  rw [List.filterMap_filterMap, List.map_filterMap]
  exact List.filterMap_congr fun x hx => codeEntry_redeemed (hdoes x hx)

variable (lib) in
theorem issued_eq_issued (tr : List ServerEntry) :
    (tr.filterMap (codeEntry lib)).filterMap issuedCode =
      (tr.filterMap issuedPairing).map fun p => (p.1, p.2.secs.toInt) := by
  rw [List.filterMap_filterMap, List.map_filterMap]
  exact List.filterMap_congr fun x _ => codeEntry_issued lib x

/-! ## The law -/

theorem latest_of_run {pre post : List ServerEntry} {r : PairRequest} {now : EpochSecs}
    (hrun : Run (serverMachine lib) (Server.initial pcId keyPair) (pre ++ x :: post) s)
    (hcodes : ∀ y ∈ pre ++ x :: post, ¬ EmptyCodePair lib y)
    (haccepted : acceptedPair lib x = some (r, now)) :
    ∃ issuedAt, lastSome issuedPairing pre = some (r.code, issuedAt) ∧ r.code ≠ [] ∧
      now.secs.toInt - issuedAt.secs.toInt ≤ 300 ∧
      ∀ y ∈ afterLast (fun y => (issuedPairing y).isSome) pre, acceptedPair lib y = none := by
  have hdoes := hrun.split.2
  have hissued : issuedPairing x = none := by
    rcases code_step hdoes with ⟨_, _, -, ha, -⟩ | ⟨_, _, hi, -⟩ | ⟨hi, -⟩
    · rw [haccepted] at ha
      cases ha
    · exact hi
    · exact hi
  -- the acceptance is a redemption in the register's run
  have hreg := run_codeRegister hrun hcodes
  rw [List.filterMap_append, List.filterMap_cons] at hreg
  simp only [codeEntry, hissued, haccepted, Option.map_some] at hreg
  obtain ⟨issuedAt, hlast, hage, hsince⟩ := redeem_spec hreg rfl
  change lastSome issuedCode (pre.filterMap (codeEntry lib)) = _ at hlast
  change ∀ y ∈ afterLast _ (pre.filterMap (codeEntry lib)), _ at hsince
  rw [lastSome_issued, Option.map_eq_some_iff] at hlast
  obtain ⟨⟨code, secs⟩, hlast, hpair⟩ := hlast
  simp only [Prod.mk.injEq] at hpair
  obtain ⟨rfl, rfl⟩ := hpair
  refine ⟨secs, hlast, ?_, hage, ?_⟩
  · intro hnil
    obtain ⟨socket, line, env, request, hact, hjson, hpair, rfl, rfl, hyes, -⟩ :=
      acceptedPair_eq_some hdoes haccepted
    exact hcodes x (by simp) ⟨socket, line, env, request, hact, hjson, hpair, hnil,
      hyes.1.2.2.2.1.symm.trans hnil, hyes⟩
  · intro y hy
    have hydoes : (serverMachine lib).Does y := by
      refine hrun.does_of_mem (List.mem_append_left _ ?_)
      exact mem_of_mem_afterLast hy
    rw [afterLast_issued] at hsince
    have hredeemed := codeEntry_redeemed hydoes
    cases hentry : codeEntry lib y with
    | none => simpa [hentry] using hredeemed.symm
    | some z =>
        have hz := hsince z (List.mem_filterMap.mpr ⟨y, hy, hentry⟩)
        simpa [hentry, hz] using hredeemed.symm

/-- **The pairing code is one-time exactly in the runs without empty-code
pairings.** -/
theorem pairing_one_time_iff
    (hrun : Run (serverMachine lib) (Server.initial pcId keyPair) tr s) :
    OneTimePairing lib tr ↔ ∀ x ∈ tr, ¬ EmptyCodePair lib x := by
  constructor
  · intro h x hx hempty
    obtain ⟨pre, post, rfl⟩ := List.append_of_mem hx
    obtain ⟨r, now, haccepted, hnil⟩ := hempty.accepted hrun.split.2
    obtain ⟨_, -, hne, -⟩ := h.latest pre x post r now rfl haccepted
    exact hne hnil
  · intro hcodes
    have hreg := run_codeRegister hrun hcodes
    refine ⟨?_, ?_, ?_⟩
    · rintro pre x post r now rfl haccepted
      exact latest_of_run hrun hcodes haccepted
    · rintro pre mid post rfl hmid
      have hdoes : ∀ y ∈ mid, (serverMachine lib).Does y := fun y hy =>
        hrun.does_of_mem (by simp [hy])
      rw [List.filterMap_append, List.filterMap_append] at hreg
      have hcount := redeems_between_issues hreg (by
        intro y hy
        obtain ⟨z, hz, hzy⟩ := List.mem_filterMap.mp hy
        have := codeEntry_issued lib z
        simpa [hzy, hmid z hz] using this)
      rw [redeemed_eq_accepted hdoes] at hcount
      simpa using hcount
    · intro hnodup
      rw [← redeemed_eq_accepted fun x hx => hrun.does_of_mem hx]
      apply redeemed_nodup hreg
      rw [issued_eq_issued, List.map_map]
      exact hnodup

/-! ## A recorded run

Concrete runs need the libraries.  A `Recording` holds the JSON documents and the
OpenSSL calls of one run of the program; `Recording.libraries` answers from it, and
seals with something arbitrary what was not recorded.
-/

/-- A JSON value as text, for strings that need no escapes. -/
def jsonText : QJsonValue → QByteArray
  | .string s => 34 :: toUtf8 s ++ [34]
  | .bool b => ascii (if b then "true" else "false")
  | .integer n => number n
  | _ => ascii "null"

/-- A flat object as compact JSON, its keys in order. -/
def compactJson (object : QJsonObject) : QByteArray :=
  let sorted := object.insertionSort fun a b => a.1 ≤ b.1
  let members := sorted.map fun f => jsonText (.string f.1) ++ ascii ":" ++ jsonText f.2
  ascii "\x7b" ++ (ascii ",").intercalate members ++ ascii "\x7d"

/-- A document sealed for a device with AES-256-GCM. -/
structure Seal where
  key : QByteArray
  deviceId : QString
  nonce : QByteArray
  document : QJsonObject
  box : GcmCiphertext

def Seal.envelope (s : Seal) : QJsonObject :=
  [field "type" (text "secure"), field "device_id" (.string s.deviceId),
    field "nonce" (hexText s.nonce), field "ciphertext" (hexText s.box.ciphertext),
    field "tag" (hexText s.box.tag)]

structure Recording where
  /-- the pairing requests -/
  pairs : List QJsonObject
  /-- private key, public key, shared secret -/
  secrets : List (QByteArray × QByteArray × QByteArray)
  seals : List Seal
  /-- public key, message, signature -/
  signatures : List (QByteArray × QByteArray × QByteArray)

/-- The bytes, when they are as many as they should be. -/
def Bytes.of? {n : ℕ} (bytes : QByteArray) : Option (Bytes n) :=
  if h : bytes.length = n then some ⟨bytes, h⟩ else none

def Recording.libraries (r : Recording) : Libraries where
  qt :=
    { fromJson := fun line =>
        (r.pairs ++ r.seals.map Seal.envelope ++ r.seals.map Seal.document).find?
          fun d => compactJson d = line
      toJson := compactJson
      doubleToLongLong := fun _ => 0
      stringToLongLong := fun _ => 0 }
  ssl :=
    { derive := fun own peer =>
        (r.secrets.find? fun s => s.1 = own.1 && s.2.1 = peer.1).bind fun s => Bytes.of? s.2.2
      gcmEncrypt := fun key iv aad plaintext =>
        some (((r.seals.find? fun s => s.key = key.1 && s.nonce = iv.1 &&
            toUtf8 s.deviceId = aad && compactJson s.document = plaintext).bind fun s =>
          (Bytes.of? s.box.tag).map fun tag => (s.box.ciphertext, tag)).getD
            (plaintext, ⟨List.replicate 16 0, by simp⟩))
      gcmDecrypt := fun key iv aad ciphertext tag =>
        (r.seals.find? fun s => s.key = key.1 && s.nonce = iv.1 && toUtf8 s.deviceId = aad &&
          s.box = ⟨ciphertext, tag.1⟩).map fun s => compactJson s.document
      verify := fun key message signature => (key.1, message, signature.1) ∈ r.signatures
      pastEnd := fun _ => ⟨List.replicate 12 0, by simp⟩ }

/-- Readings of a clock that stands at `secs`, with draws that are all `draw`. -/
def standing (secs : EpochSecs) (draw : UInt64) : Env where
  clock _ := secs
  clock_mono _ _ _ := le_rfl
  random _ := draw

/-- The workstation's X25519 key pair. -/
def sampleKeyPair : X25519KeyPair where
  privateKey := bigEndian 32 0x77076d0a7318a57d3c16c17251b26645df4c4fa6f5b6ef0c9f5b3b5a1e2d9c3a
  publicKey := bigEndian 32 0xcd9f0cf5f97618f8a18cb693186736ba75d57141a24561a8f0011eda67b6de77

def samplePcId : QByteArray := digitsOf 16 0x5a5a5a5a5a5a5a5a

/-- The X25519 and Ed25519 public keys of the owner's phone. -/
def phoneKey : QByteArray :=
  bigEndian 32 0xde9edb7d7b7dc1b4d35b61c2ece435373f8343c85b78674dadfc7e146f882b4f

def phoneSigningKey : QByteArray :=
  bigEndian 32 0xd75a980182b10ab7d54bfed3c964073a0ee172f3daa62325af021a68f707511a

/-- The secret the phone shares with the workstation. -/
def phoneSecret : QByteArray :=
  bigEndian 32 0x7d661ffd461124113541a241b70a84bd1eab7c3ebf7fed082c30ca29ce493e27

/-- The pairing request of the owner's phone, with the code of the QR payload. -/
def phonePair : QJsonObject :=
  [field "type" (text "pair"), field "device_id" (text "phone"),
    field "public_key" (hexText phoneSigningKey), field "x25519_public_key" (hexText phoneKey),
    field "pairing_code" (text "1122334455667788")]

/-- The keys of another device. -/
def otherKey : QByteArray :=
  bigEndian 32 0x7d34a4815fa6b982535e60af3bd9b49556816080f1641ff81d2b7c8ae8268a44

def otherSigningKey : QByteArray :=
  bigEndian 32 0x3d4017c3e843895a92b70aa74d1b7ebc9c982ccf2ec4968cc0cd55f12af4660c

def otherSecret : QByteArray :=
  bigEndian 32 0xa0018e108881315d2d277d88ba56cb0944d1c506112714f5bb6cf538f6e7c77e

/-- A pairing request of the other device, without a code. -/
def codelessPair : QJsonObject :=
  [field "type" (text "pair"), field "device_id" (text "other"),
    field "public_key" (hexText otherSigningKey), field "x25519_public_key" (hexText otherKey)]

/-- The calls of a run in which the given documents are sealed and signed. -/
def recording (seals : List Seal) (signatures : List (QByteArray × QByteArray × QByteArray)) :
    Recording where
  pairs := [phonePair, codelessPair]
  secrets := [(sampleKeyPair.privateKey, phoneKey, phoneSecret),
    (sampleKeyPair.privateKey, otherKey, otherSecret)]
  seals := seals
  signatures := signatures

/-- The time of day the samples start at. -/
def sampleTime : EpochSecs := ⟨1000, by decide⟩

def startEvent : ServerEvent :=
  .start 43295 (.ok 43295) (.ok ()) (standing sampleTime 0x1122334455667788)

def lineEvent (socket : Socket) (object : QJsonObject) (secs : EpochSecs) (draw : UInt64) :
    ServerEvent :=
  .line socket (compactJson object) (standing secs draw)

/-- The steps of a sample run. -/
def sampleTrace (r : Recording) (events : List ServerEvent) : List ServerEntry :=
  (serverMachine r.libraries).trace (Server.initial samplePcId sampleKeyPair) events

/-- The owner pairs; a stranger pairs after that, presenting no code. -/
theorem pairing_one_time_fails :
    ¬ ∀ (lib : Libraries) (pcId : QByteArray) (keyPair : X25519KeyPair)
        (tr : List ServerEntry) (s : Server),
      Run (serverMachine lib) (Server.initial pcId keyPair) tr s → OneTimePairing lib tr := by
  intro h
  let tr := sampleTrace (recording [] [])
    [startEvent, lineEvent 1 phonePair sampleTime 0, lineEvent 2 codelessPair sampleTime 0]
  have hlaw := h (recording [] []).libraries samplePcId sampleKeyPair tr _ (Run.trace _ _ _)
  have honce := hlaw.once (tr.take 1) (tr.drop 1) []
    (by rw [List.append_nil, List.take_append_drop]) (by decide +kernel)
  exact absurd honce (by decide +kernel)

/-- The owner pairs, with the code issued; nobody else does. -/
theorem pairing_one_time_sample :
    OneTimePairing (recording [] []).libraries
      (sampleTrace (recording [] []) [startEvent, lineEvent 1 phonePair sampleTime 0]) := by
  apply (pairing_one_time_iff (Run.trace _ _ _)).mpr
  intro x hx hempty
  obtain ⟨r, now, haccepted, hnil⟩ := hempty.accepted ((Run.trace _ _ _).does_of_mem hx)
  have hcodes : ∀ y ∈ sampleTrace (recording [] [])
      [startEvent, lineEvent 1 phonePair sampleTime 0],
      ∀ p ∈ acceptedPair (recording [] []).libraries y, p.1.code ≠ [] := by
    decide +kernel
  exact hcodes x hx (r, now) haccepted hnil

end OpenBioUnlock.Desktop

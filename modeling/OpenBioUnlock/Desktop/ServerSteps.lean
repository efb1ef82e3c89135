import OpenBioUnlock.Desktop.Server

/-!
# What a line can do

`LineCase` lists the ways `processLine` can go, with everything each of them
tested; `processLine_case` says that there are no others, and every fact about a
line is read off it.  The observations come first: what a reply says, read from
the JSON it carries, and what a line asked for.
-/

namespace OpenBioUnlock.Desktop

open Codec Runs

/-! ## Observations -/

/-- A JSON value is the literal `true`. -/
def QJsonValue.isTrue : QJsonValue → Bool
  | .bool b => b
  | _ => false

/-- The reply says `paired`, `accepted: true`. -/
def Reply.accepted (reply : Reply) : Bool :=
  typeOf reply.response = qStringLiteral "paired" && (value reply.response "accepted").isTrue

/-- The device an `authorized` reply is sealed for, with the answer it carries. -/
def Reply.told (reply : Reply) : Option (QString × Bool) :=
  reply.payload.bind fun p =>
    if typeOf p.2 = qStringLiteral "authorized" then
      some (p.1, (value p.2 "authorized").isTrue)
    else none

/-- The nonce and timestamp a challenge reply carries, with the device it is sealed
for. -/
def Reply.challenge (reply : Reply) : Option (QString × QByteArray × Int64) :=
  reply.payload.bind fun p =>
    if typeOf reply.response = qStringLiteral "secure" ∧
        typeOf p.2 = qStringLiteral "challenge" then
      match value p.2 "timestamp" with
      | .integer timestamp => some (p.1, fromHexText (value p.2 "nonce"), timestamp)
      | _ => none
    else none

/-- The reply says `authorized: true`, in the open or in what is sealed. -/
def Reply.Authorizes (reply : Reply) : Prop :=
  (value reply.response "authorized").isTrue = true ∨
    ∃ p, reply.payload = some p ∧ (value p.2 "authorized").isTrue = true

@[simp] theorem accepted_error (message : QString) (signals : List Signal) :
    (⟨errorResponse message, none, signals⟩ : Reply).accepted = false := rfl

@[simp] theorem accepted_paired (server : Server) (signals : List Signal) :
    (⟨pairedResponse server, none, signals⟩ : Reply).accepted = true := rfl

variable (lib : Libraries)

/-- What goes out of `encryptedResponse` is an envelope or an error. -/
theorem typeOf_encryptedResponse (server : Server) (deviceId : QString) (payload : QJsonObject)
    (random : ℕ → UInt64) :
    typeOf (server.encryptedResponse lib deviceId payload random) = qStringLiteral "secure" ∨
      typeOf (server.encryptedResponse lib deviceId payload random) = qStringLiteral "error" := by
  simp only [Server.encryptedResponse]
  split
  · exact Or.inr rfl
  · exact Or.inl rfl

/-- No envelope and no error says `authorized` itself. -/
theorem value_encryptedResponse (server : Server) (deviceId : QString) (payload : QJsonObject)
    (random : ℕ → UInt64) :
    value (server.encryptedResponse lib deviceId payload random) "authorized" = .undefined := by
  simp only [Server.encryptedResponse]
  split
  · rfl
  · rfl

/-- A sealed reply authorizes if what is sealed does. -/
@[simp] theorem authorizes_sealedReply (server : Server) (deviceId : QString)
    (payload : QJsonObject) (random : ℕ → UInt64) (signals : List Signal) :
    (server.sealedReply lib deviceId payload random signals).Authorizes ↔
      (value payload "authorized").isTrue = true := by
  simp [Reply.Authorizes, Server.sealedReply, value_encryptedResponse, QJsonValue.isTrue]

@[simp] theorem accepted_sealedReply (server : Server) (deviceId : QString)
    (payload : QJsonObject) (random : ℕ → UInt64) (signals : List Signal) :
    (server.sealedReply lib deviceId payload random signals).accepted = false := by
  have hpaired : qStringLiteral "secure" ≠ qStringLiteral "paired" ∧
      qStringLiteral "error" ≠ qStringLiteral "paired" := by decide
  rcases typeOf_encryptedResponse lib server deviceId payload random with h | h <;>
    simp [Reply.accepted, Server.sealedReply, h, hpaired]

@[simp] theorem payload_sealedReply (server : Server) (deviceId : QString)
    (payload : QJsonObject) (random : ℕ → UInt64) (signals : List Signal) :
    (server.sealedReply lib deviceId payload random signals).payload =
      some (deviceId, payload) := rfl

@[simp] theorem told_verdict (server : Server) (deviceId : QString) (authorized : Bool)
    (random : ℕ → UInt64) (signals : List Signal) :
    (server.sealedReply lib deviceId (authorizedPayload authorized) random signals).told =
      some (deviceId, authorized) := by
  cases authorized <;> rfl

@[simp] theorem challenge_verdict (server : Server) (deviceId : QString) (authorized : Bool)
    (random : ℕ → UInt64) (signals : List Signal) :
    (server.sealedReply lib deviceId (authorizedPayload authorized) random signals).challenge =
      none := by
  have htype : typeOf (authorizedPayload authorized) ≠ qStringLiteral "challenge" := by
    cases authorized <;> decide
  simp [Reply.challenge, htype]

@[simp] theorem challenge_error (server : Server) (deviceId : QString) (random : ℕ → UInt64)
    (signals : List Signal) (message : QString) :
    (server.sealedReply lib deviceId (errorResponse message) random signals).challenge =
      none := by
  have htype : typeOf (errorResponse message) = qStringLiteral "error" := rfl
  have hne : qStringLiteral "error" ≠ qStringLiteral "challenge" := by decide
  simp [Reply.challenge, htype, hne]

/-! ## The cases of a line -/

/-- The secret `processPair` derives with the presented key. -/
def Server.sharedWith (server : Server) (r : PairRequest) : QByteArray :=
  (x25519SharedSecret lib.ssl server.x25519KeyPair.privateKey r.deviceKey).1

/-- Everything a pairing request must pass. -/
def Server.Admits (server : Server) (r : PairRequest) (now : EpochSecs) : Prop :=
  server.pairFieldsOk r now ∧ (server.sharedWith lib r).length = 32

/-- The object is a pairing request. -/
def IsPair (request : QJsonObject) : Prop := typeOf request = qStringLiteral "pair"

/-- The ways a line is processed: the state left and the reply given. -/
inductive LineCase (server : Server) (line : QByteArray) (env : Env) : Server → Reply → Prop
  | invalid (hjson : lib.qt.fromJson line = none) :
      LineCase server line env server
        ⟨errorResponse (qStringLiteral "invalid JSON request"), none, []⟩
  | pairRefused {request : QJsonObject} {error : QString}
      (hjson : lib.qt.fromJson line = some request) (hpair : IsPair request)
      (hno : ¬ server.Admits lib (pairRequest request) (env.clock 0)) :
      LineCase server line env server ⟨errorResponse error, none, []⟩
  | paired {request : QJsonObject} {signals : List Signal}
      (hjson : lib.qt.fromJson line = some request) (hpair : IsPair request)
      (hyes : server.Admits lib (pairRequest request) (env.clock 0)) :
      LineCase server line env
        (server.withPairing (pairRequest request) (server.sharedWith lib (pairRequest request)))
        ⟨pairedResponse server, none, signals⟩
  | rejected {request : QJsonObject} {error : QString}
      (hjson : lib.qt.fromJson line = some request) (hpair : ¬ IsPair request)
      (hopen : server.decryptRequest lib request = .error error) :
      LineCase server line env server ⟨errorResponse error, none, []⟩
  | challenge {request decrypted : QJsonObject} {id : QString}
      (hjson : lib.qt.fromJson line = some request) (hpair : ¬ IsPair request)
      (hopen : server.decryptRequest lib request = .ok (id, decrypted))
      (htype : typeOf decrypted = qStringLiteral "challenge") :
      LineCase server line env server
        (server.sealedReply lib id (challengePayload (fillRandom env.random 32) (env.clock 0))
          (fun i => env.random (i + 4)) [])
  | verify {request decrypted : QJsonObject} {id : QString} {signals : List Signal}
      (hjson : lib.qt.fromJson line = some request) (hpair : ¬ IsPair request)
      (hopen : server.decryptRequest lib request = .ok (id, decrypted))
      (htype : typeOf decrypted = qStringLiteral "verify") :
      LineCase server line env
        { server with replayGuard := (server.verdict lib id (verifyRequest lib decrypted) env).1 }
        (server.sealedReply lib id
          (authorizedPayload (server.verdict lib id (verifyRequest lib decrypted) env).2.1)
          env.random signals)
  | unsupported {request decrypted : QJsonObject} {id : QString}
      (hjson : lib.qt.fromJson line = some request) (hpair : ¬ IsPair request)
      (hopen : server.decryptRequest lib request = .ok (id, decrypted))
      (hother : typeOf decrypted ≠ qStringLiteral "challenge" ∧
        typeOf decrypted ≠ qStringLiteral "verify") :
      LineCase server line env server
        (server.sealedReply lib id
          (errorResponse (qStringLiteral "unsupported request type")) env.random [])

/-- **Every line is one of the cases.** -/
theorem processLine_case (server : Server) (line : QByteArray) (env : Env) :
    LineCase lib server line env (server.processLine lib line env).1
      (server.processLine lib line env).2 := by
  unfold Server.processLine
  cases hjson : lib.qt.fromJson line with
  | none => exact .invalid hjson
  | some request =>
      by_cases hpair : typeOf request = qStringLiteral "pair"
      · simp only [hpair, if_true, Server.processPair]
        by_cases hfields : server.pairFieldsOk (pairRequest request) (env.clock 0)
        · simp only [hfields, if_true]
          split
          · rename_i hlen
            exact .pairRefused hjson hpair fun h => hlen h.2
          · rename_i hlen
            exact .paired hjson hpair ⟨hfields, not_not.mp hlen⟩
        · simp only [hfields, if_false]
          exact .pairRefused hjson hpair fun h => hfields h.1
      · simp only [hpair, if_false]
        cases hopen : server.decryptRequest lib request with
        | error error => exact .rejected hjson hpair hopen
        | ok opened =>
            obtain ⟨id, decrypted⟩ := opened
            by_cases hchallenge : typeOf decrypted = qStringLiteral "challenge"
            · simp only [hchallenge, if_true]
              exact .challenge hjson hpair hopen hchallenge
            · by_cases hverify : typeOf decrypted = qStringLiteral "verify"
              · simp only [hverify, if_true]
                exact .verify hjson hpair hopen hverify
              · simp only [hchallenge, hverify, if_false]
                exact .unsupported hjson hpair hopen ⟨hchallenge, hverify⟩

/-- A line whose envelope opens goes one of three ways, by the type of the request. -/
theorem LineCase.of_opened {server post : Server} {line : QByteArray} {env : Env} {reply : Reply}
    (h : LineCase lib server line env post reply) {request decrypted : QJsonObject} {id : QString}
    (hjson : lib.qt.fromJson line = some request) (hpair : ¬ IsPair request)
    (hopen : server.decryptRequest lib request = .ok (id, decrypted)) :
    (typeOf decrypted = qStringLiteral "challenge" ∧ post = server ∧
        reply = server.sealedReply lib id
          (challengePayload (fillRandom env.random 32) (env.clock 0))
          (fun i => env.random (i + 4)) []) ∨
      (typeOf decrypted = qStringLiteral "verify" ∧
        post = { server with
          replayGuard := (server.verdict lib id (verifyRequest lib decrypted) env).1 } ∧
        ∃ signals, reply = server.sealedReply lib id
          (authorizedPayload (server.verdict lib id (verifyRequest lib decrypted) env).2.1)
          env.random signals) ∨
      (typeOf decrypted ≠ qStringLiteral "challenge" ∧
        typeOf decrypted ≠ qStringLiteral "verify" ∧ post = server ∧
        reply = server.sealedReply lib id
          (errorResponse (qStringLiteral "unsupported request type")) env.random []) := by
  cases h with
  | invalid hnone => rw [hjson] at hnone; cases hnone
  | pairRefused hsome hyes | paired hsome hyes =>
      obtain rfl := Option.some.inj (hjson.symm.trans hsome)
      exact absurd hyes hpair
  | rejected hsome _ hno =>
      obtain rfl := Option.some.inj (hjson.symm.trans hsome)
      rw [hopen] at hno
      cases hno
  | challenge hsome _ hopen' htype =>
      obtain rfl := Option.some.inj (hjson.symm.trans hsome)
      cases hopen.symm.trans hopen'
      exact Or.inl ⟨htype, rfl, rfl⟩
  | verify hsome _ hopen' htype =>
      obtain rfl := Option.some.inj (hjson.symm.trans hsome)
      cases hopen.symm.trans hopen'
      exact Or.inr (Or.inl ⟨htype, rfl, _, rfl⟩)
  | unsupported hsome _ hopen' hother =>
      obtain rfl := Option.some.inj (hjson.symm.trans hsome)
      cases hopen.symm.trans hopen'
      exact Or.inr (Or.inr ⟨hother.1, hother.2, rfl, rfl⟩)

/-- What an opened envelope was: JSON under a session key of the device it
names, opened with that device as associated data. -/
theorem decryptRequest_ok {server : Server} {request payload : QJsonObject} {id : QString}
    (h : server.decryptRequest lib request = .ok (id, payload)) :
    ∃ key plaintext,
      server.sessionKeys id = some key ∧
      (decryptAes256Gcm lib.ssl key (fromHexText (value request "nonce"))
        (envelopeCiphertext request) (toUtf8 id)).1 = plaintext ∧
      plaintext ≠ [] ∧ lib.qt.fromJson plaintext = some payload ∧
      typeOf request = qStringLiteral "secure" ∧
      id = (value request "device_id").toString := by
  unfold Server.decryptRequest at h
  split at h
  · cases h
  · rename_i htype
    simp only [ne_eq, not_not] at htype
    cases hkey : server.sessionKeys (value request "device_id").toString with
    | none => simp [hkey] at h
    | some key =>
        simp only [hkey] at h
        split at h
        · cases h
        · rename_i hne
          split at h
          · cases h
          · rename_i object hjson
            simp only [Except.ok.injEq, Prod.mk.injEq] at h
            obtain ⟨rfl, rfl⟩ := h
            exact ⟨key, _, hkey, rfl, hne, hjson, htype, rfl⟩

/-! ## Steps of the machine -/

variable {lib} {x : ServerEntry}

theorem does_iff : (serverMachine lib).Does x ↔
    x.post = (x.pre.react lib x.act).1 ∧ x.out = (x.pre.react lib x.act).2 := by
  simp only [Machine.Does, serverMachine, Option.some.injEq, Prod.ext_iff, eq_comm]

/-- A line is answered, in one of the ways `LineCase` lists. -/
theorem does_line (hdoes : (serverMachine lib).Does x) {socket : Socket} {line : QByteArray}
    {env : Env} (hact : x.act = .line socket line env) :
    ∃ reply, x.out = .reply socket (lib.qt.toJson reply.response ++ [10]) reply ∧
      LineCase lib x.pre line env x.post reply := by
  obtain ⟨hpost, hout⟩ := does_iff.mp hdoes
  rw [hact] at hpost hout
  refine ⟨(x.pre.processLine lib line env).2, hout, ?_⟩
  rw [hpost]
  exact processLine_case lib x.pre line env

variable (lib) in
/-- The ways a step goes, with the state it leaves. -/
inductive StepCase (server : Server) : ServerEvent → Server → Prop
  | running {port listen bind env} (hrunning : server.isRunning = true) :
      StepCase server (.start port listen bind env) server
  | keyless {port listen bind env} (hstopped : server.isRunning = false)
      (hkey : server.x25519KeyPair.publicKey.length ≠ 32) :
      StepCase server (.start port listen bind env) { server with port := port }
  | failed {port listen bind env} (hstopped : server.isRunning = false)
      (hkey : server.x25519KeyPair.publicKey.length = 32)
      (hfailed : ∀ bound, listen = .ok bound → bind ≠ .ok ()) :
      StepCase server (.start port listen bind env)
        { server with
          port := port
          pairingCode := newPairingCode (env.random 0)
          pairingCreatedAt := env.clock 0 }
  | listening {port bound env} (hstopped : server.isRunning = false)
      (hkey : server.x25519KeyPair.publicKey.length = 32) :
      StepCase server (.start port (.ok bound) (.ok ()) env)
        { server with
          port := port
          pairingCode := newPairingCode (env.random 0)
          pairingCreatedAt := env.clock 0
          tcpServer := some bound }
  | stopped : StepCase server .stop { server with tcpServer := none, buffers := fun _ => none }
  | renewed {host addresses env} (hexpired : server.codeExpired (env.clock 0) = true) :
      StepCase server (.pairingPayload host addresses env)
        { server with
          pairingCode := newPairingCode (env.random 0)
          pairingCreatedAt := env.clock 1 }
  | shown {host addresses env} (hvalid : server.codeExpired (env.clock 0) = false) :
      StepCase server (.pairingPayload host addresses env) server
  | line {socket line env post reply} (hline : LineCase lib server line env post reply) :
      StepCase server (.line socket line env) post

variable (lib) in
/-- **Every step is one of the cases.** -/
theorem react_case (server : Server) (event : ServerEvent) :
    StepCase lib server event (server.react lib event).1 := by
  cases event with
  | start port listen bind env =>
      simp only [Server.react, Server.start]
      cases hrunning : server.isRunning with
      | true => exact .running hrunning
      | false =>
          by_cases hkey : server.x25519KeyPair.publicKey.length = 32
          · simp only [hkey, ne_eq, not_true_eq_false, Bool.false_eq_true, if_false]
            cases listen with
            | error message => exact .failed hrunning hkey (by simp)
            | ok bound =>
                cases bind with
                | error message => exact .failed hrunning hkey (by simp)
                | ok u => exact .listening hrunning hkey
          · simp only [hkey, ne_eq, not_false_eq_true, Bool.false_eq_true, if_false, if_true]
            exact .keyless hrunning hkey
  | stop => exact .stopped
  | pairingPayload host addresses env =>
      simp only [Server.react, Server.pairingPayload, Server.refreshCode]
      cases hexpired : server.codeExpired (env.clock 0) with
      | true => exact .renewed hexpired
      | false => exact .shown hexpired
  | line socket line env => exact .line (processLine_case lib server line env)

theorem does_case (hdoes : (serverMachine lib).Does x) : StepCase lib x.pre x.act x.post := by
  rw [(does_iff.mp hdoes).1]
  exact react_case lib x.pre x.act

/-! ## Requests of the paired devices -/

variable (lib)

/-- The request a line carries under a session key, with the device it is from. -/
def opened (x : ServerEntry) : Option (QString × QJsonObject) :=
  match x.act with
  | .line _ line _ =>
      (lib.qt.fromJson line).bind fun request =>
        if typeOf request = qStringLiteral "pair" then none
        else (x.pre.decryptRequest lib request).toOption
  | _ => none

/-- The verify request a line carries, with the device and what the call reads. -/
def askedVerify (x : ServerEntry) : Option (QString × VerifyRequest × Env) :=
  match x.act with
  | .line _ _ env =>
      (opened lib x).bind fun p =>
        if typeOf p.2 = qStringLiteral "verify" then some (p.1, verifyRequest lib p.2, env)
        else none
  | _ => none

/-- The step's reply. -/
def replied (x : ServerEntry) : Option Reply :=
  match x.out with
  | .reply _ _ reply => some reply
  | _ => none

/-- The verify request a step answers with `authorized: answer`. -/
def answeredVerify (answer : Bool) (x : ServerEntry) : Option (QString × VerifyRequest) :=
  if ((replied x).bind Reply.told).map Prod.snd = some answer then
    (askedVerify lib x).map fun p => (p.1, p.2.1)
  else none

abbrev authorizedVerify := answeredVerify lib true

abbrev rejectedVerify := answeredVerify lib false

variable {lib}

/-- An opened envelope: the line it came in and what `decryptRequest` did. -/
theorem opened_eq_some {id : QString} {decrypted : QJsonObject} :
    opened lib x = some (id, decrypted) ↔ ∃ socket line env request,
      x.act = .line socket line env ∧ lib.qt.fromJson line = some request ∧
      ¬ IsPair request ∧ x.pre.decryptRequest lib request = .ok (id, decrypted) := by
  unfold opened
  cases hact : x.act with
  | line socket line env =>
      constructor
      · intro h
        obtain ⟨request, hjson, h⟩ := Option.bind_eq_some_iff.mp h
        split at h
        · cases h
        · rename_i hpair
          cases hopen : x.pre.decryptRequest lib request with
          | error e => simp [hopen, Except.toOption] at h
          | ok p =>
              simp only [hopen, Except.toOption, Option.some.injEq] at h
              exact ⟨socket, line, env, request, rfl, hjson, hpair, by rw [← h]; exact hopen⟩
      · rintro ⟨_, _, _, request, hline, hjson, hpair, hopen⟩
        injection hline with _ hline _
        subst hline
        simp only [hjson, Option.bind_some, hopen, Except.toOption]
        exact if_neg hpair
  | _ => simp

/-- A verify request: the step leaves what `verdict` says and tells its verdict. -/
theorem askedVerify_eq_some (hdoes : (serverMachine lib).Does x) {id : QString}
    {v : VerifyRequest} {env : Env} (h : askedVerify lib x = some (id, v, env)) :
    ∃ decrypted signals, opened lib x = some (id, decrypted) ∧
      typeOf decrypted = qStringLiteral "verify" ∧ v = verifyRequest lib decrypted ∧
      x.post = { x.pre with replayGuard := (x.pre.verdict lib id v env).1 } ∧
      replied x = some (x.pre.sealedReply lib id
        (authorizedPayload (x.pre.verdict lib id v env).2.1) env.random signals) := by
  unfold askedVerify at h
  cases hact : x.act with
  | line socket line env' =>
      simp only [hact] at h
      obtain ⟨⟨id', decrypted⟩, hopened, h⟩ := Option.bind_eq_some_iff.mp h
      split at h
      · rename_i htype
        simp only [Option.some.injEq, Prod.mk.injEq] at h
        obtain ⟨rfl, rfl, rfl⟩ := h
        obtain ⟨_, _, _, request, hline, hjson, hpair, hopen⟩ := opened_eq_some.mp hopened
        rw [hact] at hline
        injection hline with _ hline _
        subst hline
        obtain ⟨reply, hout, hcase⟩ := does_line hdoes hact
        simp only [replied, hout]
        rcases hcase.of_opened lib hjson hpair hopen with ⟨htype', -⟩ | ⟨-, hpost, signals, rfl⟩ |
          ⟨-, hno, -⟩
        · exact absurd (htype.symm.trans htype') (by decide)
        · exact ⟨decrypted, signals, hopened, htype, rfl, hpost, rfl⟩
        · exact absurd htype hno
      · cases h
  | _ => simp [hact] at h

/-- The answer to a verify request is the verdict on it. -/
theorem answeredVerify_iff (hdoes : (serverMachine lib).Does x) {answer : Bool} {id : QString}
    {v : VerifyRequest} :
    answeredVerify lib answer x = some (id, v) ↔
      ∃ env, askedVerify lib x = some (id, v, env) ∧
        (x.pre.verdict lib id v env).2.1 = answer := by
  unfold answeredVerify
  cases hasked : askedVerify lib x with
  | none => simp
  | some p =>
      obtain ⟨id', v', env⟩ := p
      obtain ⟨_, signals, -, -, -, -, hreply⟩ := askedVerify_eq_some hdoes hasked
      rw [hreply, Option.bind_some, told_verdict]
      constructor
      · intro h
        split at h
        · rename_i hanswer
          simp only [Option.map_some, Option.some.injEq, Prod.mk.injEq] at h hanswer
          obtain ⟨rfl, rfl⟩ := h
          exact ⟨env, rfl, hanswer⟩
        · cases h
      · rintro ⟨_, heq, hanswer⟩
        cases heq
        simp [hanswer]

/-- **Only a verify request is told `authorized: true`**, sealed for its device. -/
theorem authorized_of_authorizes (hdoes : (serverMachine lib).Does x) {reply : Reply}
    (hreply : replied x = some reply) (h : reply.Authorizes) :
    ∃ id v, authorizedVerify lib x = some (id, v) ∧
      reply.payload = some (id, authorizedPayload true) := by
  cases hact : x.act with
  | line socket line env =>
      obtain ⟨reply', hout, hcase⟩ := does_line hdoes hact
      simp only [replied, hout, Option.some.injEq] at hreply
      subst hreply
      generalize x.post = post at hcase
      cases hcase with
      | verify hjson hpair hopen htype =>
          have hopened := opened_eq_some.mpr ⟨_, _, _, _, hact, hjson, hpair, hopen⟩
          rw [authorizes_sealedReply] at h
          have hverdict : (x.pre.verdict lib _ (verifyRequest lib _) env).2.1 = true := h
          refine ⟨_, _, (answeredVerify_iff hdoes).mpr ⟨env, ?_, hverdict⟩, ?_⟩
          · simp [askedVerify, hact, hopened, htype]
          · rw [payload_sealedReply, hverdict]
      | challenge =>
          rw [authorizes_sealedReply] at h
          cases h
      | unsupported =>
          rw [authorizes_sealedReply] at h
          cases h
      | _ =>
          -- a plain reply has no such member, and nothing sealed
          obtain h | ⟨_, hnone, -⟩ := h
          · cases h
          · cases hnone
  | _ =>
      simp only [replied, (does_iff.mp hdoes).2, hact, Server.react] at hreply
      cases hreply

/-- What a positive verdict rests on. -/
theorem verdict_eq_true {server : Server} {id : QString} {v : VerifyRequest} {env : Env} :
    (server.verdict lib id v env).2.1 = true ↔
      ∃ key, server.pairedKeys id = some key ∧
        (server.replayGuard.accept v.nonce v.timestamp (env.clock 0) (env.clock 1)).2 = true ∧
        (verifyEd25519 lib.ssl key v.message v.signature).1 = true := by
  unfold Server.verdict
  cases server.pairedKeys id with
  | none => simp
  | some key =>
      cases haccept : server.replayGuard.accept v.nonce v.timestamp (env.clock 0) (env.clock 1) with
      | mk guarded accepted => cases accepted <;> simp

/-- The guard a verdict leaves. -/
theorem verdict_guard {server : Server} {id : QString} {v : VerifyRequest} {env : Env}
    {key : QByteArray} (hkey : server.pairedKeys id = some key) :
    (server.verdict lib id v env).1 =
      (server.replayGuard.accept v.nonce v.timestamp (env.clock 0) (env.clock 1)).1 := by
  unfold Server.verdict
  simp only [hkey]
  cases server.replayGuard.accept v.nonce v.timestamp (env.clock 0) (env.clock 1) with
  | mk guarded accepted => cases accepted <;> rfl

end OpenBioUnlock.Desktop
